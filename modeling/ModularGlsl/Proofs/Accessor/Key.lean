import Mathlib.Data.List.Nodup
import ModularGlsl.Proofs.Liveness.Waiting
import ModularGlsl.Proofs.Naming.Candidate
import ModularGlsl.Proofs.Typing.Compatibility

/-!
# What tells accessors apart

An accessor is asked for under a name and with the struct that it depends on, if there is
one.  The name spells the kind of the accessor, the type of the elements and the extent
of the container.  Names of structs are chosen by the program, so the name alone does not
tell accessors apart.  Together with the struct it does: among the types that expressions
have, it determines the kind and the container.
-/

namespace ModularGlsl

/-! ## Types of expressions -/

/-- The type of an expression without its attribution. -/
inductive Ty.IsRead
    (stored : Layout Ty -> Prop) : Ty -> Prop
  | simple
      {ty : Ty}
      (isSimple : ty.isSimple = true) :
      IsRead stored ty
  | input
      {ty : Ty}
      (isInput : ty.IsInput stored) :
      IsRead stored ty
  | function
      {callable : FunctionType Ty}
      (yields : ∀ signature ∈ callable.overloads, ∀ result ∈ signature.result,
        result.IsPlain stored) :
      IsRead stored (.function callable)
  | descriptor
      {proto : Ty}
      (isInput : proto.IsInput stored) :
      IsRead stored (.descriptor proto)

variable {ty container first second : Ty} {element : Ty} {stored : Layout Ty -> Prop} {length : Nat}
variable {span : Span}

namespace Ty

/-- Attribution does not show in whether a type is simple. -/
theorem isSimple_bare (ty : Ty) : ty.bare.isSimple = ty.isSimple := by
  unfold isSimple shape?
  rw [bare_bare]

/-- A simple type may be that of an expression. -/
theorem isRead_of_isSimple (isSimple : ty.isSimple = true) :
    ty.bare.IsRead stored :=
  .simple ((isSimple_bare ty).trans isSimple)

/-- A type that may be passed in may be that of an expression. -/
theorem isRead_of_isInput (isInput : ty.IsInput stored) :
    ty.bare.IsRead stored := by
  rw [isInput.bare_eq]
  exact .input isInput

/-- The type of a variable may be that of an expression. -/
theorem Suits.isRead
    {arena : Arena}
    {id : VarId}
    (suits : ty.Suits arena id) :
    ty.bare.IsRead arena.Stores := by
  rw [suits.bare_eq]
  cases suits with
  | plain isPlain => exact .input (.plain (isPlain.mono fun _ => And.left))
  | input _ fits => exact .input (fits.mono fun _ => And.left)
  | known => exact .simple rfl
  | builtinType _ fits _ => exact .descriptor (fits.mono fun _ => False.elim)
  | struct _ _ _ isPlain => exact .descriptor (.plain (isPlain.mono fun _ => And.left))
  | builtinFunction _ _ result =>
      exact .function fun signature isOwn ty mem =>
        (result signature isOwn ty mem).mono fun _ => False.elim
  | function _ _ overloads_eq _ result =>
      refine .function fun signature isOwn ty mem => ?_
      rw [overloads_eq, List.mem_singleton] at isOwn
      subst isOwn
      exact (result ty mem).mono fun _ => And.left

/-- A struct that is read may be stored. -/
theorem IsRead.struct
    {layout : Layout Ty}
    (isRead : (Ty.struct layout).IsRead stored) :
    (Ty.struct layout).IsPlain stored := by
  cases isRead with
  | simple isSimple => cases isSimple
  | input isInput => cases isInput with | plain isPlain => exact isPlain

/-- The elements of an array that is read may be passed in and may be elements. -/
theorem IsRead.array (isRead : (Ty.array element length).IsRead stored) :
    element.IsInput stored ∧ element.isElement = true := by
  cases isRead with
  | simple isSimple => cases isSimple
  | input isInput =>
      cases isInput with
      | plain isPlain =>
          cases isPlain with
          | array isElement inElement _ => exact ⟨.plain inElement, isElement⟩
      | samplers kind _ => exact ⟨.sampler kind, rfl⟩

variable {result operand : Ty}

theorem IsRead.member
    {object : Ty}
    (isRead : object.bare.IsRead stored)
    {key : String}
    (typed : object.member key span = .ok result) :
    result.bare.IsRead stored := by
  unfold Ty.member at typed
  split at typed
  next =>
    split at typed
    · cases typed
      split <;> exact .simple rfl
    · cases typed
  next layout isStruct =>
    rw [isStruct] at isRead
    split at typed
    next field isField =>
      cases typed
      cases isRead.struct with
      | struct _ inFields =>
          exact isRead_of_isInput (.plain (inFields field (List.mem_of_find?_eq_some isField)))
    next => cases typed
  next => cases typed

theorem IsRead.index
    (isRead : container.bare.IsRead stored)
    {position : Int}
    (typed : container.index position span = .ok result) :
    result.bare.IsRead stored := by
  unfold Ty.index Ty.elements? at typed
  split at typed
  next isIndexed =>
    split at typed
    · cases typed
      split at isIndexed
      next isArray =>
        cases isIndexed
        rw [isArray] at isRead
        exact isRead_of_isInput isRead.array.1
      next =>
        cases isIndexed
        exact .simple rfl
      next => cases isIndexed
    · cases typed
  next => cases typed

theorem IsRead.call
    {callee : Ty}
    (isRead : callee.bare.IsRead stored)
    {args : List Ty}
    (typed : callee.call args span = .ok (some result)) :
    result.bare.IsRead stored := by
  unfold Ty.call at typed
  split at typed
  next callable isFunction =>
    rw [isFunction] at isRead
    obtain ⟨signature, mem, result_eq⟩ := mem_of_applyFunction typed
    cases isRead with
    | simple isSimple => cases isSimple
    | input isInput => cases isInput with | plain isPlain => cases isPlain
    | function yields =>
        exact isRead_of_isInput (.plain (yields signature mem result result_eq.symm))
  next proto isDescriptor =>
    rw [isDescriptor] at isRead
    obtain ⟨built, constructed, typed⟩ := except_bind_eq_ok.mp typed
    cases typed
    rw [eq_of_construct constructed]
    cases isRead with
    | simple isSimple => cases isSimple
    | input isInput => cases isInput with | plain isPlain => cases isPlain
    | descriptor isInput => exact isRead_of_isInput isInput
  next => cases typed

/-- The type of a binary operation is simple. -/
theorem isSimple_of_binary
    {op : BinaryOp}
    {left right : Ty}
    (typed : Ty.binary op left right span = .ok result) :
    result.isSimple = true := by
  cases yields_of_binary typed <;> rfl

/-- The type of a signed number is simple. -/
theorem isSimple_signed
    {op : UnaryOp}
    (isSimple : operand.isSimple = true) :
    (operand.signed op).isSimple = true := by
  unfold Ty.signed
  split
  · split <;> rfl
  · exact (isSimple_bare operand).trans isSimple

/-- The type of a unary operation is simple. -/
theorem isSimple_of_unary
    {op : UnaryOp}
    (typed : Ty.unary op operand span = .ok result) :
    result.isSimple = true := by
  cases op with
  | not =>
      unfold Ty.unary at typed
      dsimp only at typed
      split at typed
      · cases typed
        rfl
      · cases typed
  | neg | pos =>
      unfold Ty.unary at typed
      dsimp only at typed
      split at typed
      next shape =>
        split at typed
        · cases typed
        · cases typed
          exact isSimple_signed (by rw [isSimple, shape]; rfl)
      next => cases typed

end Ty

/-- The type of an expression over a formed arena may be read. -/
theorem Expr.isRead_of_typeOf
    {arena : Arena}
    (formed : arena.IsFormed)
    (expr : Expr)
    (typed : expr.typeOf arena = .ok ty) :
    ty.bare.IsRead arena.Stores := by
  replace typed := expr.typed_of_typeOf typed
  induction typed with
  | int | float | bool => exact .simple rfl
  | var found =>
      obtain ⟨id, known, _, isKnown, rfl⟩ := Ident.typeOf_eq_ok found
      rw [Ty.bare_locate]
      exact (formed.suits id known isKnown).isRead
  | path found => exact (formed.suits _ _ found).isRead
  | member _ found object => exact object.member found
  | index _ _ _ found container _ | getIndex _ _ _ found container _ =>
      exact container.index found
  | call _ _ found callee _ => exact callee.call found
  | binary _ _ found => exact Ty.isRead_of_isSimple (Ty.isSimple_of_binary found)
  | unary _ found => exact Ty.isRead_of_isSimple (Ty.isSimple_of_unary found)
  | paren _ inner => exact inner

/-! ## Containers -/

/-- Types that can be indexed, given the structs that are known. -/
inductive Ty.IsContainer
    (stored : Layout Ty -> Prop) : Ty -> Prop
  | structs
      {layout : Layout Ty}
      (isStored : stored layout)
      (length : Nat) :
      IsContainer stored (.array (.struct layout) length)
  | values
      {element : Ty}
      (isProto : element.isProto = true)
      (length : Nat) :
      IsContainer stored (.array element length)
  | vector
      (kind : ScalarKind)
      (arity : Nat) :
      IsContainer stored (.vector kind arity)

namespace Ty

theorem IsRead.isContainer
    (isRead : (Ty.array element length).IsRead stored) :
    (Ty.array element length).IsContainer stored := by
  obtain ⟨isInput, isElement⟩ := isRead.array
  cases isInput with
  | plain isPlain =>
      cases isPlain with
      | scalar kind => exact .values rfl length
      | vector kind low high => exact .values (by simp [isProto, low, high]) length
      | array => cases isElement
      | struct isKnown _ => exact .structs isKnown.isStored length
  | sampler kind => exact .values rfl length
  | samplers => cases isElement

/-- The types that may be named, apart from structs. -/
def protos : List Ty :=
  Builtin.types ++ [.sampler .flat, .sampler .cube]

theorem mem_protos (isProto : ty.isProto = true) :
    ty ∈ protos := by
  cases ty with
  | scalar kind => cases kind <;> simp [protos, Builtin.types]
  | sampler kind => cases kind <;> simp [protos]
  | vector kind arity =>
      simp only [Ty.isProto, Bool.and_eq_true, decide_eq_true_eq] at isProto
      obtain ⟨low, high⟩ := isProto
      have arities : arity = 2 ∨ arity = 3 ∨ arity = 4 := by omega
      rcases arities with rfl | rfl | rfl <;> cases kind <;>
        simp [protos, Builtin.types, Builtin.vec, Builtin.ivec, Builtin.bvec]
  | _ => cases isProto

theorem eq_of_name_eq
    (isFirst : first.isProto = true)
    (isSecond : second.isProto = true)
    (same : first.name = second.name) :
    first = second := by
  have nodup : (protos.map name).Nodup := by decide +kernel
  exact List.inj_on_of_nodup_map nodup (mem_protos isFirst) (mem_protos isSecond) same

/-- A type that may be named accepts itself only. -/
theorem accepts_iff_of_isProto
    (isFirst : first.isProto = true)
    (isSecond : second.isProto = true) :
    first.accepts second = true ↔ first = second := by
  cases first with
  | scalar | vector | sampler =>
      cases second with
      | scalar | vector | sampler => simp [accepts, bare]
      | _ => cases isSecond
  | _ => cases isFirst

/-- A container is an array or a vector. -/
theorem IsContainer.eq_array_or_eq_vector
    (isContainer : ty.IsContainer stored) :
    (∃ element length, ty = .array element length) ∨ ∃ kind arity, ty = .vector kind arity := by
  cases isContainer with
  | structs | values => exact .inl ⟨_, _, rfl⟩
  | vector kind arity => exact .inr ⟨kind, arity, rfl⟩

theorem IsContainer.accepts_iff
    (isFirst : first.IsContainer stored)
    (isSecond : second.IsContainer stored)
    (unique : ∀ layout other, stored layout -> stored other -> layout.owner = other.owner ->
      layout = other) :
    first.accepts second = true ↔ first = second := by
  cases isFirst with
  | @structs layout isStored length =>
      cases isSecond with
      | @structs other otherStored otherLength =>
          have owners : layout.owner = other.owner ↔ layout = other :=
            ⟨unique layout other isStored otherStored, congrArg _⟩
          simp [accepts, bare, owners, and_comm]
      | @values element isProto otherLength =>
          cases element with
          | scalar | vector | sampler => simp [accepts, bare]
          | _ => cases isProto
      | vector => simp [accepts, bare]
  | @values element isProto length =>
      cases isSecond with
      | @structs other _ otherLength =>
          cases element with
          | scalar | vector | sampler => simp [accepts, bare]
          | _ => cases isProto
      | @values other otherProto otherLength =>
          simp [accepts, bare, accepts_iff_of_isProto isProto otherProto, and_comm]
      | vector => simp [accepts, bare]
  | vector =>
      cases isSecond with
      | structs | values | vector => simp [accepts, bare]

end Ty

/-! ## Labels -/

/-- What an accessor is asked for by, apart from its kind. -/
structure Accessor.Label where
  /-- What is spelled for the elements. -/
  element : String
  /-- What is spelled for the extent. -/
  extent : String
  /-- The declarations that come before the accessor. -/
  deps : List VarId

/-- The label of the accessors for a type. -/
def Ty.label? : Ty -> Option Accessor.Label
  | .array (.struct layout) length => some ⟨layout.name, toString length, [layout.owner]⟩
  | .array element length => some ⟨element.name, toString length, []⟩
  | .vector kind arity => some ⟨(Ty.vector kind arity).name, kind.name, []⟩
  | _ => none

/-- An accessor reads or writes elements of containers of a type. -/
def Accessor.Indexes (accessor : Accessor) : Ty -> Prop
  | .array (.struct layout) length =>
      accessor.element.var = some layout.owner ∧ accessor.container = .array length
  | .array element length =>
      accessor.element.var = none ∧ accessor.element.name = element.name ∧
        accessor.container = .array length
  | .vector kind arity =>
      accessor.element.var = none ∧ accessor.element.name = kind.name ∧
        accessor.container = .vector (Ty.vector kind arity).name arity
  | _ => False

namespace Accessor

/-- The name of an accessor with a label. -/
def Label.spelled
    (kind : AccessorKind)
    (label : Label) : String :=
  kind.spelling ++ "_" ++ label.element ++ "_" ++ label.extent

variable {kind other : AccessorKind} {asked : Request}

/-- What is asked for is a container. -/
theorem isContainer_of_request
    (isRead : container.bare.IsRead stored)
    (requested : request kind container span = .ok asked) :
    container.bare.IsContainer stored := by
  unfold request at requested
  split at requested
  next isArray =>
    rw [isArray] at isRead ⊢
    exact isRead.isContainer
  next isVector =>
    rw [isVector]
    exact .vector _ _
  next => cases requested

/-- What an accessor for a container is asked for by, and what it indexes. -/
theorem label_of_request
    (isContainer : container.bare.IsContainer stored)
    (requested : request kind container span = .ok asked) :
    ∃ label, container.bare.label? = some label ∧ asked.name = label.spelled kind ∧
      asked.deps = label.deps ∧ ∀ var, (ofRequest kind asked var span).Indexes container.bare := by
  unfold request at requested
  cases given : container.bare with
  | array element length =>
      rw [given] at isContainer requested
      cases isContainer with
      | structs =>
          cases requested
          exact ⟨_, rfl, rfl, rfl, fun _ => ⟨rfl, rfl⟩⟩
      | values isProto =>
          cases element with
          | scalar | vector | sampler =>
              cases requested
              exact ⟨_, rfl, rfl, rfl, fun _ => ⟨rfl, rfl, rfl⟩⟩
          | _ => cases isProto
  | vector component arity =>
      have name_eq := container.name_bare
      rw [given] at requested name_eq
      cases requested
      rw [← name_eq]
      exact ⟨_, rfl, rfl, rfl, fun _ => ⟨rfl, rfl, rfl⟩⟩
  | _ =>
      rw [given] at isContainer
      cases isContainer

theorem append_cons_inj_of_notMem_right
    {α : Type}
    {first second : List α}
    {letter : α}
    {rest other : List α}
    (notFirst : letter ∉ rest)
    (notSecond : letter ∉ other)
    (same : first ++ letter :: rest = second ++ letter :: other) :
    first = second ∧ rest = other := by
  rcases List.append_eq_append_iff.mp same with ⟨middle, rfl, tail⟩ | ⟨middle, rfl, tail⟩ <;>
  cases middle with
  | nil => simpa [eq_comm] using tail
  | cons head middle =>
      simp_all

theorem isDigit_of_mem_toString
    {number : Nat}
    {letter : Char}
    (mem : letter ∈ (toString number).toList) :
    letter.isDigit = true := by
  have text_eq : toString number = String.ofList (Nat.toDigits 10 number) :=
    Nat.repr_eq_ofList_toDigits
  rw [text_eq, String.toList_ofList] at mem
  exact Nat.isDigit_of_mem_toDigits (by decide) (by decide) mem

variable {label : Label}

/-- The extent of a container is spelled without underscores. -/
theorem underscore_notMem_extent (labelled : ty.label? = some label) :
    '_' ∉ label.extent.toList := by
  unfold Ty.label? at labelled
  have number (length : Nat) : '_' ∉ (toString length).toList := fun mem =>
    absurd (isDigit_of_mem_toString mem) (by decide)
  have word : (kind : ScalarKind) -> '_' ∉ kind.name.toList
    | .float | .int | .bool => by decide
  split at labelled <;> cases labelled
  · exact number _
  · exact number _
  · exact word _

theorem eq_of_spelled_eq
    {first second : Label}
    (notFirst : '_' ∉ first.extent.toList)
    (notSecond : '_' ∉ second.extent.toList)
    (same : first.spelled kind = second.spelled other) :
    kind = other ∧ first.element = second.element ∧ first.extent = second.extent := by
  -- Names of structs may hold underscores, so the name is read from its end.
  have letters := congrArg String.toList same
  have underscore : "_".toList = ['_'] := by decide
  simp only [Label.spelled, String.toList_append, underscore, List.append_assoc,
    List.singleton_append] at letters
  rw [← List.append_assoc, ← List.append_assoc] at letters
  obtain ⟨heads, extents⟩ := append_cons_inj_of_notMem_right notFirst notSecond letters
  have lengths : kind.spelling.toList.length = other.spelling.toList.length := by
    cases kind <;> cases other <;> decide
  obtain ⟨kinds, elements⟩ := List.append_inj heads lengths
  refine ⟨?_, String.toList_inj.mp (List.cons.inj elements).2, String.toList_inj.mp extents⟩
  revert kinds
  cases kind <;> cases other <;> decide

theorem label_values
    (isProto : element.isProto = true)
    (length : Nat) :
    (Ty.array element length).label? = some ⟨element.name, toString length, []⟩ := by
  cases element with
  | struct => cases isProto
  | _ => rfl

/-- A number is not written like a kind of components. -/
theorem toString_ne_name
    (number : Nat)
    (kind : ScalarKind) :
    toString number ≠ kind.name := by
  intro same
  have noDigit : (kind : ScalarKind) -> ∃ letter ∈ kind.name.toList, letter.isDigit = false
    | .float => ⟨'f', by decide, rfl⟩
    | .int => ⟨'i', by decide, rfl⟩
    | .bool => ⟨'b', by decide, rfl⟩
  obtain ⟨letter, mem, notDigit⟩ := noDigit kind
  rw [← same] at mem
  rw [isDigit_of_mem_toString mem] at notDigit
  cases notDigit

theorem vector_eq_of_name_eq
    {kind other : ScalarKind}
    {arity otherArity : Nat}
    (components : kind.name = other.name)
    (vectors : (Ty.vector kind arity).name = (Ty.vector other otherArity).name) :
    Ty.vector kind arity = Ty.vector other otherArity := by
  obtain rfl : kind = other := by
    revert components
    cases kind <;> cases other <;> decide
  have numbers : toString arity = toString otherArity := by
    simpa [Ty.name] using vectors
  rw [toString_injective numbers]

theorem eq_of_label_eq
    (isFirst : first.IsContainer stored)
    (isSecond : second.IsContainer stored)
    (unique : ∀ layout other, stored layout -> stored other -> layout.owner = other.owner ->
      layout = other)
    (same : first.label? = second.label?) :
    first = second := by
  cases isFirst with
  | structs isStored length =>
      cases isSecond with
      | structs otherStored otherLength =>
          simp only [Ty.label?, Option.some.injEq, Label.mk.injEq, List.cons.injEq] at same
          rw [unique _ _ isStored otherStored same.2.2.1, toString_injective same.2.1]
      | values otherProto otherLength =>
          rw [label_values otherProto] at same
          simp [Ty.label?] at same
      | vector => simp [Ty.label?] at same
  | values isProto length =>
      rw [label_values isProto] at same
      cases isSecond with
      | structs => simp [Ty.label?] at same
      | values otherProto otherLength =>
          rw [label_values otherProto] at same
          simp only [Option.some.injEq, Label.mk.injEq] at same
          rw [Ty.eq_of_name_eq isProto otherProto same.1, toString_injective same.2.1]
      | vector kind _ =>
          simp only [Ty.label?, Option.some.injEq, Label.mk.injEq] at same
          exact absurd same.2.1 (toString_ne_name length kind)
  | vector kind arity =>
      cases isSecond with
      | structs => simp [Ty.label?] at same
      | values otherProto otherLength =>
          rw [label_values otherProto] at same
          simp only [Ty.label?, Option.some.injEq, Label.mk.injEq] at same
          exact absurd same.2.1.symm (toString_ne_name otherLength kind)
      | vector other =>
          simp only [Ty.label?, Option.some.injEq, Label.mk.injEq] at same
          exact vector_eq_of_name_eq same.2.1 same.1

section Keys

variable {otherSpan : Span} {again : Request}

section

variable (unique : ∀ layout other, stored layout -> stored other -> layout.owner = other.owner ->
      layout = other)
variable (isFirst : first.bare.IsRead stored) (isSecond : second.bare.IsRead stored)
variable (requested : request kind first span = .ok asked)
variable (requestedAgain : request other second otherSpan = .ok again)
include unique isFirst isSecond requested requestedAgain

/-- Accessors are asked for by one name and with the same dependencies exactly when they
have one kind and containers of one type. -/
theorem key_eq_iff :
    (asked.name = again.name ∧ asked.deps = again.deps) ↔
      (kind = other ∧ first.bare = second.bare) := by
  have firstContainer := isContainer_of_request isFirst requested
  have secondContainer := isContainer_of_request isSecond requestedAgain
  obtain ⟨label, labelled, name_eq, deps_eq, _⟩ := label_of_request firstContainer requested
  obtain ⟨label', labelled', name_eq', deps_eq', _⟩ :=
    label_of_request secondContainer requestedAgain
  rw [name_eq, deps_eq, name_eq', deps_eq']
  constructor
  · rintro ⟨names, deps⟩
    obtain ⟨kinds, elements, extents⟩ := eq_of_spelled_eq
      (underscore_notMem_extent labelled) (underscore_notMem_extent labelled') names
    refine ⟨kinds, eq_of_label_eq firstContainer secondContainer unique ?_⟩
    cases label
    cases label'
    simp_all
  · rintro ⟨rfl, same⟩
    rw [same, labelled'] at labelled
    cases labelled
    exact ⟨rfl, rfl⟩

/-- Types that accessors are asked for are compatible exactly when they are the same. -/
theorem accepts_iff_of_request :
    first.accepts second = true ↔ first.bare = second.bare := by
  rw [← Ty.bare_accepts, ← Ty.accepts_bare]
  exact (isContainer_of_request isFirst requested).accepts_iff
    (isContainer_of_request isSecond requestedAgain) unique

end

/-- The label of an array spells its elements and its length. -/
theorem label_array
    (isContainer : (Ty.array element length).IsContainer stored)
    (labelled : (Ty.array element length).label? = some label) :
    label.element = element.name ∧ label.extent = toString length := by
  cases isContainer with
  | structs =>
      cases labelled
      exact ⟨rfl, rfl⟩
  | values isProto =>
      cases (label_values isProto length).symm.trans labelled
      exact ⟨rfl, rfl⟩

theorem label_vector
    {component : ScalarKind}
    {arity : Nat}
    (labelled : (Ty.vector component arity).label? = some label) :
    label.element = (Ty.vector component arity).name ∧ label.extent = component.name := by
  cases labelled
  exact ⟨rfl, rfl⟩

/-- Accessors have one name exactly when they have one kind and containers of one type, or
arrays of one length whose elements are spelled alike. -/
theorem name_eq_iff
    (isFirst : first.bare.IsRead stored)
    (isSecond : second.bare.IsRead stored)
    (requested : request kind first span = .ok asked)
    (requestedAgain : request other second otherSpan = .ok again) :
    asked.name = again.name ↔
      kind = other ∧ (first.bare = second.bare ∨ ∃ element otherElement length,
        first.bare = .array element length ∧ second.bare = .array otherElement length ∧
          element.name = otherElement.name) := by
  have container := isContainer_of_request isFirst requested
  have otherContainer := isContainer_of_request isSecond requestedAgain
  obtain ⟨label, labelled, name_eq, _⟩ := label_of_request container requested
  obtain ⟨otherLabel, otherLabelled, otherName_eq, _⟩ :=
    label_of_request otherContainer requestedAgain
  rw [name_eq, otherName_eq]
  constructor
  · intro names
    obtain ⟨kinds, elements, extents⟩ := eq_of_spelled_eq
      (underscore_notMem_extent labelled) (underscore_notMem_extent otherLabelled) names
    refine ⟨kinds, ?_⟩
    rcases container.eq_array_or_eq_vector with ⟨element, length, isArray⟩ | ⟨_, _, isVector⟩ <;>
      rcases otherContainer.eq_array_or_eq_vector with
        ⟨otherElement, otherLength, otherArray⟩ | ⟨_, _, otherVector⟩
    · obtain ⟨element_eq, extent_eq⟩ := label_array (isArray ▸ container) (isArray ▸ labelled)
      obtain ⟨otherElement_eq, otherExtent_eq⟩ :=
        label_array (otherArray ▸ otherContainer) (otherArray ▸ otherLabelled)
      obtain rfl : length = otherLength :=
        toString_injective (extent_eq.symm.trans (extents.trans otherExtent_eq))
      exact .inr ⟨element, otherElement, length, isArray, otherArray,
        element_eq.symm.trans (elements.trans otherElement_eq)⟩
    · obtain ⟨_, extent_eq⟩ := label_array (isArray ▸ container) (isArray ▸ labelled)
      obtain ⟨_, otherExtent_eq⟩ := label_vector (otherVector ▸ otherLabelled)
      exact absurd (extent_eq.symm.trans (extents.trans otherExtent_eq)) (toString_ne_name _ _)
    · obtain ⟨_, extent_eq⟩ := label_vector (isVector ▸ labelled)
      obtain ⟨_, otherExtent_eq⟩ :=
        label_array (otherArray ▸ otherContainer) (otherArray ▸ otherLabelled)
      exact absurd (otherExtent_eq.symm.trans (extents.symm.trans extent_eq)) (toString_ne_name _ _)
    · obtain ⟨element_eq, extent_eq⟩ := label_vector (isVector ▸ labelled)
      obtain ⟨otherElement_eq, otherExtent_eq⟩ := label_vector (otherVector ▸ otherLabelled)
      rw [isVector, otherVector]
      exact .inl (vector_eq_of_name_eq (extent_eq.symm.trans (extents.trans otherExtent_eq))
        (element_eq.symm.trans (elements.trans otherElement_eq)))
  · rintro ⟨rfl, same | ⟨element, otherElement, length, isArray, otherArray, spelled⟩⟩
    · rw [same, otherLabelled] at labelled
      cases labelled
      rfl
    · obtain ⟨element_eq, extent_eq⟩ := label_array (isArray ▸ container) (isArray ▸ labelled)
      obtain ⟨otherElement_eq, otherExtent_eq⟩ :=
        label_array (otherArray ▸ otherContainer) (otherArray ▸ otherLabelled)
      rw [Label.spelled, Label.spelled, element_eq, otherElement_eq, extent_eq, otherExtent_eq,
        spelled]

end Keys

end Accessor
end ModularGlsl
