import ModularGlsl.Proofs.Typing.Structs

/-!
# Types of values

The type of a variable is that of a value, a known integer, a function or a name for a
type.  No integer inside another type is known: neither that of a field or an element, nor
the result of a function.
-/

namespace ModularGlsl

/-- Types of values that are not known: they hold no known integer, no function and no
name for a type. -/
inductive Ty.IsValue : Ty -> Prop
  | scalar (kind : ScalarKind) : IsValue (.scalar kind)
  | vector (kind : ScalarKind) (arity : Nat) : IsValue (.vector kind arity)
  | sampler (kind : SamplerKind) : IsValue (.sampler kind)
  | array
      {element : Ty}
      (inElement : IsValue element)
      (length : Nat) :
      IsValue (.array element length)
  | struct
      {layout : Layout Ty}
      (inFields : ∀ field ∈ layout.fields, IsValue field.ty) :
      IsValue (.struct layout)

/-- All results of a function are values. -/
def FunctionType.YieldsValues (callable : FunctionType Ty) : Prop :=
  ∀ signature ∈ callable.overloads, ∀ result ∈ signature.result, result.IsValue

/-- The type of an expression without its attribution. -/
inductive Ty.Appears : Ty -> Prop
  | value
      {ty : Ty}
      (isValue : ty.IsValue) :
      Appears ty
  | literal (value : Int) : Appears (.literal value)
  | function
      {callable : FunctionType Ty}
      (yields : callable.YieldsValues) :
      Appears (.function callable)
  | descriptor
      {proto : Ty}
      (isValue : proto.IsValue) :
      Appears (.descriptor proto)

/-- The known types of an arena may be those of expressions. -/
def Arena.IsRegular (arena : Arena) : Prop :=
  ∀ id ty, (arena.get id).ty = some ty -> ty.Appears

variable {span : Span} {ty : Ty}

namespace Ty

theorem literal?_eq_some {value : Int} :
    ty.literal? = some value ↔ ty.bare = .literal value := by
  unfold literal?
  split
  next own bare_eq => simp [bare_eq]
  next isOther => simpa using fun bare_eq => isOther value bare_eq

theorem IsValue.bare_eq (isValue : ty.IsValue) :
    ty.bare = ty := by
  cases isValue <;> rfl

theorem IsValue.literal?_eq (isValue : ty.IsValue) :
    ty.literal? = none := by
  cases isValue <;> rfl

theorem Appears.bare_eq (appears : ty.Appears) :
    ty.bare = ty := by
  cases appears with
  | value isValue => exact isValue.bare_eq
  | literal | function | descriptor => rfl

variable {result : Ty}

namespace Appears

theorem member
    {object : Ty}
    (appears : object.bare.Appears)
    {key : String}
    (typed : object.member key span = .ok result) :
    result.IsValue := by
  unfold Ty.member at typed
  split at typed
  next kind arity isVector =>
    split at typed
    · cases typed
      split
      · exact .scalar kind
      · exact .vector kind _
    · cases typed
  next layout isStruct =>
    rw [isStruct] at appears
    split at typed
    next field isField =>
      cases typed
      obtain ⟨isValue⟩ := appears
      cases isValue with
      | struct inFields => exact inFields field (List.mem_of_find?_eq_some isField)
    next => cases typed
  next => cases typed

/-- An element is a value, and its index is within the bounds. -/
theorem index
    {container : Ty}
    (appears : container.bare.Appears)
    {position : Int}
    (typed : container.index position span = .ok result) :
    result.IsValue ∧ ∃ length, container.length? = some length ∧
      0 ≤ position ∧ position < length := by
  unfold Ty.index Ty.elements? at typed
  split at typed
  next element length isIndexed =>
    split at typed
    next inside =>
      cases typed
      split at isIndexed
      next isArray =>
        cases isIndexed
        rw [isArray] at appears
        obtain ⟨isValue⟩ := appears
        cases isValue with
        | array inElement _ => exact ⟨inElement, _, by rw [length?, isArray], inside⟩
      next kind arity isVector =>
        cases isIndexed
        exact ⟨.scalar kind, _, by rw [length?, isVector], inside⟩
      next => cases isIndexed
    next => cases typed
  next => cases typed

/-- The result of a call is a value. -/
theorem call
    {callee : Ty}
    (appears : callee.bare.Appears)
    {args : List Ty}
    (typed : callee.call args span = .ok (some result)) :
    result.IsValue := by
  unfold Ty.call at typed
  split at typed
  next callable isFunction =>
    rw [isFunction] at appears
    obtain ⟨signature, mem, result_eq⟩ := mem_of_applyFunction typed
    cases appears with
    | value isValue => cases isValue
    | function yields => exact yields signature mem result result_eq.symm
  next proto isDescriptor =>
    rw [isDescriptor] at appears
    obtain ⟨built, constructed, typed⟩ := except_bind_eq_ok.mp typed
    cases typed
    rw [eq_of_construct constructed]
    cases appears with
    | value isValue => cases isValue
    | descriptor isValue => exact isValue
  next => cases typed

end Appears

/-- A binary operation yields a value, or a known integer from two known ones. -/
theorem isValue_or_of_binary
    {op : BinaryOp}
    {left right : Ty}
    (typed : Ty.binary op left right span = .ok result) :
    result.IsValue ∨ ∃ first second value, left.literal? = some first ∧
      right.literal? = some second ∧ fold? op first second = some value ∧
        result = .literal value := by
  cases yields_of_binary typed with
  | scalar kind => exact .inl (.scalar kind)
  | vector kind arity _ => exact .inl (.vector kind arity)
  | literal isFirst isSecond folded => exact .inr ⟨_, _, _, isFirst, isSecond, folded, rfl⟩

/-- A unary operation yields a value, its operand or the negative of a known integer. -/
theorem isValue_or_of_unary
    {op : UnaryOp}
    {operand : Ty}
    (typed : Ty.unary op operand span = .ok result) :
    result.IsValue ∨ (result = operand.bare ∧ (op = .pos ∨ operand.literal? = none)) ∨
      ∃ value, op = .neg ∧ operand.literal? = some value ∧ result = .literal (-value) := by
  unfold Ty.unary at typed
  split at typed
  · split at typed
    · cases typed
      exact .inl (.scalar .bool)
    · cases typed
  · split at typed
    · split at typed
      · cases typed
      · cases typed
        unfold Ty.signed
        split
        next value _ known =>
          split
          · exact .inr (.inr ⟨value, rfl, known, rfl⟩)
          · exact .inl (.scalar .int)
        next unknown =>
          refine .inr (.inl ⟨rfl, .inr ?_⟩)
          exact Option.eq_none_iff_forall_ne_some.mpr fun value known => unknown value rfl known
    · cases typed
  · split at typed
    · split at typed
      · cases typed
      · cases typed
        exact .inr (.inl ⟨rfl, .inl rfl⟩)
    · cases typed

end Ty

/-! ## Expressions -/

variable {arena : Arena}

theorem Expr.appears_of_typeOf
    (regular : arena.IsRegular)
    (expr : Expr)
    (typed : expr.typeOf arena = .ok ty) :
    ty.bare.Appears := by
  have isValue {ty : Ty} (isValue : ty.IsValue) : ty.bare.Appears := by
    rw [isValue.bare_eq]
    exact .value isValue
  replace typed := expr.typed_of_typeOf typed
  induction typed with
  | int value => exact .literal value
  | float => exact isValue (.scalar .float)
  | bool => exact isValue (.scalar .bool)
  | var found =>
      obtain ⟨id, known, _, isKnown, rfl⟩ := Ident.typeOf_eq_ok found
      have appears := regular id known isKnown
      rw [Ty.bare_locate, appears.bare_eq]
      exact appears
  | path found =>
      have appears := regular _ _ found
      rw [appears.bare_eq]
      exact appears
  | member _ found object => exact isValue (object.member found)
  | index _ _ _ found container _ | getIndex _ _ _ found container _ =>
      exact isValue (container.index found).1
  | call _ _ found callee _ => exact isValue (callee.call found)
  | binary _ _ found =>
      rcases Ty.isValue_or_of_binary found with yields | ⟨_, _, value, _, _, _, rfl⟩
      · exact isValue yields
      · exact .literal value
  | unary _ found operand =>
      rcases Ty.isValue_or_of_unary found with yields | ⟨rfl, _⟩ | ⟨value, _, _, rfl⟩
      · exact isValue yields
      · rw [Ty.bare_bare]
        exact operand
      · exact .literal _
  | paren _ inner => exact inner

/-! ## Declared types -/

namespace Typing

variable {length : Option Nat} {allowSampler : Bool} {declared : Ty}

variable {ty : Ident}

/-- A declaration asks for what a variable stands for, or for an array of it of at least
two elements; samplers have to be allowed. -/
theorem exists_proto_of_declaredType
    (found : declaredType arena ty length allowSampler span = .ok declared) :
    ∃ id descriptor proto, ty.var = some id ∧ (arena.get id).ty = some descriptor ∧
      descriptor.bare = .descriptor proto ∧
        (proto.isSampler = true -> allowSampler = true) ∧
          (length = none ∧ declared = proto ∨
            ∃ count, length = some count ∧ 2 ≤ count ∧ declared = .array proto.bare count) := by
  obtain ⟨id, bound, found⟩ := except_bind_eq_ok.mp found
  obtain ⟨descriptor, known, found⟩ := except_bind_eq_ok.mp found
  obtain ⟨proto, instantiated, found⟩ := except_bind_eq_ok.mp found
  refine ⟨id, descriptor, proto, Ident.bound_eq_ok.mp bound, Arena.ty_eq_ok.mp known, ?_, ?_⟩
  · unfold Ty.instantiate at instantiated
    split at instantiated
    next describes =>
      cases instantiated
      exact describes
    next => cases instantiated
  · split at found
    · cases found
    · next allowed =>
        refine ⟨fun isSampler => by simpa [isSampler] using allowed, ?_⟩
        split at found
        · have found := typing_eq_ok.mp found
          unfold Ty.arrayOf at found
          split at found
          · cases found
          · next low =>
              cases found
              exact .inr ⟨_, rfl, Nat.le_of_not_lt low, rfl⟩
        · cases found
          exact .inl ⟨rfl, rfl⟩

/-- A name for a type is a variable that stands for one. -/
theorem exists_descriptor_of_declaredType
    (found : declaredType arena ty length allowSampler span = .ok declared) :
    ∃ id descriptor proto, ty.var = some id ∧ (arena.get id).ty = some descriptor ∧
      descriptor.bare = .descriptor proto ∧
        (length = none ∧ declared = proto ∨
          ∃ count, length = some count ∧ declared = .array proto.bare count) := by
  obtain ⟨id, descriptor, proto, bound, known, describes, _, shape⟩ :=
    exists_proto_of_declaredType found
  refine ⟨id, descriptor, proto, bound, known, describes, shape.imp_right ?_⟩
  rintro ⟨count, length_eq, _, rfl⟩
  exact ⟨count, length_eq, rfl⟩

/-- The type that a declaration asks for is that of a value. -/
theorem isValue_of_declaredType
    (regular : arena.IsRegular)
    (found : declaredType arena ty length allowSampler span = .ok declared) :
    declared.IsValue := by
  obtain ⟨id, descriptor, proto, _, known, describes, shape⟩ :=
    exists_descriptor_of_declaredType found
  have appears := regular id descriptor known
  rw [appears.bare_eq] at describes
  subst describes
  have isValue : proto.IsValue := by
    cases appears with
    | value isValue => cases isValue
    | descriptor isValue => exact isValue
  rcases shape with ⟨_, rfl⟩ | ⟨count, _, rfl⟩
  · exact isValue
  · rw [isValue.bare_eq]
    exact .array isValue count

end Typing

end ModularGlsl
