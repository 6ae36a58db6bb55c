import ModularGlsl.Proofs.Stage
import ModularGlsl.Proofs.Typing.Values

/-!
# Well-formed types

The types that an arena holds obey rules of their own: none is attributed to a span,
arrays have at least two elements that are no arrays, only constants are known
integers, samplers are passed in and never stored, and an instance of a struct has the
layout that the variable of the struct stands for.  The rules speak of all types that
stand inside another one.

A grammar of the types that a variable may have, by what declares the variable,
implies the rules, and it is what typing keeps step by step.
-/

namespace ModularGlsl

/-! ## Rules -/

/-- A type that stands inside another one, or is it. -/
inductive Ty.Holds : Ty -> Ty -> Prop
  | self (ty : Ty) : Holds ty ty
  | element
      {element part : Ty}
      (inside : Holds element part)
      (length : Nat) :
      Holds (.array element length) part
  | field
      {layout : Layout Ty}
      {field : Field Ty}
      {part : Ty}
      (mem : field ∈ layout.fields)
      (inside : Holds field.ty part) :
      Holds (.struct layout) part
  | param
      {callable : FunctionType Ty}
      {signature : Signature Ty}
      {param part : Ty}
      (isOwn : signature ∈ callable.overloads)
      (mem : param ∈ signature.params)
      (inside : Holds param part) :
      Holds (.function callable) part
  | result
      {callable : FunctionType Ty}
      {signature : Signature Ty}
      {result part : Ty}
      (isOwn : signature ∈ callable.overloads)
      (mem : result ∈ signature.result)
      (inside : Holds result part) :
      Holds (.function callable) part
  | proto
      {proto part : Ty}
      (inside : Holds proto part) :
      Holds (.descriptor proto) part
  | located
      {ty part : Ty}
      (inside : Holds ty part)
      (span : Span) :
      Holds (.located ty span) part

/-- A type that the elements of an array may have. -/
def Ty.isElement : Ty -> Bool
  | .scalar _ | .vector _ _ | .sampler _ | .struct _ => true
  | _ => false

/-- The variable of a struct stands for a layout. -/
def Arena.Stores
    (arena : Arena)
    (layout : Layout Ty) : Prop :=
  (arena.get layout.owner).ty = some (.descriptor (.struct layout))

/-- A variable with a smaller number stands for a layout. -/
def Arena.StoresBelow
    (limit : VarId)
    (arena : Arena)
    (layout : Layout Ty) : Prop :=
  arena.Stores layout ∧ layout.owner < limit

/-- Where a sampler may stand: it is passed in, alone or in an array, it is named, or
it is passed to a function that does not yield one. -/
inductive Ty.TakesSampler
    (decl : DeclKind)
    (kind : SamplerKind) : Ty -> Prop
  | value
      (isInput : decl = .uniform ∨ decl = .param) :
      TakesSampler decl kind (.sampler kind)
  | array
      (isInput : decl = .uniform ∨ decl = .param)
      (length : Nat) :
      TakesSampler decl kind (.array (.sampler kind) length)
  | name
      (isBuiltin : decl = .builtin) :
      TakesSampler decl kind (.descriptor (.sampler kind))
  | function
      {callable : FunctionType Ty}
      (yieldsNone : ∀ signature ∈ callable.overloads, ∀ result ∈ signature.result,
        ¬result.Holds (.sampler kind)) :
      TakesSampler decl kind (.function callable)

/-- The type of a variable obeys the rules. -/
structure Ty.IsWellFormed
    (arena : Arena)
    (id : VarId)
    (ty : Ty) : Prop where
  /-- No type is attributed to a span. -/
  located : ∀ inner span, ¬ty.Holds (.located inner span)
  /-- Arrays have at least two elements, which are no arrays. -/
  array : ∀ element length, ty.Holds (.array element length) ->
    element.isElement = true ∧ 2 ≤ length
  /-- Vectors have two to four components. -/
  vector : ∀ kind arity, ty.Holds (.vector kind arity) -> 2 ≤ arity ∧ arity ≤ 4
  /-- Only constants are known integers, and no other type holds one. -/
  literal : ∀ value, ty.Holds (.literal value) ->
    ty = .literal value ∧ ∃ exported, (arena.get id).decl = .const exported
  /-- Samplers are passed in. -/
  sampler : ∀ kind, ty.Holds (.sampler kind) -> ty.TakesSampler (arena.get id).decl kind
  /-- Structs have the layout that their variable stands for, with fields of different
  names and without samplers. -/
  struct : ∀ layout, ty.Holds (.struct layout) ->
    (layout.fields.map Field.name).Nodup ∧ arena.Stores layout ∧
      ∀ kind, ¬(Ty.struct layout).Holds (.sampler kind)
  /-- A function of the program has one signature and belongs to its variable. -/
  function : ∀ callable, ty.Holds (.function callable) ->
    ty = .function callable ∧ ((arena.get id).decl = .builtin ∨
      (arena.get id).decl = .function ∧ callable.origin = some id ∧
        ∃ signature, callable.overloads = [signature])

/-- All known types of an arena obey the rules. -/
def Arena.IsWellFormed (arena : Arena) : Prop :=
  ∀ id ty, (arena.get id).ty = some ty -> ty.IsWellFormed arena id

/-! ## A grammar of types -/

/-- A struct with fields of different names that is known. -/
structure Layout.IsKnown
    (stored : Layout Ty -> Prop)
    (layout : Layout Ty) : Prop where
  /-- The layout is that of the variable of the struct. -/
  isStored : stored layout
  /-- The fields have different names. -/
  nodup : (layout.fields.map Field.name).Nodup

/-- Types of values that may be stored, given the structs that are known. -/
inductive Ty.IsPlain
    (stored : Layout Ty -> Prop) : Ty -> Prop
  | scalar (kind : ScalarKind) : IsPlain stored (.scalar kind)
  | vector
      (kind : ScalarKind)
      {arity : Nat}
      (low : 2 ≤ arity)
      (high : arity ≤ 4) :
      IsPlain stored (.vector kind arity)
  | array
      {element : Ty}
      {length : Nat}
      (isElement : element.isElement = true)
      (inElement : IsPlain stored element)
      (low : 2 ≤ length) :
      IsPlain stored (.array element length)
  | struct
      {layout : Layout Ty}
      (isKnown : layout.IsKnown stored)
      (inFields : ∀ field ∈ layout.fields, IsPlain stored field.ty) :
      IsPlain stored (.struct layout)

/-- Types of values that may be passed in: samplers too. -/
inductive Ty.IsInput
    (stored : Layout Ty -> Prop) : Ty -> Prop
  | plain
      {ty : Ty}
      (isPlain : ty.IsPlain stored) :
      IsInput stored ty
  | sampler (kind : SamplerKind) : IsInput stored (.sampler kind)
  | samplers
      (kind : SamplerKind)
      {length : Nat}
      (low : 2 ≤ length) :
      IsInput stored (.array (.sampler kind) length)

/-- The types that a variable may have. -/
inductive Ty.Suits
    (arena : Arena)
    (id : VarId) : Ty -> Prop
  | plain
      {ty : Ty}
      (isPlain : ty.IsPlain (arena.StoresBelow (id + 1))) :
      Suits arena id ty
  | input
      {ty : Ty}
      (isInput : (arena.get id).decl = .uniform ∨ (arena.get id).decl = .param)
      (fits : ty.IsInput (arena.StoresBelow (id + 1))) :
      Suits arena id ty
  | known
      {exported : Bool}
      (isConst : (arena.get id).decl = .const exported)
      (value : Int) :
      Suits arena id (.literal value)
  | builtinType
      {proto : Ty}
      (isBuiltin : (arena.get id).decl = .builtin)
      (fits : proto.IsInput fun _ => False)
      (isElement : proto.isElement = true) :
      Suits arena id (.descriptor proto)
  | struct
      {layout : Layout Ty}
      (isStruct : (arena.get id).decl = .struct)
      (owner_eq : layout.owner = id)
      (name_eq : layout.name = arena.name id)
      (isPlain : (Ty.struct layout).IsPlain (arena.StoresBelow (id + 1))) :
      Suits arena id (.descriptor (.struct layout))
  | builtinFunction
      {callable : FunctionType Ty}
      (isBuiltin : (arena.get id).decl = .builtin)
      (params : ∀ signature ∈ callable.overloads, ∀ param ∈ signature.params,
        param.IsInput fun _ => False)
      (result : ∀ signature ∈ callable.overloads, ∀ result ∈ signature.result,
        result.IsPlain fun _ => False) :
      Suits arena id (.function callable)
  | function
      {callable : FunctionType Ty}
      {signature : Signature Ty}
      (isFunction : (arena.get id).decl = .function)
      (origin_eq : callable.origin = some id)
      (overloads_eq : callable.overloads = [signature])
      (params : ∀ param ∈ signature.params, param.IsInput arena.Stores)
      (result : ∀ result ∈ signature.result, result.IsPlain (arena.StoresBelow (id + 1))) :
      Suits arena id (.function callable)

/-- All known types of an arena are those that their variables may have, and packages have
none. -/
structure Arena.IsFormed (arena : Arena) : Prop where
  /-- A known type is one that its variable may have. -/
  suits : ∀ id ty, (arena.get id).ty = some ty -> ty.Suits arena id
  /-- A package has no type. -/
  members_eq : ∀ id ty, (arena.get id).ty = some ty -> (arena.get id).members = none

variable {stored : Layout Ty -> Prop} {ty : Ty} {id : VarId}

namespace Ty

variable {wider : Layout Ty -> Prop} {part : Ty}

theorem IsPlain.mono
    (isPlain : ty.IsPlain stored)
    (widen : ∀ layout, stored layout -> wider layout) :
    ty.IsPlain wider := by
  induction isPlain with
  | scalar kind => exact .scalar kind
  | vector kind low high => exact .vector kind low high
  | array isElement _ low ih => exact .array isElement ih low
  | struct isKnown _ ih =>
      exact .struct ⟨widen _ isKnown.isStored, isKnown.nodup⟩ ih

theorem IsInput.mono
    (isInput : ty.IsInput stored)
    (widen : ∀ layout, stored layout -> wider layout) :
    ty.IsInput wider := by
  cases isInput with
  | plain isPlain => exact .plain (isPlain.mono widen)
  | sampler kind => exact .sampler kind
  | samplers kind low => exact .samplers kind low

/-- What stands inside a type that may be stored may be stored. -/
theorem IsPlain.of_holds
    (isPlain : ty.IsPlain stored)
    (holds : ty.Holds part) :
    part.IsPlain stored := by
  induction holds with
  | self => exact isPlain
  | element _ _ ih =>
      cases isPlain with
      | array _ inElement _ => exact ih inElement
  | field mem _ ih =>
      cases isPlain with
      | struct _ inFields => exact ih (inFields _ mem)
  | param | result | proto | located => cases isPlain

/-- What stands inside a type that may be passed in may be passed in. -/
theorem IsInput.of_holds
    (isInput : ty.IsInput stored)
    (holds : ty.Holds part) :
    part.IsInput stored := by
  cases isInput with
  | plain isPlain => exact .plain (isPlain.of_holds holds)
  | sampler kind =>
      cases holds
      exact .sampler kind
  | samplers kind low =>
      cases holds with
      | self => exact .samplers kind low
      | element inside _ =>
          cases inside
          exact .sampler kind

/-- What may be stored holds no sampler. -/
theorem IsPlain.not_holds_sampler
    (isPlain : ty.IsPlain stored)
    (kind : SamplerKind) :
    ¬ty.Holds (.sampler kind) := by
  intro holds
  cases isPlain.of_holds holds

theorem IsInput.bare_eq (isInput : ty.IsInput stored) :
    ty.bare = ty := by
  cases isInput with
  | plain isPlain => cases isPlain <;> rfl
  | sampler | samplers => rfl

variable {arena later : Arena}

/-- What stands inside the type of a variable may be passed in. -/
theorem Suits.eq_or_isInput
    (suits : ty.Suits arena id)
    (holds : ty.Holds part) :
    part = ty ∨ part.IsInput arena.Stores := by
  have ofNone (isInput : part.IsInput fun _ => False) : part.IsInput arena.Stores :=
    isInput.mono fun _ => False.elim
  have ofBelow (isInput : part.IsInput (arena.StoresBelow (id + 1))) : part.IsInput arena.Stores :=
    isInput.mono fun _ => And.left
  cases suits with
  | plain isPlain => exact .inr (ofBelow (.plain (isPlain.of_holds holds)))
  | input _ fits => exact .inr (ofBelow (fits.of_holds holds))
  | known _ value =>
      cases holds
      exact .inl rfl
  | builtinType _ fits _ =>
      cases holds with
      | self => exact .inl rfl
      | proto inside => exact .inr (ofNone (fits.of_holds inside))
  | struct _ _ _ isPlain =>
      cases holds with
      | self => exact .inl rfl
      | proto inside => exact .inr (ofBelow (.plain (isPlain.of_holds inside)))
  | builtinFunction _ params result =>
      cases holds with
      | self => exact .inl rfl
      | param isOwn mem inside =>
          exact .inr (ofNone ((params _ isOwn _ mem).of_holds inside))
      | result isOwn mem inside =>
          exact .inr (ofNone (.plain ((result _ isOwn _ mem).of_holds inside)))
  | function _ _ overloads_eq params result =>
      cases holds with
      | self => exact .inl rfl
      | param isOwn mem inside =>
          rw [overloads_eq, List.mem_singleton] at isOwn
          subst isOwn
          exact .inr ((params _ mem).of_holds inside)
      | result isOwn mem inside =>
          rw [overloads_eq, List.mem_singleton] at isOwn
          subst isOwn
          exact .inr (ofBelow (.plain ((result _ mem).of_holds inside)))

theorem Suits.bare_eq (suits : ty.Suits arena id) :
    ty.bare = ty := by
  cases suits with
  | plain isPlain => exact (IsInput.plain isPlain).bare_eq
  | input _ fits => exact fits.bare_eq
  | known | builtinType | struct | builtinFunction | function => rfl

/-- A variable stands for a type that may be passed in and may be an element. -/
theorem Suits.proto (suits : (Ty.descriptor ty).Suits arena id) :
    ty.IsInput (arena.StoresBelow (id + 1)) ∧ ty.isElement = true := by
  cases suits with
  | plain isPlain => cases isPlain
  | input _ fits => cases fits with | plain isPlain => cases isPlain
  | builtinType _ fits isElement => exact ⟨fits.mono fun _ => False.elim, isElement⟩
  | struct _ _ _ isPlain => exact ⟨.plain isPlain, rfl⟩

/-- A sampler in the type of a variable is passed in. -/
theorem Suits.takesSampler
    {kind : SamplerKind}
    (suits : ty.Suits arena id)
    (holds : ty.Holds (.sampler kind)) :
    ty.TakesSampler (arena.get id).decl kind := by
  cases suits with
  | plain isPlain => exact absurd holds (isPlain.not_holds_sampler kind)
  | input isInput fits =>
      cases fits with
      | plain isPlain => exact absurd holds (isPlain.not_holds_sampler kind)
      | sampler =>
          cases holds
          exact .value isInput
      | samplers =>
          cases holds with
          | element inside _ =>
              cases inside
              exact .array isInput _
  | known => cases holds
  | builtinType isBuiltin fits isElement =>
      cases holds with
      | proto inside =>
          cases fits with
          | plain isPlain => exact absurd inside (isPlain.not_holds_sampler kind)
          | sampler =>
              cases inside
              exact .name isBuiltin
          | samplers => cases isElement
  | struct _ _ _ isPlain =>
      cases holds with
      | proto inside => exact absurd inside (isPlain.not_holds_sampler kind)
  | builtinFunction _ _ result =>
      exact .function fun signature isOwn ty mem =>
        (result signature isOwn ty mem).not_holds_sampler kind
  | function _ _ overloads_eq _ result =>
      refine .function fun signature isOwn ty mem => ?_
      rw [overloads_eq, List.mem_singleton] at isOwn
      subst isOwn
      exact (result ty mem).not_holds_sampler kind

/-- The types that a variable may have obey the rules. -/
theorem Suits.isWellFormed (suits : ty.Suits arena id) :
    ty.IsWellFormed arena id where
  located inner span holds := by
    rcases suits.eq_or_isInput holds with rfl | isInput
    · cases suits with
      | plain isPlain => cases isPlain
      | input _ fits => cases fits with | plain isPlain => cases isPlain
    · cases isInput with | plain isPlain => cases isPlain
  array element length holds := by
    have ofInput {stored : Layout Ty -> Prop} (isInput : (Ty.array element length).IsInput stored) :
        element.isElement = true ∧ 2 ≤ length := by
      cases isInput with
      | plain isPlain => cases isPlain with | array isElement _ low => exact ⟨isElement, low⟩
      | samplers _ low => exact ⟨rfl, low⟩
    rcases suits.eq_or_isInput holds with rfl | isInput
    · cases suits with
      | plain isPlain => exact ofInput (.plain isPlain)
      | input _ fits => exact ofInput fits
    · exact ofInput isInput
  vector kind arity holds := by
    have ofPlain {stored : Layout Ty -> Prop} (isPlain : (Ty.vector kind arity).IsPlain stored) :
        2 ≤ arity ∧ arity ≤ 4 := by
      cases isPlain with | vector _ low high => exact ⟨low, high⟩
    rcases suits.eq_or_isInput holds with rfl | isInput
    · cases suits with
      | plain isPlain => exact ofPlain isPlain
      | input _ fits => cases fits with | plain isPlain => exact ofPlain isPlain
    · cases isInput with | plain isPlain => exact ofPlain isPlain
  literal value holds := by
    rcases suits.eq_or_isInput holds with rfl | isInput
    · cases suits with
      | plain isPlain => cases isPlain
      | input _ fits => cases fits with | plain isPlain => cases isPlain
      | known isConst => exact ⟨rfl, _, isConst⟩
    · cases isInput with | plain isPlain => cases isPlain
  sampler _ holds := suits.takesSampler holds
  struct layout holds := by
    have ofPlain (isPlain : (Ty.struct layout).IsPlain arena.Stores) :
        (layout.fields.map Field.name).Nodup ∧ arena.Stores layout ∧
          ∀ kind, ¬(Ty.struct layout).Holds (.sampler kind) := by
      refine ⟨?_, ?_, isPlain.not_holds_sampler⟩
      · cases isPlain with | struct isKnown _ => exact isKnown.nodup
      · cases isPlain with | struct isKnown _ => exact isKnown.isStored
    rcases suits.eq_or_isInput holds with rfl | isInput
    · cases suits with
      | plain isPlain => exact ofPlain (isPlain.mono fun _ => And.left)
      | input _ fits =>
          cases fits with | plain isPlain => exact ofPlain (isPlain.mono fun _ => And.left)
    · cases isInput with | plain isPlain => exact ofPlain isPlain
  function callable holds := by
    rcases suits.eq_or_isInput holds with rfl | isInput
    · refine ⟨rfl, ?_⟩
      cases suits with
      | plain isPlain => cases isPlain
      | input _ fits => cases fits with | plain isPlain => cases isPlain
      | builtinFunction isBuiltin => exact .inl isBuiltin
      | function isFunction origin_eq overloads_eq =>
          exact .inr ⟨isFunction, origin_eq, _, overloads_eq⟩
    · cases isInput with | plain isPlain => cases isPlain

/-- The types that a variable may have do not depend on other variables, as long as
structs stay. -/
theorem Suits.mono
    (suits : ty.Suits arena id)
    (widen : ∀ layout, arena.Stores layout -> later.Stores layout)
    (decl_eq : (later.get id).decl = (arena.get id).decl)
    (name_eq : later.name id = arena.name id) :
    ty.Suits later id := by
  have below (layout : Layout Ty) (held : arena.StoresBelow (id + 1) layout) :
      later.StoresBelow (id + 1) layout := ⟨widen layout held.1, held.2⟩
  cases suits with
  | plain isPlain => exact .plain (isPlain.mono below)
  | input isInput fits => exact .input (decl_eq ▸ isInput) (fits.mono below)
  | known isConst value => exact .known (decl_eq.trans isConst) value
  | builtinType isBuiltin fits isElement =>
      exact .builtinType (decl_eq.trans isBuiltin) fits isElement
  | struct isStruct owner_eq isNamed isPlain =>
      exact .struct (decl_eq.trans isStruct) owner_eq (isNamed.trans name_eq.symm)
        (isPlain.mono below)
  | builtinFunction isBuiltin params result =>
      exact .builtinFunction (decl_eq.trans isBuiltin) params result
  | function isFunction origin_eq overloads_eq params result =>
      exact .function (decl_eq.trans isFunction) origin_eq overloads_eq
        (fun param mem => (params param mem).mono widen)
        fun ty mem => (result ty mem).mono below

end Ty

/-! ## Arenas -/

namespace Arena

variable {arena before after : Arena}

/-- Types that variables may have obey the rules. -/
theorem IsFormed.isWellFormed (formed : arena.IsFormed) :
    arena.IsWellFormed :=
  fun id ty found => (formed.suits id ty found).isWellFormed

variable {layout : Layout Ty}

/-- A struct has the name of its variable. -/
theorem IsFormed.name_of_stores
    (formed : arena.IsFormed)
    (stores : arena.Stores layout) :
    layout.name = arena.name layout.owner := by
  cases formed.suits _ _ stores with
  | plain isPlain => cases isPlain
  | input _ fits => cases fits with | plain isPlain => cases isPlain
  | builtinType _ fits _ =>
      cases fits with
      | plain isPlain => cases isPlain with | struct isKnown _ => exact isKnown.isStored.elim
  | struct _ _ name_eq _ => exact name_eq

/-- A struct stays known when another variable gets its type. -/
theorem Stores.setTy
    (stores : arena.Stores layout)
    (untyped : (arena.get id).ty = none)
    (ty : Ty) :
    (arena.setTy id ty).Stores layout := by
  unfold Stores at stores ⊢
  rw [Arena.setTy, get_modify, if_neg]
  · exact stores
  · rintro ⟨rfl, _⟩
    rw [untyped] at stores
    cases stores

/-- A variable that is no package and has no type is given one that it may have. -/
theorem IsFormed.setTy
    (formed : arena.IsFormed)
    (members_eq : (arena.get id).members = none)
    (untyped : (arena.get id).ty = none)
    (suits : ty.Suits (arena.setTy id ty) id) :
    (arena.setTy id ty).IsFormed := by
  have retypes := arena.retypes_setTy id ty
  -- A known type is the new one or was known before.
  have cases {other : VarId} {known : Ty} (found : ((arena.setTy id ty).get other).ty = some known) :
      id = other ∧ ty = known ∨ (arena.get other).ty = some known := by
    rw [Arena.setTy, get_modify] at found
    split at found
    next same => exact .inl ⟨same.1, Option.some.inj found⟩
    next => exact .inr found
  refine ⟨fun other known found => ?_, fun other known found => ?_⟩
  · rcases cases found with ⟨rfl, rfl⟩ | before
    · exact suits
    · exact (formed.suits other known before).mono (fun _ stores => stores.setTy untyped ty)
        (retypes.decl_eq other) (retypes.name_eq other)
  · rw [retypes.members_eq]
    rcases cases found with ⟨rfl, _⟩ | before
    · exact members_eq
    · exact formed.members_eq other known before

/-- Variables that are added without types change nothing. -/
theorem IsFormed.grows
    (formed : before.IsFormed)
    (grows : before.Grows after) :
    after.IsFormed := by
  have known {id : VarId} {ty : Ty} (found : (after.get id).ty = some ty) :
      after.get id = before.get id := by
    rcases Nat.lt_or_ge id before.size with inside | outside
    · exact grows.get_eq id inside
    · rw [grows.untyped id outside] at found
      cases found
  refine ⟨fun id ty found => ?_, fun id ty found => ?_⟩
  · have same := known found
    rw [same] at found
    refine (formed.suits id ty found).mono (fun layout stores => ?_) (by rw [same])
      (by rw [Arena.name, same, Arena.name])
    have inside : layout.owner < before.size := by
      by_contra outside
      rw [Stores, get_of_size_le (Nat.le_of_not_lt outside)] at stores
      cases stores
    rw [Stores, grows.get_eq layout.owner inside]
    exact stores
  · have same := known found
    rw [same] at found ⊢
    exact formed.members_eq id ty found

end Arena

/-! ## Variables of a stage -/

/-- A scalar, a vector or a sampler that may be named. -/
def Ty.isProto : Ty -> Bool
  | .scalar _ | .sampler _ => true
  | .vector _ arity => 2 ≤ arity && arity ≤ 4
  | _ => false

/-- A type that may be named may be passed in, and may be an element. -/
theorem Ty.isInput_of_isProto (isProto : ty.isProto = true) :
    ty.IsInput stored ∧ ty.isElement = true := by
  cases ty with
  | scalar kind => exact ⟨.plain (.scalar kind), rfl⟩
  | sampler kind => exact ⟨.sampler kind, rfl⟩
  | vector kind arity =>
      simp only [Ty.isProto, Bool.and_eq_true, decide_eq_true_eq] at isProto
      exact ⟨.plain (.vector kind isProto.1 isProto.2), rfl⟩
  | _ => cases isProto

/-- A type that may be named and is no sampler may be stored. -/
theorem Ty.isPlain_of_isProto
    (isProto : ty.isProto = true)
    (isValue : ty.isSampler = false) :
    ty.IsPlain stored := by
  cases (isInput_of_isProto isProto : ty.IsInput stored ∧ _).1 with
  | plain isPlain => exact isPlain
  | sampler => cases isValue
  | samplers => cases isProto

/-- A built-in that involves scalars, vectors and samplers only and yields no
sampler. -/
def Builtin.isFormed : Builtin -> Bool
  | .type ty => ty.isProto
  | .function _ overloads => overloads.all fun signature =>
      signature.params.all Ty.isProto &&
        signature.result.all fun result => result.isProto && !result.isSampler
  | .stageVariable _ ty _ => ty.isProto && !ty.isSampler

/-- All built-ins involve scalars, vectors and samplers only. -/
theorem Builtin.all_isFormed (stage : Stage) :
    (Builtin.table stage).all Builtin.isFormed = true := by
  cases stage <;> decide +kernel

/-- The variables of a stage have types that they may have. -/
theorem Stage.isFormed_arena (stage : Stage) : stage.arena.IsFormed := by
  refine ⟨fun id ty found => ?_, fun id _ _ => Bundle.members_builtins stage id⟩
  rcases Nat.lt_or_ge id stage.arena.size with inside | outside
  · obtain ⟨builtin, mem, record_eq⟩ := Bundle.get_builtins stage inside
    have isBuiltin : (stage.arena.get id).decl = .builtin := by rw [record_eq]; rfl
    rw [record_eq] at found
    cases found
    have isFormed := List.all_eq_true.mp (Builtin.all_isFormed stage) builtin mem
    cases builtin with
    | type ty =>
        obtain ⟨isInput, isElement⟩ := Ty.isInput_of_isProto isFormed
        exact .builtinType isBuiltin isInput isElement
    | function name overloads =>
        simp only [Builtin.isFormed, List.all_eq_true, Bool.and_eq_true, Option.all_eq_true,
          Bool.not_eq_true'] at isFormed
        refine .builtinFunction isBuiltin (fun signature isOwn param mem => ?_)
          fun signature isOwn result mem => ?_
        · exact (Ty.isInput_of_isProto ((isFormed signature isOwn).1 param mem)).1
        · obtain ⟨isProto, isValue⟩ := (isFormed signature isOwn).2 result mem
          exact Ty.isPlain_of_isProto isProto isValue
    | stageVariable name ty writable =>
        simp only [Builtin.isFormed, Bool.and_eq_true, Bool.not_eq_true'] at isFormed
        exact .plain (Ty.isPlain_of_isProto isFormed.1 isFormed.2)
  · rw [Arena.get_of_size_le outside] at found
    cases found

end ModularGlsl
