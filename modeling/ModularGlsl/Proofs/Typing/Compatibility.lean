import Mathlib.Logic.Relation
import ModularGlsl.Proofs.Typing.Formed

/-!
# Compatibility of types is an equivalence

Compatible types have the same form without their attributions, up to values of known
integers: they agree in the kind of scalars, in arities and lengths, in the variables of
structs and in functions.  This makes compatibility an equivalence, and attributions play
no role for it wherever they stand.
-/

namespace ModularGlsl

namespace Ty

/-! ## Forms of compatible types -/

/-- Attribution of what is expected plays no role. -/
theorem bare_accepts : (expected got : Ty) -> expected.bare.accepts got = expected.accepts got
  | .scalar _, _ | .literal _, _ | .vector _ _, _ | .array _ _, _ | .struct _, _
  | .function _, _ | .sampler _, _ | .descriptor _, _ => rfl
  | .located expected _, got => by
      exact bare_accepts expected got

/-- Attribution of what is given plays no role. -/
theorem accepts_bare : (expected got : Ty) -> expected.accepts got.bare = expected.accepts got
  | .scalar _, _ | .literal _, _ | .vector _ _, _ | .array _ _, _ | .struct _, _
  | .function _, _ | .sampler _, _ | .descriptor _, _ => by
      simp only [accepts, bare_bare]
  | .located expected _, got => by
      exact accepts_bare expected got

/-- The forms that two compatible types have without their attributions. -/
inductive Compatible : Ty -> Ty -> Prop
  | scalar (kind : ScalarKind) : Compatible (.scalar kind) (.scalar kind)
  | literals (first second : Int) : Compatible (.literal first) (.literal second)
  | forget (value : Int) : Compatible (.literal value) .int
  | know (value : Int) : Compatible .int (.literal value)
  | vector (kind : ScalarKind) (arity : Nat) : Compatible (.vector kind arity) (.vector kind arity)
  | array
      {first second : Ty}
      (elements : Compatible first.bare second.bare)
      (length : Nat) :
      Compatible (.array first length) (.array second length)
  | struct
      {first second : Layout Ty}
      (owner_eq : first.owner = second.owner) :
      Compatible (.struct first) (.struct second)
  | function
      {first second : FunctionType Ty}
      (isSame : first.isSame second = true) :
      Compatible (.function first) (.function second)
  | sampler (kind : SamplerKind) : Compatible (.sampler kind) (.sampler kind)
  | descriptor
      {first second : Ty}
      (protos : Compatible first.bare second.bare) :
      Compatible (.descriptor first) (.descriptor second)

/-- Types of compatible forms accept each other. -/
theorem Compatible.accepts
    {expected got : Ty}
    (compatible : Compatible expected got) :
    expected.accepts got = true := by
  induction compatible with
  | scalar | literals | forget | know | vector | sampler => simp [Ty.accepts, bare]
  | struct owner_eq => simpa [Ty.accepts, bare] using owner_eq
  | function isSame => exact isSame
  | array _ length ih =>
      rw [bare_accepts, accepts_bare] at ih
      simpa [Ty.accepts, bare] using ih
  | descriptor _ ih =>
      rw [bare_accepts, accepts_bare] at ih
      exact ih

/-- A type accepts those of a compatible form only. -/
theorem compatible_of_accepts
    (expected got : Ty)
    (accepted : expected.accepts got = true) :
    Compatible expected.bare got.bare := by
  match expected with
  | .located expected _ => exact compatible_of_accepts expected got accepted
  | .scalar kind =>
      rw [Ty.accepts] at accepted
      split at accepted
      next form =>
        rw [form, beq_iff_eq.mp accepted]
        exact .scalar _
      next value form =>
        rw [form, beq_iff_eq.mp accepted]
        exact .know value
      next => cases accepted
  | .literal value =>
      rw [Ty.accepts] at accepted
      split at accepted
      next form =>
        rw [form, beq_iff_eq.mp accepted]
        exact .forget value
      next other form =>
        rw [form]
        exact .literals value other
      next => cases accepted
  | .vector kind arity =>
      rw [Ty.accepts] at accepted
      split at accepted
      next form =>
        rw [Bool.and_eq_true, beq_iff_eq, beq_iff_eq] at accepted
        rw [form, accepted.1, accepted.2]
        exact .vector _ _
      next => cases accepted
  | .array element length =>
      rw [Ty.accepts] at accepted
      split at accepted
      next other _ form =>
        rw [Bool.and_eq_true, beq_iff_eq] at accepted
        rw [form, accepted.1]
        exact .array (compatible_of_accepts element other accepted.2) _
      next => cases accepted
  | .struct layout =>
      rw [Ty.accepts] at accepted
      split at accepted
      next form =>
        rw [form]
        exact .struct (beq_iff_eq.mp accepted)
      next => cases accepted
  | .function callable =>
      rw [Ty.accepts] at accepted
      split at accepted
      next form =>
        rw [form]
        exact .function accepted
      next => cases accepted
  | .sampler kind =>
      rw [Ty.accepts] at accepted
      split at accepted
      next form =>
        rw [form, beq_iff_eq.mp accepted]
        exact .sampler _
      next => cases accepted
  | .descriptor proto =>
      rw [Ty.accepts] at accepted
      split at accepted
      next other form =>
        rw [form]
        exact .descriptor (compatible_of_accepts proto other accepted)
      next => cases accepted

/-- A type accepts exactly those of a compatible form. -/
theorem accepts_iff_compatible {expected got : Ty} :
    expected.accepts got = true ↔ Compatible expected.bare got.bare := by
  refine ⟨compatible_of_accepts expected got, fun compatible => ?_⟩
  rw [← bare_accepts, ← accepts_bare]
  exact compatible.accepts

end Ty

/-! ## An equivalence -/

theorem FunctionType.isSame_comm
    {τ : Type}
    (first second : FunctionType τ) :
    first.isSame second = second.isSame first := by
  unfold isSame
  rw [Bool.beq_comm, Bool.beq_comm (a := first.origin)]
  cases same : second.origin == first.origin with
  | false => simp
  | true => rw [beq_iff_eq.mp same]

variable {origins : Nat -> Option VarId}

/-- If functions have the origins of their numbers, then two that are the same as a third
one are the same. -/
theorem FunctionType.isSame_trans
    {τ : Type}
    {first second third : FunctionType τ}
    (firstOrigin : first.origin = origins first.identity)
    (secondOrigin : second.origin = origins second.identity)
    (thirdOrigin : third.origin = origins third.identity)
    (early : first.isSame second = true)
    (late : second.isSame third = true) :
    first.isSame third = true := by
  unfold isSame at *
  simp only [Bool.or_eq_true, Bool.and_eq_true, beq_iff_eq] at *
  rcases early with early | ⟨known, early⟩
  · rcases late with late | ⟨known, late⟩
    · exact .inl (early.trans late)
    · have origin_eq : first.origin = second.origin := by
        rw [firstOrigin, secondOrigin, early]
      exact .inr ⟨origin_eq ▸ known, origin_eq.trans late⟩
  · rcases late with late | ⟨_, late⟩
    · have origin_eq : second.origin = third.origin := by
        rw [secondOrigin, thirdOrigin, late]
      exact .inr ⟨known, early.trans origin_eq⟩
    · exact .inr ⟨known, early.trans late⟩

namespace Ty

theorem compatible_refl : (ty : Ty) -> Compatible ty.bare ty.bare
  | .scalar kind => .scalar kind
  | .literal value => .literals value value
  | .vector kind arity => .vector kind arity
  | .array element length => .array (compatible_refl element) length
  | .struct _ => .struct rfl
  | .function _ => .function (by simp [FunctionType.isSame])
  | .sampler kind => .sampler kind
  | .descriptor proto => .descriptor (compatible_refl proto)
  | .located ty _ => compatible_refl ty

variable {first second firstOther secondOther : Ty}

theorem Compatible.symm (compatible : Compatible first second) :
    Compatible second first := by
  induction compatible with
  | scalar kind => exact .scalar kind
  | literals first second => exact .literals second first
  | forget value => exact .know value
  | know value => exact .forget value
  | vector kind arity => exact .vector kind arity
  | array _ length ih => exact .array ih length
  | struct owner_eq => exact .struct owner_eq.symm
  | function isSame => exact .function ((FunctionType.isSame_comm _ _).trans isSame)
  | sampler kind => exact .sampler kind
  | descriptor _ ih => exact .descriptor ih

/-- Every function in a type has the origin of its number, so that functions made under
one number are declared by one variable. -/
def IsNumbered
    (origins : Nat -> Option VarId)
    (ty : Ty) : Prop :=
  ∀ callable, ty.Holds (.function callable) -> callable.origin = origins callable.identity

/-- What a type holds without its attributions it holds. -/
theorem Holds.of_bare : {ty part : Ty} -> ty.bare.Holds part -> ty.Holds part
  | .scalar _, _, holds | .literal _, _, holds | .vector _ _, _, holds | .array _ _, _, holds
  | .struct _, _, holds | .function _, _, holds | .sampler _, _, holds
  | .descriptor _, _, holds => holds
  | .located ty span, part, holds => .located (@of_bare ty part holds) span

/-- A type without its attributions. -/
theorem IsNumbered.bare
    {ty : Ty}
    (numbered : ty.IsNumbered origins) :
    ty.bare.IsNumbered origins :=
  fun callable holds => numbered callable holds.of_bare

theorem IsNumbered.element
    {element : Ty}
    {length : Nat}
    (numbered : (Ty.array element length).IsNumbered origins) :
    element.IsNumbered origins :=
  fun callable holds => numbered callable (.element holds length)

theorem IsNumbered.proto
    {proto : Ty}
    (numbered : (Ty.descriptor proto).IsNumbered origins) :
    proto.IsNumbered origins :=
  fun callable holds => numbered callable (.proto holds)

theorem Compatible.trans
    {third : Ty}
    (early : Compatible first second)
    (late : Compatible second third)
    (firstNumbered : first.IsNumbered origins)
    (secondNumbered : second.IsNumbered origins)
    (thirdNumbered : third.IsNumbered origins) :
    Compatible first third := by
  induction early generalizing third with
  | scalar | literals | forget | know | vector | sampler =>
      cases late
      all_goals constructor
  | array _ length ih =>
      cases late with
      | array elements _ =>
          exact .array (ih elements firstNumbered.element.bare
            secondNumbered.element.bare thirdNumbered.element.bare) length
  | struct owner_eq =>
      cases late with
      | struct other_eq => exact .struct (owner_eq.trans other_eq)
  | function isSame =>
      cases late with
      | function otherSame =>
          exact .function (FunctionType.isSame_trans (firstNumbered _ (.self _))
            (secondNumbered _ (.self _)) (thirdNumbered _ (.self _)) isSame otherSame)
  | descriptor _ ih =>
      cases late with
      | descriptor protos =>
          exact .descriptor (ih protos firstNumbered.proto.bare
            secondNumbered.proto.bare thirdNumbered.proto.bare)

theorem accepts_refl (ty : Ty) : ty.accepts ty = true :=
  accepts_iff_compatible.mpr (compatible_refl ty)

theorem accepts_symm (accepted : first.accepts second = true) :
    second.accepts first = true :=
  accepts_iff_compatible.mpr (accepts_iff_compatible.mp accepted).symm

theorem accepts_comm (first second : Ty) : first.accepts second = second.accepts first :=
  Bool.eq_iff_iff.mpr ⟨accepts_symm, accepts_symm⟩

/-- Compatibility is transitive among types whose functions have the origins of their
numbers. -/
theorem accepts_trans
    {third : Ty}
    (firstNumbered : first.IsNumbered origins)
    (secondNumbered : second.IsNumbered origins)
    (thirdNumbered : third.IsNumbered origins)
    (early : first.accepts second = true)
    (late : second.accepts third = true) :
    first.accepts third = true :=
  accepts_iff_compatible.mpr ((accepts_iff_compatible.mp early).trans
    (accepts_iff_compatible.mp late) firstNumbered.bare secondNumbered.bare thirdNumbered.bare)

theorem accepts_congr
    (firstNumbered : first.IsNumbered origins)
    (firstOtherNumbered : firstOther.IsNumbered origins)
    (secondNumbered : second.IsNumbered origins)
    (secondOtherNumbered : secondOther.IsNumbered origins)
    (firstSame : first.accepts firstOther = true)
    (secondSame : second.accepts secondOther = true) :
    first.accepts second = firstOther.accepts secondOther := by
  refine Bool.eq_iff_iff.mpr ⟨fun accepted => ?_, fun accepted => ?_⟩
  · refine accepts_trans firstOtherNumbered firstNumbered secondOtherNumbered
      (accepts_symm firstSame) ?_
    exact accepts_trans firstNumbered secondNumbered secondOtherNumbered accepted secondSame
  · refine accepts_trans firstNumbered firstOtherNumbered secondNumbered firstSame ?_
    exact accepts_trans firstOtherNumbered secondOtherNumbered secondNumbered accepted
      (accepts_symm secondSame)

/-! ## Attributions -/

/-- An attribution is added somewhere in a type: around it, in an element, a field, a
parameter, a result or a descriptor, or under other attributions. -/
inductive Attributed : Ty -> Ty -> Prop
  | around (ty : Ty) (span : Span) : Attributed ty (.located ty span)
  | element
      {before after : Ty}
      (inside : Attributed before after)
      (length : Nat) :
      Attributed (.array before length) (.array after length)
  | field
      {before after : Ty}
      (inside : Attributed before after)
      (owner : VarId)
      (struct field : String)
      (span : Span)
      (early late : List (Field Ty)) :
      Attributed (.struct ⟨owner, struct, early ++ ⟨field, before, span⟩ :: late⟩)
        (.struct ⟨owner, struct, early ++ ⟨field, after, span⟩ :: late⟩)
  | param
      {before after : Ty}
      (inside : Attributed before after)
      (identity : Nat)
      (name : String)
      (origin : Option VarId)
      (early late : List (Signature Ty))
      (earlyParams lateParams : List Ty)
      (result : Option Ty) :
      Attributed
        (.function ⟨identity, name, origin,
          early ++ ⟨earlyParams ++ before :: lateParams, result⟩ :: late⟩)
        (.function ⟨identity, name, origin,
          early ++ ⟨earlyParams ++ after :: lateParams, result⟩ :: late⟩)
  | result
      {before after : Ty}
      (inside : Attributed before after)
      (identity : Nat)
      (name : String)
      (origin : Option VarId)
      (early late : List (Signature Ty))
      (params : List Ty) :
      Attributed (.function ⟨identity, name, origin, early ++ ⟨params, some before⟩ :: late⟩)
        (.function ⟨identity, name, origin, early ++ ⟨params, some after⟩ :: late⟩)
  | proto
      {before after : Ty}
      (inside : Attributed before after) :
      Attributed (.descriptor before) (.descriptor after)
  | under
      {before after : Ty}
      (inside : Attributed before after)
      (span : Span) :
      Attributed (.located before span) (.located after span)

/-- Types that differ in attributions only, in whatever places. -/
abbrev DifferInPlaces : Ty -> Ty -> Prop :=
  Relation.EqvGen Attributed

theorem Attributed.accepts_eq
    {before after : Ty}
    (attributed : Attributed before after)
    (got : Ty) :
    before.accepts got = after.accepts got := by
  induction attributed generalizing got with
  | around | field | param | result => rfl
  | element _ _ ih | proto _ ih
  | under _ _ ih => simp only [Ty.accepts, ih]

theorem DifferInPlaces.accepts_eq
    (firstSame : DifferInPlaces first firstOther)
    (secondSame : DifferInPlaces second secondOther) :
    first.accepts second = firstOther.accepts secondOther := by
  have expected {before after : Ty} (same : DifferInPlaces before after) (got : Ty) :
      before.accepts got = after.accepts got := by
    induction same with
    | rel _ _ attributed => exact attributed.accepts_eq got
    | refl => rfl
    | symm _ _ _ ih => exact ih.symm
    | trans _ _ _ _ _ early late => exact early.trans late
  rw [expected firstSame, accepts_comm, expected secondSame, accepts_comm]

end Ty

end ModularGlsl
