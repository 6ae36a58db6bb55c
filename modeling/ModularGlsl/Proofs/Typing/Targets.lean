import ModularGlsl.Proofs.Typing.Rules
import ModularGlsl.Proofs.Typing

/-!
# Targets of stores

A target leads to a variable through members, constant elements and parentheses.
`Expr.StoresTo` says so without the check of targets, and an assignment passes only if its
target leads to a variable that is not constant.
-/

namespace ModularGlsl

/-! ## Types of targets -/

variable {span : Span}

variable {key : String}

/-- Where a member is read does not matter. -/
theorem Ty.member_elsewhere
    {object result : Ty}
    (typed : object.member key span = .ok result)
    (other : Span) :
    object.member key other = .ok result := by
  unfold Ty.member at typed ⊢
  split at typed
  · split at typed
    · exact typed
    · cases typed
  · split at typed
    · exact typed
    · cases typed
  · cases typed

/-- Where an element is read does not matter. -/
theorem Ty.index_elsewhere
    {container result : Ty}
    {position : Int}
    (typed : container.index position span = .ok result)
    (other : Span) :
    container.index position other = .ok result := by
  unfold Ty.index at typed ⊢
  split at typed
  next element length isIndexed =>
    split at typed
    next inside => rw [if_pos inside, typed]
    next => cases typed
  next => cases typed

variable {arena : Arena}

theorem Expr.typeOf_of_targetType
    (target : Expr)
    {ty : Ty}
    (typed : target.targetType arena = .ok ty) :
    target.typeOf arena = .ok ty := by
  match target with
  | .var ident =>
      obtain ⟨_, _, typed⟩ := except_bind_eq_ok.mp typed
      split at typed
      · cases typed
      · exact typed
  | .member _ _ none _ | .index _ _ _ =>
      obtain ⟨_, _, typed⟩ := except_bind_eq_ok.mp typed
      exact typed
  | .paren inner _ =>
      exact inner.typeOf_of_targetType typed
  | .member _ _ (some _) _ | .int _ _ | .float _ _ | .bool _ _ | .getIndex _ _ _ _
  | .call _ _ _ | .binary _ _ _ _ | .unary _ _ _ => cases typed

/-! ## What a target leads to -/

/-- A store to the target changes a variable that is not constant.  Members of packages
lead to none. -/
inductive Expr.StoresTo (arena : Arena) : Expr -> VarId -> Prop
  /-- The variable itself. -/
  | var
      {ident : Ident}
      {id : VarId}
      (bound : ident.var = some id)
      (changes : (arena.get id).constant = false) :
      StoresTo arena (.var ident) id
  /-- A swizzle or a field. -/
  | member
      {object : Expr}
      {key : String}
      {span : Span}
      {id : VarId}
      (inner : StoresTo arena object id) :
      StoresTo arena (.member object key none span) id
  /-- An element at a known index. -/
  | index
      {container position : Expr}
      {span : Span}
      {id : VarId}
      {value : Int}
      (inner : StoresTo arena container id)
      (known : position.constantIndex arena = .ok value) :
      StoresTo arena (.index container position span) id
  /-- A target in parentheses. -/
  | paren
      {target : Expr}
      {span : Span}
      {id : VarId}
      (inner : StoresTo arena target id) :
      StoresTo arena (.paren target span) id

variable {target : Expr}

variable {id : VarId}

theorem Expr.StoresTo.mem_reads (stores : target.StoresTo arena id) :
    id ∈ target.reads := by
  induction stores with
  | var bound _ => simp [Expr.reads, bound]
  | member _ ih => exact ih
  | index _ _ ih => exact List.mem_append_left _ ih
  | paren _ ih => exact ih

theorem Expr.StoresTo.constant_eq
    (stores : target.StoresTo arena id) :
    (arena.get id).constant = false := by
  induction stores with
  | var _ changes => exact changes
  | member _ ih => exact ih
  | index _ _ ih => exact ih
  | paren _ ih => exact ih

theorem Expr.targetType_member_iff
    {object : Expr}
    {ty : Ty} :
    (Expr.member object key none span).targetType arena = .ok ty ↔
      ∃ inner, object.targetType arena = .ok inner ∧ inner.member key span = .ok ty := by
  rw [Expr.targetType, except_bind_eq_ok]
  refine exists_congr fun inner => and_congr_right fun objectFound => ?_
  have objectTyped := object.typeOf_of_targetType objectFound
  rw [Expr.typeOf, except_bind_eq_ok]
  constructor
  · rintro ⟨other, otherTyped, member⟩
    cases objectTyped.symm.trans otherTyped
    exact typing_eq_ok.mp member
  · intro member
    exact ⟨inner, objectTyped, typing_eq_ok.mpr member⟩

theorem Expr.targetType_index_iff
    {container position : Expr}
    {ty : Ty} :
    (Expr.index container position span).targetType arena = .ok ty ↔
      ∃ inner, container.targetType arena = .ok inner ∧
        ∃ value, position.constantIndex arena = .ok value ∧ inner.index value span = .ok ty := by
  rw [Expr.targetType, except_bind_eq_ok]
  refine exists_congr fun inner => and_congr_right fun containerFound => ?_
  have containerTyped := container.typeOf_of_targetType containerFound
  rw [Expr.typeOf, except_bind_eq_ok]
  constructor
  · rintro ⟨other, otherTyped, typed⟩
    cases containerTyped.symm.trans otherTyped
    obtain ⟨index, positionTyped, typed⟩ := except_bind_eq_ok.mp typed
    obtain ⟨value, known, element⟩ := except_bind_eq_ok.mp typed
    exact ⟨value, except_bind_eq_ok.mpr ⟨index, positionTyped, known⟩, typing_eq_ok.mp element⟩
  · rintro ⟨value, known, element⟩
    obtain ⟨index, positionTyped, known⟩ := except_bind_eq_ok.mp known
    refine ⟨inner, containerTyped, except_bind_eq_ok.mpr ⟨index, positionTyped, ?_⟩⟩
    exact except_bind_eq_ok.mpr ⟨value, known, typing_eq_ok.mpr element⟩

/-- A target that passes the check leads to a variable. -/
theorem Expr.exists_storesTo_of_targetType
    (target : Expr)
    {ty : Ty}
    (found : target.targetType arena = .ok ty) :
    ∃ id, target.StoresTo arena id := by
  match target with
  | .var ident =>
      obtain ⟨id, bound, found⟩ := except_bind_eq_ok.mp found
      split at found
      · cases found
      · next changes => exact ⟨id, .var (Ident.bound_eq_ok.mp bound) (by simpa using changes)⟩
  | .member object _ none _ =>
      obtain ⟨_, objectFound, _⟩ := Expr.targetType_member_iff.mp found
      obtain ⟨id, inner⟩ := object.exists_storesTo_of_targetType objectFound
      exact ⟨id, .member inner⟩
  | .index container _ _ =>
      obtain ⟨_, containerFound, value, known, _⟩ := Expr.targetType_index_iff.mp found
      obtain ⟨id, inner⟩ := container.exists_storesTo_of_targetType containerFound
      exact ⟨id, .index inner known⟩
  | .paren target _ =>
      obtain ⟨id, inner⟩ := target.exists_storesTo_of_targetType found
      exact ⟨id, .paren inner⟩
  | .member _ _ (some _) _ | .int _ _ | .float _ _ | .bool _ _ | .getIndex _ _ _ _
  | .call _ _ _ | .binary _ _ _ _ | .unary _ _ _ => cases found

/-! ## Stores -/

/-- Under its parentheses, a target is a swizzle of a vector that names a component
twice. -/
def Expr.RepeatsComponent (arena : Arena) : Expr -> Prop
  | .member object key none _ => ∃ ty kind arity, object.typeOf arena = .ok ty ∧
      ty.bare = .vector kind arity ∧ ¬key.toList.Nodup
  | .paren inner _ => inner.RepeatsComponent arena
  | _ => False

theorem Ty.setMember_eq_ok_iff
    {object value : Ty}
    {span : Span} :
    object.setMember key value span = .ok () ↔
      ∃ ty, object.member key span = .ok ty ∧ ty.accepts value = true ∧
        ¬∃ kind arity, object.bare = .vector kind arity ∧ ¬key.toList.Nodup := by
  have repeats : object.repeatsComponent key = true ↔
      ∃ kind arity, object.bare = .vector kind arity ∧ ¬key.toList.Nodup := by
    unfold Ty.repeatsComponent
    split
    · next kind arity bare_eq => simp [bare_eq]
    · next other =>
        simp only [Bool.false_eq_true, false_iff, not_exists, not_and]
        exact fun kind arity bare_eq => (other kind arity bare_eq).elim
  unfold Ty.setMember
  rw [except_bind_eq_ok, ← repeats]
  refine exists_congr fun ty => and_congr_right fun _ => ?_
  by_cases isRepeated : object.repeatsComponent key = true
  · simp [isRepeated]
  · rw [if_neg isRepeated, Ty.check_eq_ok_iff]
    simp [isRepeated]

/-- A value may be stored to a target exactly if its type accepts the value and no
component is repeated. -/
theorem Expr.checkStore_eq_ok_iff
    (target : Expr)
    {value : Ty}
    {span : Span} :
    target.checkStore arena value span = .ok () ↔
      ∃ ty, target.targetType arena = .ok ty ∧ ty.accepts value = true ∧
        ¬target.RepeatsComponent arena := by
  match target with
  | .member object key none own =>
      rw [Expr.checkStore, except_bind_eq_ok]
      simp only [Expr.targetType_member_iff, typing_eq_ok, Ty.setMember_eq_ok_iff,
        Expr.RepeatsComponent]
      constructor
      · rintro ⟨inner, objectFound, ty, member, accepted, single⟩
        refine ⟨ty, ⟨inner, objectFound, Ty.member_elsewhere member own⟩, accepted, ?_⟩
        rintro ⟨other, kind, arity, otherTyped, repeats⟩
        cases (object.typeOf_of_targetType objectFound).symm.trans otherTyped
        exact single ⟨kind, arity, repeats⟩
      · rintro ⟨ty, ⟨inner, objectFound, member⟩, accepted, single⟩
        refine ⟨inner, objectFound, ty, Ty.member_elsewhere member span, accepted, ?_⟩
        rintro ⟨kind, arity, repeats⟩
        exact single ⟨inner, kind, arity, object.typeOf_of_targetType objectFound, repeats⟩
  | .index container position own =>
      rw [Expr.checkStore, except_bind_eq_ok]
      simp only [Expr.targetType_index_iff, Expr.RepeatsComponent]
      constructor
      · rintro ⟨inner, containerFound, stored⟩
        obtain ⟨value, known, stored⟩ := except_bind_eq_ok.mp stored
        obtain ⟨ty, element, accepted⟩ := except_bind_eq_ok.mp (typing_eq_ok.mp stored)
        exact ⟨ty, ⟨inner, containerFound, value, known, Ty.index_elsewhere element own⟩,
          Ty.check_eq_ok_iff.mp accepted, id⟩
      · rintro ⟨ty, ⟨inner, containerFound, value, known, element⟩, accepted, _⟩
        refine ⟨inner, containerFound, except_bind_eq_ok.mpr ⟨value, known, typing_eq_ok.mpr ?_⟩⟩
        exact except_bind_eq_ok.mpr
          ⟨ty, Ty.index_elsewhere element span, Ty.check_eq_ok_iff.mpr accepted⟩
  | .paren inner _ =>
      exact inner.checkStore_eq_ok_iff
  | .int _ _ | .float _ _ | .bool _ _ | .var _ | .member _ _ (some _) _ | .getIndex _ _ _ _
  | .call _ _ _ | .binary _ _ _ _ | .unary _ _ _ =>
      rw [Expr.checkStore, except_bind_eq_ok]
      · refine exists_congr fun ty => and_congr_right fun _ => ?_
        rw [typing_eq_ok, Ty.check_eq_ok_iff]
        simp [Expr.RepeatsComponent]
      all_goals simp

/-! ## Expressions with types -/

/-- An expression has a type. -/
def Expr.HasType
    (arena : Arena)
    (expr : Expr) : Prop :=
  ∃ ty, expr.typeOf arena = .ok ty

theorem Expr.hasType_of_typesOf
    {exprs : List Expr}
    {tys : List Ty}
    (typed : Expr.typesOf arena exprs = .ok tys) :
    ∀ expr ∈ exprs, expr.HasType arena :=
  fun expr mem => ⟨_, (Expr.of_typesOf typed).1 expr mem⟩

namespace Typing

/-- The value of an assignment has a type, and its target passes the check of targets. -/
theorem exists_of_checkAssign
    {value : Expr}
    {op : AssignOp}
    {done : Unit}
    (found : checkAssign arena target op value span = .ok done) :
    value.HasType arena ∧ ∃ ty, target.targetType arena = .ok ty := by
  obtain ⟨ty, valueTyped, found⟩ := except_bind_eq_ok.mp found
  refine ⟨⟨ty, valueTyped⟩, ?_⟩
  split at found
  · obtain ⟨current, targetFound, _⟩ := except_bind_eq_ok.mp found
    exact ⟨current, targetFound⟩
  · obtain ⟨current, targetFound, _⟩ := target.checkStore_eq_ok_iff.mp found
    exact ⟨current, targetFound⟩

end Typing

end ModularGlsl
