import ModularGlsl.Proofs.Naming.Preserve

/-!
# Two runs of naming

Naming decides what to do next by the modules alone, never by the names that it has
given.  Two runs over the same modules therefore go in lockstep: they fail at the
same identifier or not at all, and whatever relates their states and is kept by
single steps relates them at the end.  With equal states this says what a single
run keeps.
-/

namespace ModularGlsl
namespace FinalNames

/-- The state after a variable got a name. -/
def State.assign
    (state : State)
    (level : LevelId)
    (var : VarId) : State :=
  { tree := (state.tree.assign state.arena level var).1
    arena := (state.tree.assign state.arena level var).2 }

@[simp] theorem State.size_assign
    (state : State)
    (level : LevelId)
    (var : VarId) :
    (state.assign level var).tree.levels.size = state.tree.levels.size := by
  unfold State.assign NameTree.assign
  split
  · rfl
  · split
    · exact NameTree.size_claim ..
    · rfl

/-- The state after a level was opened. -/
def State.addLevel
    (state : State)
    (parent : LevelId)
    (isFunction : Bool) : State :=
  { state with tree := state.tree.addLevel parent isFunction }

/-- A relation between states that single steps keep. -/
structure Lockstep
    (assignable : VarId -> Prop)
    (related : State -> State -> Prop) : Prop where
  /-- Levels have the same numbers. -/
  size_eq : ∀ {first second}, related first second ->
    second.tree.levels.size = first.tree.levels.size
  /-- Levels may be opened. -/
  addLevel : ∀ {first second level} isFunction, related first second ->
    level < first.tree.levels.size ->
      related (first.addLevel level isFunction) (second.addLevel level isFunction)
  /-- Variables may get names. -/
  assign : ∀ {first second level var}, related first second ->
    level < first.tree.levels.size -> assignable var ->
      related (first.assign level var) (second.assign level var)

section Traversal

variable {α β : Type} {assignable : VarId -> Prop} {related : State -> State -> Prop}
variable {usage : Usage}

/-- A relation between states with a number of levels. -/
def AtLeast
    (related : State -> State -> Prop)
    (levels : Nat)
    (first second : State) : Prop :=
  related first second ∧ levels ≤ first.tree.levels.size

/-- A step goes in lockstep from states with a number of levels. -/
def Agrees
    (related : State -> State -> Prop)
    (levels : Nat)
    (step : Name α) : Prop :=
  ∀ first second, AtLeast related levels first second ->
    Agree (AtLeast related levels) (step first) (step second)

theorem Agrees.pure
    (levels : Nat)
    (value : α) :
    Agrees related levels (Pure.pure value : Name α) :=
  fun _ _ held => .ok held

variable {levels : Nat}

theorem Agrees.bind
    {early : Name α}
    {late : α -> Name β}
    (first : Agrees related levels early)
    (second : ∀ value, Agrees related levels (late value)) :
    Agrees related levels (early >>= late) :=
  fun _ _ held => .bind (first _ _ held) (fun _ _ => id) fun value _ _ _ _ => second value _ _

variable {level : LevelId}

theorem Agrees.openLevel
    (lockstep : Lockstep assignable related)
    (inside : level < levels)
    (isFunction : Bool)
    {late : LevelId -> Name α}
    (next : ∀ inner, levels ≤ inner -> Agrees related (inner + 1) (late inner)) :
    Agrees related levels (openLevel level isFunction >>= late) := by
  rintro first second ⟨held, enough⟩
  have opened := lockstep.addLevel isFunction held (Nat.lt_of_lt_of_le inside enough)
  have size_eq : (first.addLevel level isFunction).tree.levels.size = first.tree.levels.size + 1 :=
    NameTree.size_addLevel ..
  have agree := next _ enough _ _ ⟨opened, Nat.le_of_eq size_eq.symm⟩
  change Agree _ (late first.tree.levels.size (first.addLevel level isFunction))
    (late second.tree.levels.size (second.addLevel level isFunction))
  rw [lockstep.size_eq held]
  exact agree.mono fun _ _ both => ⟨both.1, Nat.le_trans (Nat.le_succ_of_le enough) both.2⟩

variable {ident : Ident}

theorem agrees_assignIdent
    (lockstep : Lockstep assignable related)
    (inside : level < levels)
    (mayAssign : ∀ var ∈ ident.var, assignable var) :
    Agrees related levels (assignIdent level ident) := by
  rintro first second ⟨held, enough⟩
  cases bound : ident.var with
  | none =>
      have failed (state : State) : assignIdent level ident state =
          .error (.internal (.unresolved ident.name ident.span)) state := by
        simp [assignIdent, boundVar, Ident.bound, bound]
        rfl
      rw [failed, failed]
      exact .error ⟨held, enough⟩
  | some var =>
      have succeeded (state : State) : assignIdent level ident state =
          .ok () (state.assign level var) :=
        assignIdent_eq_ok.mpr ⟨var, bound, rfl⟩
      rw [succeeded, succeeded]
      have assigned := lockstep.assign held (Nat.lt_of_lt_of_le inside enough) (mayAssign var bound)
      exact .ok ⟨assigned, by rw [State.size_assign]; exact enough⟩

variable {functions : List VarId}

/-- The variables of declarations may get names. -/
theorem mayAssign_of_sites
    {keeps : Bool}
    (mayAssign : ∀ site ∈ ident.sites functions keeps, assignable site.var) :
    ∀ var ∈ ident.var, assignable var := by
  intro var bound
  refine mayAssign ⟨var, ident.name, functions, keeps⟩ ?_
  rw [Ident.sites, bound]
  exact List.mem_cons_self

/-- A traversal goes in lockstep if what it meets may get names. -/
theorem Visits.agrees
    (lockstep : Lockstep assignable related)
    {sites : List Site}
    {step : Name Unit}
    (visits : Visits sites functions level step)
    (inside : level < levels)
    (mayAssign : ∀ site ∈ sites, assignable site.var) :
    Agrees related levels step := by
  induction visits generalizing levels with
  | pure => exact .pure levels ()
  | ident => exact agrees_assignIdent lockstep inside (mayAssign_of_sites mayAssign)
  | bind _ _ early late =>
      obtain ⟨isEarly, isLate⟩ := List.forall_mem_append.mp mayAssign
      exact .bind (early inside isEarly) fun _ => late inside isLate
  | block _ within =>
      exact .openLevel lockstep inside false fun inner _ =>
        within inner (Nat.lt_succ_self inner) mayAssign
  | function _ _ _ within =>
      obtain ⟨own, isWithin⟩ := List.forall_mem_append.mp mayAssign
      refine .bind (agrees_assignIdent lockstep inside (mayAssign_of_sites own)) fun _ => ?_
      exact .openLevel lockstep inside true fun inner _ =>
        within inner (Nat.lt_succ_self inner) isWithin

end Traversal

end FinalNames
end ModularGlsl
