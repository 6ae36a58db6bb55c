import ModularGlsl.FinalNames
import ModularGlsl.Proofs.Binding.Program

/-!
# Failures of naming

Naming fails where two names that have to be kept are the same.  It never meets an
identifier that is not bound, and once the names that have to be kept are claimed it
does not fail any more.
-/

namespace ModularGlsl

/-- The accessor has a variable. -/
def Accessor.IsNamed (accessor : Accessor) : Prop :=
  ∃ var, accessor.name.var = some var

variable {arena : Arena} {first last : Place} {ident : Ident}

/-- What a bound statement declares is bound, accessors included. -/
theorem Stmt.IsBound.exists_var
    {stmt : Stmt}
    (bound : stmt.IsBound arena Accessor.IsNamed first last)
    (declared : stmt.declared? = some ident) :
    ∃ var, ident.var = some var := by
  match stmt with
  | .interface _ | .struct _ =>
      obtain ⟨_, declares, _⟩ := bound
      cases declared
      exact ⟨_, declares.var_eq⟩
  | .const _ | .var _ =>
      obtain ⟨_, _, declares, _⟩ := bound
      cases declared
      exact ⟨_, declares.var_eq⟩
  | .function _ _ =>
      obtain ⟨declares, _⟩ := bound
      cases declared
      exact ⟨_, declares.var_eq⟩
  | .accessor decl =>
      cases declared
      exact bound.1

namespace FinalNames

/-- The error is an internal one. -/
def IsInternal : Diagnostic -> Prop
  | .internal _ => True
  | _ => False

/-- A step never fails with an error of a kind. -/
def Avoids
    {α : Type}
    (kind : Diagnostic -> Prop)
    (step : Name α) : Prop :=
  ∀ state error after, kind error -> step state ≠ .error error after

variable {kind : Diagnostic -> Prop}

section Steps

variable {α β : Type} {step : Name α}

/-- A step that never fails has a result. -/
theorem Avoids.exists_ok
    (avoids : Avoids (fun _ => True) step)
    (state : State) :
    ∃ value after, step state = .ok value after := by
  cases outcome : step state with
  | ok value after => exact ⟨value, after, rfl⟩
  | error error after => exact absurd outcome (avoids state error after trivial)

theorem Avoids.pure (value : α) : Avoids kind (Pure.pure value : Name α) := by
  rintro state error after _ ⟨⟩

variable {next : α -> Name β}

theorem Avoids.bind
    {first : Name α}
    (early : Avoids kind first)
    (late : ∀ value, Avoids kind (next value)) :
    Avoids kind (first >>= next) := by
  intro state error after isKind failed
  rcases bind_eq_error.mp failed with failed | ⟨value, middle, _, failed⟩
  · exact early state error after isKind failed
  · exact late value middle error after isKind failed

theorem avoids_get : Avoids kind (get : Name State) := by
  rintro state error after _ ⟨⟩

theorem avoids_boundVar (bound : ∃ var, ident.var = some var) :
    Avoids kind (boundVar ident) := by
  obtain ⟨var, bound⟩ := bound
  rw [boundVar, Ident.bound_eq_ok.mpr bound]
  exact .pure var

theorem avoids_preserveVar (var : VarId) : Avoids IsInternal (preserveVar var) := by
  refine .bind avoids_get fun state => ?_
  split
  · rintro _ error after _ ⟨⟩
  · rintro _ error after isKind ⟨⟩
    exact isKind

/-- A bound identifier gets a name. -/
theorem avoids_assignIdent
    (level : LevelId)
    (bound : ∃ var, ident.var = some var) :
    Avoids kind (assignIdent level ident) := by
  refine .bind (avoids_boundVar bound) fun var => ?_
  rintro state error after _ ⟨⟩

theorem avoids_openLevel
    (parent : LevelId)
    (isFunction : Bool) :
    Avoids kind (openLevel parent isFunction) := by
  rintro state error after _ ⟨⟩

theorem avoids_assignParams
    (level : LevelId)
    {params : List Param}
    (bound : Param.AreBound arena params first last) :
    Avoids kind (assignParams level params) := by
  induction params generalizing first with
  | nil => exact .pure ()
  | cons param rest ih =>
      obtain ⟨_, declares, restBound⟩ := bound
      exact .bind (avoids_assignIdent level ⟨_, declares.var_eq⟩) fun _ =>
        ih restBound

end Steps

section Statements

variable {usage : Usage}

mutual

/-- The declarations of a bound statement get names. -/
theorem avoids_assignStmt
    (level : LevelId)
    (stmt : Stmt)
    {first last : Place}
    (bound : stmt.IsBound arena Accessor.IsNamed first last) :
    Avoids kind (assignStmt usage level stmt) := by
  cases stmt with
  | interface _ | const _ | var _ | struct _ | accessor _ =>
      exact avoids_assignIdent level (bound.exists_var rfl)
  | function header body =>
      obtain ⟨declares, _, _, _, paramsBound, bodyBound, _⟩ := bound
      refine .bind (avoids_assignIdent level ⟨_, declares.var_eq⟩) fun _ => ?_
      refine .bind (avoids_openLevel level true) fun inner => ?_
      refine .bind (avoids_assignParams inner paramsBound) fun _ => ?_
      exact avoids_assignBlock false inner body bodyBound
  | cond branches _ => exact avoids_assignBranches level branches bound
  | loop init _ _ body _ =>
      obtain ⟨_, _, _, initBound, _, _, bodyBound, _⟩ := bound
      refine .bind (avoids_openLevel level false) fun inner => ?_
      refine .bind (avoids_assignStmt inner init initBound) fun _ => ?_
      exact avoids_assignBlock false inner body bodyBound
  | _ => exact .pure ()

theorem avoids_assignBlock
    (atTop : Bool)
    (level : LevelId)
    (block : List Stmt)
    {first last : Place}
    (bound : Stmt.AreBound arena Accessor.IsNamed block first last) :
    Avoids kind (assignBlock usage atTop level block) := by
  match block with
  | [] => exact .pure ()
  | stmt :: rest =>
      obtain ⟨_, stmtBound, restBound⟩ := bound
      have late := avoids_assignBlock atTop level rest restBound
      rw [assignBlock]
      split
      · exact .bind (avoids_assignStmt level stmt stmtBound) fun _ => late
      · exact late

theorem avoids_assignBranches
    (level : LevelId)
    (branches : List (Branch Stmt))
    {first last : Place}
    (bound : Stmt.BranchesBound arena Accessor.IsNamed branches first last) :
    Avoids kind (assignBranches usage level branches) := by
  match branches with
  | [] => exact .pure ()
  | ⟨_, body, _⟩ :: rest =>
      obtain ⟨_, _, bodyBound, restBound⟩ := bound
      refine .bind (avoids_openLevel level false) fun inner => ?_
      refine .bind (avoids_assignBlock false inner body bodyBound) fun _ => ?_
      exact avoids_assignBranches level rest restBound

end

/-- All statements of a list are bound, each at some place. -/
def EachBound
    (arena : Arena)
    (block : List Stmt) : Prop :=
  ∀ stmt ∈ block, ∃ first last, stmt.IsBound arena Accessor.IsNamed first last

variable {block : List Stmt}

theorem avoids_preserveBlock
    (main : Option VarId)
    (bound : EachBound arena block) :
    Avoids IsInternal (preserveBlock usage main block) := by
  induction block with
  | nil => exact .pure ()
  | cons stmt rest ih =>
      obtain ⟨⟨first, last, stmtBound⟩, restBound⟩ := List.forall_mem_cons.mp bound
      refine .bind ?_ fun _ => ih restBound
      unfold preserveStmt
      split
      · split
        · next declared =>
            refine .bind (avoids_boundVar (stmtBound.exists_var declared)) fun var => ?_
            refine .bind avoids_get fun state => ?_
            split
            · exact avoids_preserveVar var
            · exact .pure ()
        · exact .pure ()
      · exact .pure ()

/-- Bound statements of a module get their names. -/
theorem avoids_assignBlock_true (bound : EachBound arena block) :
    Avoids kind (assignBlock usage true NameTree.root block) := by
  induction block with
  | nil => exact .pure ()
  | cons stmt rest ih =>
      obtain ⟨⟨first, last, stmtBound⟩, restBound⟩ := List.forall_mem_cons.mp bound
      rw [assignBlock]
      split
      · exact .bind (avoids_assignStmt NameTree.root stmt stmtBound) fun _ =>
          ih restBound
      · exact ih restBound

variable {modules : List Module}

section

variable (bound : ∀ module ∈ modules, EachBound arena module.statements)
include bound

/-- The names of bound modules that have to be kept are claimed. -/
theorem avoids_preserveModules :
    Avoids IsInternal (preserveModules usage modules) := by
  induction modules with
  | nil => exact .pure ()
  | cons module rest ih =>
      obtain ⟨own, others⟩ := List.forall_mem_cons.mp bound
      exact .bind (avoids_preserveBlock module.main own) fun _ => ih others

theorem avoids_assignModules :
    Avoids kind (assignModules usage modules) := by
  induction modules with
  | nil => exact .pure ()
  | cons module rest ih =>
      obtain ⟨own, others⟩ := List.forall_mem_cons.mp bound
      exact .bind (avoids_assignBlock_true own) fun _ => ih others

/-- Naming bound modules never fails with an internal error. -/
theorem avoids_nameModules :
    Avoids IsInternal (nameModules usage modules) :=
  .bind (avoids_preserveModules bound) fun _ => avoids_assignModules bound

end

end Statements

end FinalNames
end ModularGlsl
