import Mathlib.Logic.Relation
import ModularGlsl.Proofs.Liveness.Erasure
import ModularGlsl.Proofs.Run
import ModularGlsl.Proofs.Tree

/-!
# Steps of the sweep

The sweep changes its state in three ways: it marks a variable as read, it
demands that a declaration is read, and it obtains an accessor.  The trees that
it yields differ from those it is given only in their accessors, so that they are
bound as before.
-/

namespace ModularGlsl
namespace Liveness

/-! ## Single changes of the state -/

/-- One change that the sweep makes to its state. -/
inductive State.Step : State -> State -> Prop
  /-- A variable is read. -/
  | mark
      (state : State)
      (var : VarId) :
      Step state { state with usage := state.usage.markUsed var }
  /-- A declaration has to be read. -/
  | track
      (state : State)
      (var : VarId)
      (span : Span) :
      Step state { state with usage := state.usage.track var span }
  /-- An accessor is obtained and read. -/
  | obtain
      {state : State}
      {kind : AccessorKind}
      {container : Ty}
      {span : Span}
      {var : VarId}
      {arena : Arena}
      {usage : Usage}
      (made : Accessor.obtainFor state.arena state.usage kind container span =
        .ok (var, arena, usage)) :
      Step state { state with arena := arena, usage := usage.markUsed var }

/-- Changes that the sweep makes to its state in turn. -/
abbrev State.Moves : State -> State -> Prop :=
  Relation.ReflTransGen State.Step

variable {kind : AccessorKind} {span : Span} {var : VarId}

/-- The accessor of a container that has none is new; otherwise nothing
changes. -/
theorem obtainFor_eq_ok
    {arena after : Arena}
    {usage next : Usage}
    {container : Ty}
    (made : Accessor.obtainFor arena usage kind container span = .ok (var, after, next)) :
    ∃ request, Accessor.request kind container span = .ok request ∧
      (usage.find? request.name request.deps = some var ∧ after = arena ∧ next = usage ∨
        var = arena.size ∧
          after = arena.alloc
            { name := request.name, constant := true, decl := .accessor, span := span } ∧
          next = usage.inject
            ⟨request.name, var, request.deps,
              .accessor (Accessor.ofRequest kind request var span)⟩) := by
  obtain ⟨request, asked, made⟩ := except_bind_eq_ok.mp made
  refine ⟨request, asked, ?_⟩
  split at made
  · next existing found =>
      cases made
      exact .inl ⟨found, rfl, rfl⟩
  · cases made
    exact .inr ⟨rfl, rfl, rfl⟩

variable {after before : State}

theorem State.Step.grows (step : before.Step after) :
    before.arena.Grows after.arena := by
  cases step with
  | mark => exact .refl _
  | track => exact .refl _
  | obtain made =>
      obtain ⟨request, _, ⟨_, rfl, _⟩ | ⟨_, rfl, _⟩⟩ := obtainFor_eq_ok made
      · exact .refl _
      · exact before.arena.grows_alloc rfl

/-- What the sweep changes only adds variables. -/
theorem State.Moves.grows (moves : before.Moves after) :
    before.arena.Grows after.arena := by
  induction moves with
  | refl => exact .refl _
  | tail _ step ih => exact ih.trans step.grows

/-- What was read before a change is read after it. -/
theorem State.Step.isUsed
    (step : before.Step after)
    (used : before.usage.isUsed var = true) :
    after.usage.isUsed var = true := by
  cases step with
  | mark => simp [used]
  | track => simp [used]
  | obtain made =>
      obtain ⟨request, _, ⟨_, _, rfl⟩ | ⟨_, _, rfl⟩⟩ := obtainFor_eq_ok made
      · simp [used]
      · simp only [Usage.isUsed_markUsed, Bool.or_eq_true]
        exact .inr used

/-- What was read before the sweep changed its state is read after it. -/
theorem State.Moves.isUsed
    (moves : before.Moves after)
    (used : before.usage.isUsed var = true) :
    after.usage.isUsed var = true := by
  induction moves with
  | refl => exact used
  | tail _ step ih => exact step.isUsed ih

/-! ## Runs of single steps -/

section Runs

theorem fail_apply
    (diagnostic : Diagnostic)
    (state : State) :
    fail diagnostic state =
      ((), match state.failure with
        | some _ => state
        | none => { state with failure := some diagnostic }) :=
  rfl

theorem failure_fail_ne_none
    (diagnostic : Diagnostic)
    (state : State) :
    (fail diagnostic state).2.failure ≠ none := by
  cases recorded : state.failure <;> simp [fail_apply, recorded]

/-- A step that records a failure does not run. -/
theorem not_runs_fail
    {diagnostic : Diagnostic}
    {done : Unit} :
    ¬Runs (fail diagnostic) before done after := by
  rintro ⟨run, clear⟩
  have failed := failure_fail_ne_none diagnostic before
  rw [run] at failed
  exact failed clear

variable {done : Unit}

/-- A change of what is read is made. -/
theorem runs_changeUsage
    {change : Usage -> Usage}
    (run : Runs (changeUsage change) before done after) :
    after = { before with usage := change before.usage } := by
  obtain ⟨run, clear⟩ := run
  obtain ⟨arena, usage, failure⟩ := before
  cases failure with
  | some diagnostic =>
      cases run
      cases clear
  | none =>
      cases run
      rfl

variable {ident : Ident}

theorem runs_markIdent (run : Runs (markIdent ident) before done after) :
    ∃ var, ident.var = some var ∧
      after = { before with usage := before.usage.markUsed var } := by
  unfold markIdent Ident.bound at run
  cases bound : ident.var with
  | none =>
      rw [bound] at run
      exact absurd run not_runs_fail
  | some var =>
      rw [bound] at run
      exact ⟨var, rfl, runs_changeUsage run⟩

theorem runs_trackIdent (run : Runs (trackIdent ident span) before done after) :
    ∃ var, ident.var = some var ∧
      after = { before with usage := before.usage.track var span } := by
  unfold trackIdent Ident.bound at run
  cases bound : ident.var with
  | none =>
      rw [bound] at run
      exact absurd run not_runs_fail
  | some var =>
      rw [bound] at run
      exact ⟨var, rfl, runs_changeUsage run⟩

/-- An identifier that is asked about is bound. -/
theorem runs_readsIdent
    {read : Bool}
    (run : Runs (readsIdent ident) before read after) :
    ∃ var, ident.var = some var ∧ read = before.usage.isUsed var ∧ before = after := by
  unfold readsIdent Ident.bound at run
  cases bound : ident.var with
  | none =>
      rw [bound] at run
      obtain ⟨run, clear⟩ := run
      cases run
      exact absurd clear (failure_fail_ne_none _ _)
  | some var =>
      rw [bound] at run
      obtain ⟨run, _⟩ := run
      cases run
      exact ⟨var, rfl, rfl, rfl⟩

theorem runs_bindAccessor
    {container : Expr}
    {accessor bound : Option VarId}
    (run : Runs (bindAccessor kind container accessor span) before bound after) :
    ∃ ty var arena usage, container.typeOf before.arena = .ok ty ∧
      Accessor.obtainFor before.arena before.usage kind ty span = .ok (var, arena, usage) ∧
        bound = some var ∧
          after = { before with arena := arena, usage := usage.markUsed var } := by
  obtain ⟨run, clear⟩ := run
  obtain ⟨arena, usage, failure⟩ := before
  unfold bindAccessor at run
  cases failure with
  | some diagnostic =>
      cases run
      cases clear
  | none =>
      cases made : accessorFor ⟨arena, usage, none⟩ kind container span with
      | error error =>
          rw [made] at run
          cases run
          cases clear
      | ok result =>
          rw [made] at run
          obtain ⟨ty, typed, obtained⟩ := except_bind_eq_ok.mp made
          obtain ⟨var, arenaAfter, usageAfter⟩ := result
          cases run
          exact ⟨ty, var, arenaAfter, usageAfter, typed, typing_eq_ok.mp obtained, rfl, rfl⟩

/-- A demand on a block changes nothing. -/
theorem runs_checkReachable
    {block : List Stmt}
    (run : Runs (checkReachable block) before done after) :
    before = after := by
  unfold checkReachable at run
  split at run
  · exact absurd run not_runs_fail
  · obtain ⟨_, same, _⟩ := runs_pure.mp run
    exact same

end Runs

/-! ## What steps may do -/

/-- A step of the sweep never takes a failure back, and makes no other changes than the
above. -/
class Sweeping {α : Type} (step : Sweep α) : Prop extends Sticky step where
  /-- A run without a failure makes such changes. -/
  moves : ∀ {before after : State} {value : α}, Runs step before value after -> before.Moves after

instance {α : Type} (value : α) : Sweeping (pure value : Sweep α) where
  moves run := by
    obtain ⟨_, rfl, _⟩ := runs_pure.mp run
    exact .refl

instance
    {α β : Type}
    (first : Sweep α)
    (next : α -> Sweep β)
    [early : Sweeping first]
    [late : ∀ value, Sweeping (next value)] :
    Sweeping (first >>= next) where
  moves run := by
    obtain ⟨_, _, firstRun, nextRun⟩ := runs_bind.mp run
    exact (early.moves firstRun).trans ((late _).moves nextRun)

instance
    {α : Type}
    (condition : Prop)
    [Decidable condition]
    (first second : Sweep α)
    [yes : Sweeping first]
    [no : Sweeping second] :
    Sweeping (if condition then first else second) := by
  split
  · exact yes
  · exact no

instance (diagnostic : Diagnostic) : Sweeping (fail diagnostic) where
  clear_of_step state clear := absurd clear (failure_fail_ne_none diagnostic state)
  moves run := absurd run not_runs_fail

instance (change : Usage -> Usage) : Sticky (changeUsage change) where
  clear_of_step state clear := by
    obtain ⟨arena, usage, failure⟩ := state
    cases failure with
    | some diagnostic => exact clear
    | none => rfl

instance (var : VarId) : Sweeping (markUsed var) where
  toSticky := inferInstanceAs (Sticky (changeUsage _))
  moves run := by
    obtain rfl := runs_changeUsage run
    exact .single (.mark _ _)

instance (ident : Ident) : Sweeping (markIdent ident) where
  toSticky := by
    unfold markIdent
    split <;> infer_instance
  moves run := by
    obtain ⟨_, _, rfl⟩ := runs_markIdent run
    exact .single (.mark _ _)

instance (ident : Ident) (span : Span) : Sweeping (trackIdent ident span) where
  toSticky := by
    unfold trackIdent
    split <;> infer_instance
  moves run := by
    obtain ⟨_, _, rfl⟩ := runs_trackIdent run
    exact .single (.track _ _ _)

instance : Sweeping (get : Sweep State) where
  clear_of_step _ clear := clear
  moves run := by
    obtain ⟨⟨⟩, _⟩ := run
    exact .refl

instance (ident : Ident) : Sweeping (readsIdent ident) := by
  unfold readsIdent
  split <;> infer_instance

instance
    (kind : AccessorKind)
    (container : Expr)
    (accessor : Option VarId)
    (span : Span) :
    Sweeping (bindAccessor kind container accessor span) where
  clear_of_step state clear := by
    obtain ⟨arena, usage, failure⟩ := state
    cases failure with
    | some diagnostic => exact clear
    | none => rfl
  moves run := by
    obtain ⟨_, _, _, _, _, made, _, rfl⟩ := runs_bindAccessor run
    exact .single (.obtain made)

instance (block : List Stmt) : Sweeping (checkReachable block) := by
  unfold checkReachable
  split <;> infer_instance

mutual

/-- The sweep of an expression makes no other changes. -/
theorem sweeping_sweepExpr : (expr : Expr) -> Sweeping (sweepExpr expr)
  | .int _ _ | .float _ _ | .bool _ _ | .var _ | .member _ _ (some _) _ => by
      rw [sweepExpr]
      infer_instance
  | .member operand _ none _ | .unary _ operand _ | .paren operand _ => by
      have := sweeping_sweepExpr operand
      rw [sweepExpr]
      infer_instance
  | .index left right _ | .getIndex left right _ _ | .binary _ left right _ => by
      have := sweeping_sweepExpr left
      have := sweeping_sweepExpr right
      rw [sweepExpr]
      infer_instance
  | .call callee args _ => by
      have := sweeping_sweepExpr callee
      have := sweeping_sweepExprs args
      rw [sweepExpr]
      infer_instance

theorem sweeping_sweepExprs : (exprs : List Expr) -> Sweeping (sweepExprs exprs)
  | [] => by
      rw [sweepExprs]
      infer_instance
  | expr :: rest => by
      have := sweeping_sweepExpr expr
      have := sweeping_sweepExprs rest
      rw [sweepExprs]
      infer_instance

end

instance (expr : Expr) : Sweeping (sweepExpr expr) := sweeping_sweepExpr expr

instance (exprs : List Expr) : Sweeping (sweepExprs exprs) := sweeping_sweepExprs exprs

instance (expr : Option Expr) : Sweeping (sweepOptional expr) := by
  cases expr <;> unfold sweepOptional <;> infer_instance

instance (live : Bool) (init : Option Expr) : Sweeping (sweepInit live init) := by
  unfold sweepInit
  infer_instance

instance (target : Expr) : Sweeping (sweepTarget target) := by
  unfold sweepTarget
  split <;> infer_instance

instance (stage : Stage) (decl : InterfaceDecl) : Sweeping (sweepInterface stage decl) := by
  unfold sweepInterface
  infer_instance

instance (decl : ConstDecl) : Sweeping (sweepConst decl) := by
  unfold sweepConst
  infer_instance

instance (decl : VarDecl) : Sweeping (sweepVar decl) := by
  unfold sweepVar
  infer_instance

mutual

/-- The sweep of a statement makes no other changes. -/
theorem sweeping_sweepStmt
    (stage : Stage) :
    (stmt : Stmt) -> Sweeping (sweepStmt stage stmt)
  | .version _ _ _ | .extension _ _ _ | .precision _ _ _ | .importName _ _ _ _
  | .importAll _ _ _ | .reexport _ _ _ _ | .exportName _ _ _ | .interface _ | .const _
  | .var _ | .struct _ | .accessor _ | .assign _ _ _ _ | .ret _ _ | .call _ _ _
  | .update _ _ _ | .setIndex _ _ _ _ _ => by
      rw [sweepStmt]
      infer_instance
  | .function _ body => by
      have := sweeping_sweepBlock stage body
      rw [sweepStmt]
      infer_instance
  | .cond branches _ => by
      have := sweeping_sweepBranches stage branches
      rw [sweepStmt]
      infer_instance
  | .loop init _ step body _ => by
      have := sweeping_sweepStmt stage init
      have := sweeping_sweepStmt stage step
      have := sweeping_sweepBlock stage body
      rw [sweepStmt]
      infer_instance

theorem sweeping_sweepBlock
    (stage : Stage) :
    (block : List Stmt) -> Sweeping (sweepBlock stage block)
  | [] => by
      rw [sweepBlock]
      infer_instance
  | stmt :: rest => by
      have := sweeping_sweepStmt stage stmt
      have := sweeping_sweepBlock stage rest
      rw [sweepBlock]
      infer_instance

/-- The sweep of the arms of a chain of conditions makes no other
changes. -/
theorem sweeping_sweepBranches
    (stage : Stage) :
    (branches : List (Branch Stmt)) -> Sweeping (sweepBranches stage branches)
  | [] => by
      rw [sweepBranches]
      infer_instance
  | ⟨_, body, _⟩ :: rest => by
      have := sweeping_sweepBlock stage body
      have := sweeping_sweepBranches stage rest
      rw [sweepBranches]
      infer_instance

end

instance (stage : Stage) (stmt : Stmt) : Sweeping (sweepStmt stage stmt) :=
  sweeping_sweepStmt stage stmt

instance (stage : Stage) (block : List Stmt) : Sweeping (sweepBlock stage block) :=
  sweeping_sweepBlock stage block

instance (stage : Stage) (branches : List (Branch Stmt)) :
    Sweeping (sweepBranches stage branches) :=
  sweeping_sweepBranches stage branches

instance (stage : Stage) (modules : List Module) : Sweeping (sweepModules stage modules) := by
  induction modules with
  | nil | cons =>
      unfold sweepModules
      infer_instance

/-! ## Bound trees -/

section Bound

variable {stage : Stage} {arena : Arena} {accessors : Accessor -> Prop} {first last : Place}

theorem areBound_of_sweepBlock
    {block swept : List Stmt}
    (run : Runs (sweepBlock stage block) before swept after)
    (bound : Stmt.AreBound arena accessors block first last) :
    Stmt.AreBound arena accessors swept first last := by
  have same := eraseBlock_sweepBlock stage block before
  rw [run.1] at same
  rwa [← Stmt.areBound_eraseBlock, same, Stmt.areBound_eraseBlock]

end Bound

end Liveness
end ModularGlsl
