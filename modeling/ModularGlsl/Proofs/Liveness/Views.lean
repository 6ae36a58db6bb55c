import ModularGlsl.Proofs.Build

/-!
# What modules declare

The sweep fills places for accessors only, and splicing adds accessors only.  Both
therefore keep whatever accessors have no part in: the pragmas and the declarations of
modules.
-/

namespace ModularGlsl

/-! ## Parts of modules -/

/-- What the statements of a module declare, as far as it is of interest. -/
def Module.collect
    {β : Type}
    (view : Stmt -> Option β)
    (module : Module) : List β :=
  module.statements.filterMap view

/-- A view of statements that accessors have no part in. -/
structure Stmt.IsPlainView
    {β : Type}
    (view : Stmt -> Option β) : Prop where
  /-- The places for accessors are of no interest. -/
  erase_eq : ∀ stmt : Stmt, view stmt.erase = view stmt
  /-- Accessors are of no interest. -/
  accessor_eq : ∀ accessor, view (.accessor accessor) = none

/-- A statement defines an accessor that was asked for. -/
def Stmt.IsRequested (stmt : Stmt) : Prop :=
  ∃ kind container span request var, Accessor.request kind container span = .ok request ∧
    stmt = .accessor (.ofRequest kind request var span)

/-- The waiting statements define accessors that were asked for. -/
def Usage.HoldsRequested (usage : Usage) : Prop :=
  ∀ stmt ∈ usage.pending.map Pending.stmt, stmt.IsRequested

/-- Statements that are taken define accessors, and so do those left. -/
theorem Usage.HoldsRequested.hands
    {before after : Usage}
    {taken : List Stmt}
    (holds : before.HoldsRequested)
    (hands : before.Hands taken after) :
    (∀ stmt ∈ taken, stmt.IsRequested) ∧ after.HoldsRequested :=
  ⟨fun stmt mem => holds stmt (hands.mem_of_taken mem),
    fun stmt mem => holds stmt (hands.mem_of_left mem)⟩

variable {before after : Liveness.State}

/-- A change of the state only adds accessors. -/
theorem Liveness.State.Step.holdsRequested
    (step : before.Step after)
    (holds : before.usage.HoldsRequested) :
    after.usage.HoldsRequested := by
  cases step with
  | mark =>
      unfold Usage.HoldsRequested
      rw [Usage.pending_markUsed]
      exact holds
  | track =>
      unfold Usage.HoldsRequested
      rw [Usage.pending_track]
      exact holds
  | @obtain kind container span var _ _ made =>
      unfold Usage.HoldsRequested
      rw [Usage.pending_markUsed]
      obtain ⟨request, asked, ⟨_, rfl, rfl⟩ | ⟨rfl, rfl, rfl⟩⟩ := obtainFor_eq_ok made
      · exact holds
      · intro stmt mem
        rw [Usage.inject, List.map_append, List.mem_append] at mem
        rcases mem with earlier | added
        · exact holds stmt earlier
        · exact ⟨kind, container, span, request, _, asked, List.mem_singleton.mp added⟩

theorem Liveness.State.Moves.holdsRequested
    (moves : before.Moves after)
    (holds : before.usage.HoldsRequested) :
    after.usage.HoldsRequested := by
  induction moves with
  | refl => exact holds
  | tail _ step ih => exact step.holdsRequested ih

variable {typed swept spliced : Bundle}

/-- After the sweep, accessors that were asked for wait. -/
theorem Bundle.holdsRequested_of_resolveActivity (sweeping : resolveActivity typed = .ok () swept) :
    swept.usage.HoldsRequested := by
  obtain ⟨modules, state, run, rfl⟩ := resolveActivity_eq_ok sweeping
  obtain ⟨moves, _⟩ := Liveness.areBound_of_sweepModules _ run
  refine moves.holdsRequested fun stmt mem => ?_
  rw [pending_foldl_markMain] at mem
  cases mem

variable {onExpr : Expr -> Prop} {onStmt : Stmt -> Prop}

theorem Stmt.everyIn_iff {block : List Stmt} :
    Stmt.EveryIn onExpr onStmt block ↔ ∀ stmt ∈ block, stmt.Every onExpr onStmt := by
  induction block with
  | nil => simp [EveryIn]
  | cons stmt rest ih => simp [EveryIn, ih]

/-- A condition that holds of accessors stays when they are spliced in. -/
theorem Bundle.everyIn_spliced
    (splicing : finalizeInjected swept = .ok () spliced)
    (waiting : ∀ stmt ∈ swept.usage.pending.map Pending.stmt, stmt.Every onExpr onStmt)
    (satisfied : ∀ module ∈ swept.modules, Stmt.EveryIn onExpr onStmt module.statements) :
    ∀ module ∈ spliced.modules, Stmt.EveryIn onExpr onStmt module.statements := by
  obtain ⟨rfl, _⟩ := finalizeInjected_eq_ok splicing
  intro module mem
  obtain ⟨original, isOriginal, _, holds⟩ := mem_spliceModules true mem
  refine Stmt.everyIn_iff.mpr fun stmt isStmt => ?_
  rcases holds stmt isStmt with isOwn | isWaiting
  · exact Stmt.everyIn_iff.mp (satisfied original isOriginal) stmt isOwn
  · exact waiting stmt isWaiting

namespace Stmt.IsPlainView

variable {β : Type} {view : Stmt -> Option β} (plain : IsPlainView view)
include plain

/-- Modules that differ in accessors only declare the same. -/
theorem collect_erase (module : Module) : module.erase.collect view = module.collect view := by
  rw [Module.collect, Module.erase, Stmt.eraseBlock_eq_map, List.filterMap_map]
  exact List.filterMap_congr fun stmt _ => plain.erase_eq stmt

/-- The sweep of modules keeps what they declare. -/
theorem collect_sweepModules
    (stage : Stage)
    (modules : List Module)
    (state : Liveness.State) :
    (Liveness.sweepModules stage modules state).1.map (Module.collect view) =
      modules.map (Module.collect view) := by
  have erased := congrArg (List.map (Module.collect view))
    (Liveness.map_erase_sweepModules stage modules state)
  simpa only [List.map_map, Function.comp_def, plain.collect_erase] using erased

/-- Statements that are taken declare nothing of interest. -/
theorem filterMap_taken
    {taken : List Stmt}
    (requested : ∀ stmt ∈ taken, stmt.IsRequested) :
    taken.filterMap view = [] := by
  refine List.filterMap_eq_nil_iff.mpr fun stmt mem => ?_
  obtain ⟨_, _, _, _, _, _, rfl⟩ := requested stmt mem
  exact plain.accessor_eq _

/-- Splicing keeps what a list of statements declares. -/
theorem filterMap_splice
    (placed : Bool)
    {usage : Usage}
    (holds : usage.HoldsRequested)
    (block : List Stmt) :
    (Module.splice placed usage block).1.filterMap view = block.filterMap view := by
  induction block generalizing placed usage with
  | nil =>
      cases placed with
      | true => rfl
      | false => exact plain.filterMap_taken (holds.hands (usage.hands_pop none)).1
  | cons stmt rest ih =>
      obtain ⟨before, holdsBefore⟩ := holds.hands (Module.hands_general placed usage stmt)
      obtain ⟨own, holdsOwn⟩ := holdsBefore.hands (Module.hands_release _ stmt)
      rw [Module.splice_cons]
      simp only [List.filterMap_append, List.filterMap_cons, plain.filterMap_taken before,
        plain.filterMap_taken own, List.nil_append, ih _ holdsOwn]

/-- Splicing keeps what modules declare. -/
theorem collect_spliceModules
    (isFirst : Bool)
    {usage : Usage}
    (holds : usage.HoldsRequested)
    (modules : List Module) :
    (Bundle.spliceModules isFirst usage modules).1.map (Module.collect view) =
      modules.map (Module.collect view) := by
  induction modules generalizing isFirst usage with
  | nil => rfl
  | cons module rest ih =>
      obtain ⟨taken, _, hands⟩ := Module.splice_perm (!isFirst) usage module.statements
      rw [Bundle.spliceModules]
      rw [List.map_cons, List.map_cons, ih false (holds.hands hands).2]
      simp only [Module.collect, plain.filterMap_splice _ holds]

/-- The sweep and splicing keep what the modules of a bundle declare. -/
theorem collect_spliced
    (sweeping : Bundle.resolveActivity typed = .ok () swept)
    (splicing : Bundle.finalizeInjected swept = .ok () spliced) :
    spliced.modules.map (Module.collect view) = typed.modules.map (Module.collect view) := by
  have holds := Bundle.holdsRequested_of_resolveActivity sweeping
  obtain ⟨modules, state, run, rfl⟩ := Bundle.resolveActivity_eq_ok sweeping
  obtain ⟨rfl, _⟩ := Bundle.finalizeInjected_eq_ok splicing
  have swept_eq := plain.collect_sweepModules typed.stage typed.modules
    { arena := typed.arena, usage := typed.modules.foldl Bundle.markMain {} }
  rw [run.1] at swept_eq
  exact (plain.collect_spliceModules true holds modules).trans swept_eq

end Stmt.IsPlainView

end ModularGlsl
