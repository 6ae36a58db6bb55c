import Mathlib.Data.List.Basic
import ModularGlsl.Bundle
import ModularGlsl.Proofs.Liveness.Steps

/-!
# Accessors that wait for their place

The sweep makes accessors with new variables, in the order in which it asks for
them; each waits with its statement until it is spliced into a module.  Splicing
only moves statements: what a module holds afterwards is what it held before and
the accessors that it took.
-/

namespace ModularGlsl

/-- A waiting statement defines the accessor that its variable declares, and
waits for the struct that it reads or writes elements of. -/
def Pending.IsAccessor
    (arena : Arena)
    (waiting : Pending) : Prop :=
  ∃ accessor, waiting.stmt = .accessor accessor ∧
    accessor.name.Declares arena waiting.var .accessor ∧
      waiting.deps = accessor.element.var.toList

/-- The waiting statements define accessors with new variables. -/
structure Usage.Waits
    (arena : Arena)
    (low : VarId)
    (usage : Usage) : Prop where
  /-- Later accessors have larger numbers. -/
  ordered : usage.pending.Pairwise fun first second => first.var < second.var
  /-- The variables are new. -/
  low_le : ∀ waiting ∈ usage.pending, low ≤ waiting.var
  /-- The statements define accessors. -/
  isAccessor : ∀ waiting ∈ usage.pending, waiting.IsAccessor arena

variable {arena : Arena}

variable {waiting : Pending}

/-- A definition stays when variables are added. -/
theorem Pending.IsAccessor.keeps
    {final : Arena}
    (isAccessor : waiting.IsAccessor arena)
    (keeps : arena.Keeps final) :
    waiting.IsAccessor final := by
  obtain ⟨accessor, stmt_eq, declares, deps⟩ := isAccessor
  exact ⟨accessor, stmt_eq, declares.keeps keeps, deps⟩

@[simp] theorem Usage.pending_markUsed
    (usage : Usage)
    (var : VarId) :
    (usage.markUsed var).pending = usage.pending := by
  unfold markUsed
  split <;> rfl

@[simp] theorem Usage.pending_track
    (usage : Usage)
    (var : VarId)
    (span : Span) :
    (usage.track var span).pending = usage.pending := by
  unfold track
  split <;> rfl

variable {low : VarId} {usage : Usage}

theorem Usage.waits_of_pending_eq_nil (none_waits : usage.pending = []) :
    usage.Waits arena low :=
  ⟨by rw [none_waits]; exact .nil, by rw [none_waits]; simp, by rw [none_waits]; simp⟩

namespace Usage.Waits

theorem of_pending_eq
    {other : Usage}
    (waits : usage.Waits arena low)
    (same : other.pending = usage.pending) :
    other.Waits arena low :=
  ⟨by rw [same]; exact waits.ordered, by rw [same]; exact waits.low_le,
    by rw [same]; exact waits.isAccessor⟩

theorem inject
    (waits : usage.Waits arena low)
    (low_le_size : low ≤ arena.size)
    {record : Variable}
    (var_eq : waiting.var = arena.size)
    (isAccessor : waiting.IsAccessor (arena.alloc record)) :
    (usage.inject waiting).Waits (arena.alloc record) low where
  ordered := by
    refine List.pairwise_append.mpr ⟨waits.ordered, List.pairwise_singleton _ _, ?_⟩
    intro first isFirst second isSecond
    rw [List.mem_singleton.mp isSecond, var_eq]
    obtain ⟨_, _, declares, _⟩ := waits.isAccessor first isFirst
    exact declares.lt_size
  low_le other mem := by
    rcases List.mem_append.mp mem with earlier | same
    · exact waits.low_le other earlier
    · rw [List.mem_singleton.mp same, var_eq]
      exact low_le_size
  isAccessor other mem := by
    rcases List.mem_append.mp mem with earlier | same
    · exact (waits.isAccessor other earlier).keeps (arena.keeps_alloc record)
    · rw [List.mem_singleton.mp same]
      exact isAccessor

end Usage.Waits

namespace Liveness

/-- The element of an accessor over a struct is that struct. -/
theorem deps_of_request
    {kind : AccessorKind}
    {container : Ty}
    {span : Span}
    {request : Accessor.Request}
    (asked : Accessor.request kind container span = .ok request) :
    request.deps = request.element.var.toList := by
  unfold Accessor.request at asked
  split at asked
  · cases asked
    rfl
  · cases asked
    rfl
  · cases asked

/-- A new accessor declares its variable. -/
theorem declares_ofRequest
    (arena : Arena)
    (kind : AccessorKind)
    (request : Accessor.Request)
    (span : Span) :
    (Accessor.ofRequest kind request arena.size span).name.Declares
      (arena.alloc { name := request.name, constant := true, decl := .accessor, span := span })
      arena.size .accessor := by
  have record_eq := arena.get_alloc_size
    { name := request.name, constant := true, decl := .accessor, span := span }
  refine ⟨rfl, by simp, by rw [record_eq]; rfl, by rw [record_eq], by rw [record_eq], ?_⟩
  rw [record_eq]
  intro changes
  cases changes

variable {before after : State}

/-- A change of the state keeps the waiting accessors in order. -/
theorem State.Step.waits
    (step : before.Step after)
    (low_le : low ≤ before.arena.size)
    (waits : before.usage.Waits before.arena low) :
    after.usage.Waits after.arena low := by
  cases step with
  | mark => exact waits.of_pending_eq (Usage.pending_markUsed ..)
  | track => exact waits.of_pending_eq (Usage.pending_track ..)
  | @obtain kind container span _ _ _ made =>
      obtain ⟨request, asked, ⟨_, rfl, rfl⟩ | ⟨rfl, rfl, rfl⟩⟩ := obtainFor_eq_ok made
      · exact waits.of_pending_eq (Usage.pending_markUsed ..)
      · refine (waits.inject low_le rfl ⟨_, rfl, ?_, deps_of_request asked⟩).of_pending_eq
          (Usage.pending_markUsed ..)
        exact declares_ofRequest before.arena kind request span

/-- What the sweep changes keeps the waiting accessors in order. -/
theorem State.Moves.waits
    (moves : before.Moves after)
    (low_le : low ≤ before.arena.size)
    (waits : before.usage.Waits before.arena low) :
    after.usage.Waits after.arena low := by
  induction moves with
  | refl => exact waits
  | tail earlier step ih =>
      exact step.waits (Nat.le_trans low_le (State.Moves.grows earlier).size_le) ih

end Liveness

/-! ## Splicing -/

namespace Usage

/-- A usage after some of its waiting statements were taken. -/
structure Hands
    (before : Usage)
    (taken : List Stmt)
    (after : Usage) : Prop where
  /-- What is read stays. -/
  used_eq : after.used = before.used
  /-- What has to be read stays. -/
  tracked_eq : after.tracked = before.tracked
  /-- No waiting statement is lost. -/
  perm : (before.pending.map Pending.stmt).Perm (taken ++ after.pending.map Pending.stmt)

namespace Hands

theorem refl (usage : Usage) : Hands usage [] usage :=
  ⟨rfl, rfl, .refl _⟩

variable {before after : Usage}

variable {taken : List Stmt} {stmt : Stmt}

theorem mem_of_taken
    (hands : Hands before taken after)
    (mem : stmt ∈ taken) :
    stmt ∈ before.pending.map Pending.stmt :=
  hands.perm.symm.subset (List.mem_append_left _ mem)

theorem mem_of_left
    (hands : Hands before taken after)
    (mem : stmt ∈ after.pending.map Pending.stmt) :
    stmt ∈ before.pending.map Pending.stmt :=
  hands.perm.symm.subset (List.mem_append_right _ mem)

theorem trans
    {middle : Usage}
    {first second : List Stmt}
    (early : Hands before first middle)
    (late : Hands middle second after) :
    Hands before (first ++ second) after := by
  refine ⟨late.used_eq.trans early.used_eq, late.tracked_eq.trans early.tracked_eq, ?_⟩
  rw [List.append_assoc]
  exact early.perm.trans (late.perm.append_left first)

end Hands

theorem hands_pop
    (usage : Usage)
    (dep : Option VarId) :
    Hands usage (usage.pop dep).1 (usage.pop dep).2 := by
  refine ⟨rfl, rfl, ?_⟩
  have stmt_eq : (usage.pending.map (Pending.release dep)).map Pending.stmt =
      usage.pending.map Pending.stmt := by
    rw [List.map_map]
    refine List.map_congr_left fun waiting _ => ?_
    cases dep <;> rfl
  rw [← stmt_eq, pop, List.partition_eq_filter_filter, ← List.map_append]
  exact (List.filter_append_perm _ _).symm.map _

end Usage

namespace Module

/-- A declaration releases waiting statements. -/
theorem hands_release
    (usage : Usage)
    (stmt : Stmt) :
    usage.Hands (release usage stmt).1 (release usage stmt).2 := by
  unfold release
  split
  · exact usage.hands_pop _
  · exact .refl usage

/-- The accessors over no struct that come before a statement. -/
def general
    (placed : Bool)
    (usage : Usage)
    (stmt : Stmt) : List Stmt × Usage :=
  if !placed && !stmt.isPrologue then usage.pop none else ([], usage)

/-- Accessors over no struct are taken once. -/
theorem hands_general
    (placed : Bool)
    (usage : Usage)
    (stmt : Stmt) :
    usage.Hands (general placed usage stmt).1 (general placed usage stmt).2 := by
  unfold general
  split
  · exact usage.hands_pop none
  · exact .refl usage

theorem splice_cons
    (placed : Bool)
    (usage : Usage)
    (stmt : Stmt)
    (rest : List Stmt) :
    splice placed usage (stmt :: rest) =
      let before := general placed usage stmt
      let own := release before.2 stmt
      let after := splice (placed || !stmt.isPrologue) own.2 rest
      (before.1 ++ stmt :: (own.1 ++ after.1), after.2) := by
  cases placed <;> rfl

/-- Splicing adds the statements it takes to a list of statements. -/
theorem splice_perm
    (placed : Bool)
    (usage : Usage)
    (block : List Stmt) :
    ∃ taken, (splice placed usage block).1.Perm (block ++ taken) ∧
      usage.Hands taken (splice placed usage block).2 := by
  induction block generalizing placed usage with
  | nil =>
      cases placed with
      | true => exact ⟨[], .refl _, .refl usage⟩
      | false => exact ⟨_, .refl _, usage.hands_pop none⟩
  | cons stmt rest ih =>
      rw [splice_cons]
      have before := hands_general placed usage stmt
      have own := hands_release (general placed usage stmt).2 stmt
      obtain ⟨taken, permuted, after⟩ := ih (placed || !stmt.isPrologue)
        (release (general placed usage stmt).2 stmt).2
      refine ⟨_, ?_, (before.trans own).trans after⟩
      refine List.perm_middle.trans (List.Perm.cons stmt ?_)
      rw [← List.append_assoc]
      exact (permuted.append_left _).trans (List.perm_append_comm_assoc _ _ _)

end Module

namespace Bundle

/-- Splicing adds the statements it takes to the modules.  This holds of
whatever the statements are mapped to, as long as the accessors do not depend on
the main function of their module. -/
theorem spliceModules_perm
    {β : Type}
    (parts : Option VarId -> Stmt -> List β)
    (own : Stmt -> List β)
    (isFirst : Bool)
    (modules : List Module)
    (same : ∀ stmt ∈ usage.pending.map Pending.stmt, ∀ main, parts main stmt = own stmt) :
    ∃ taken, usage.Hands taken (spliceModules isFirst usage modules).2 ∧
      ((spliceModules isFirst usage modules).1.flatMap fun module =>
          module.statements.flatMap (parts module.main)).Perm
        ((modules.flatMap fun module => module.statements.flatMap (parts module.main)) ++
          taken.flatMap own) := by
  induction modules generalizing isFirst usage with
  | nil => exact ⟨[], .refl usage, .refl _⟩
  | cons module rest ih =>
      obtain ⟨first, permuted, hands⟩ := Module.splice_perm (!isFirst) usage module.statements
      obtain ⟨others, handsRest, restPermuted⟩ :=
        ih false fun stmt mem => same stmt (hands.mem_of_left mem)
      refine ⟨_, hands.trans handsRest, ?_⟩
      rw [spliceModules]
      have own_eq : first.flatMap (parts module.main) = first.flatMap own := by
        refine List.flatMap_congr fun stmt mem => ?_
        exact same stmt (hands.mem_of_taken mem) module.main
      have here := permuted.flatMap_right (parts module.main)
      rw [List.flatMap_append, own_eq] at here
      rw [List.flatMap_cons, List.flatMap_cons, List.flatMap_append, List.append_assoc]
      refine (here.append restPermuted).trans ?_
      rw [List.append_assoc]
      exact (List.perm_append_comm_assoc _ _ _).append_left _

/-- Splicing takes some of the waiting statements. -/
theorem hands_spliceModules
    (isFirst : Bool)
    (usage : Usage)
    (modules : List Module) :
    ∃ taken, usage.Hands taken (spliceModules isFirst usage modules).2 := by
  obtain ⟨taken, hands, _⟩ :=
    spliceModules_perm (fun _ _ => ([] : List Unit)) (fun _ => []) isFirst modules fun _ _ _ => rfl
  exact ⟨taken, hands⟩

/-- The modules after splicing keep their main functions, and hold only their
own statements and accessors that were waiting. -/
theorem mem_spliceModules
    (isFirst : Bool)
    {modules : List Module}
    {module : Module}
    (mem : module ∈ (spliceModules isFirst usage modules).1) :
    ∃ original ∈ modules, module.main = original.main ∧
      ∀ stmt ∈ module.statements,
        stmt ∈ original.statements ∨ stmt ∈ usage.pending.map Pending.stmt := by
  induction modules generalizing isFirst usage with
  | nil => cases mem
  | cons head rest ih =>
      obtain ⟨first, permuted, hands⟩ := Module.splice_perm (!isFirst) usage head.statements
      rcases List.mem_cons.mp mem with rfl | later
      · refine ⟨head, List.mem_cons_self, rfl, fun stmt isIn => ?_⟩
        rcases List.mem_append.mp (permuted.subset isIn) with isOwn | isTaken
        · exact .inl isOwn
        · exact .inr (hands.mem_of_taken isTaken)
      · obtain ⟨original, isOriginal, main_eq, holds⟩ := ih false later
        refine ⟨original, List.mem_cons_of_mem _ isOriginal, main_eq, fun stmt isIn => ?_⟩
        exact (holds stmt isIn).imp_right hands.mem_of_left

end Bundle

end ModularGlsl
