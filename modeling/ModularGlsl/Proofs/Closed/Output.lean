import ModularGlsl.Proofs.Binding.Exports
import ModularGlsl.Proofs.Closed.Code

/-!
# The output is closed

After a build every variable in a kept statement is a built-in of the stage, or
is declared by a kept statement before it, in the same block or in one around it.
Statements and modules keep their order, so what is visible is declared.
Accessors come right after the struct that they wait for, or before all code: one
that came too late would wait forever, and nothing waits after a build.
-/

namespace ModularGlsl

variable {entry : VarId × Span}

namespace Usage

@[simp] theorem tracked_markUsed
    (usage : Usage)
    (var : VarId) :
    (usage.markUsed var).tracked = usage.tracked := by
  unfold markUsed
  split <;> rfl

theorem mem_tracked_track
    {usage : Usage}
    (mem : entry ∈ usage.tracked)
    (var : VarId)
    (span : Span) :
    entry ∈ (usage.track var span).tracked := by
  unfold track
  split
  · exact mem
  · exact List.mem_append_left _ mem

/-- A tracked variable has a demand. -/
theorem exists_tracked_track
    (usage : Usage)
    (var : VarId)
    (span : Span) :
    ∃ entry ∈ (usage.track var span).tracked, entry.1 = var := by
  unfold track
  split
  next known =>
    obtain ⟨entry, mem, same⟩ := List.any_eq_true.mp known
    exact ⟨entry, mem, beq_iff_eq.mp same⟩
  next => exact ⟨_, List.mem_append_right _ List.mem_cons_self, rfl⟩

end Usage

variable {arena grown : Arena}

theorem Usage.check_eq_ok
    {usage : Usage}
    (checked : usage.check arena = .ok ()) :
    usage.pending = [] ∧ ∀ entry ∈ usage.tracked, usage.isUsed entry.1 = true := by
  unfold check at checked
  split at checked
  · cases checked
  · cases checked
  next none_unused none_waits =>
    refine ⟨none_waits, fun entry mem => ?_⟩
    by_contra unused
    have isLeft : entry ∈ usage.tracked.filter fun entry => !usage.isUsed entry.1 :=
      List.mem_filter.mpr ⟨mem, by simpa using unused⟩
    unfold firstUnused? at none_unused
    split at none_unused
    next none_left => exact absurd isLeft (none_left ▸ List.not_mem_nil)
    next => cases none_unused

variable {block : List Stmt} {first last : Place} {stmt : Stmt} {dep : Option VarId}
variable {modules : List Module} {pending : List Pending} {visible declared : List VarId}
variable {next id : VarId}

variable {outside : Prop}

namespace Liveness

/-! ## Demands -/

variable {before after : State} {decl : VarDecl} {stage : Stage}

theorem State.Moves.mem_tracked
    (moves : before.Moves after)
    (mem : entry ∈ before.usage.tracked) :
    entry ∈ after.usage.tracked := by
  induction moves with
  | refl => exact mem
  | tail _ step ih =>
      cases step with
      | mark =>
          rw [Usage.tracked_markUsed]
          exact ih
      | track => exact Usage.mem_tracked_track ih _ _
      | obtain made =>
          rw [Usage.tracked_markUsed]
          obtain ⟨_, _, ⟨_, _, rfl⟩ | ⟨_, _, rfl⟩⟩ := obtainFor_eq_ok made
          · exact ih
          · exact ih

/-- The sweep declares no variable where there was none. -/
theorem exists_var_of_sweepStmt (run : Runs (sweepStmt stage stmt) before (.var decl) after) :
    ∃ own, stmt = .var own := by
  cases stmt with
  | var own => exact ⟨own, rfl⟩
  | function header body =>
      obtain ⟨_, _, _, late⟩ := runs_bind.mp run
      split at late
      · cases late.1
      · cases late.1
  | _ =>
      cases run.1

/-- The sweep demands that a variable is read. -/
theorem exists_tracked_of_sweepStmt (run : Runs (sweepStmt stage stmt) before (.var decl) after) :
    ∃ entry ∈ after.usage.tracked, decl.name.var = some entry.1 := by
  obtain ⟨own, rfl⟩ := exists_var_of_sweepStmt run
  obtain ⟨_, _, varRun, late⟩ := runs_bind.mp run
  obtain ⟨same, rfl, _⟩ := runs_pure.mp late
  cases same
  obtain ⟨_, _, ⟨tracked, isBound, rfl⟩, late⟩ := varRun.step runs_trackIdent
  obtain ⟨_, _, ⟨_, _, _, rfl⟩, late⟩ := late.step runs_readsIdent
  obtain ⟨_, _, ⟨⟨⟩, _⟩, late⟩ := runs_bind.mp late
  obtain ⟨_, initRun, rfl⟩ := runs_map.mp late
  obtain ⟨entry, mem, rfl⟩ := before.usage.exists_tracked_track tracked own.span
  exact ⟨entry, (Sweeping.moves initRun).mem_tracked mem, isBound⟩

theorem exists_tracked_of_sweepBlock
    {swept : List Stmt}
    (run : Runs (sweepBlock stage block) before swept after)
    (mem : .var decl ∈ swept) :
    ∃ entry ∈ after.usage.tracked, decl.name.var = some entry.1 := by
  induction block generalizing swept after with
  | nil =>
      obtain ⟨rfl, _, _⟩ := runs_pure.mp run
      cases mem
  | cons stmt rest ih =>
      obtain ⟨_, _, restRun, late⟩ := runs_bind.mp run
      obtain ⟨_, stmtRun, rfl⟩ := runs_map.mp late
      rcases List.mem_cons.mp mem with rfl | inRest
      · exact exists_tracked_of_sweepStmt stmtRun
      · obtain ⟨entry, isTracked, isBound⟩ := ih restRun inRest
        exact ⟨entry, (Sweeping.moves stmtRun).mem_tracked isTracked, isBound⟩

variable {swept : List Module}

/-- The sweep demands that variables of all modules are read. -/
theorem exists_tracked_of_sweepModules
    (run : Runs (sweepModules stage modules) before swept after)
    {module : Module}
    (isSwept : module ∈ swept)
    (mem : .var decl ∈ module.statements) :
    ∃ entry ∈ after.usage.tracked, decl.name.var = some entry.1 := by
  induction modules generalizing swept after with
  | nil =>
      obtain ⟨rfl, _, _⟩ := runs_pure.mp run
      cases isSwept
  | cons own rest ih =>
      obtain ⟨_, _, restRun, late⟩ := runs_bind.mp run
      obtain ⟨_, _, rfl, late⟩ := late.step runs_checkReachable
      obtain ⟨_, ownRun, rfl⟩ := runs_map.mp late
      rcases List.mem_cons.mp isSwept with rfl | inRest
      · exact exists_tracked_of_sweepBlock ownRun mem
      · obtain ⟨entry, isTracked, isBound⟩ := ih restRun inRest
        exact ⟨entry, (Sweeping.moves ownRun).mem_tracked isTracked, isBound⟩

/-! ## Swept modules -/

/-- A swept statement of a module is closed wherever its place provides what is
visible there; if it holds code, also the accessors over the structs declared so
far have to be declared. -/
structure Closes
    (arena : Arena)
    (usage : Usage)
    (pending : List Pending)
    (stmt : Stmt)
    (first last : Place) : Prop where
  /-- The statement leads from a place to another. -/
  bound : stmt.IsBound arena Accessor.IsUnbound first last
  /-- Variables of modules are read. -/
  stored : ∀ decl, stmt = .var decl -> stmt.isKept usage true = true
  /-- The statement is closed. -/
  closed : ∀ declared, first.Provides arena usage declared ->
    (holdsCode stmt = true -> Covers pending last.next declared) ->
      stmt.isKept usage true = true -> stmt.IsClosed usage declared

/-- The swept statements of a module, from a place to another. -/
def CloseAll
    (arena : Arena)
    (usage : Usage)
    (pending : List Pending) : List Stmt -> Place -> Place -> Prop
  | [], first, last => last = first
  | stmt :: rest, first, last =>
      ∃ middle, Closes arena usage pending stmt first middle ∧
        CloseAll arena usage pending rest middle last

/-- Swept modules, from what is visible at the start of the first one.  Under a condition on
exports, each hands over what is visible at its end. -/
def CloseModules
    (arena : Arena)
    (usage : Usage)
    (pending : List Pending)
    (outside : Prop) : List Module -> List VarId -> VarId -> Prop
  | [], _, _ => True
  | module :: rest, visible, next =>
      ∃ last, CloseAll arena usage pending module.statements (.ofModule visible next) last ∧
        (outside -> ∀ var ∈ last.handOver, var ∈ last.visible) ∧
          CloseModules arena usage pending outside rest last.handOver last.next

section Swept

variable {usage : Usage}

/-- Swept statements lead from a place to another. -/
theorem CloseAll.areBound (closes : CloseAll arena usage pending block first last) :
    Stmt.AreBound arena Accessor.IsUnbound block first last := by
  induction block generalizing first with
  | nil => exact closes
  | cons stmt rest ih =>
      obtain ⟨middle, stmtCloses, restCloses⟩ := closes
      exact ⟨middle, stmtCloses.bound, ih restCloses⟩

section

variable (formed : arena.IsFormed) (grows : arena.Grows grown)
include formed grows

/-- A statement of a module is closed wherever its place provides what is visible there. -/
theorem closes_of_isBound
    (bound : stmt.IsBound arena Accessor.IsUnbound first last)
    (typed : stmt.Every (Expr.IsTyped arena) (Stmt.HasTypes arena))
    (inRange : first.InRange)
    (outside : isOutside first = true)
    (last_le : last.next ≤ arena.size)
    (answers : Answers usage pending grown (stmt.ReadsLive { id | usage.isUsed id = true } · true)
      (stmt.IndexesLive { id | usage.isUsed id = true } · true))
    (stored : ∀ decl, stmt = .var decl -> stmt.isKept usage true = true) :
    Closes arena usage pending stmt first last := by
  refine ⟨bound, stored, fun declared provides covers kept => ?_⟩
  exact isClosed_of_isBound ⟨formed, grows, last_le⟩ stmt bound typed inRange provides outside
    (Nat.le_refl _) answers covers kept

/-- The statements of a module are closed one after the other. -/
theorem closeAll_of_areBound
    (bound : Stmt.AreBound arena Accessor.IsUnbound block first last)
    (typed : Stmt.EveryIn (Expr.IsTyped arena) (Stmt.HasTypes arena) block)
    (inRange : first.InRange)
    (outside : isOutside first = true)
    (last_le : last.next ≤ arena.size)
    (answers : Answers usage pending grown
      (Stmt.ReadsLiveIn { id | usage.isUsed id = true } · block true)
      (Stmt.IndexesLiveIn { id | usage.isUsed id = true } · block true))
    (stored : ∀ decl, .var decl ∈ block -> (Stmt.var decl).isKept usage true = true) :
    CloseAll arena usage pending block first last := by
  induction block generalizing first with
  | nil => exact bound
  | cons stmt rest ih =>
      obtain ⟨middle, stmtBound, restBound⟩ := bound
      have outsideRest : isOutside middle = true := by
        rw [isOutside, stmtBound.leads.depth_eq]
        exact outside
      refine ⟨middle, ?_, ?_⟩
      · refine closes_of_isBound formed grows stmtBound typed.1 inRange outside
          (Nat.le_trans restBound.leads.next_le last_le)
          (answers.mono (fun _ => .inl) fun _ => .inl) ?_
        rintro decl rfl
        exact stored decl List.mem_cons_self
      · exact ih restBound typed.2 (stmtBound.leads.inRange inRange) outsideRest
          (answers.mono (fun _ => .inr) fun _ => .inr)
          fun decl mem => stored decl (List.mem_cons_of_mem _ mem)

/-- The modules after the sweep are closed one after the other. -/
theorem closeModules_of_areBound
    (same : swept.map Module.erase = modules.map Module.erase)
    {stop : VarId}
    (bound : Module.AreBound arena Accessor.IsUnbound modules visible next stop)
    (typed : ∀ module ∈ modules, module.IsTyped arena)
    (areOutside : outside -> ∀ module ∈ modules, module.ExportsOutside)
    (below : ∀ var ∈ visible, var < next)
    (inside : stop ≤ arena.size)
    (answers : Answers usage pending grown (ReadByModules modules { id | usage.isUsed id = true })
      (IndexedByModules swept { id | usage.isUsed id = true }))
    (stored : ∀ module ∈ swept, ∀ decl, .var decl ∈ module.statements ->
      (Stmt.var decl).isKept usage true = true) :
    CloseModules arena usage pending outside swept visible next := by
  induction modules generalizing visible next swept with
  | nil =>
      rw [List.map_nil, List.map_eq_nil_iff] at same
      subst same
      trivial
  | cons module rest ih =>
      obtain ⟨last, own, others⟩ := bound
      obtain ⟨sweptOwn, sweptRest, rfl, ownSame, restSame⟩ := List.map_eq_cons_iff.mp same
      have erased : Stmt.eraseBlock sweptOwn.statements = Stmt.eraseBlock module.statements :=
        congrArg Module.statements ownSame
      obtain ⟨ownTyped, restTyped⟩ := List.forall_mem_cons.mp typed
      obtain ⟨ownStored, restStored⟩ := List.forall_mem_cons.mp stored
      have startRange := Place.inRange_ofModule below
      have lastBelow := Place.handOver_lt (own.statements.leads.inRange startRange)
      have last_le := Nat.le_trans (areBound_numbers others lastBelow).1.le inside
      refine ⟨last, ?_, fun held var => own.mem_visible_of_handOver
        (areOutside held module List.mem_cons_self), ?_⟩
      · refine closeAll_of_areBound formed grows ?_ ?_ startRange rfl last_le
          (answers.mono (fun var isRead => ?_) fun call isCall => ?_) ownStored
        · rw [← Stmt.areBound_eraseBlock, erased, Stmt.areBound_eraseBlock]
          exact own.statements
        · rw [← (Stmt.arePlain_hasTypes arena).everyIn_eraseBlock, erased,
            (Stmt.arePlain_hasTypes arena).everyIn_eraseBlock]
          exact ownTyped
        · rw [← Stmt.readsLiveIn_eraseBlock, erased, Stmt.readsLiveIn_eraseBlock] at isRead
          exact (readByModules_cons module rest _ var).mpr (.inl isRead)
        · exact (indexedByModules_cons sweptOwn sweptRest _ call).mpr (.inl isCall)
      · exact ih restSame others restTyped
          (fun held module mem => areOutside held module (List.mem_cons_of_mem _ mem))
          lastBelow
          (answers.mono (fun var isRead => (readByModules_cons module rest _ var).mpr (.inr isRead))
            fun call isCall => (indexedByModules_cons sweptOwn sweptRest _ call).mpr (.inr isCall))
          restStored

end

end Swept

end Liveness

/-! ## Lists of statements -/

/-- What is declared after a list of statements. -/
def Stmt.declaredAfter
    (usage : Usage)
    (atTop : Bool) : List Stmt -> List VarId -> List VarId
  | [], declared => declared
  | stmt :: rest, declared =>
      Stmt.declaredAfter usage atTop rest (stmt.writes usage atTop ++ declared)

section Lists

variable (usage : Usage) (atTop : Bool)

theorem Stmt.subset_declaredAfter
    (block : List Stmt)
    (declared : List VarId) :
    declared ⊆ Stmt.declaredAfter usage atTop block declared := by
  induction block generalizing declared with
  | nil => exact fun _ mem => mem
  | cons stmt rest ih =>
      exact fun _ mem => ih _ (List.mem_append_right _ mem)

theorem Stmt.declaredAfter_append
    (block rest : List Stmt)
    (declared : List VarId) :
    Stmt.declaredAfter usage atTop (block ++ rest) declared =
      Stmt.declaredAfter usage atTop rest
        (Stmt.declaredAfter usage atTop block declared) := by
  induction block generalizing declared with
  | nil => rfl
  | cons stmt _ ih => exact ih _

theorem Stmt.areClosed_append
    {usage : Usage}
    {atTop : Bool}
    {rest : List Stmt}
    (blockClosed : Stmt.AreClosed usage atTop block declared)
    (restClosed : Stmt.AreClosed usage atTop rest
      (Stmt.declaredAfter usage atTop block declared)) :
    Stmt.AreClosed usage atTop (block ++ rest) declared := by
  induction block generalizing declared with
  | nil => exact restClosed
  | cons stmt _ ih =>
      exact ⟨blockClosed.1, ih blockClosed.2 restClosed⟩

/-- Accessors are closed where the structs that they wait for are declared. -/
theorem Stmt.areClosed_accessors
    {taken : List Pending}
    (known : ∀ waiting ∈ taken, waiting.IsAccessor arena ∧ ∀ dep ∈ waiting.deps, dep ∈ declared) :
    Stmt.AreClosed usage atTop (taken.map Pending.stmt) declared ∧
      ∀ waiting ∈ taken,
        waiting.var ∈ Stmt.declaredAfter usage atTop (taken.map Pending.stmt) declared := by
  induction taken generalizing declared with
  | nil => exact ⟨trivial, by simp⟩
  | cons waiting rest ih =>
      obtain ⟨⟨⟨accessor, stmt_eq, declares, deps_eq⟩, ownKnown⟩, restKnown⟩ :=
        List.forall_mem_cons.mp known
      have own : waiting.var ∈ waiting.stmt.writes usage atTop := by
        rw [stmt_eq]
        exact declares.mem_writes rfl rfl
      have later : ∀ other ∈ rest, other.IsAccessor arena ∧
          ∀ dep ∈ other.deps, dep ∈ waiting.stmt.writes usage atTop ++ declared :=
        fun other mem => (restKnown other mem).imp_right fun depsKnown dep isDep =>
          List.mem_append_right _ (depsKnown dep isDep)
      obtain ⟨restClosed, restDeclared⟩ := ih later
      refine ⟨⟨fun _ => ?_, restClosed⟩, List.forall_mem_cons.mpr ⟨?_, restDeclared⟩⟩
      · rw [stmt_eq]
        intro var isElement
        refine ownKnown var ?_
        rw [deps_eq]
        exact Option.mem_toList.mpr isElement
      · exact Stmt.subset_declaredAfter _ _ (rest.map Pending.stmt) _ (List.mem_append_left _ own)

end Lists

/-! ## Waiting accessors -/

/-- A statement waits for nothing once all its dependencies are released. -/
theorem Pending.isReady_release
    {waiting : Pending} :
    (waiting.release dep).isReady = true ↔ ∀ id ∈ waiting.deps, dep = some id := by
  cases dep with
  | none => simp [release, isReady, List.eq_nil_iff_forall_not_mem]
  | some dep =>
      rw [release, isReady, List.isEmpty_iff, List.filter_eq_nil_iff]
      refine forall₂_congr fun id _ => ?_
      rw [bne_iff_ne, not_not, Option.some.injEq, eq_comm]

variable {current : Usage}

section Waiting

variable {waiting : Pending}

/-- An accessor waits for one struct at most, so that it either is ready or waits
as before. -/
theorem Pending.IsAccessor.release_eq
    (isAccessor : waiting.IsAccessor grown)
    (blocked : ¬(waiting.release dep).isReady = true) :
    waiting.release dep = waiting := by
  obtain ⟨accessor, _, _, deps_eq⟩ := isAccessor
  cases dep with
  | none => rfl
  | some dep =>
      have unchanged : waiting.deps.filter (· != dep) = waiting.deps := by
        refine List.filter_eq_self.mpr fun id mem => bne_iff_ne.mpr ?_
        rintro rfl
        refine blocked (isReady_release.mpr fun other isOther => ?_)
        rw [deps_eq, Option.mem_toList] at mem isOther
        exact congrArg some (Option.mem_unique mem isOther)
      rw [release, unchanged]

theorem Usage.pop_eq
    (isAccessor : ∀ waiting ∈ current.pending, waiting.IsAccessor grown)
    (dep : Option VarId) :
    current.pop dep =
      ((current.pending.filter fun waiting => (waiting.release dep).isReady).map Pending.stmt,
        { current with
          pending := current.pending.filter fun waiting => !(waiting.release dep).isReady }) := by
  have stmt_eq : Pending.stmt ∘ Pending.release dep = Pending.stmt := by
    funext waiting
    cases dep <;> rfl
  rw [pop, List.partition_eq_filter_filter, List.filter_map, List.filter_map]
  refine Prod.ext ?_ (congrArg (fun pending => { current with pending := pending }) ?_)
  · exact (List.map_map ..).trans (by rw [stmt_eq]; rfl)
  · refine (List.map_congr_left fun waiting mem => ?_).trans (List.map_id _)
    obtain ⟨isWaiting, blocked⟩ := List.mem_filter.mp mem
    exact (isAccessor waiting isWaiting).release_eq (by simpa using blocked)

theorem Usage.mem_pending_pop
    (isAccessor : waiting.IsAccessor grown)
    (mem : waiting ∈ current.pending)
    (isDep : id ∈ waiting.deps)
    (other : dep ≠ some id) :
    waiting ∈ (current.pop dep).2.pending := by
  have blocked : ¬(waiting.release dep).isReady = true :=
    fun ready => other (Pending.isReady_release.mp ready id isDep)
  have same := isAccessor.release_eq blocked
  rw [same] at blocked
  rw [pop, List.partition_eq_filter_filter]
  exact List.mem_filter.mpr ⟨List.mem_map.mpr ⟨waiting, mem, same⟩, by simpa using blocked⟩

end Waiting

/-! ## Splicing -/

namespace Module

open Liveness

/-- How far splicing has come: what is visible at a place is declared, and each
accessor is declared or still waits. -/
structure Spliced
    (arena : Arena)
    (usage : Usage)
    (pending : List Pending)
    (place : Place)
    (placed : Bool)
    (current : Usage)
    (declared : List VarId) : Prop where
  /-- Written variables are declared. -/
  provides : place.Provides arena usage declared
  /-- What waits has waited from the start. -/
  waits : ∀ waiting ∈ current.pending, waiting ∈ pending
  /-- What no longer waits is declared. -/
  declares : ∀ waiting ∈ pending, waiting ∈ current.pending ∨ waiting.var ∈ declared
  /-- Once the accessors over no struct are placed, the others wait for one. -/
  blocked : placed = true -> ∀ waiting ∈ current.pending, waiting.deps ≠ []

variable {place : Place} {placed : Bool} {accessors : Accessor -> Prop}

section Splicing

variable {usage : Usage}

/-- Accessors are taken where the structs that they wait for are declared. -/
theorem Spliced.pop
    (spliced : Spliced arena usage pending place placed current declared)
    (isAccessor : ∀ waiting ∈ pending, waiting.IsAccessor grown)
    (known : ∀ id ∈ dep, id ∈ declared)
    (after : Bool) :
    Stmt.AreClosed usage true (current.pop dep).1 declared ∧
      Spliced arena usage pending place after (current.pop dep).2
        (Stmt.declaredAfter usage true (current.pop dep).1 declared) := by
  have waitsAccessor := fun waiting mem => isAccessor waiting (spliced.waits waiting mem)
  have takenKnown : ∀ waiting ∈ current.pending.filter (fun waiting => (waiting.release dep).isReady),
      waiting.IsAccessor grown ∧ ∀ id ∈ waiting.deps, id ∈ declared := by
    intro waiting mem
    obtain ⟨isWaiting, ready⟩ := List.mem_filter.mp mem
    exact ⟨waitsAccessor waiting isWaiting,
      fun id isDep => known id (Pending.isReady_release.mp ready id isDep)⟩
  obtain ⟨closed, takenDeclared⟩ := Stmt.areClosed_accessors usage true takenKnown
  rw [Usage.pop_eq waitsAccessor]
  have later := Stmt.subset_declaredAfter usage true
    ((current.pending.filter fun waiting => (waiting.release dep).isReady).map Pending.stmt) declared
  refine ⟨closed, ?_, ?_, ?_, ?_⟩
  · exact fun var isVisible isWritten => later (spliced.provides var isVisible isWritten)
  · exact fun waiting mem => spliced.waits waiting (List.mem_of_mem_filter mem)
  · intro waiting mem
    rcases spliced.declares waiting mem with isWaiting | isDeclared
    · by_cases ready : (waiting.release dep).isReady = true
      · exact .inr (takenDeclared waiting (List.mem_filter.mpr ⟨isWaiting, ready⟩))
      · exact .inl (List.mem_filter.mpr ⟨isWaiting, by simpa using ready⟩)
    · exact .inr (later isDeclared)
  · intro _ waiting mem none_left
    obtain ⟨_, left⟩ := List.mem_filter.mp mem
    have ready : (waiting.release dep).isReady = true := by
      rw [Pending.isReady_release, none_left]
      simp
    simp [ready] at left

/-- The accessors over no struct are taken before the first statement that is no
prologue. -/
theorem Spliced.general
    (spliced : Spliced arena usage pending place placed current declared)
    (isAccessor : ∀ waiting ∈ pending, waiting.IsAccessor grown)
    (stmt : Stmt) :
    Stmt.AreClosed usage true (general placed current stmt).1 declared ∧
      Spliced arena usage pending place (placed || !stmt.isPrologue) (general placed current stmt).2
        (Stmt.declaredAfter usage true (general placed current stmt).1 declared) := by
  unfold Module.general
  split
  next here =>
    exact spliced.pop isAccessor (by simp) _
  next elsewhere =>
    have flag_eq : (placed || !stmt.isPrologue) = placed := by
      cases placed with
      | true => rfl
      | false => simpa using elsewhere
    rw [flag_eq]
    exact ⟨trivial, spliced⟩

/-- The accessors over a struct are taken right after it. -/
theorem Spliced.release
    (spliced : Spliced arena usage pending place placed current declared)
    (isAccessor : ∀ waiting ∈ pending, waiting.IsAccessor grown)
    (known : ∀ id ∈ struct? stmt, id ∈ declared) :
    Stmt.AreClosed usage true (release current stmt).1 declared ∧
      Spliced arena usage pending place placed (release current stmt).2
        (Stmt.declaredAfter usage true (release current stmt).1 declared) := by
  unfold Module.release
  split
  next var isStruct =>
    rw [isStruct] at known
    exact spliced.pop isAccessor known _
  next => exact ⟨trivial, spliced⟩

/-- A statement declares its own variable. -/
theorem Spliced.after
    (spliced : Spliced arena usage pending first placed current declared)
    (closes : Closes arena usage pending stmt first last) :
    Spliced arena usage pending last placed current (stmt.writes usage true ++ declared) :=
  { spliced with
    provides := closes.bound.provides spliced.provides closes.stored
    declares := fun waiting mem =>
      (spliced.declares waiting mem).imp_right (List.mem_append_right _) }

/-- A struct has the number of its place. -/
theorem eq_next_of_struct?
    (bound : stmt.IsBound arena accessors first last)
    (isStruct : struct? stmt = some id) :
    id = first.next := by
  cases stmt with
  | struct decl =>
      obtain ⟨_, declares, _⟩ := bound
      exact Option.some.inj (isStruct.symm.trans declares.var_eq)
  | _ => cases isStruct

theorem mem_writes_of_struct?
    (isStruct : struct? stmt = some id)
    (usage : Usage)
    (atTop : Bool) :
    id ∈ stmt.writes usage atTop := by
  cases stmt with
  | struct decl => exact Option.mem_toList.mpr isStruct
  | _ => cases isStruct

end Splicing

variable {limit : VarId}

section Late

variable {usage : Usage}

/-- Each accessor that waits for a struct waits for one that is not declared
yet. -/
def WaitsForLater
    (grown : Arena)
    (limit : VarId)
    (current : Usage) : Prop :=
  ∀ waiting ∈ current.pending, waiting.IsAccessor grown -> waiting.deps ≠ [] ->
    ∃ dep ∈ waiting.deps, limit ≤ dep

theorem WaitsForLater.mono
    {lower : VarId}
    (later : WaitsForLater grown limit current)
    (lower_le : lower ≤ limit) :
    WaitsForLater grown lower current := by
  intro waiting mem isAccessor blocked
  obtain ⟨dep, isDep, limit_le⟩ := later waiting mem isAccessor blocked
  exact ⟨dep, isDep, Nat.le_trans lower_le limit_le⟩

/-- What a release takes waits for what is released. -/
theorem WaitsForLater.of_pop
    (later : WaitsForLater grown limit (current.pop dep).2)
    (released : ∀ id ∈ dep, limit ≤ id) :
    WaitsForLater grown limit current := by
  intro waiting mem isAccessor blocked
  obtain ⟨id, isDep⟩ := List.exists_mem_of_ne_nil _ blocked
  by_cases own : dep = some id
  · exact ⟨id, isDep, released id own⟩
  · exact later waiting (Usage.mem_pending_pop isAccessor mem isDep own) isAccessor blocked

/-- The accessors over no struct wait for none. -/
theorem WaitsForLater.of_general
    (later : WaitsForLater grown limit (general placed current stmt).2) :
    WaitsForLater grown limit current := by
  unfold Module.general at later
  split at later
  · exact later.of_pop (by simp)
  · exact later

/-- The accessors over a struct wait for it. -/
theorem WaitsForLater.of_release
    (later : WaitsForLater grown limit (release current stmt).2)
    (released : ∀ id ∈ struct? stmt, limit ≤ id) :
    WaitsForLater grown limit current := by
  unfold Module.release at later
  split at later
  next var isStruct =>
    rw [isStruct] at released
    exact later.of_pop released
  next => exact later

/-- Splicing places only accessors over structs that come later. -/
theorem WaitsForLater.of_splice
    (bound : Stmt.AreBound arena accessors block first last)
    (later : WaitsForLater grown last.next (splice placed current block).2) :
    WaitsForLater grown first.next current := by
  induction block generalizing placed current first with
  | nil =>
      obtain rfl : last = first := bound
      cases placed with
      | true => exact later
      | false => exact later.of_pop (by simp)
  | cons stmt rest ih =>
      obtain ⟨middle, stmtBound, restBound⟩ := bound
      rw [splice_cons] at later
      have atMiddle := ih restBound later
      refine ((atMiddle.mono stmtBound.leads.next_le).of_release fun id isStruct => ?_).of_general
      exact Nat.le_of_eq (eq_next_of_struct? stmtBound isStruct).symm

end Late

section Output

variable {usage : Usage}

/-- All accessors over structs that are declared so far are declared. -/
theorem Spliced.covers
    (spliced : Spliced arena usage pending place true current declared)
    (isAccessor : ∀ waiting ∈ pending, waiting.IsAccessor grown)
    (later : WaitsForLater grown limit current) :
    Covers pending limit declared := by
  intro waiting mem below
  refine (spliced.declares waiting mem).resolve_left fun isWaiting => ?_
  obtain ⟨dep, isDep, limit_le⟩ :=
    later waiting isWaiting (isAccessor waiting mem) (spliced.blocked rfl waiting isWaiting)
  exact Nat.not_lt_of_le limit_le (below dep isDep)

/-- Code is neither a prologue nor a struct. -/
theorem isPrologue_eq_of_holdsCode (isCode : holdsCode stmt = true) :
    stmt.isPrologue = false ∧ struct? stmt = none := by
  cases stmt with
  | const | var | function | assign | cond | loop | ret | call | update | setIndex =>
      exact ⟨rfl, rfl⟩
  | _ => cases isCode

/-- A statement is closed at its place, because an accessor that it needs and that
is not declared there would wait forever. -/
theorem Spliced.isClosed
    (spliced : Spliced arena usage pending first (placed || !stmt.isPrologue) current declared)
    (isAccessor : ∀ waiting ∈ pending, waiting.IsAccessor grown)
    (closes : Closes arena usage pending stmt first last)
    (later : WaitsForLater grown last.next (Module.release current stmt).2)
    (kept : stmt.isKept usage true = true) :
    stmt.IsClosed usage declared := by
  refine closes.closed declared spliced.provides (fun isCode => ?_) kept
  obtain ⟨noPrologue, noStruct⟩ := isPrologue_eq_of_holdsCode isCode
  rw [noPrologue, Bool.not_false, Bool.or_true] at spliced
  exact spliced.covers isAccessor (later.of_release (by simp [noStruct]))

/-- Splicing leaves the statements of a module closed, if all accessors over the
structs that are declared by its end are placed. -/
theorem areClosed_splice
    (isAccessor : ∀ waiting ∈ pending, waiting.IsAccessor grown)
    (closes : CloseAll arena usage pending block first last)
    (spliced : Spliced arena usage pending first placed current declared)
    (later : WaitsForLater grown last.next (splice placed current block).2) :
    Stmt.AreClosed usage true (splice placed current block).1 declared ∧
      Spliced arena usage pending last true (splice placed current block).2
        (Stmt.declaredAfter usage true (splice placed current block).1 declared) := by
  induction block generalizing placed current first declared with
  | nil =>
      obtain rfl : last = first := closes
      cases placed with
      | true => exact ⟨trivial, spliced⟩
      | false => exact spliced.pop isAccessor (by simp) true
  | cons stmt rest ih =>
      obtain ⟨middle, stmtCloses, restCloses⟩ := closes
      rw [splice_cons] at later ⊢
      obtain ⟨beforeClosed, before⟩ := spliced.general isAccessor stmt
      have stmtClosed := before.isClosed isAccessor stmtCloses (later.of_splice restCloses.areBound)
      obtain ⟨ownClosed, own⟩ := (before.after stmtCloses).release isAccessor
        fun id isStruct => List.mem_append_left _ (mem_writes_of_struct? isStruct usage true)
      obtain ⟨afterClosed, after⟩ := ih restCloses own later
      rw [Stmt.declaredAfter_append, Stmt.declaredAfter, Stmt.declaredAfter_append]
      refine ⟨?_, after⟩
      exact Stmt.areClosed_append beforeClosed
        ⟨stmtClosed, Stmt.areClosed_append ownClosed afterClosed⟩

end Output

end Module

namespace Bundle

open Liveness

section Modules

variable {usage : Usage} {isFirst : Bool}

/-- If nothing waits in the end, the accessors over structs of earlier modules do
not wait. -/
theorem waitsForLater_of_spliceModules
    (closes : CloseModules arena usage pending outside modules visible next)
    (none_left : (spliceModules isFirst current modules).2.pending = []) :
    Module.WaitsForLater grown next current := by
  induction modules generalizing isFirst current visible next with
  | nil =>
      intro waiting mem
      exact absurd mem (none_left ▸ List.not_mem_nil)
  | cons module rest ih =>
      obtain ⟨last, ownCloses, _, restCloses⟩ := closes
      exact (ih restCloses none_left).of_splice ownCloses.areBound

/-- Splicing leaves the modules closed, if nothing waits in the end. -/
theorem areClosed_spliceModules
    (isAccessor : ∀ waiting ∈ pending, waiting.IsAccessor grown)
    (closes : CloseModules arena usage pending outside modules visible next)
    (held : outside)
    (spliced : Module.Spliced arena usage pending (.ofModule visible next) (!isFirst) current declared)
    (none_left : (spliceModules isFirst current modules).2.pending = []) :
    Stmt.AreClosed usage true
      ((spliceModules isFirst current modules).1.flatMap Module.statements) declared := by
  induction modules generalizing isFirst current visible next declared with
  | nil => trivial
  | cons module rest ih =>
      obtain ⟨last, ownCloses, handOver, restCloses⟩ := closes
      obtain ⟨ownClosed, after⟩ := Module.areClosed_splice isAccessor ownCloses spliced
        (waitsForLater_of_spliceModules restCloses none_left)
      refine Stmt.areClosed_append ownClosed (ih restCloses ?_ none_left)
      exact { after with
        provides := fun var isVisible => after.provides var (handOver held var isVisible) }

end Modules

section Build

variable {library : Library} {bundle placed named typed swept : Bundle}

/-- Exports stand at module level after names are bound, if they did before. -/
theorem exportsOutside_named
    (outside : ∀ module ∈ bundle.modules ++ library.modules, module.ExportsOutside)
    (build : Named library bundle placed named) :
    ∀ module ∈ named.modules, module.ExportsOutside := by
  obtain ⟨modules, rfl, origin⟩ := resolveDependencies_eq_ok build.placing
  obtain ⟨succeeded, rfl⟩ := resolveNames_eq_ok build.binding
  refine exportsOutside_of_bindModules (fun module mem => ?_) succeeded
  exact outside module (List.mem_append.mpr (origin module mem))

/-- The modules after the sweep are closed, if all that they demand is read. -/
theorem IsFresh.closeModules
    (fresh : IsFresh library bundle)
    (build : Swept library bundle placed named typed swept)
    {usage : Usage}
    (used_eq : usage.used = swept.usage.used)
    (demands : ∀ entry ∈ swept.usage.tracked, usage.isUsed entry.1 = true) :
    CloseModules typed.arena usage swept.usage.pending
      (∀ module ∈ bundle.modules ++ library.modules, module.ExportsOutside) swept.modules
      (List.range bundle.arena.size) bundle.arena.size := by
  obtain ⟨_, bound⟩ := fresh.isInRange.areBound build.toNamed
  have formed := fresh.isFormed_typed build.toTyped
  have isTyped := fresh.isTyped build.toTyped
  have exportsOutside := fun outside => exportsOutside_named outside build.toNamed
  obtain ⟨arena, checked, rfl⟩ := evalTypes_eq_ok build.typing
  obtain ⟨modules, state, run, rfl⟩ := resolveActivity_eq_ok build.sweeping
  have keeps : named.arena.Keeps arena :=
    (Typing.KeepsArena.retypes checked).keeps
  have bound := bound arena keeps
  have below : ∀ var ∈ List.range bundle.arena.size, var < bundle.arena.size :=
    fun _ => List.mem_range.mp
  have follows : State.Follows arena
      { arena := arena, usage := named.modules.foldl markMain {} } :=
    ⟨.refl arena, Usage.waits_of_pending_eq_nil (pending_foldl_markMain named.modules {})⟩
  have sweeps := sweeps_of_sweepModules named.stage bound below keeps.size_le follows run
  obtain ⟨within, _⟩ := areBound_numbers bound below
  have used : { id | usage.isUsed id = true } = state.read := by
    unfold State.read Usage.isUsed
    rw [used_eq]
  have erased := map_erase_sweepModules named.stage named.modules
    { arena := arena, usage := named.modules.foldl markMain {} }
  rw [run.1] at erased
  refine closeModules_of_areBound formed sweeps.moves.grows erased bound isTyped exportsOutside below
    keeps.size_le ⟨fun var isRead => ?_, ?_⟩ fun module isSwept decl mem => ?_
  · rw [used] at isRead
    have isUsed := sweeps.complete var (Nat.lt_of_lt_of_le (within.lt isRead) keeps.size_le) isRead
    rwa [← used] at isUsed
  · rw [used]
    exact (sweeps.selects state.read fun _ _ _ => Iff.rfl).bound
  · obtain ⟨entry, isTracked, isBound⟩ := exists_tracked_of_sweepModules run isSwept mem
    rw [Stmt.isKept, Usage.reads, isBound]
    exact demands entry isTracked

/-- The output is closed and declares before use: after a build of a fresh bundle
whose exports stand at module level, every variable in a kept statement is a
built-in of the stage, or is declared by a kept statement before it in the same
block or in one around it. -/
theorem finalize_areClosed
    {result : Bundle}
    (fresh : IsFresh library bundle)
    (outside : ∀ module ∈ bundle.modules ++ library.modules, module.ExportsOutside)
    (run : finalize library bundle = .ok () result) :
    Stmt.AreClosed result.usage true (result.modules.flatMap Module.statements)
      (List.range result.stage.arena.size) := by
  obtain ⟨placed, named, typed, swept, spliced, unique, _, build, naming, _, rfl⟩ :=
    finalize_eq_ok run
  obtain ⟨_, _, waits⟩ := fresh.isInRange.areBound_swept build.toSwept
  obtain ⟨_, _, rfl⟩ := uniqueNames_eq_ok naming
  rw [build.stage_eq.1, ← fresh.arena_eq]
  obtain ⟨rfl, checked⟩ := finalizeInjected_eq_ok build.splicing
  obtain ⟨none_left, demands⟩ := Usage.check_eq_ok checked
  obtain ⟨_, hands⟩ := hands_spliceModules true swept.usage swept.modules
  have closes := fresh.closeModules build.toSwept hands.used_eq
    fun entry mem => demands entry (hands.tracked_eq ▸ mem)
  refine areClosed_spliceModules waits.isAccessor closes outside ?_ none_left
  exact ⟨fun _ isVisible _ => isVisible, fun _ mem => mem, fun _ => .inl, by simp⟩

/-- The output of a program that drops a function and defines an accessor over a
struct of another module is closed. -/
theorem finalize_sample_areClosed :
    (∀ module ∈ Sample.bundle.modules ++ Sample.library.modules, module.ExportsOutside) ∧
      ∃ result, finalize Sample.library Sample.bundle = .ok () result ∧
        Stmt.AreClosed result.usage true (result.modules.flatMap Module.statements)
          (List.range result.stage.arena.size) := by
  have outside : ∀ module ∈ Sample.bundle.modules ++ Sample.library.modules,
      module.ExportsOutside := by
    unfold Module.ExportsOutside
    decide +kernel
  have passed : passes (fun _ => true) (finalize Sample.library Sample.bundle) = true := by
    decide +kernel
  obtain ⟨result, run, _⟩ := exists_of_passes passed
  exact ⟨outside, result, run, finalize_areClosed Sample.isFresh_bundle outside run⟩

end Build

end Bundle

end ModularGlsl
