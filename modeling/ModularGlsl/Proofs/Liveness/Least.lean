import Mathlib.Order.Bounds.Defs
import ModularGlsl.Proofs.Liveness.Indices

/-!
# The sweep reads what live code reads

One backward walk over a bound program reads exactly the least set that holds
the main functions and all that live code reads.  It is sound because whatever
it takes for live is live in every such set, and complete because a declaration
is judged after all that can read it: what comes before a declaration reads only
smaller numbers.  For the same reason the dynamic indices that it binds are those of
live code.
-/

namespace ModularGlsl
namespace Liveness

/-- The variables that are read. -/
def State.read (state : State) : Set VarId :=
  { var | state.usage.isUsed var = true }

/-- A state of the sweep over the variables of an arena: they stay as they are,
and accessors have new variables. -/
structure State.Follows
    (arena : Arena)
    (state : State) : Prop where
  /-- Variables are only added. -/
  grows : arena.Grows state.arena
  /-- Accessors have new variables. -/
  waits : state.usage.Waits state.arena arena.size

variable {arena : Arena} {before after : State} {kind : AccessorKind}
variable {var limit higher number stop : VarId}

/-- The sweep stays over its variables. -/
theorem State.Moves.follows
    (moves : before.Moves after)
    (follows : before.Follows arena) :
    after.Follows arena :=
  ⟨follows.grows.trans moves.grows, moves.waits follows.grows.size_le follows.waits⟩

/-- A run of the sweep stays over its variables. -/
theorem State.Follows.sweep
    {α : Type}
    {step : Sweep α}
    [Sweeping step]
    {value : α}
    (follows : before.Follows arena)
    (run : Runs step before value after) :
    after.Follows arena :=
  (Sweeping.moves run).follows follows

theorem State.Moves.read_subset (moves : before.Moves after) :
    before.read ⊆ after.read :=
  fun _ used => moves.isUsed used

variable {span : Span}

/-- An accessor is no variable of the arena. -/
theorem State.Follows.size_le_of_obtainFor
    (follows : before.Follows arena)
    {container : Ty}
    {grown : Arena}
    {usage : Usage}
    (made : Accessor.obtainFor before.arena before.usage kind container span =
      .ok (var, grown, usage)) :
    arena.size ≤ var := by
  obtain ⟨request, _, ⟨found, _, _⟩ | ⟨rfl, _, _⟩⟩ := obtainFor_eq_ok made
  · obtain ⟨waiting, isFound, rfl⟩ := Option.map_eq_some_iff.mp found
    exact follows.waits.low_le waiting (List.mem_of_find?_eq_some isFound)
  · exact follows.grows.size_le

/-! ## Steps that read -/

/-- A set holds the same variables from a number on as a state of the sweep has read. -/
def AgreesFrom
    (arena : Arena)
    (limit : VarId)
    (live : Set VarId)
    (state : State) : Prop :=
  ∀ id, limit ≤ id -> id < arena.size -> (id ∈ live ↔ id ∈ state.read)

theorem AgreesFrom.mono
    {live : Set VarId}
    {state : State}
    (agrees : AgreesFrom arena limit live state)
    (limit_le : limit ≤ higher) :
    AgreesFrom arena higher live state :=
  fun id above inside => agrees id (Nat.le_trans limit_le above) inside

/-- What a step of the sweep does for code whose declarations have numbers from one on:
its reads and its dynamic indices depend on what is live.  Nothing is read that is not
live in a set that holds what is read before and is closed under the reads, all reads are
made, and the indices are bound. -/
structure Sweeps
    (arena : Arena)
    (number : VarId)
    (reads : Set VarId -> VarId -> Prop)
    (calls : Set VarId -> DynamicIndex -> Prop)
    (before after : State) : Prop where
  /-- The state changes as the sweep changes it. -/
  moves : before.Moves after
  /-- Only live variables are read. -/
  sound : ∀ live : Set VarId, (∀ var < arena.size, var ∈ before.read -> var ∈ live) ->
    (∀ var, reads live var -> var ∈ live) ->
      ∀ var < arena.size, var ∈ after.read -> var ∈ live
  /-- All that live code reads is read. -/
  complete : ∀ var < arena.size, reads after.read var -> var ∈ after.read
  /-- The dynamic indices of live code are bound. -/
  selects : ∀ live, AgreesFrom arena number live after -> Selects (calls live) before after

variable {reads early late : Set VarId -> VarId -> Prop}

section Sweeps

variable {middle : State} {earlyCalls lateCalls : Set VarId -> DynamicIndex -> Prop}

theorem Sweeps.refl (state : State) :
    Sweeps arena number (fun _ _ => False) (fun _ _ => False) state state :=
  ⟨.refl, fun _ held _ => held, fun _ _ => False.elim, fun _ _ => .refl state⟩

variable {calls : DynamicIndex -> Prop}

variable {vars : List VarId}

/-- A step that reads certain variables and binds certain indices whatever is live. -/
theorem Sweeps.of_reads
    (selects : Selects calls before after)
    (reads : ∀ var < arena.size, var ∈ after.read ↔ var ∈ before.read ∨ var ∈ vars) :
    Sweeps arena number (fun _ var => var ∈ vars) (fun _ => calls) before after where
  moves := selects.moves
  selects _ _ := selects
  sound live held closed var inside used := by
    rcases (reads var inside).mp used with earlier | isRead
    · exact held var inside earlier
    · exact closed var isRead
  complete var inside isRead := (reads var inside).mpr (.inr isRead)

theorem Sweeps.mem_read
    (sweeps : Sweeps arena number reads earlyCalls before after)
    (below : ∀ live var, reads live var -> var < limit)
    {id : VarId}
    (above : limit ≤ id)
    (inside : id < arena.size)
    (used : id ∈ after.read) :
    id ∈ before.read := by
  have held := sweeps.sound (before.read ∪ { var | var < limit }) (fun _ _ => .inl)
    (fun var isRead => .inr (below _ var isRead)) id inside used
  rcases held with earlier | small
  · exact earlier
  · exact absurd small (Nat.not_lt_of_le above)

/-- Code is swept after the code that follows it, which depends only on its own
declarations. -/
theorem Sweeps.trans
    (first : Sweeps arena limit late lateCalls before middle)
    (second : Sweeps arena number early earlyCalls middle after)
    (own : ReadsWithin number limit early)
    (later : ReadsWithin limit stop late)
    (stop_le : stop ≤ arena.size) :
    Sweeps arena number (fun live var => early live var ∨ late live var)
      (fun live call => earlyCalls live call ∨ lateCalls live call) before after where
  moves := first.moves.trans second.moves
  sound live held closed :=
    second.sound live
      (first.sound live held fun var isRead => closed var (.inr isRead))
      fun var isRead => closed var (.inl isRead)
  complete var inside isRead := by
    rcases isRead with inEarly | inLate
    · exact second.complete var inside inEarly
    · refine second.moves.read_subset (first.complete var inside (later.mono ?_ inLate))
      exact fun id used above below =>
        second.mem_read (fun _ _ => own.lt) above (Nat.lt_of_lt_of_le below stop_le) used
  selects live agrees := by
    refine (first.selects live fun id above inside => ?_).trans (second.selects live agrees)
    rw [agrees.mono own.le id above inside]
    exact ⟨second.mem_read (fun _ _ => own.lt) above inside,
      fun used => second.moves.read_subset used⟩

/-- Code is swept after other code that reads the same whatever is live. -/
theorem Sweeps.trans_const
    (first : Sweeps arena number (fun _ var => var ∈ vars) (fun _ => calls) before middle)
    (second : Sweeps arena number early earlyCalls middle after) :
    Sweeps arena number (fun live var => early live var ∨ var ∈ vars)
      (fun live call => earlyCalls live call ∨ calls call) before after where
  moves := first.moves.trans second.moves
  sound live held closed :=
    second.sound live
      (first.sound live held fun var isRead => closed var (.inr isRead))
      fun var isRead => closed var (.inl isRead)
  complete var inside isRead := by
    rcases isRead with inEarly | inVars
    · exact second.complete var inside inEarly
    · exact second.moves.read_subset (first.complete var inside inVars)
  selects live agrees :=
    (first.selects middle.read fun _ _ _ => Iff.rfl).trans (second.selects live agrees)

theorem Sweeps.congr
    {other : Set VarId -> VarId -> Prop}
    (sweeps : Sweeps arena number reads earlyCalls before after)
    (same : ∀ live var, other live var ↔ reads live var)
    (sameCalls : ∀ live call, lateCalls live call ↔ earlyCalls live call) :
    Sweeps arena number other lateCalls before after where
  moves := sweeps.moves
  sound live held closed :=
    sweeps.sound live held fun var isRead => closed var ((same live var).mpr isRead)
  complete var inside isRead := sweeps.complete var inside ((same _ var).mp isRead)
  selects live agrees := (sweeps.selects live agrees).congr (sameCalls live)

section Guarded

variable {guard : Set VarId -> Prop} {counts : Bool}
variable (guard_iff : ∀ live, guard live ↔ counts = true ∨ number ∈ live)
variable (inside : number < arena.size)
include guard_iff inside

/-- Code of a declaration that counts anyway or is read. -/
theorem Sweeps.live
    (sweeps : Sweeps arena limit reads earlyCalls before after)
    (number_le : number ≤ limit)
    (isLive : counts = true ∨ number ∈ before.read) :
    Sweeps arena number (fun live var => guard live ∧ reads live var)
      (fun live call => guard live ∧ earlyCalls live call) before after where
  moves := sweeps.moves
  sound live held closed := by
    refine sweeps.sound live held fun var isRead => closed var ⟨?_, isRead⟩
    exact (guard_iff live).mpr (isLive.imp_right (held number inside))
  complete var known isRead := sweeps.complete var known isRead.2
  selects live agrees := by
    refine (sweeps.selects live (agrees.mono number_le)).congr fun call => and_iff_right ?_
    rw [guard_iff, agrees number (Nat.le_refl _) inside]
    exact isLive.imp_right fun used => sweeps.moves.read_subset used

/-- Code of a declaration that neither counts nor is read. -/
theorem Sweeps.dead (isDead : ¬(counts = true ∨ number ∈ before.read)) :
    Sweeps arena number (fun live var => guard live ∧ reads live var)
      (fun live call => guard live ∧ earlyCalls live call) before before where
  moves := .refl
  sound live held _ := held
  complete _ _ isRead := absurd ((guard_iff _).mp isRead.1) isDead
  selects live agrees := by
    refine (Selects.refl before).congr fun call => iff_false_intro fun isCall => ?_
    rw [guard_iff, agrees number (Nat.le_refl _) inside] at isCall
    exact isDead isCall.1

end Guarded

theorem sweeps_markUsed
    (state : State)
    (var : VarId) :
    Sweeps arena number (fun _ other => other ∈ [var]) (fun _ _ => False) state
      { state with usage := state.usage.markUsed var } := by
  refine .of_reads (.of_pending_eq (.single (.mark state var)) (Usage.pending_markUsed _ _))
    fun other _ => ?_
  simp [State.read, or_comm]

theorem sweeps_track
    (state : State)
    (var : VarId)
    (span : Span) :
    Sweeps arena number (fun _ other => other ∈ ([] : List VarId)) (fun _ _ => False) state
      { state with usage := state.usage.track var span } := by
  refine .of_reads (.of_pending_eq (.single (.track state var span)) (Usage.pending_track _ _ _))
    fun other _ => ?_
  simp [State.read]

/-- An accessor is obtained for a dynamic index. -/
theorem sweeps_of_bindAccessor
    (number : VarId)
    (follows : before.Follows arena)
    {container swept : Expr}
    {accessor bound : Option VarId}
    (same : swept.erase = container.erase)
    (run : Runs (bindAccessor kind container accessor span) before bound after) :
    Sweeps arena number (fun _ other => other ∈ ([] : List VarId))
      (fun _ => (· = ⟨kind, swept, bound⟩)) before after := by
  refine .of_reads (selects_of_bindAccessor same run) fun other inside => ?_
  obtain ⟨_, var, _, usage, _, made, rfl, rfl⟩ := runs_bindAccessor run
  have isNew := follows.size_le_of_obtainFor made
  have different : other ≠ var := Nat.ne_of_lt (Nat.lt_of_lt_of_le inside isNew)
  have used_eq : usage.isUsed other = before.usage.isUsed other := by
    obtain ⟨request, _, ⟨_, _, rfl⟩ | ⟨_, _, rfl⟩⟩ := obtainFor_eq_ok made
    · rfl
    · rfl
  simp [State.read, different, used_eq]

end Sweeps

/-! ## Expressions -/

section Expressions

variable (number : VarId)

mutual

theorem sweeps_of_sweepExpr
    (expr : Expr)
    {swept : Expr}
    {before after : State}
    (follows : before.Follows arena)
    (run : Runs (sweepExpr expr) before swept after) :
    Sweeps arena number (fun _ var => var ∈ expr.reads) (fun _ call => call ∈ swept.dynamicIndices)
      before after := by
  match expr with
  | .int _ _ | .float _ _ | .bool _ _ =>
      obtain ⟨rfl, rfl, _⟩ := runs_pure.mp run
      exact (Sweeps.refl before).congr (fun _ _ => List.mem_nil_iff _) fun _ _ => List.mem_nil_iff _
  | .var ident =>
      obtain ⟨_, ⟨var, isBound, rfl⟩, rfl⟩ := run.last runs_markIdent
      refine (sweeps_markUsed before var).congr (fun _ _ => ?_) fun _ _ => List.mem_nil_iff _
      rw [Expr.reads, isBound, Option.toList_some]
  | .member _ _ (some id) _ =>
      obtain ⟨_, rfl, rfl⟩ := run.last runs_changeUsage
      exact (sweeps_markUsed before id).congr (fun _ _ => Iff.rfl) fun _ _ => List.mem_nil_iff _
  | .member operand _ none _ | .unary _ operand _ | .paren operand _ =>
      obtain ⟨_, inside, rfl⟩ := run.last (sweeps_of_sweepExpr operand follows)
      exact inside
  | .index left right _ | .binary _ left right _ =>
      obtain ⟨_, _, first, late⟩ := run.step (sweeps_of_sweepExpr right follows)
      obtain ⟨_, second, rfl⟩ := late.last (sweeps_of_sweepExpr left (first.moves.follows follows))
      exact (first.trans_const second).congr (fun _ _ => List.mem_append) fun _ _ => List.mem_append
  | .getIndex container position _ _ =>
      obtain ⟨_, _, binding, late⟩ := runs_bind.mp run
      have followsBound := follows.sweep binding
      obtain ⟨_, _, first, late⟩ := late.step (sweeps_of_sweepExpr position followsBound)
      obtain ⟨_, early, rfl⟩ := runs_map.mp late
      have second := sweeps_of_sweepExpr container (first.moves.follows followsBound) early
      have zeroth := sweeps_of_bindAccessor number follows (erase_of_sweepExpr early) binding
      refine (zeroth.trans_const (first.trans_const second)).congr (fun _ var => ?_) fun _ call => ?_
      · rw [Expr.reads, List.mem_append]
        exact (or_iff_left List.not_mem_nil).symm
      · rw [Expr.dynamicIndices, List.mem_cons, List.mem_append, or_comm]
  | .call callee args _ =>
      obtain ⟨_, _, first, late⟩ := run.step (sweeps_of_sweepExprs args follows)
      obtain ⟨_, second, rfl⟩ :=
        late.last (sweeps_of_sweepExpr callee (first.moves.follows follows))
      exact (first.trans_const second).congr (fun _ _ => List.mem_append) fun _ _ => List.mem_append

theorem sweeps_of_sweepExprs
    (exprs : List Expr)
    {swept : List Expr}
    {before after : State}
    (follows : before.Follows arena)
    (run : Runs (sweepExprs exprs) before swept after) :
    Sweeps arena number (fun _ var => var ∈ Expr.readsOfAll exprs)
      (fun _ call => call ∈ Expr.dynamicIndicesOfAll swept) before after := by
  unfold sweepExprs at run
  match exprs with
  | [] =>
      obtain ⟨rfl, rfl, _⟩ := runs_pure.mp run
      exact (Sweeps.refl before).congr (fun _ _ => List.mem_nil_iff _) fun _ _ => List.mem_nil_iff _
  | expr :: rest =>
      obtain ⟨_, _, first, late⟩ := run.step (sweeps_of_sweepExprs rest follows)
      obtain ⟨_, second, rfl⟩ := late.last (sweeps_of_sweepExpr expr (first.moves.follows follows))
      exact (first.trans_const second).congr (fun _ _ => List.mem_append) fun _ _ => List.mem_append

end

theorem sweeps_of_sweepOptional
    {expr swept : Option Expr}
    (follows : before.Follows arena)
    (run : Runs (sweepOptional expr) before swept after) :
    Sweeps arena number (fun _ var => var ∈ Expr.readsIfAny expr)
      (fun _ call => call ∈ Expr.dynamicIndicesIfAny swept) before after := by
  cases expr with
  | none =>
      obtain ⟨rfl, rfl, _⟩ := runs_pure.mp run
      exact (Sweeps.refl before).congr (fun _ _ => List.mem_nil_iff _) fun _ _ => List.mem_nil_iff _
  | some expr =>
      obtain ⟨_, inside, rfl⟩ := run.last (sweeps_of_sweepExpr number expr follows)
      exact inside

theorem sweeps_of_sweepTarget
    {target swept : Expr}
    (follows : before.Follows arena)
    (run : Runs (sweepTarget target) before swept after) :
    Sweeps arena number (fun _ var => var ∈ target.targetReads)
      (fun _ call => call ∈ swept.dynamicIndices) before after := by
  unfold sweepTarget at run
  split at run
  next =>
    obtain ⟨rfl, rfl, _⟩ := runs_pure.mp run
    exact (Sweeps.refl before).congr (fun _ _ => List.mem_nil_iff _) fun _ _ => List.mem_nil_iff _
  next noVariable =>
    rw [Expr.targetReads_eq noVariable]
    exact sweeps_of_sweepExpr number target follows run

variable {number}

/-- The initial value of a declaration is live if the declaration counts anyway
or is read. -/
theorem sweeps_of_sweepInit
    {counts : Bool}
    {init swept : Option Expr}
    (follows : before.Follows arena)
    (inside : number < arena.size)
    (run : Runs (sweepInit (counts || before.usage.isUsed number) init) before swept after) :
    Sweeps arena number
      (fun live var => (counts = true ∨ number ∈ live) ∧ var ∈ Expr.readsIfAny init)
      (fun live call => (counts = true ∨ number ∈ live) ∧ call ∈ Expr.dynamicIndicesIfAny swept)
      before after := by
  unfold sweepInit at run
  split at run
  next isLive =>
    exact (sweeps_of_sweepOptional number follows run).live (fun _ => Iff.rfl) inside
      (Nat.le_refl _) ((Bool.or_eq_true _ _).mp isLive)
  next isDead =>
    obtain ⟨rfl, rfl, _⟩ := runs_pure.mp run
    exact .dead (fun _ => Iff.rfl) inside fun isLive => isDead ((Bool.or_eq_true _ _).mpr isLive)

end Expressions

variable {accessors : Accessor -> Prop} {first : Place}

/-! ## Statements -/

/-- Whether a place is at module level. -/
def isOutside (place : Place) : Bool :=
  place.depth == 0

theorem isOutside_eq_false
    {place inner : Place}
    (leads : place.enter.Leads inner) :
    isOutside inner = false := by
  unfold isOutside
  rw [leads.depth_eq]
  rfl

/-- A demand on an interface variable reads nothing. -/
theorem sweeps_of_sweepInterface
    {stage : Stage}
    {decl : InterfaceDecl}
    {done : Unit}
    (run : Runs (sweepInterface stage decl) before done after) :
    Sweeps arena number (fun _ _ => False) (fun _ _ => False) before after := by
  unfold sweepInterface at run
  split at run
  · obtain ⟨var, _, rfl⟩ := runs_trackIdent run
    exact (sweeps_track before var decl.span).congr (fun _ _ => (List.mem_nil_iff _).symm)
      fun _ _ => Iff.rfl
  · obtain ⟨_, rfl, _⟩ := runs_pure.mp run
    exact .refl before

theorem sweeps_of_sweepConst
    {decl swept : ConstDecl}
    {kind : DeclKind}
    (declares : decl.name.Declares arena number kind)
    (follows : before.Follows arena)
    (run : Runs (sweepConst decl) before swept after)
    (atTop : Bool) :
    Sweeps arena number (fun live var => (Stmt.const decl).ReadsLive live var atTop)
      (fun live call => (Stmt.const swept).IndexesLive live call atTop) before after := by
  obtain ⟨_, _, ⟨id, isBound, rfl, rfl⟩, late⟩ := run.step runs_readsIdent
  obtain rfl : number = id := Option.some.inj (declares.var_eq.symm.trans isBound)
  obtain ⟨_, early, rfl⟩ := runs_map.mp late
  refine (sweeps_of_sweepInit follows declares.lt_size early).congr (fun live var => ?_)
    fun live call => ?_
  · simp [Stmt.ReadsLive, Ident.IsLive, isBound]
  · simp [Stmt.IndexesLive, Ident.IsLive, isBound]

theorem isLocal_eq
    {ident : Ident}
    (declares : ident.Declares arena first.next (.ofDepth first.depth))
    {later : Arena}
    (grows : arena.Grows later) :
    isLocal later ident = !isOutside first := by
  rw [isLocal, declares.var_eq]
  dsimp only
  rw [(declares.keeps grows.keeps).decl_eq, DeclKind.ofDepth, isOutside]
  split
  next outside => simp [outside]
  next inside => simp [inside]

theorem sweeps_of_sweepVar
    {decl swept : VarDecl}
    (declares : decl.name.Declares arena first.next (.ofDepth first.depth))
    (follows : before.Follows arena)
    (run : Runs (sweepVar decl) before swept after) :
    Sweeps arena first.next (fun live var => (Stmt.var decl).ReadsLive live var (isOutside first))
      (fun live call => (Stmt.var swept).IndexesLive live call (isOutside first)) before after := by
  obtain ⟨_, _, ⟨tracked, _, rfl⟩, late⟩ := run.step runs_trackIdent
  have tracking : Sweeps arena first.next _ _ before _ := sweeps_track before tracked decl.span
  have follows := tracking.moves.follows follows
  obtain ⟨_, _, ⟨id, isBound, rfl, rfl⟩, late⟩ := late.step runs_readsIdent
  obtain rfl : first.next = id := Option.some.inj (declares.var_eq.symm.trans isBound)
  obtain ⟨_, _, ⟨⟨⟩, _⟩, late⟩ := runs_bind.mp late
  obtain ⟨_, early, rfl⟩ := runs_map.mp late
  rw [isLocal_eq declares follows.grows] at early
  have sweeps := sweeps_of_sweepInit follows declares.lt_size early
  refine (tracking.trans_const sweeps).congr (fun live var => ?_) fun live call => ?_
  · simp [Stmt.ReadsLive, Ident.IsLive, isBound]
  · simp [Stmt.IndexesLive, Ident.IsLive, isBound]

/-- The sweep of a statement reads what it reads while it is live. -/
def SweepsStmt
    (arena : Arena)
    (accessors : Accessor -> Prop)
    (stage : Stage)
    (stmt : Stmt) : Prop :=
  ∀ {first last before swept after}, stmt.IsBound arena accessors first last -> first.InRange ->
    last.next ≤ arena.size -> before.Follows arena ->
      Runs (sweepStmt stage stmt) before swept after ->
        Sweeps arena first.next (fun live var => stmt.ReadsLive live var (isOutside first))
          (fun live call => swept.IndexesLive live call (isOutside first)) before after

/-- The sweep of statements reads what they read while they are live. -/
def SweepsBlock
    (arena : Arena)
    (accessors : Accessor -> Prop)
    (stage : Stage)
    (block : List Stmt) : Prop :=
  ∀ {first last before swept after}, Stmt.AreBound arena accessors block first last ->
    first.InRange -> last.next ≤ arena.size -> before.Follows arena ->
      Runs (sweepBlock stage block) before swept after ->
        Sweeps arena first.next (fun live var => Stmt.ReadsLiveIn live var block (isOutside first))
          (fun live call => Stmt.IndexesLiveIn live call swept (isOutside first)) before after

section Forms

variable {stage : Stage} {body : List Stmt}

/-- The body of a function is swept if the function is read. -/
theorem sweeps_function
    {header : FunctionHeader}
    (inBody : SweepsBlock arena accessors stage body) :
    SweepsStmt arena accessors stage (.function header body) := by
  intro first _ before _ _ bound inRange inside follows run
  obtain ⟨declares, _, start, inner, paramsBound, bodyBound, rfl⟩ := bound
  obtain ⟨_, _, ⟨id, isBound, rfl, rfl⟩, late⟩ := run.step runs_readsIdent
  obtain rfl : first.next = id := Option.some.inj (declares.var_eq.symm.trans isBound)
  have isLive_iff (live : Set VarId) :
      header.name.IsLive live ↔ false = true ∨ first.next ∈ live := by
    simp [Ident.IsLive, isBound]
  split at late
  next isLive =>
    obtain ⟨_, _, rfl, late⟩ := late.step runs_checkReachable
    obtain ⟨_, early, rfl⟩ := runs_map.mp late
    have start_le : first.next ≤ start.next :=
      Nat.le_trans first.leads_declare.next_le paramsBound.leads.next_le
    have bodyRange := paramsBound.leads.inRange (first.leads_declare.inRange inRange).enter
    have sweeps := inBody bodyBound bodyRange inside follows early
    rw [isOutside_eq_false paramsBound.leads] at sweeps
    exact sweeps.live isLive_iff declares.lt_size start_le (.inr isLive)
  next isDead =>
    obtain ⟨rfl, rfl, _⟩ := runs_pure.mp late
    exact .dead isLive_iff declares.lt_size fun isLive =>
      isDead (isLive.resolve_left Bool.false_ne_true)

/-- The parts of a loop are swept from the last to the first. -/
theorem sweeps_loop
    {init step : Stmt}
    {condition : Expr}
    (sweepsInit : SweepsStmt arena accessors stage init)
    (sweepsStep : SweepsStmt arena accessors stage step)
    (sweepsBody : SweepsBlock arena accessors stage body) :
    SweepsStmt arena accessors stage (.loop init condition step body span) := by
  intro first _ before _ _ bound inRange inside follows run
  obtain ⟨start, middle, inner, initBound, conditionBound, stepBound, bodyBound, rfl⟩ := bound
  have initLeads := initBound.leads
  have initRange := initLeads.inRange inRange.enter
  have stepRange := stepBound.leads.inRange initRange
  have stepInside := Nat.le_trans bodyBound.leads.next_le inside
  have initInside := Nat.le_trans stepBound.leads.next_le stepInside
  obtain ⟨_, _, rfl, late⟩ := run.step runs_checkReachable
  obtain ⟨_, _, inBody, late⟩ := late.step (sweepsBody bodyBound stepRange inside follows)
  have follows := inBody.moves.follows follows
  obtain ⟨_, _, inStep, late⟩ := late.step (sweepsStep stepBound initRange stepInside follows)
  have follows := inStep.moves.follows follows
  obtain ⟨_, _, inCondition, late⟩ :=
    late.step (sweeps_of_sweepExpr start.next condition follows)
  have follows := inCondition.moves.follows follows
  obtain ⟨_, inInit, rfl⟩ := late.last (sweepsInit initBound inRange.enter initInside follows)
  rw [isOutside_eq_false (initLeads.trans stepBound.leads)] at inBody
  rw [isOutside_eq_false initLeads] at inStep
  have bodyWithin := bodyBound.readsWithin stepRange false
  have stepWithin := stepBound.readsWithin initRange false
  have conditionWithin := initRange.readsWithin conditionBound.mem_visible (Nat.le_refl _)
  have initWithin := initBound.readsWithin inRange.enter false
  have afterStep := inBody.trans inStep stepWithin bodyWithin inside
  have afterCondition := afterStep.trans inCondition conditionWithin
    (stepWithin.append bodyWithin) inside
  exact afterCondition.trans inInit initWithin
    (conditionWithin.append (stepWithin.append bodyWithin)) inside

theorem sweeps_setIndex
    {container position value : Expr}
    {accessor : Option VarId} :
    SweepsStmt arena accessors stage (.setIndex container position value accessor span) := by
  intro first _ before _ _ _ _ _ follows run
  obtain ⟨_, _, binding, late⟩ := runs_bind.mp run
  have followsBound := follows.sweep binding
  obtain ⟨_, _, one, late⟩ := late.step (sweeps_of_sweepExpr first.next value followsBound)
  have followsValue := one.moves.follows followsBound
  obtain ⟨_, _, two, late⟩ := late.step (sweeps_of_sweepExpr first.next position followsValue)
  obtain ⟨_, early, rfl⟩ := runs_map.mp late
  have three := sweeps_of_sweepExpr first.next container (two.moves.follows followsValue) early
  have zero := sweeps_of_bindAccessor first.next follows (erase_of_sweepExpr early) binding
  refine (zero.trans_const (one.trans_const (two.trans_const three))).congr (fun _ var => ?_)
    fun _ call => ?_
  · rw [Stmt.ReadsLive, ← or_assoc]
    exact (or_iff_left List.not_mem_nil).symm
  · simp only [Stmt.IndexesLive, or_assoc]

end Forms

mutual

theorem sweeps_of_sweepStmt
    (stage : Stage)
    (stmt : Stmt) :
    SweepsStmt arena accessors stage stmt := by
  intro first _ before _ _ bound inRange inside follows run
  cases stmt with
  | interface decl =>
      obtain ⟨_, early, rfl⟩ := runs_map.mp run
      exact sweeps_of_sweepInterface early
  | const decl =>
      obtain ⟨_, early, rfl⟩ := runs_map.mp run
      exact sweeps_of_sweepConst bound.2.2.1 follows early _
  | var decl =>
      obtain ⟨_, early, rfl⟩ := runs_map.mp run
      exact sweeps_of_sweepVar bound.2.2.1 follows early
  | function _ body =>
      exact sweeps_function (sweeps_of_sweepBlock stage body) bound inRange inside follows run
  | assign target _ value _ =>
      obtain ⟨_, _, one, late⟩ := run.step (sweeps_of_sweepExpr first.next value follows)
      obtain ⟨_, two, rfl⟩ :=
        late.last (sweeps_of_sweepTarget first.next (one.moves.follows follows))
      exact one.trans_const two
  | cond branches _ =>
      obtain ⟨_, early, rfl⟩ := runs_map.mp run
      exact sweeps_of_sweepBranches stage branches bound inRange inside follows early
  | loop init _ step body _ =>
      exact sweeps_loop (sweeps_of_sweepStmt stage init) (sweeps_of_sweepStmt stage step)
        (sweeps_of_sweepBlock stage body) bound inRange inside follows run
  | ret value _ =>
      obtain ⟨_, inside, rfl⟩ := run.last (sweeps_of_sweepOptional first.next follows)
      exact inside
  | call callee args _ =>
      obtain ⟨_, _, one, late⟩ := run.step (sweeps_of_sweepExpr first.next callee follows)
      obtain ⟨_, two, rfl⟩ :=
        late.last (sweeps_of_sweepExprs first.next args (one.moves.follows follows))
      exact (one.trans_const two).congr (fun _ _ => or_comm) fun _ _ => Iff.rfl
  | update target _ _ =>
      obtain ⟨_, inside, rfl⟩ := run.last (sweeps_of_sweepExpr first.next target follows)
      exact inside
  | setIndex _ _ _ _ _ => exact sweeps_setIndex bound inRange inside follows run
  | _ =>
      obtain ⟨rfl, rfl, _⟩ := runs_pure.mp run
      exact .refl before

theorem sweeps_of_sweepBlock
    (stage : Stage)
    (block : List Stmt) :
    SweepsBlock arena accessors stage block := by
  intro first _ before _ _ bound inRange inside follows run
  match block with
  | [] =>
      obtain ⟨rfl, rfl, _⟩ := runs_pure.mp run
      exact .refl before
  | stmt :: rest =>
      obtain ⟨middle, stmtBound, restBound⟩ := bound
      have stmtLeads := stmtBound.leads
      have stmtInside := Nat.le_trans restBound.leads.next_le inside
      obtain ⟨_, _, early, late⟩ := runs_bind.mp run
      have inRest := sweeps_of_sweepBlock stage rest restBound (stmtLeads.inRange inRange) inside
        follows early
      obtain ⟨_, early, rfl⟩ := runs_map.mp late
      have inStmt := sweeps_of_sweepStmt stage stmt stmtBound inRange stmtInside
        (inRest.moves.follows follows) early
      have same : isOutside middle = isOutside first := by
        rw [isOutside, isOutside, stmtLeads.depth_eq]
      rw [same] at inRest
      exact inRest.trans inStmt (stmtBound.readsWithin inRange _)
        (restBound.readsWithin (stmtLeads.inRange inRange) _) inside

theorem sweeps_of_sweepBranches
    (stage : Stage)
    (branches : List (Branch Stmt))
    {swept : List (Branch Stmt)}
    {before after : State}
    {first last : Place}
    (bound : Stmt.BranchesBound arena accessors branches first last)
    (inRange : first.InRange)
    (inside : last.next ≤ arena.size)
    (follows : before.Follows arena)
    (run : Runs (sweepBranches stage branches) before swept after) :
    Sweeps arena first.next (fun live var => Stmt.ReadsLiveInBranches live var branches)
      (fun live call => Stmt.IndexesLiveInBranches live call swept) before after := by
  unfold sweepBranches at run
  match branches with
  | [] =>
      obtain ⟨rfl, rfl, _⟩ := runs_pure.mp run
      exact .refl before
  | ⟨condition, body, _⟩ :: rest =>
      obtain ⟨conditionBound, inner, bodyBound, restBound⟩ := bound
      have bodyLeads := bodyBound.leads
      have bodyInside : inner.next ≤ arena.size := Nat.le_trans restBound.leads.next_le inside
      have restRange := bodyLeads.leave.inRange inRange
      obtain ⟨_, _, inRest, late⟩ :=
        run.step (sweeps_of_sweepBranches stage rest restBound restRange inside follows)
      have follows := inRest.moves.follows follows
      obtain ⟨_, _, rfl, late⟩ := late.step runs_checkReachable
      obtain ⟨_, _, inBody, late⟩ :=
        late.step (sweeps_of_sweepBlock stage body bodyBound inRange.enter bodyInside follows)
      obtain ⟨_, inCondition, rfl⟩ :=
        late.last (sweeps_of_sweepOptional first.next (inBody.moves.follows follows))
      have restWithin := restBound.readsWithin restRange
      have bodyWithin := bodyBound.readsWithin inRange.enter false
      have conditionWithin := inRange.readsWithin conditionBound.mem_visible (Nat.le_refl _)
      have afterBody := inRest.trans inBody bodyWithin restWithin inside
      exact afterBody.trans inCondition conditionWithin (bodyWithin.append restWithin) inside

end

/-! ## Modules -/

/-- Modules read a variable, given which declarations are live. -/
def ReadByModules
    (modules : List Module)
    (live : Set VarId)
    (var : VarId) : Prop :=
  ∃ module ∈ modules, Stmt.ReadsLiveIn live var module.statements true

/-- A set of variables holds the main functions and all that live code reads. -/
structure Closed
    (modules : List Module)
    (live : Set VarId) : Prop where
  /-- The main functions of entry modules are live. -/
  main : ∀ module ∈ modules, module.entry = true -> ∀ main ∈ module.main, main ∈ live
  /-- What live code reads is live. -/
  reads : ∀ var, ReadByModules modules live var -> var ∈ live

section Modules

theorem readByModules_nil
    (live : Set VarId)
    (var : VarId) :
    ReadByModules [] live var ↔ False := by
  simp [ReadByModules]

theorem readByModules_cons
    (module : Module)
    (rest : List Module)
    (live : Set VarId)
    (var : VarId) :
    ReadByModules (module :: rest) live var ↔
      Stmt.ReadsLiveIn live var module.statements true ∨ ReadByModules rest live var := by
  simp [ReadByModules]

theorem indexedByModules_cons
    (module : Module)
    (rest : List Module)
    (live : Set VarId)
    (call : DynamicIndex) :
    IndexedByModules (module :: rest) live call ↔
      Stmt.IndexesLiveIn live call module.statements true ∨ IndexedByModules rest live call := by
  simp [IndexedByModules]

variable {visible : List VarId}

variable {next stop : VarId}

/-- What bound modules read and their main functions have numbers by their end, and
their reads depend on their own declarations. -/
theorem areBound_numbers
    {modules : List Module}
    (bound : Module.AreBound arena accessors modules visible next stop)
    (below : ∀ var ∈ visible, var < next) :
    ReadsWithin next stop (fun live var => ReadByModules modules live var) ∧
      ∀ module ∈ modules, ∀ main ∈ module.main, main < stop := by
  induction modules generalizing visible next with
  | nil =>
      obtain rfl : stop = next := bound
      refine ⟨?_, by simp⟩
      simp only [readByModules_nil]
      exact .empty (Nat.le_refl _)
  | cons module rest ih =>
      obtain ⟨last, own, others⟩ := bound
      have startRange := Place.inRange_ofModule below
      have lastRange := own.statements.leads.inRange startRange
      obtain ⟨restWithin, restMain⟩ := ih others (Place.handOver_lt lastRange)
      refine ⟨?_, List.forall_mem_cons.mpr ⟨fun main isMain => ?_, restMain⟩⟩
      · simp only [readByModules_cons]
        exact (own.statements.readsWithin startRange true).append restWithin
      · exact Nat.lt_of_lt_of_le (lastRange.visible main (own.main main isMain).1) restWithin.le

theorem sweeps_of_sweepModules
    (stage : Stage)
    {modules swept : List Module}
    (bound : Module.AreBound arena accessors modules visible next stop)
    (below : ∀ var ∈ visible, var < next)
    (inside : stop ≤ arena.size)
    (follows : before.Follows arena)
    (run : Runs (sweepModules stage modules) before swept after) :
    Sweeps arena next (ReadByModules modules) (fun live => IndexedByModules swept live)
      before after := by
  induction modules generalizing visible next swept after with
  | nil =>
      obtain ⟨rfl, rfl, _⟩ := runs_pure.mp run
      exact (Sweeps.refl before).congr readByModules_nil fun _ _ => by simp [IndexedByModules]
  | cons module rest ih =>
      obtain ⟨last, own, others⟩ := bound
      have startRange := Place.inRange_ofModule below
      have lastBelow := Place.handOver_lt (own.statements.leads.inRange startRange)
      obtain ⟨restWithin, _⟩ := areBound_numbers others lastBelow
      obtain ⟨_, _, inRest, late⟩ := run.step (ih others lastBelow)
      obtain ⟨_, _, rfl, late⟩ := late.step runs_checkReachable
      obtain ⟨_, early, rfl⟩ := runs_map.mp late
      have inOwn := sweeps_of_sweepBlock stage module.statements own.statements startRange
        (Nat.le_trans restWithin.le inside) (inRest.moves.follows follows) early
      exact (inRest.trans inOwn (own.statements.readsWithin startRange true) restWithin
        inside).congr (readByModules_cons module rest) fun live => indexedByModules_cons _ _ live

theorem State.Moves.decl_eq
    (moves : before.Moves after)
    (isNew : before.arena.size ≤ var)
    (inside : var < after.arena.size) :
    (after.arena.get var).decl = .accessor := by
  induction moves with
  | refl => exact absurd inside (Nat.not_lt_of_le isNew)
  | tail _ step ih =>
      cases step with
      | mark => exact ih inside
      | track => exact ih inside
      | obtain made =>
          obtain ⟨request, _, ⟨_, rfl, _⟩ | ⟨_, rfl, _⟩⟩ := obtainFor_eq_ok made
          · exact ih inside
          · rw [Arena.size_alloc] at inside
            rcases Nat.lt_succ_iff_lt_or_eq.mp inside with known | rfl
            · rw [Arena.get_alloc_of_lt _ known]
              exact ih known
            · rw [Arena.get_alloc_size]

end Modules

end Liveness

namespace Bundle

open Liveness

/-- The main functions of entry modules are read from the start. -/
theorem isUsed_foldl_markMain
    (modules : List Module)
    (usage : Usage)
    (var : VarId) :
    (modules.foldl markMain usage).isUsed var = true ↔
      usage.isUsed var = true ∨
        ∃ module ∈ modules, module.entry = true ∧ module.main = some var := by
  induction modules generalizing usage with
  | nil => simp
  | cons module rest ih =>
      have own : (markMain usage module).isUsed var = true ↔
          usage.isUsed var = true ∨ module.entry = true ∧ module.main = some var := by
        unfold markMain
        split
        next main isEntry isMain =>
          rw [Usage.isUsed_markUsed, Bool.or_eq_true, beq_iff_eq, isEntry, isMain, or_comm]
          refine or_congr_right ⟨fun same => ⟨rfl, congrArg some same.symm⟩, fun same => ?_⟩
          exact (Option.some.inj same.2).symm
        next other =>
          refine ⟨.inl, fun marked => marked.resolve_right fun isMain => ?_⟩
          exact other var isMain.1 isMain.2
      rw [List.foldl_cons, ih, own, List.exists_mem_cons_iff, or_assoc]

/-- One backward sweep computes reachability: of the variables that are there
before it, it reads exactly those of the least set that holds the main functions
and all that live code reads.  All variables that it adds are accessors. -/
theorem resolveActivity_isLeast
    {library : Library}
    {accessors : Accessor -> Prop}
    {bundle placed named typed swept : Bundle}
    (inRange : IsInRange library accessors bundle)
    (placing : resolveDependencies library bundle = .ok () placed)
    (binding : resolveNames placed = .ok () named)
    (typing : evalTypes named = .ok () typed)
    (sweeping : resolveActivity typed = .ok () swept) :
    IsLeast { live : Set VarId | Closed typed.modules live }
        { var | var < typed.arena.size ∧ swept.usage.isUsed var = true } ∧
      ∀ var, typed.arena.size ≤ var -> var < swept.arena.size ->
        (swept.arena.get var).decl = .accessor := by
  obtain ⟨_, bound⟩ := inRange.areBound ⟨placing, binding⟩
  obtain ⟨arena, checked, rfl⟩ := evalTypes_eq_ok typing
  obtain ⟨modules, state, run, rfl⟩ := resolveActivity_eq_ok sweeping
  have keeps : named.arena.Keeps arena :=
    (Typing.KeepsArena.retypes checked).keeps
  have bound := bound arena keeps
  have below : ∀ var ∈ List.range bundle.arena.size, var < bundle.arena.size :=
    fun _ => List.mem_range.mp
  have follows : State.Follows arena
      { arena := arena, usage := named.modules.foldl markMain {} } :=
    ⟨.refl arena, Usage.waits_of_pending_eq_nil (pending_foldl_markMain named.modules {})⟩
  have sweeps := sweeps_of_sweepModules named.stage bound below keeps.size_le follows run
  obtain ⟨within, mainBelow⟩ := areBound_numbers bound below
  have inside {var : VarId} (small : var < named.arena.size) : var < arena.size :=
    Nat.lt_of_lt_of_le small keeps.size_le
  refine ⟨⟨⟨?_, ?_⟩, ?_⟩, fun var isNew known => sweeps.moves.decl_eq isNew known⟩
  · intro module mem isEntry main isMain
    refine ⟨inside (mainBelow module mem main isMain), sweeps.moves.isUsed ?_⟩
    exact (isUsed_foldl_markMain named.modules {} main).mpr (.inr ⟨module, mem, isEntry, isMain⟩)
  · intro var isRead
    have known := inside (within.lt isRead)
    exact ⟨known, sweeps.complete var known (within.mono (fun id held _ _ => held.2) isRead)⟩
  · intro live closed var used
    refine sweeps.sound live ?_ closed.reads var used.1 used.2
    intro main _ isMain
    rcases (isUsed_foldl_markMain named.modules {} main).mp isMain with impossible | ⟨module, mem, isEntry, main_eq⟩
    · cases impossible
    · exact closed.main module mem isEntry main main_eq

/-- The sweep of a program with two functions computes reachability; it reads the
one that the main function calls, and not the other. -/
theorem resolveActivity_sample_isLeast :
    ∃ placed named typed swept,
      resolveDependencies Sample.library Sample.bundle = .ok () placed ∧
        resolveNames placed = .ok () named ∧ evalTypes named = .ok () typed ∧
          resolveActivity typed = .ok () swept ∧
      (swept.usage.isUsed 60 = true ∧ swept.usage.isUsed 62 = false) ∧
      IsLeast { live : Set VarId | Closed typed.modules live }
        { var | var < typed.arena.size ∧ swept.usage.isUsed var = true } := by
  have passed : passes
      (fun swept => decide (swept.usage.isUsed 60 = true ∧ swept.usage.isUsed 62 = false))
      ((do
        resolveDependencies Sample.library
        resolveNames
        evalTypes
        resolveActivity) Sample.bundle) = true := by
    decide +kernel
  obtain ⟨swept, run, used⟩ := exists_of_passes passed
  obtain ⟨_, placed, placing, run⟩ := bind_eq_ok.mp run
  obtain ⟨_, named, binding, run⟩ := bind_eq_ok.mp run
  obtain ⟨_, typed, typing, sweeping⟩ := bind_eq_ok.mp run
  refine ⟨placed, named, typed, swept, placing, binding, typing, sweeping,
    of_decide_eq_true used, ?_⟩
  exact (resolveActivity_isLeast Sample.isFresh_bundle.isInRange placing binding typing
    sweeping).1

end Bundle

end ModularGlsl
