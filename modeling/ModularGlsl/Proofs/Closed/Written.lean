import ModularGlsl.Proofs.Closed.Output

/-!
# Written output

The head of a loop is written for declarations, assignments and updates only.  All else that
is looked up while a program is written is there after a build: names are bound, and dynamic
indices have their accessors.  So a build is written unless the head of a written loop has
another clause, and then the error points at such a clause.
-/

namespace ModularGlsl

/-! ## Clauses -/

/-- Statements that may stand in the head of a loop. -/
def Stmt.isClause : Stmt -> Bool
  | .var _ | .assign _ _ _ _ | .update _ _ _ => true
  | _ => false

mutual

/-- The clauses in the heads of all loops that are written with a statement. -/
def Stmt.clauses (usage : Usage) : Stmt -> List Stmt
  | .function _ body => Stmt.clausesOfBlock usage false body
  | .cond branches _ => Stmt.clausesOfBranches usage branches
  | .loop init _ step body _ => [init] ++ [step] ++ Stmt.clausesOfBlock usage false body
  | _ => []

/-- The clauses in the heads of all loops that are written with a list of statements. -/
def Stmt.clausesOfBlock
    (usage : Usage)
    (atTop : Bool) : List Stmt -> List Stmt
  | [] => []
  | stmt :: rest =>
      (if stmt.isKept usage atTop then stmt.clauses usage else []) ++
        Stmt.clausesOfBlock usage atTop rest

/-- The clauses in the heads of all loops that are written with the arms of a chain of
conditions. -/
def Stmt.clausesOfBranches (usage : Usage) : List (Branch Stmt) -> List Stmt
  | [] => []
  | ⟨_, body, _⟩ :: rest =>
      Stmt.clausesOfBlock usage false body ++ Stmt.clausesOfBranches usage rest

end

/-- The clauses in the heads of all loops that are written. -/
def Bundle.clauses (bundle : Bundle) : List Stmt :=
  bundle.modules.flatMap fun module => Stmt.clausesOfBlock bundle.usage true module.statements

/-! ## Outcomes -/

/-- Something is written exactly if all clauses in it can be.  Otherwise the error points at
one that cannot. -/
def WritesAll
    {α : Type}
    (clauses : List Stmt) : Except Diagnostic α -> Prop
  | .ok _ => ∀ clause ∈ clauses, clause.isClause = true
  | .error error => ∃ clause ∈ clauses, clause.isClause = false ∧
      error = .internal (.unresolved "for-loop clause" clause.span)

namespace WritesAll

variable {α β : Type} {clauses more : List Stmt} {first : Except Diagnostic α}
variable {next : α -> Except Diagnostic β}

theorem ok (value : α) : WritesAll [] (.ok value) :=
  fun _ impossible => nomatch impossible

theorem bind
    (early : WritesAll clauses first)
    (late : ∀ value, WritesAll more (next value)) :
    WritesAll (clauses ++ more) (first >>= next) := by
  cases first with
  | error error =>
      obtain ⟨clause, mem, blamed⟩ := early
      exact ⟨clause, List.mem_append_left _ mem, blamed⟩
  | ok value =>
      have rest := late value
      change WritesAll (clauses ++ more) (next value)
      cases outcome : next value with
      | error error =>
          rw [outcome] at rest
          obtain ⟨clause, mem, blamed⟩ := rest
          exact ⟨clause, List.mem_append_right _ mem, blamed⟩
      | ok result =>
          rw [outcome] at rest
          exact List.forall_mem_append.mpr ⟨early, rest⟩

/-- A text without clauses comes first. -/
theorem andThen
    (early : WritesAll [] first)
    (late : ∀ value, WritesAll clauses (next value)) :
    WritesAll clauses (first >>= next) :=
  early.bind late

theorem map
    {result : α -> β}
    (early : WritesAll clauses first) :
    WritesAll clauses (first >>= fun value => pure (result value)) := by
  have both := early.bind fun value => ok (result value)
  rwa [List.append_nil] at both

/-- One more clause that can be written. -/
theorem cons
    (written : WritesAll clauses first)
    {clause : Stmt}
    (isClause : clause.isClause = true) :
    WritesAll (clause :: clauses) first := by
  cases first with
  | ok _ => exact List.forall_mem_cons.mpr ⟨isClause, written⟩
  | error _ =>
      obtain ⟨other, mem, blamed⟩ := written
      exact ⟨other, List.mem_cons_of_mem _ mem, blamed⟩

theorem exists_iff (written : WritesAll clauses first) :
    (∃ value, first = .ok value) ↔ ∀ clause ∈ clauses, clause.isClause = true := by
  cases first with
  | ok value => exact ⟨fun _ => written, fun _ => ⟨value, rfl⟩⟩
  | error _ =>
      obtain ⟨clause, mem, other, _⟩ := written
      refine ⟨fun ⟨_, impossible⟩ => (nomatch impossible), fun all => ?_⟩
      rw [all clause mem] at other
      cases other

end WritesAll

/-! ## Expressions -/

variable {arena : Arena} {declared : List VarId}

theorem Ident.writesAll_text
    {ident : Ident}
    {id : VarId}
    (bound : ident.var = some id) :
    WritesAll [] (ident.text arena) := by
  rw [Ident.text, Ident.bound_eq_ok.mpr bound]
  exact .ok _

mutual

/-- A closed expression is written. -/
theorem Expr.IsClosed.writesAll
    (expr : Expr)
    (closed : expr.IsClosed declared) :
    WritesAll [] (expr.text arena) := by
  match expr with
  | .int _ _ | .float _ _ | .bool _ _ => exact .ok _
  | .var ident =>
      obtain ⟨_, _, bound⟩ := closed
      exact Ident.writesAll_text bound
  | .member _ _ (some _) _ => exact .ok _
  | .member operand _ none _ | .unary _ operand _ | .paren operand _ =>
      exact .map (Expr.IsClosed.writesAll operand closed)
  | .index left right _ | .binary _ left right _ =>
      exact .andThen (Expr.IsClosed.writesAll left closed.1) fun _ =>
        .map (Expr.IsClosed.writesAll right closed.2)
  | .getIndex container position _ _ =>
      obtain ⟨⟨_, _, rfl⟩, containerClosed, positionClosed⟩ := closed
      exact .andThen (.ok _) fun _ =>
        .andThen (Expr.IsClosed.writesAll container containerClosed) fun _ =>
          .map (Expr.IsClosed.writesAll position positionClosed)
  | .call callee args _ =>
      exact .andThen (Expr.AreClosed.writesAll args closed.2) fun _ =>
        .map (Expr.IsClosed.writesAll callee closed.1)

theorem Expr.AreClosed.writesAll
    (exprs : List Expr)
    (closed : Expr.AreClosed declared exprs) :
    WritesAll [] (Expr.texts arena exprs) := by
  match exprs with
  | [] => exact .ok _
  | expr :: rest =>
      exact .andThen (Expr.IsClosed.writesAll expr closed.1) fun _ =>
        .map (Expr.AreClosed.writesAll rest closed.2)

end

/-! ## Declarations -/

namespace Emission

variable {bounds : Arena} {kind : DeclKind} {number : VarId} {first last : Place} {usage : Usage}

theorem writesAll_typedName
    {name : Ident}
    (declares : name.Declares bounds number kind)
    (ty : Ident)
    (length : Option Nat) :
    WritesAll [] (typedName arena ty name length) :=
  .map (Ident.writesAll_text declares.var_eq)

theorem writesAll_initText
    {init : Option Expr}
    (closed : Expr.IsClosedIfAny declared init) :
    WritesAll [] (initText arena init) := by
  cases init with
  | none => exact .ok _
  | some init => exact .map ((closed init rfl).writesAll init)

theorem writesAll_constText
    {decl : ConstDecl}
    (declares : decl.name.Declares bounds number kind)
    (closed : Expr.IsClosedIfAny declared decl.init) :
    WritesAll [] (constText arena decl) := by
  refine .andThen (writesAll_typedName declares ..) fun _ => .map ?_
  unfold constInitText
  split
  · exact .ok _
  · exact writesAll_initText closed

theorem writesAll_paramTexts
    {params : List Param}
    (bound : Param.AreBound bounds params first last) :
    WritesAll [] (paramTexts arena params) := by
  induction params generalizing first with
  | nil => exact .ok _
  | cons param rest ih =>
      obtain ⟨_, declares, restBound⟩ := bound
      exact .andThen (.map (writesAll_typedName declares ..)) fun _ => .map (ih restBound)

variable {accessors : Accessor -> Prop}

section Clauses

variable {stmt : Stmt} (bound : stmt.IsBound bounds accessors first last)
include bound

theorem writesAll_clauseText
    (isClause : stmt.isClause = true)
    (closed : stmt.IsClosed usage declared) :
    WritesAll [] (clauseText arena stmt) := by
  cases stmt with
  | var decl =>
      obtain ⟨_, _, declares, _⟩ := bound
      exact .andThen (writesAll_typedName declares ..) fun _ => .map (writesAll_initText closed.2)
  | assign target _ value _ =>
      exact .andThen (closed.1.writesAll target) fun _ => .map (closed.2.writesAll value)
  | update target _ _ => exact .map (closed.writesAll target)
  | _ => cases isClause

/-- A clause in the head of a loop. -/
theorem writesAll_loopClause
    (closed : stmt.isKept usage false = true -> stmt.IsClosed usage declared) :
    WritesAll [stmt] (clauseText arena stmt) := by
  cases isClause : stmt.isClause with
  | true =>
      have kept : stmt.isKept usage false = true := by
        cases stmt <;> first | rfl | cases isClause
      exact (writesAll_clauseText bound isClause (closed kept)).cons isClause
  | false =>
      cases stmt with
      | var | assign | update => cases isClause
      | _ => exact ⟨_, List.mem_singleton_self _, rfl, rfl⟩

end Clauses

/-! ## Statements -/

mutual

/-- A bound statement that is closed is written up to the heads of its loops. -/
theorem writesAll_stmtPieces
    (stmt : Stmt)
    {first last : Place}
    (bound : stmt.IsBound bounds accessors first last)
    {declared : List VarId}
    (closed : stmt.IsClosed usage declared)
    (nesting : Nat) :
    WritesAll (stmt.clauses usage) (stmtPieces arena usage nesting stmt) := by
  cases stmt with
  | interface decl =>
      obtain ⟨_, declares, _⟩ := bound
      exact .map (.map (writesAll_typedName declares ..))
  | const decl =>
      obtain ⟨_, _, declares, _⟩ := bound
      exact .map (writesAll_constText declares closed.2)
  | var _ | assign _ _ _ _ | update _ _ _ => exact .map (writesAll_clauseText bound rfl closed)
  | struct decl =>
      obtain ⟨_, declares, _⟩ := bound
      exact .map (Ident.writesAll_text declares.var_eq)
  | function header body =>
      obtain ⟨declares, _, _, _, paramsBound, bodyBound, _⟩ := bound
      have head : WritesAll [] (headerText arena header) :=
        .andThen (writesAll_paramTexts paramsBound) fun _ =>
          .map (Ident.writesAll_text declares.var_eq)
      exact .andThen head fun _ => .map (writesAll_blockPieces body bodyBound closed.2.2 _)
  | cond branches _ => exact writesAll_branchPieces branches bound closed nesting true
  | loop init condition step body _ =>
      obtain ⟨_, _, _, initBound, _, stepBound, bodyBound, _⟩ := bound
      obtain ⟨initClosed, conditionClosed, stepClosed, bodyClosed⟩ := closed
      have head : WritesAll ([init] ++ [step]) (loopHead arena init condition step) :=
        .bind (writesAll_loopClause initBound initClosed) fun _ =>
          .andThen (conditionClosed.writesAll condition) fun _ =>
            .map (writesAll_loopClause stepBound stepClosed)
      exact .bind head fun _ => .map (writesAll_blockPieces body bodyBound bodyClosed _)
  | ret value _ =>
      cases value with
      | none => exact .ok _
      | some value => exact .map (.map ((closed value rfl).writesAll value))
  | call callee args _ =>
      exact .map (.andThen (closed.2.writesAll args) fun _ =>
        .map (closed.1.writesAll callee))
  | setIndex container position value _ _ =>
      obtain ⟨⟨_, _, rfl⟩, containerClosed, positionClosed, valueClosed⟩ := closed
      exact .map (.andThen (.ok _) fun _ => .andThen (containerClosed.writesAll container) fun _ =>
        .andThen (positionClosed.writesAll position) fun _ => .map (valueClosed.writesAll value))
  | _ => exact .ok _

theorem writesAll_blockPieces
    (block : List Stmt)
    {first last : Place}
    (bound : Stmt.AreBound bounds accessors block first last)
    {declared : List VarId}
    (closed : Stmt.AreClosed usage false block declared)
    (nesting : Nat) :
    WritesAll (Stmt.clausesOfBlock usage false block) (blockPieces arena usage nesting block) := by
  match block with
  | [] => exact .ok _
  | stmt :: rest =>
      obtain ⟨_, stmtBound, restBound⟩ := bound
      rw [Stmt.clausesOfBlock, blockPieces]
      split
      next kept =>
        exact .bind (writesAll_stmtPieces stmt stmtBound (closed.1 kept) nesting) fun _ =>
          .map (writesAll_blockPieces rest restBound closed.2 nesting)
      next => exact writesAll_blockPieces rest restBound closed.2 nesting

theorem writesAll_branchPieces
    (branches : List (Branch Stmt))
    {first last : Place}
    (bound : Stmt.BranchesBound bounds accessors branches first last)
    {declared : List VarId}
    (closed : Stmt.BranchesClosed usage branches declared)
    (nesting : Nat)
    (isFirst : Bool) :
    WritesAll (Stmt.clausesOfBranches usage branches)
      (branchPieces arena usage nesting isFirst branches) := by
  match branches with
  | [] => exact .ok _
  | ⟨condition, body, _⟩ :: rest =>
      obtain ⟨_, _, bodyBound, restBound⟩ := bound
      obtain ⟨conditionClosed, bodyClosed, restClosed⟩ := closed
      have head : WritesAll [] (armHead arena isFirst condition) := by
        cases condition with
        | none => exact .ok _
        | some condition => exact .map ((conditionClosed condition rfl).writesAll condition)
      refine .andThen head fun _ => .bind (writesAll_blockPieces body bodyBound bodyClosed _) ?_
      exact fun _ => .map (writesAll_branchPieces rest restBound restClosed nesting false)

end

theorem writesAll_moduleChunks
    {block : List Stmt}
    (each : ∀ stmt ∈ block, stmt.isKept usage true = true ->
      WritesAll (stmt.clauses usage) (stmtPieces arena usage 0 stmt)) :
    WritesAll (Stmt.clausesOfBlock usage true block) (moduleChunks arena usage block) := by
  induction block with
  | nil => exact .ok _
  | cons stmt rest ih =>
      obtain ⟨own, others⟩ := List.forall_mem_cons.mp each
      rw [Stmt.clausesOfBlock, moduleChunks]
      split
      next kept => exact .bind (own kept) fun _ => .map (ih others)
      next => exact ih others

end Emission

/-! ## Builds -/

variable {usage : Usage} {modules : List Module}

namespace Bundle

theorem writesAll_chunks
    (each : ∀ module ∈ modules, ∀ stmt ∈ module.statements, stmt.isKept usage true = true ->
      WritesAll (stmt.clauses usage) (Emission.stmtPieces arena usage 0 stmt)) :
    WritesAll (modules.flatMap fun module => Stmt.clausesOfBlock usage true module.statements)
      (chunks arena usage modules) := by
  induction modules with
  | nil => exact .ok _
  | cons module rest ih =>
      obtain ⟨own, others⟩ := List.forall_mem_cons.mp each
      exact .bind (Emission.writesAll_moduleChunks own) fun _ => .map (ih others)

end Bundle

/-- The statements of closed modules are closed on their own. -/
theorem Liveness.CloseModules.exists_closes
    {pending : List Pending}
    {outside : Prop}
    {visible : List VarId}
    {next : VarId}
    (closes : CloseModules arena usage pending outside modules visible next) :
    ∀ module ∈ modules, ∀ stmt ∈ module.statements,
      ∃ first last, Closes arena usage pending stmt first last := by
  have inBlock {block : List Stmt} {first last : Place}
      (closes : CloseAll arena usage pending block first last) :
      ∀ stmt ∈ block, ∃ first last, Closes arena usage pending stmt first last := by
    induction block generalizing first with
    | nil => simp
    | cons stmt rest ih =>
        obtain ⟨middle, own, others⟩ := closes
        exact List.forall_mem_cons.mpr ⟨⟨first, middle, own⟩, ih others⟩
  induction modules generalizing visible next with
  | nil => simp
  | cons module rest ih =>
      obtain ⟨last, own, _, others⟩ := closes
      exact List.forall_mem_cons.mpr ⟨inBlock own, ih others⟩

namespace Bundle

/-- What a bundle keeps is bound, and it is written exactly if the heads of its written loops
consist of declarations, assignments and updates. -/
structure IsWritable (bundle : Bundle) : Prop where
  /-- Every name that is kept is bound, and every dynamic index has its accessor. -/
  closed : ∀ module ∈ bundle.modules, ∀ stmt ∈ module.statements,
    stmt.isKept bundle.usage true = true -> ∃ declared, stmt.IsClosed bundle.usage declared
  /-- The heads of loops decide whether there is a text. -/
  exists_iff : ∀ spacing, (∃ text, bundle.write spacing = .ok text) ↔
    ∀ clause ∈ bundle.clauses, clause.isClause = true
  /-- An error points at the head of a loop. -/
  blames : ∀ spacing error, bundle.write spacing = .error error ->
    ∃ clause ∈ bundle.clauses, clause.isClause = false ∧
      error = .internal (.unresolved "for-loop clause" clause.span)

theorem isWritable_of_writesAll
    {bundle : Bundle}
    (each : ∀ module ∈ bundle.modules, ∀ stmt ∈ module.statements,
      stmt.isKept bundle.usage true = true ->
        (∃ declared, stmt.IsClosed bundle.usage declared) ∧
          ∀ arena, WritesAll (stmt.clauses bundle.usage)
            (Emission.stmtPieces arena bundle.usage 0 stmt)) :
    bundle.IsWritable := by
  have written (spacing : Spacing) : WritesAll bundle.clauses (bundle.write spacing) :=
    .map (writesAll_chunks fun module mem stmt isStmt kept =>
      (each module mem stmt isStmt kept).2 _)
  refine ⟨fun module mem stmt isStmt kept => (each module mem stmt isStmt kept).1,
    fun spacing => (written spacing).exists_iff, fun spacing error failed => ?_⟩
  have blamed := written spacing
  rw [failed] at blamed
  exact blamed

section Build

variable {library : Library} {bundle placed named typed swept spliced result : Bundle}

/-- Before names are given, kept statements are closed and written. -/
theorem IsFresh.writesAll_spliced
    (fresh : IsFresh library bundle)
    (build : Spliced library bundle placed named typed swept spliced) :
    ∀ module ∈ spliced.modules, ∀ stmt ∈ module.statements,
      stmt.isKept spliced.usage true = true ->
        (∃ declared, stmt.IsClosed spliced.usage declared) ∧
          ∀ arena, WritesAll (stmt.clauses spliced.usage)
            (Emission.stmtPieces arena spliced.usage 0 stmt) := by
  obtain ⟨_, _, waits⟩ := fresh.isInRange.areBound_swept build.toSwept
  obtain ⟨rfl, checked⟩ := finalizeInjected_eq_ok build.splicing
  obtain ⟨_, demands⟩ := Usage.check_eq_ok checked
  obtain ⟨_, hands⟩ := hands_spliceModules true swept.usage swept.modules
  have closes := fresh.closeModules build.toSwept hands.used_eq
    fun entry mem => demands entry (hands.tracked_eq ▸ mem)
  intro module mem stmt isStmt kept
  obtain ⟨original, isOriginal, _, holds⟩ := mem_spliceModules true mem
  rcases holds stmt isStmt with isOwn | isWaiting
  · obtain ⟨first, last, own⟩ := closes.exists_closes original isOriginal stmt isOwn
    have closed := own.closed (first.visible ++ swept.usage.pending.map Pending.var)
      (fun _ isVisible _ => List.mem_append_left _ isVisible)
      (fun _ _ isPending _ => List.mem_append_right _ (List.mem_map_of_mem isPending)) kept
    exact ⟨⟨_, closed⟩, fun _ => Emission.writesAll_stmtPieces stmt own.bound closed 0⟩
  · obtain ⟨waiting, isPending, rfl⟩ := List.mem_map.mp isWaiting
    obtain ⟨accessor, stmt_eq, _⟩ := waits.isAccessor waiting isPending
    rw [stmt_eq]
    exact ⟨⟨accessor.element.var.toList, fun _ => Option.mem_toList.mpr⟩, fun _ => .ok _⟩

/-- Writing a build fails on the heads of loops only. -/
theorem finalize_isWritable
    (fresh : IsFresh library bundle)
    (run : finalize library bundle = .ok () result) :
    result.IsWritable := by
  obtain ⟨placed, named, typed, swept, spliced, unique, _, build, naming, _, rfl⟩ :=
    finalize_eq_ok run
  have each := fresh.writesAll_spliced build
  obtain ⟨_, _, rfl⟩ := uniqueNames_eq_ok naming
  exact isWritable_of_writesAll each

/-- The head of the one loop of a program can be written, and so the program is. -/
theorem finalize_sample_isWritable :
    ∃ result, finalize Sample.library Sample.bundle = .ok () result ∧
      result.clauses.map Stmt.isClause = [true, true] ∧ result.IsWritable := by
  have passed : passes (fun result => result.clauses.map Stmt.isClause == [true, true])
      (finalize Sample.library Sample.bundle) = true := by
    decide +kernel
  obtain ⟨result, run, heads⟩ := exists_of_passes passed
  exact ⟨result, run, eq_of_beq heads, finalize_isWritable Sample.isFresh_bundle run⟩

end Build

end Bundle

end ModularGlsl
