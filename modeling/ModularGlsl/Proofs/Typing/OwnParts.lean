import ModularGlsl.Proofs.Parts
import ModularGlsl.Proofs.Typing.Known
import ModularGlsl.Proofs.Typing.Targets

/-!
# Parts that pass the check of types

Typing changes the arena one type at a time.  This module lists the arenas that it goes
through, whether it succeeds or fails: after each type that is given there is one.

When a statement passes the check of types, each statement inside it passes too, in one of
these arenas.  Those that belong to no function inside it, its own parts, pass with the same
result type.
-/

namespace ModularGlsl

mutual

/-- A statement and the statements inside it, but for those of functions inside it. -/
def Stmt.ownParts : Stmt -> List Stmt
  | .cond branches span => .cond branches span :: Stmt.ownPartsOfBranches branches
  | .loop init condition step body span =>
      .loop init condition step body span ::
        (init.ownParts ++ (step.ownParts ++ Stmt.ownPartsOfBlock body))
  | stmt => [stmt]

/-- The statements of a list and those inside them, but for those of functions. -/
def Stmt.ownPartsOfBlock : List Stmt -> List Stmt
  | [] => []
  | stmt :: rest => stmt.ownParts ++ Stmt.ownPartsOfBlock rest

/-- The statements inside the arms of a chain of conditions, but for those of functions. -/
def Stmt.ownPartsOfBranches : List (Branch Stmt) -> List Stmt
  | [] => []
  | ⟨_, body, _⟩ :: rest => Stmt.ownPartsOfBlock body ++ Stmt.ownPartsOfBranches rest

end

theorem Stmt.ownPartsOfBlock_eq_flatMap (block : List Stmt) :
    Stmt.ownPartsOfBlock block = block.flatMap Stmt.ownParts := by
  induction block with
  | nil => rfl
  | cons stmt rest ih =>
      rw [ownPartsOfBlock, ih, List.flatMap_cons]

variable {before after : Arena}

namespace Typing

/-! ## Arenas on the way -/

/-- What is visited after a step, unless it fails. -/
def following
    {α : Type}
    (outcome : EStateM.Result Diagnostic Arena α)
    (next : α -> Arena -> List Arena) : List Arena :=
  match outcome with
  | .ok value arena => next value arena
  | .error _ _ => []

/-- The arena after a declaration of one variable. -/
def declarationVisits
    {α : Type}
    (outcome : EStateM.Result Diagnostic Arena α) : List Arena :=
  following outcome fun _ after => [after]

/-- The arenas after each parameter of a function. -/
def paramVisits : List Param -> Arena -> List Arena
  | [], _ => []
  | param :: rest, arena =>
      declarationVisits (checkParams [param] arena) ++
        following (checkParams [param] arena) fun _ after => paramVisits rest after

/-- The arenas after each parameter of a function and after its header. -/
def headerVisits
    (header : FunctionHeader)
    (arena : Arena) : List Arena :=
  following (use (resultType · header) arena) fun _ start =>
    paramVisits header.params start ++ declarationVisits (checkHeader header arena)

mutual

/-- The arenas after each type that a statement gives. -/
def stmtVisits (result : Option Ty) : Stmt -> Arena -> List Arena
  | .interface decl, arena => declarationVisits (checkInterface decl arena)
  | .const decl, arena => declarationVisits (checkConst decl arena)
  | .var decl, arena => declarationVisits (checkVar decl arena)
  | .struct decl, arena => declarationVisits (checkStruct decl arena)
  | .function header body, arena =>
      headerVisits header arena ++
        following (checkHeader header arena) fun own start => blockVisits own body start
  | .cond branches _, arena => branchVisits result branches arena
  | .loop init cond step body _, arena =>
      stmtVisits result init arena ++
        following (checkStmt result init arena) fun _ start =>
          following (use (checkCondition · cond) start) fun _ start =>
            stmtVisits result step start ++
              following (checkStmt result step start) fun _ middle =>
                blockVisits result body middle
  | .version _ _ _, _ | .extension _ _ _, _ | .precision _ _ _, _ | .importName _ _ _ _, _
  | .importAll _ _ _, _ | .reexport _ _ _ _, _ | .exportName _ _ _, _ | .accessor _, _
  | .assign _ _ _ _, _ | .ret _ _, _ | .call _ _ _, _ | .update _ _ _, _
  | .setIndex _ _ _ _ _, _ => []

/-- The arenas after each type that a list of statements gives. -/
def blockVisits (result : Option Ty) : List Stmt -> Arena -> List Arena
  | [], _ => []
  | stmt :: rest, arena =>
      stmtVisits result stmt arena ++
        following (checkStmt result stmt arena) fun _ after => blockVisits result rest after

/-- The arenas after each type that the arms of a chain of conditions give. -/
def branchVisits (result : Option Ty) : List (Branch Stmt) -> Arena -> List Arena
  | [], _ => []
  | ⟨cond, body, _⟩ :: rest, arena =>
      following (use (checkOptionalCondition · cond) arena) fun _ start =>
        blockVisits result body start ++
          following (checkBlock result body start) fun _ after => branchVisits result rest after

end

/-! ## Declarations -/

/-- The types that a statement gives before the statements inside it are checked. -/
def declare : Stmt -> Check Unit
  | .interface decl => checkInterface decl
  | .const decl => checkConst decl
  | .var decl => checkVar decl
  | .struct decl => checkStruct decl
  | .function header _ => do
      let _ ← checkHeader header
      return ()
  | _ => return ()

/-- Statements that hold no others. -/
def HoldsNone : Stmt -> Prop
  | .function _ _ | .cond _ _ | .loop _ _ _ _ _ => False
  | _ => True

variable {result : Option Ty}

variable {stmt : Stmt}

/-- The expressions of a statement that holds no others have types where it passes. -/
theorem hasType_of_checkStmt
    (passed : checkStmt result stmt before = .ok () after)
    (alone : HoldsNone stmt) :
    ∀ expr ∈ stmt.exprs, expr.HasType before := by
  cases stmt with
  | function | cond | loop => cases alone
  | const decl | var decl =>
      obtain ⟨_, _, passed⟩ := use_bind_eq_ok.mp passed
      cases init_eq : decl.init with
      | none => simp [Stmt.exprs, init_eq]
      | some init =>
          rw [init_eq] at passed
          obtain ⟨_, _, early, _⟩ := bind_eq_ok.mp passed
          obtain ⟨ty, typed, _⟩ := except_bind_eq_ok.mp (use_eq_ok.mp early).1
          simpa [Stmt.exprs, init_eq] using ⟨ty, typed⟩
  | assign target op value =>
      obtain ⟨valueTyped, ty, found⟩ := exists_of_checkAssign (use_eq_ok.mp passed).1
      simpa [Stmt.exprs] using ⟨⟨ty, target.typeOf_of_targetType found⟩, valueTyped⟩
  | ret value =>
      obtain ⟨_, returned, _⟩ := except_bind_eq_ok.mp (use_eq_ok.mp passed).1
      intro expr mem
      obtain rfl := Option.mem_toList.mp mem
      obtain ⟨ty, typed, _⟩ := except_bind_eq_ok.mp returned
      exact ⟨ty, typed⟩
  | call callee args =>
      obtain ⟨_, found, _⟩ := except_bind_eq_ok.mp (use_eq_ok.mp passed).1
      obtain ⟨ty, calleeTyped, found⟩ := except_bind_eq_ok.mp found
      obtain ⟨_, argumentsTyped, _⟩ := except_bind_eq_ok.mp found
      exact List.forall_mem_cons.mpr ⟨⟨ty, calleeTyped⟩, Expr.hasType_of_typesOf argumentsTyped⟩
  | update target =>
      obtain ⟨ty, found, _⟩ := except_bind_eq_ok.mp (use_eq_ok.mp passed).1
      simpa [Stmt.exprs] using ⟨ty, target.typeOf_of_targetType found⟩
  | setIndex container =>
      obtain ⟨ty, found, passed⟩ := except_bind_eq_ok.mp (use_eq_ok.mp passed).1
      obtain ⟨_, positionFound, passed⟩ := except_bind_eq_ok.mp passed
      obtain ⟨_, positionTyped, _⟩ := except_bind_eq_ok.mp positionFound
      obtain ⟨_, valueTyped, _⟩ := except_bind_eq_ok.mp passed
      simpa [Stmt.exprs] using
        ⟨⟨ty, container.typeOf_of_targetType found⟩, ⟨_, positionTyped⟩, ⟨_, valueTyped⟩⟩
  | _ => simp [Stmt.exprs]

/-- The name of a type that a declaration asks for. -/
def IsAsked
    (arena : Arena)
    (ty : Ident) : Prop :=
  ∃ length allowSampler span declared,
    declaredType arena ty length allowSampler span = .ok declared

/-- The names of types in a statement that holds no others are asked for where it passes. -/
theorem isAsked_of_checkStmt
    (passed : checkStmt result stmt before = .ok () after)
    (alone : HoldsNone stmt) :
    ∀ ty ∈ stmt.typeNames, IsAsked before ty := by
  cases stmt with
  | function | cond | loop => cases alone
  | precision =>
      obtain ⟨declared, found, _⟩ := except_bind_eq_ok.mp (use_eq_ok.mp passed).1
      simpa [Stmt.typeNames] using ⟨_, _, _, declared, found⟩
  | interface | const | var =>
      obtain ⟨declared, found, _⟩ := use_bind_eq_ok.mp passed
      simpa [Stmt.typeNames] using ⟨_, _, _, declared, found⟩
  | struct decl =>
      obtain ⟨_, found, _⟩ := use_bind_eq_ok.mp passed
      obtain ⟨fields, found, -⟩ := except_bind_eq_ok.mp found
      rw [Stmt.typeNames, List.forall_mem_map]
      generalize decl.members = members at found ⊢
      induction members generalizing fields with
      | nil => simp
      | cons member rest ih =>
          obtain ⟨declared, asked, found⟩ := except_bind_eq_ok.mp found
          obtain ⟨others, found, _⟩ := except_bind_eq_ok.mp found
          exact List.forall_mem_cons.mpr ⟨⟨_, _, _, declared, asked⟩, ih others found⟩
  | _ => simp [Stmt.typeNames]

theorem isAsked_of_checkParams
    {params : List Param}
    {tys : List Ty}
    (run : checkParams params before = .ok tys after) :
    ∀ param ∈ params, ∃ arena ∈ before :: paramVisits params before, IsAsked arena param.ty := by
  induction params generalizing before after tys with
  | nil => simp
  | cons param rest ih =>
      obtain ⟨declared, found, run⟩ := use_bind_eq_ok.mp run
      obtain ⟨_, middle, given, run⟩ := bind_eq_ok.mp run
      obtain ⟨_, _, run, _⟩ := bind_eq_ok.mp run
      have own : checkParams [param] before = .ok [declared] middle :=
        use_bind_eq_ok.mpr ⟨declared, found, bind_eq_ok.mpr ⟨_, middle, given, rfl⟩⟩
      refine List.forall_mem_cons.mpr ⟨⟨before, List.mem_cons_self, _, _, _, declared, found⟩, ?_⟩
      intro other mem
      obtain ⟨arena, isVisit, asked⟩ := ih run other mem
      rw [paramVisits, own]
      exact ⟨arena, List.mem_cons_of_mem _ isVisit, asked⟩

/-! ## Steps -/

/-- A check goes through some arenas, leaves one of them, and passes its own parts in
them. -/
structure Comes
    (result : Option Ty)
    (own : List Stmt)
    (before after : Arena)
    (visits : List Arena) : Prop where
  /-- The check goes through the arena that it leaves. -/
  last : after ∈ before :: visits
  /-- Every own part passes in an arena on the way. -/
  own : ∀ part ∈ own, ∃ arena ∈ before :: visits, ∃ left,
    checkStmt result part arena = .ok () left

/-- A statement passed among some arenas: it gave its own types, and its expressions and the
names of its types have types. -/
structure PassedIn
    (visits : List Arena)
    (stmt : Stmt) : Prop where
  /-- The statement passed, and gave its types first. -/
  declared : ∃ before ∈ visits, ∃ after ∈ visits, declare stmt before = .ok () after ∧
    ∃ inner left, checkStmt inner stmt before = .ok () left
  /-- Its expressions had types. -/
  typed : ∀ expr ∈ stmt.exprs, ∃ arena ∈ visits, expr.HasType arena
  /-- Its names of types were asked for. -/
  asked : ∀ ty ∈ stmt.typeNames, ∃ arena ∈ visits, IsAsked arena ty

/-- A check whose parts all pass in arenas on the way. -/
structure Walks
    (result : Option Ty)
    (own parts : List Stmt)
    (before after : Arena)
    (visits : List Arena) : Prop extends Comes result own before after visits where
  /-- Every part passes. -/
  parts : ∀ part ∈ parts, PassedIn (before :: visits) part

section Steps

variable {own laterOwn parts laterParts : List Stmt} {between : Arena}
variable {visits laterVisits : List Arena} {stmt : Stmt}

theorem PassedIn.mono
    (passed : PassedIn visits stmt)
    (subset : visits ⊆ laterVisits) :
    PassedIn laterVisits stmt := by
  obtain ⟨before, isBefore, after, isAfter, declared⟩ := passed.declared
  refine ⟨⟨before, subset isBefore, after, subset isAfter, declared⟩, fun expr mem => ?_,
    fun ty mem => ?_⟩
  · obtain ⟨arena, isVisit, typed⟩ := passed.typed expr mem
    exact ⟨arena, subset isVisit, typed⟩
  · obtain ⟨arena, isVisit, asked⟩ := passed.asked ty mem
    exact ⟨arena, subset isVisit, asked⟩

/-- Arenas of a later step are visited. -/
theorem Comes.visited (early : Comes result own before between visits) :
    between :: laterVisits ⊆ before :: (visits ++ laterVisits) := by
  intro arena isLater
  rw [← List.cons_append]
  rcases List.mem_cons.mp isLater with rfl | isLater
  · exact List.mem_append_left _ early.last
  · exact List.mem_append_right _ isLater

theorem Comes.append
    (early : Comes result own before between visits)
    (late : Comes result laterOwn between after laterVisits) :
    Comes result (own ++ laterOwn) before after (visits ++ laterVisits) := by
  refine ⟨early.visited late.last,
    List.forall_mem_append.mpr ⟨fun part isEarly => ?_, fun part isLate => ?_⟩⟩
  · obtain ⟨arena, isVisit, passed⟩ := early.own part isEarly
    exact ⟨arena, List.mem_append_left laterVisits isVisit, passed⟩
  · obtain ⟨arena, isVisit, passed⟩ := late.own part isLate
    exact ⟨arena, early.visited isVisit, passed⟩

theorem Walks.step (last : after ∈ before :: visits) :
    Walks result [] [] before after visits :=
  ⟨⟨last, by simp⟩, by simp⟩

theorem Walks.append
    (early : Walks result own parts before between visits)
    (late : Walks result laterOwn laterParts between after laterVisits) :
    Walks result (own ++ laterOwn) (parts ++ laterParts) before after (visits ++ laterVisits) where
  toComes := early.toComes.append late.toComes
  parts := List.forall_mem_append.mpr
    ⟨fun part isEarly => (early.parts part isEarly).mono (List.subset_append_left _ _),
      fun part isLate => (late.parts part isLate).mono early.toComes.visited⟩

/-- A statement is a part of itself. -/
theorem Walks.around
    {inner : Option Ty}
    (walks : Walks inner laterOwn parts before after visits)
    (ownPassed : ∀ part ∈ own, ∃ arena ∈ before :: visits, ∃ left,
      checkStmt result part arena = .ok () left)
    (passed : checkStmt result stmt before = .ok () after)
    {next : Arena}
    (isNext : next ∈ before :: visits)
    (declared : declare stmt before = .ok () next)
    (typed : ∀ expr ∈ stmt.exprs, ∃ arena ∈ before :: visits, expr.HasType arena)
    (asked : ∀ ty ∈ stmt.typeNames, ∃ arena ∈ before :: visits, IsAsked arena ty) :
    Walks result (stmt :: own) (stmt :: parts) before after visits where
  last := walks.last
  own := List.forall_mem_cons.mpr ⟨⟨before, List.mem_cons_self, after, passed⟩, ownPassed⟩
  parts := List.forall_mem_cons.mpr
    ⟨⟨⟨before, List.mem_cons_self, next, isNext, declared, result, after, passed⟩, typed, asked⟩,
      walks.parts⟩

/-- A statement that holds no others. -/
theorem Walks.leaf
    (passed : checkStmt result stmt before = .ok () after)
    (alone : HoldsNone stmt)
    (declared : declare stmt before = .ok () after)
    (last : after ∈ before :: visits) :
    Walks result [stmt] [stmt] before after visits := by
  have walks : Walks result [] [] before after visits := .step last
  refine walks.around walks.own passed last declared (fun expr mem => ?_)
    fun ty mem => ?_
  · exact ⟨before, List.mem_cons_self, hasType_of_checkStmt passed alone expr mem⟩
  · exact ⟨before, List.mem_cons_self, isAsked_of_checkStmt passed alone ty mem⟩

end Steps

/-! ## Functions -/

section Functions

variable {outer : Option Ty} {header : FunctionHeader} {body : List Stmt} {start : Arena}

/-- The header of a function has the result type that it declares, and typing goes through
the arena that it leaves. -/
theorem checkHeader_eq_ok (run : checkHeader header before = .ok result start) :
    resultType before header = .ok result ∧ start ∈ before :: headerVisits header before ∧
      ∀ ty ∈ header.result.toList ++ header.params.map (·.ty),
        ∃ arena ∈ before :: headerVisits header before, IsAsked arena ty := by
  have passed := run
  obtain ⟨_, _, early, run⟩ := bind_eq_ok.mp run
  obtain ⟨found, rfl⟩ := use_eq_ok.mp early
  obtain ⟨_, _, params, run⟩ := bind_eq_ok.mp run
  obtain ⟨_, _, _, run⟩ := bind_eq_ok.mp run
  obtain ⟨_, _, _, run⟩ := bind_eq_ok.mp run
  obtain ⟨rfl, _⟩ := pure_eq_ok.mp run
  rw [headerVisits, early, following, passed]
  refine ⟨found, by simp [declarationVisits, following], List.forall_mem_append.mpr ⟨?_, ?_⟩⟩
  · intro ty isResult
    unfold resultType at found
    rw [Option.mem_toList.mp isResult] at found
    obtain ⟨declared, asked, _⟩ := except_bind_eq_ok.mp found
    exact ⟨before, List.mem_cons_self, _, _, _, declared, asked⟩
  · rw [List.forall_mem_map]
    intro param mem
    obtain ⟨arena, isVisit, asked⟩ := isAsked_of_checkParams params param mem
    exact ⟨arena, List.mem_append_left _ isVisit, asked⟩

theorem checkStmt_function_eq_ok
    (passed : checkStmt outer (.function header body) before = .ok () after) :
    ∃ result start, checkHeader header before = .ok result start ∧
      checkBlock result body start = .ok () after ∧
      checkCoverage result header body = .ok () := by
  obtain ⟨result, start, typed, passed⟩ := bind_eq_ok.mp passed
  obtain ⟨_, _, checked, passed⟩ := bind_eq_ok.mp passed
  obtain ⟨covered, rfl⟩ := use_eq_ok.mp passed
  exact ⟨result, start, typed, checked, covered⟩

/-- The body of a function is checked after its header. -/
theorem Comes.afterHeader
    {own : List Stmt}
    (typed : checkHeader header before = .ok result start)
    (comes : Comes result own start after (blockVisits result body start)) :
    Comes result own before after (stmtVisits outer (.function header body) before) := by
  have entered : Comes result [] before start (headerVisits header before) :=
    ⟨(checkHeader_eq_ok typed).2.1, by simp⟩
  rw [stmtVisits, typed, following]
  exact entered.append comes

end Functions

/-! ## Statements -/

mutual

/-- A statement that passes has parts that pass. -/
theorem walks_checkStmt
    (result : Option Ty)
    (stmt : Stmt)
    {before after : Arena}
    (passed : checkStmt result stmt before = .ok () after) :
    Walks result stmt.ownParts stmt.parts before after (stmtVisits result stmt before) := by
  have inside := passed
  cases stmt with
  | function header body =>
      obtain ⟨inner, start, typed, checked, _⟩ := checkStmt_function_eq_ok passed
      obtain ⟨_, isStart, asked⟩ := checkHeader_eq_ok typed
      have entered : Walks inner [] [] before start (headerVisits header before) := .step isStart
      rw [Stmt.parts, stmtVisits, typed, following]
      refine (entered.append (walks_checkBlock inner body checked)).around (by simp) passed
        (List.mem_append_left _ isStart) (bind_eq_ok.mpr ⟨inner, start, typed, rfl⟩)
        (by simp [Stmt.exprs]) fun ty mem => ?_
      obtain ⟨arena, isVisit, asked⟩ := asked ty mem
      exact ⟨arena, List.mem_append_left _ isVisit, asked⟩
  | cond branches _ =>
      obtain ⟨walks, conditions⟩ := walks_checkBranches result branches inside
      refine walks.around walks.own passed List.mem_cons_self rfl ?_ (by simp [Stmt.typeNames])
      rw [Stmt.exprs, List.forall_mem_flatMap]
      exact fun branch isArm expr mem =>
        conditions branch isArm expr (Option.mem_toList.mp mem)
  | loop init cond step body _ =>
      obtain ⟨_, start, initRun, inside⟩ := bind_eq_ok.mp inside
      obtain ⟨_, _, condRun, inside⟩ := bind_eq_ok.mp inside
      obtain ⟨found, rfl⟩ := use_eq_ok.mp condRun
      obtain ⟨ty, condTyped, _⟩ := except_bind_eq_ok.mp found
      obtain ⟨_, middle, stepRun, bodyRun⟩ := bind_eq_ok.mp inside
      rw [Stmt.ownParts, Stmt.parts, stmtVisits, initRun, following, condRun, following, stepRun,
        following]
      have atInit := walks_checkStmt result init initRun
      have walks := atInit.append
        ((walks_checkStmt result step stepRun).append (walks_checkBlock result body bodyRun))
      refine walks.around walks.own passed List.mem_cons_self rfl ?_ (by simp [Stmt.typeNames])
      rw [Stmt.exprs, List.forall_mem_singleton]
      exact ⟨start, atInit.toComes.visited List.mem_cons_self, ty, condTyped⟩
  | interface _ | const _ | var _ | struct _ =>
      rw [checkStmt] at inside
      refine .leaf passed trivial inside ?_
      rw [stmtVisits, inside]
      simp [declarationVisits, following]
  | precision _ _ _ | assign _ _ _ _ | ret _ _ | call _ _ _ | update _ _ _ | setIndex _ _ _ _ _ =>
      rw [checkStmt] at inside
      obtain ⟨_, rfl⟩ := use_eq_ok.mp inside
      exact .leaf passed trivial rfl List.mem_cons_self
  | _ =>
      rw [checkStmt] at inside
      obtain ⟨_, rfl⟩ := pure_eq_ok.mp inside
      exact .leaf passed trivial rfl List.mem_cons_self

theorem walks_checkBlock
    (result : Option Ty)
    (block : List Stmt)
    {before after : Arena}
    (passed : checkBlock result block before = .ok () after) :
    Walks result (Stmt.ownPartsOfBlock block) (Stmt.partsOfBlock block) before after
      (blockVisits result block before) := by
  unfold checkBlock at passed
  match block with
  | [] =>
      obtain ⟨_, rfl⟩ := pure_eq_ok.mp passed
      exact .step List.mem_cons_self
  | stmt :: rest =>
      obtain ⟨_, between, stmtRun, restRun⟩ := bind_eq_ok.mp passed
      rw [Stmt.ownPartsOfBlock, Stmt.partsOfBlock, blockVisits, stmtRun, following]
      exact (walks_checkStmt result stmt stmtRun).append (walks_checkBlock result rest restRun)

theorem walks_checkBranches
    (result : Option Ty)
    (branches : List (Branch Stmt))
    {before after : Arena}
    (passed : checkBranches result branches before = .ok () after) :
    Walks result (Stmt.ownPartsOfBranches branches) (Stmt.partsOfBranches branches) before after
        (branchVisits result branches before) ∧
      ∀ branch ∈ branches, ∀ expr ∈ branch.cond,
        ∃ arena ∈ before :: branchVisits result branches before, expr.HasType arena := by
  unfold checkBranches at passed
  match branches with
  | [] =>
      obtain ⟨_, rfl⟩ := pure_eq_ok.mp passed
      exact ⟨.step List.mem_cons_self, by simp⟩
  | ⟨cond, body, _⟩ :: rest =>
      obtain ⟨_, _, condRun, passed⟩ := bind_eq_ok.mp passed
      obtain ⟨found, rfl⟩ := use_eq_ok.mp condRun
      obtain ⟨_, between, bodyRun, restRun⟩ := bind_eq_ok.mp passed
      rw [Stmt.ownPartsOfBranches, Stmt.partsOfBranches, branchVisits, condRun, following, bodyRun,
        following]
      have early := walks_checkBlock result body bodyRun
      obtain ⟨late, conditions⟩ := walks_checkBranches result rest restRun
      refine ⟨early.append late, List.forall_mem_cons.mpr ⟨?_, fun branch isArm expr mem => ?_⟩⟩
      · rintro expr ⟨⟩
        obtain ⟨ty, typed, _⟩ := except_bind_eq_ok.mp found
        exact ⟨before, List.mem_cons_self, ty, typed⟩
      · obtain ⟨arena, isVisit, typed⟩ := conditions branch isArm expr mem
        exact ⟨arena, early.toComes.visited isVisit, typed⟩

end

end Typing

namespace Bundle

open Typing

/-- The arenas after each type that modules give. -/
def typingVisits : List Module -> Arena -> List Arena
  | [], _ => []
  | module :: rest, arena =>
      blockVisits none module.statements arena ++
        following (checkBlock none module.statements arena) fun _ after =>
          following (use (checkEntry · module) after) fun _ after => typingVisits rest after

variable {modules : List Module}

/-- All statements of modules that pass have passed on the way. -/
theorem walks_checkModules (checked : checkModules modules before = .ok () after) :
    Walks none (modules.flatMap fun module => Stmt.ownPartsOfBlock module.statements)
      (modules.flatMap Module.parts) before after (typingVisits modules before) := by
  induction modules generalizing before with
  | nil =>
      obtain ⟨_, rfl⟩ := pure_eq_ok.mp checked
      exact .step List.mem_cons_self
  | cons module rest ih =>
      obtain ⟨_, _, early, checked⟩ := bind_eq_ok.mp checked
      obtain ⟨_, _, entry, late⟩ := bind_eq_ok.mp checked
      obtain ⟨_, rfl⟩ := use_eq_ok.mp entry
      rw [typingVisits, early, following, entry, following]
      exact (walks_checkBlock none module.statements early).append (ih late)

end Bundle
end ModularGlsl
