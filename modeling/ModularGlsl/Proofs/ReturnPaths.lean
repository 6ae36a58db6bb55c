import ModularGlsl.Proofs.Typing.OwnParts

/-!
# Paths through functions

A run follows one path through a list of statements.  A chain of conditions runs its first
arm that holds, a loop any number of times, and nothing is said about which conditions
hold.  A function with a result that passes the check of types returns on every path, and
each of its return statements carries a value that fits its result type.
-/

namespace ModularGlsl

/-! ## Runs -/

/-- How a run of statements ends. -/
inductive Outcome
  /-- Control reaches the end. -/
  | falls
  /-- A return statement is reached. -/
  | returns (value : Option Expr)

/-- A chain of conditions may run a list of statements: the body of an arm all of whose
predecessors have conditions, or nothing if no arm holds. -/
inductive Branch.Chooses : List (Branch Stmt) -> List Stmt -> Prop
  /-- No arm holds. -/
  | nothing : Chooses [] []
  /-- The first arm holds. -/
  | first
      (branch : Branch Stmt)
      (rest : List (Branch Stmt)) :
      Chooses (branch :: rest) branch.body
  /-- The condition of the first arm does not hold. -/
  | later
      {branch : Branch Stmt}
      {rest : List (Branch Stmt)}
      {body : List Stmt}
      (conditional : branch.cond.isSome = true)
      (chosen : Chooses rest body) :
      Chooses (branch :: rest) body

/-- Statements that a run takes in one step. -/
def Stmt.IsSimple : Stmt -> Prop
  | .ret _ _ | .cond _ _ | .loop _ _ _ _ _ => False
  | _ => True

/-- The iterations of a loop. -/
def Stmt.iterations
    (count : Nat)
    (body : List Stmt)
    (step : Stmt) : List Stmt :=
  (List.replicate count (body ++ [step])).flatten

/-- A run of statements with an outcome. -/
inductive Stmt.Run : List Stmt -> Outcome -> Prop
  /-- The end is reached. -/
  | done : Run [] .falls
  /-- A return statement ends the run. -/
  | ret
      (value : Option Expr)
      (span : Span)
      (rest : List Stmt) :
      Run (.ret value span :: rest) (.returns value)
  /-- A chain of conditions runs one of its arms. -/
  | cond
      {branches : List (Branch Stmt)}
      {span : Span}
      {body rest : List Stmt}
      {outcome : Outcome}
      (chosen : Branch.Chooses branches body)
      (run : Run (body ++ rest) outcome) :
      Run (.cond branches span :: rest) outcome
  /-- A loop runs any number of times. -/
  | loop
      {init step : Stmt}
      {condition : Expr}
      {body rest : List Stmt}
      {span : Span}
      {outcome : Outcome}
      (count : Nat)
      (run : Run (init :: (Stmt.iterations count body step ++ rest)) outcome) :
      Run (.loop init condition step body span :: rest) outcome
  /-- Any other statement is passed. -/
  | next
      {stmt : Stmt}
      {rest : List Stmt}
      {outcome : Outcome}
      (simple : stmt.IsSimple)
      (run : Run rest outcome) :
      Run (stmt :: rest) outcome

/-- A list of statements can be run if what stands behind it can. -/
def Stmt.CanRun (block : List Stmt) : Prop :=
  ∃ outcome, Stmt.Run block outcome

mutual

theorem Stmt.canRun_cons
    (stmt : Stmt)
    {rest : List Stmt}
    (canRun : Stmt.CanRun rest) :
    Stmt.CanRun (stmt :: rest) := by
  match stmt with
  | .ret value span => exact ⟨_, .ret value span rest⟩
  | .cond [] _ =>
      obtain ⟨outcome, run⟩ := canRun
      exact ⟨outcome, .cond .nothing run⟩
  | .cond (⟨condition, body, span⟩ :: branches) _ =>
      obtain ⟨outcome, run⟩ := Stmt.canRun_append body canRun
      exact ⟨outcome, .cond (.first ⟨condition, body, span⟩ branches) run⟩
  | .loop init _ _ _ _ =>
      obtain ⟨outcome, run⟩ := init.canRun_cons canRun
      exact ⟨outcome, .loop 0 run⟩
  | .const _ | .version _ _ _ | .extension _ _ _ | .precision _ _ _ | .importName _ _ _ _
  | .importAll _ _ _ | .reexport _ _ _ _ | .exportName _ _ _ | .interface _ | .var _ | .struct _
  | .function _ _ | .assign _ _ _ _ | .call _ _ _ | .update _ _ _ | .setIndex _ _ _ _ _
  | .accessor _ =>
      obtain ⟨outcome, run⟩ := canRun
      exact ⟨outcome, .next trivial run⟩

theorem Stmt.canRun_append
    (block : List Stmt)
    {rest : List Stmt}
    (canRun : Stmt.CanRun rest) :
    Stmt.CanRun (block ++ rest) := by
  match block with
  | [] => exact canRun
  | stmt :: block => exact stmt.canRun_cons (Stmt.canRun_append block canRun)

end

theorem Stmt.canRun (block : List Stmt) : Stmt.CanRun block := by
  have run := Stmt.canRun_append block ⟨_, .done⟩
  rwa [List.append_nil] at run

/-! ## Coverage -/

/-- The last statement returns on every path. -/
def Stmt.Covers (block : List Stmt) : Prop :=
  ∃ empty, checkBodyReturns empty block = .ok ()

variable {body : List Stmt} {value : Option Expr}

namespace Stmt

theorem not_covers_nil : ¬Covers [] := by
  rintro ⟨empty, covered⟩
  cases covered

variable {rest block : List Stmt}

theorem covers_cons
    {stmt : Stmt}
    (covers : Covers (stmt :: rest)) :
    (rest = [] ∧ stmt.checkReturns = .ok ()) ∨ Covers rest := by
  obtain ⟨empty, covered⟩ := covers
  match rest with
  | [] => exact .inl ⟨rfl, covered⟩
  | next :: rest => exact .inr ⟨empty, covered⟩

theorem Covers.append
    (covers : Covers rest)
    (block : List Stmt) :
    Covers (block ++ rest) := by
  induction block with
  | nil => exact covers
  | cons stmt block ih =>
      obtain ⟨empty, covered⟩ := ih
      rw [List.cons_append]
      match tail_eq : block ++ rest with
      | [] => exact absurd (tail_eq ▸ ⟨empty, covered⟩) not_covers_nil
      | next :: others =>
          rw [tail_eq] at covered
          exact ⟨empty, covered⟩

variable {branches : List (Branch Stmt)}

/-- The arms of a chain that returns all cover their paths. -/
theorem covers_of_chooses
    (chosen : Branch.Chooses branches body)
    (ends : endsUnconditionally branches = true)
    (covered : checkBranchesReturn branches = .ok ()) :
    Covers body := by
  induction chosen with
  | nothing => cases ends
  | first branch rest =>
      obtain ⟨_, bodyCovered, _⟩ := except_bind_eq_ok.mp covered
      exact ⟨_, bodyCovered⟩
  | @later branch rest body conditional chosen ih =>
      obtain ⟨_, _, restCovered⟩ := except_bind_eq_ok.mp covered
      refine ih ?_ restCovered
      -- The last arm has no condition, so it is not the one that was passed over.
      match rest with
      | [] =>
          have isLast : branch.cond = none := Option.isNone_iff_eq_none.mp ends
          rw [isLast] at conditional
          cases conditional
      | next :: rest => simpa [endsUnconditionally] using ends

/-- Control never reaches the end of statements that cover all paths. -/
theorem Run.returns_of_covers
    {outcome : Outcome}
    (run : Run block outcome)
    (covers : Covers block) :
    ∃ value, outcome = .returns value := by
  induction run with
  | done => exact absurd covers not_covers_nil
  | ret value _ _ => exact ⟨value, rfl⟩
  | @cond branches _ body rest _ chosen _ ih =>
      refine ih ?_
      rcases covers_cons covers with ⟨rfl, covered⟩ | restCovers
      · rw [Stmt.checkReturns] at covered
        split at covered
        · next ends =>
            rw [List.append_nil]
            exact covers_of_chooses chosen ends covered
        · cases covered
      · exact restCovers.append body
  | @loop init step _ body rest _ _ count _ ih =>
      refine ih ?_
      rcases covers_cons covers with ⟨_, covered⟩ | restCovers
      · cases covered
      · exact restCovers.append (init :: iterations count body step)
  | @next stmt rest _ simple _ ih =>
      rcases covers_cons covers with ⟨_, covered⟩ | restCovers
      · cases stmt with
        | ret | cond | loop => cases simple
        | _ => cases covered
      · exact ih restCovers

/-! ## Return statements -/

theorem mem_ownParts_of_chooses
    (chosen : Branch.Chooses branches body)
    {part : Stmt}
    (mem : part ∈ ownPartsOfBlock body) :
    part ∈ ownPartsOfBranches branches := by
  induction chosen with
  | nothing => cases mem
  | first branch rest =>
      exact List.mem_append_left _ mem
  | later _ _ ih =>
      exact List.mem_append_right _ (ih mem)

theorem mem_of_mem_iterations
    {count : Nat}
    {step part : Stmt}
    (mem : part ∈ ownPartsOfBlock (iterations count body step)) :
    part ∈ step.ownParts ∨ part ∈ ownPartsOfBlock body := by
  rw [ownPartsOfBlock_eq_flatMap] at mem ⊢
  obtain ⟨stmt, isIterated, isPart⟩ := List.mem_flatMap.mp mem
  obtain ⟨iteration, repeated, isStmt⟩ := List.mem_flatten.mp isIterated
  rw [List.eq_of_mem_replicate repeated, List.mem_append, List.mem_singleton] at isStmt
  rcases isStmt with inBody | rfl
  · exact .inr (List.mem_flatMap.mpr ⟨stmt, inBody, isPart⟩)
  · exact .inl isPart

/-- A run returns by one of the return statements of what is run. -/
theorem Run.exists_ret
    {outcome : Outcome}
    (run : Run block outcome)
    (returned : outcome = .returns value) :
    ∃ span, .ret value span ∈ ownPartsOfBlock block := by
  induction run with
  | done => cases returned
  | ret _ span rest =>
      cases returned
      exact ⟨span, by simp [ownPartsOfBlock, ownParts]⟩
  | cond chosen _ ih =>
      obtain ⟨span, mem⟩ := ih returned
      rw [ownPartsOfBlock_eq_flatMap, List.flatMap_append, ← ownPartsOfBlock_eq_flatMap,
        ← ownPartsOfBlock_eq_flatMap, List.mem_append] at mem
      refine ⟨span, ?_⟩
      rcases mem with inBody | inRest
      · exact List.mem_append_left _ (List.mem_cons_of_mem _ (mem_ownParts_of_chooses chosen inBody))
      · exact List.mem_append_right _ inRest
  | loop count _ ih =>
      obtain ⟨span, mem⟩ := ih returned
      rw [ownPartsOfBlock, ownPartsOfBlock_eq_flatMap, List.flatMap_append,
        ← ownPartsOfBlock_eq_flatMap, ← ownPartsOfBlock_eq_flatMap] at mem
      refine ⟨span, ?_⟩
      rw [ownPartsOfBlock, ownParts]
      simp only [List.mem_append, List.mem_cons] at mem ⊢
      rcases mem with inInit | inIterations | inRest
      · exact .inl (.inr (.inl inInit))
      · exact .inl (.inr (.inr (mem_of_mem_iterations inIterations)))
      · exact .inr inRest
  | next _ _ ih =>
      obtain ⟨span, mem⟩ := ih returned
      exact ⟨span, List.mem_append_right _ mem⟩

end Stmt

/-! ## Functions -/

namespace Typing

/-- What a return statement carries fits a result type: a value whose type the result type
accepts, and nothing where there is no result. -/
inductive Fits (arena : Arena) : Option Ty -> Option Expr -> Prop
  /-- A value of the result type. -/
  | value
      {expected ty : Ty}
      {value : Expr}
      (typed : value.typeOf arena = .ok ty)
      (accepted : expected.accepts ty = true) :
      Fits arena (some expected) (some value)
  /-- No value. -/
  | nothing : Fits arena none none

/-- A return statement that passes fits the result type. -/
theorem fits_of_checkStmt
    {arena left : Arena}
    {result : Option Ty}
    {span : Span}
    (passed : checkStmt result (.ret value span) arena = .ok () left) :
    Fits arena result value := by
  obtain ⟨checked, _⟩ := use_eq_ok.mp passed
  obtain ⟨got, returned, checked⟩ := except_bind_eq_ok.mp checked
  split at checked
  · next fits =>
      match result, value with
      | some expected, some value =>
          obtain ⟨ty, typed, same⟩ := except_bind_eq_ok.mp returned
          cases same
          exact .value typed fits
      | none, none => exact .nothing
      | some _, none =>
          cases returned
          cases fits
      | none, some value =>
          obtain ⟨ty, _, same⟩ := except_bind_eq_ok.mp returned
          cases same
          cases fits
  · cases checked

/-- A function with a result that passes covers all its paths. -/
theorem covers_of_checkCoverage
    {expected : Ty}
    {header : FunctionHeader}
    (covered : checkCoverage (some expected) header body = .ok ()) :
    Stmt.Covers body := by
  unfold checkCoverage FunctionHeader.checkReturns at covered
  cases outcome : checkBodyReturns (.expectedReturn header.name.name header.span) body with
  | error error => simp [outcome, Except.mapError] at covered
  | ok done => exact ⟨_, outcome⟩

/-- A function that passes has the result type that it declares.  It can be run, and no run
of a function with a result reaches the end of its body: every run that returns does so by
a return statement of its own.  Each of these carries what fits the result type, in an
arena that typing goes through. -/
theorem checkStmt_function_returns
    {outer : Option Ty}
    {header : FunctionHeader}
    {body : List Stmt}
    {before after : Arena}
    (passed : checkStmt outer (.function header body) before = .ok () after) :
    ∃ result, resultType before header = .ok result ∧
      (∃ outcome, Stmt.Run body outcome) ∧
      (∀ outcome, Stmt.Run body outcome ->
        (result = none ∧ outcome = .falls) ∨
          ∃ value span, outcome = .returns value ∧ .ret value span ∈ Stmt.ownPartsOfBlock body) ∧
      ∀ value span, .ret value span ∈ Stmt.ownPartsOfBlock body ->
        ∃ arena ∈ before :: stmtVisits outer (.function header body) before,
          Fits arena result value := by
  obtain ⟨result, start, typed, checked, covered⟩ := checkStmt_function_eq_ok passed
  have inside : Comes result (Stmt.ownPartsOfBlock body) before after
      (stmtVisits outer (.function header body) before) :=
    (walks_checkBlock result body checked).toComes.afterHeader typed
  refine ⟨result, (checkHeader_eq_ok typed).1, Stmt.canRun body, fun outcome run => ?_,
    fun value span mem => ?_⟩
  · match outcome, result with
    | .falls, none => exact .inl ⟨rfl, rfl⟩
    | .falls, some expected =>
        obtain ⟨value, returned⟩ := run.returns_of_covers (covers_of_checkCoverage covered)
        cases returned
    | .returns value, _ =>
        obtain ⟨span, mem⟩ := run.exists_ret rfl
        exact .inr ⟨value, span, rfl, mem⟩
  · obtain ⟨arena, visited, left, ownPassed⟩ := inside.own _ mem
    exact ⟨arena, visited, fits_of_checkStmt ownPassed⟩

end Typing

namespace Sample

/-- An arena with the type of floats, a function, its parameter and a function inside. -/
def picking : Arena :=
  ⟨#[{ name := "float", ty := some (.descriptor (.scalar .float)), decl := .builtin },
    { name := "pick", decl := .function }, { name := "x", decl := .param },
    { name := "note", decl := .function }]⟩

/-- An identifier that denotes a variable. -/
def denoting
    (text : String)
    (id : VarId) : Ident :=
  { name := text, var := some id }

/-- A function that returns in both arms of a condition, in the second one after a loop
that may return and a function without a result. -/
def pick : Stmt :=
  .function
    { result := some (denoting "float" 0)
      name := denoting "pick" 1
      params := [⟨.plain, denoting "float" 0, denoting "x" 2, none, {}⟩]
      span := {} }
    [.cond
      [⟨some (.bool true {}), [.ret (some (.var (denoting "x" 2))) {}], {}⟩,
        ⟨none,
          [.function { result := none, name := denoting "note" 3, params := [], span := {} }
              [.ret none {}],
            .loop (.exportName (denoting "x" 2) "x" {}) (.bool false {})
              (.ret (some (.var (denoting "x" 2))) {}) [] {},
            .ret (some (.float ⟨0⟩ {})) {}], {}⟩]
      {}]

end Sample

namespace Typing

/-- The function passes, and what it returns fits floats. -/
theorem checkStmt_pick_returns :
    ∃ header body after, Sample.pick = .function header body ∧
      checkStmt none Sample.pick Sample.picking = .ok () after ∧
      (∀ outcome, Stmt.Run body outcome -> ∃ value, outcome = .returns value) ∧
      ∀ value span, .ret value span ∈ Stmt.ownPartsOfBlock body ->
        ∃ arena ∈ Sample.picking :: stmtVisits none Sample.pick Sample.picking,
          Fits arena (some (.scalar .float)) value := by
  have passed : ∃ after, checkStmt none Sample.pick Sample.picking = .ok () after := ⟨_, rfl⟩
  obtain ⟨after, passed⟩ := passed
  obtain ⟨result, found, _, runs, fits⟩ := checkStmt_function_returns passed
  cases found
  refine ⟨_, _, after, rfl, passed, fun outcome run => ?_, fits⟩
  rcases runs outcome run with ⟨isVoid, _⟩ | ⟨value, _, returned, _⟩
  · cases isVoid
  · exact ⟨value, returned⟩

end Typing

end ModularGlsl
