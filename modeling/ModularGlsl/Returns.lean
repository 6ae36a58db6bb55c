import ModularGlsl.Tree.Stmt

/-!
# Coverage by return statements

A function with a result has to end in a return statement on every path.  Only
the last statement of a body counts: a return statement, or a chain of
conditions with a final alternative whose arms all end in the same way.  Loops
never count.
-/

namespace ModularGlsl

/-- Whether a chain of conditions ends in an arm without a condition. -/
def endsUnconditionally
    {σ : Type}
    (branches : List (Branch σ)) : Bool :=
  match branches.getLast? with
  | some branch => branch.cond.isNone
  | none => false

mutual

/-- Demand that a statement ends in a return statement on every path. -/
def Stmt.checkReturns : Stmt -> Except FlowError Unit
  | .ret _ _ => .ok ()
  | .cond branches span =>
      if endsUnconditionally branches then
        checkBranchesReturn branches
      else
        .error (.branchWithoutReturn span)
  | other => .error (.missingReturn other.span)

/-- Demand that every arm ends in a return statement. -/
def checkBranchesReturn : List (Branch Stmt) -> Except FlowError Unit
  | [] => .ok ()
  | ⟨_, body, span⟩ :: rest => do
      checkBodyReturns (.missingReturn span) body
      checkBranchesReturn rest

/-- Demand that the last statement of a body ends in a return statement; an
empty body is reported by the given error. -/
def checkBodyReturns (empty : FlowError) : List Stmt -> Except FlowError Unit
  | [] => .error empty
  | [last] => last.checkReturns
  | _ :: next :: rest => checkBodyReturns empty (next :: rest)

end

/-- Demand that every path through a function ends in a return statement. -/
def FunctionHeader.checkReturns
    (header : FunctionHeader)
    (body : List Stmt) : Except FlowError Unit :=
  checkBodyReturns (.expectedReturn header.name.name header.span) body

end ModularGlsl
