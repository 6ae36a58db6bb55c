import ModularGlsl.Liveness.State
import ModularGlsl.Module.Basic

/-!
# The backward sweep

Blocks are walked from the last statement to the first, so that a declaration
is judged by what is read after it.  Bodies of functions that nothing reads, and
initial values of constants and module variables that nothing reads, are not
live.  A block in which a statement follows a return statement is refused.
-/

namespace ModularGlsl
namespace Liveness

mutual

/-- Mark what an expression reads, from right to left. -/
def sweepExpr : Expr -> Sweep Expr
  | .int value span => return .int value span
  | .float value span => return .float value span
  | .bool value span => return .bool value span
  | .var ident => do
      markIdent ident
      return .var ident
  | .member object key (some id) span => do
      markUsed id
      return .member object key (some id) span
  | .member object key none span => do
      let object ← sweepExpr object
      return .member object key none span
  | .index container position span => do
      let position ← sweepExpr position
      let container ← sweepExpr container
      return .index container position span
  | .getIndex container position accessor span => do
      let accessor ← bindAccessor .get container accessor span
      let position ← sweepExpr position
      let container ← sweepExpr container
      return .getIndex container position accessor span
  | .call callee args span => do
      let args ← sweepExprs args
      let callee ← sweepExpr callee
      return .call callee args span
  | .binary op left right span => do
      let right ← sweepExpr right
      let left ← sweepExpr left
      return .binary op left right span
  | .unary op operand span => do
      let operand ← sweepExpr operand
      return .unary op operand span
  | .paren inner span => do
      let inner ← sweepExpr inner
      return .paren inner span

/-- Mark what a list of expressions reads, from the last to the first. -/
def sweepExprs : List Expr -> Sweep (List Expr)
  | [] => return []
  | expr :: rest => do
      let rest ← sweepExprs rest
      let expr ← sweepExpr expr
      return expr :: rest

end

/-- Mark what an expression reads if there is one. -/
def sweepOptional : Option Expr -> Sweep (Option Expr)
  | some expr => return some (← sweepExpr expr)
  | none => return none

/-- Mark what an initial value reads if it is live. -/
def sweepInit
    (live : Bool)
    (init : Option Expr) : Sweep (Option Expr) :=
  if live then sweepOptional init else return init

/-- Mark what the target of an assignment reads; a bare variable is only
stored to. -/
def sweepTarget : Expr -> Sweep Expr
  | .var ident => return .var ident
  | target => sweepExpr target

/-- Demand that a varying of the fragment stage is read. -/
def sweepInterface
    (stage : Stage)
    (decl : InterfaceDecl) : Sweep Unit :=
  if decl.kind = .varying ∧ stage = .fragment then
    trackIdent decl.name decl.span
  else
    return ()

/-- Mark what a constant reads, if it is exported or read. -/
def sweepConst (decl : ConstDecl) : Sweep ConstDecl := do
  let read ← readsIdent decl.name
  let init ← sweepInit (decl.exported || read) decl.init
  return { decl with init := init }

/-- Whether the variable of an identifier belongs to a function. -/
def isLocal
    (arena : Arena)
    (ident : Ident) : Bool :=
  match ident.var with
  | some id => (arena.get id).decl == .localVariable
  | none => false

/-- Demand that a variable is read, and mark what its initial value reads. -/
def sweepVar (decl : VarDecl) : Sweep VarDecl := do
  trackIdent decl.name decl.span
  let read ← readsIdent decl.name
  let isLocal := isLocal (← get).arena decl.name
  let init ← sweepInit (isLocal || read) decl.init
  return { decl with init := init }

/-- The statement that follows the first return statement of a block. -/
def afterReturn? : List Stmt -> Option Stmt
  | stmt :: next :: rest => if stmt.isReturn then some next else afterReturn? (next :: rest)
  | _ => none

/-- Demand that no statement of a block follows a return statement. -/
def checkReachable (block : List Stmt) : Sweep Unit :=
  match afterReturn? block with
  | some stmt => fail (FlowError.unreachable stmt.span)
  | none => return ()

mutual

/-- Mark what a statement reads. -/
def sweepStmt (stage : Stage) : Stmt -> Sweep Stmt
  | .interface decl => do
      sweepInterface stage decl
      return .interface decl
  | .const decl => return .const (← sweepConst decl)
  | .var decl => return .var (← sweepVar decl)
  | .function header body => do
      if ← readsIdent header.name then
        checkReachable body
        return .function header (← sweepBlock stage body)
      else
        return .function header body
  | .assign target op value span => do
      let value ← sweepExpr value
      let target ← sweepTarget target
      return .assign target op value span
  | .cond branches span => do
      let branches ← sweepBranches stage branches
      return .cond branches span
  | .loop init cond step body span => do
      checkReachable body
      let body ← sweepBlock stage body
      let step ← sweepStmt stage step
      let cond ← sweepExpr cond
      let init ← sweepStmt stage init
      return .loop init cond step body span
  | .ret value span => do
      let value ← sweepOptional value
      return .ret value span
  | .call callee args span => do
      let callee ← sweepExpr callee
      let args ← sweepExprs args
      return .call callee args span
  | .update target op span => do
      let target ← sweepExpr target
      return .update target op span
  | .setIndex container position value accessor span => do
      let accessor ← bindAccessor .set container accessor span
      let value ← sweepExpr value
      let position ← sweepExpr position
      let container ← sweepExpr container
      return .setIndex container position value accessor span
  | .version number profile span => return .version number profile span
  | .extension name behavior span => return .extension name behavior span
  | .precision precision ty span => return .precision precision ty span
  | .importName name newName path span => return .importName name newName path span
  | .importAll newName path span => return .importAll newName path span
  | .reexport name newName path span => return .reexport name newName path span
  | .exportName target newName span => return .exportName target newName span
  | .struct decl => return .struct decl
  | .accessor decl => return .accessor decl

/-- Mark what a list of statements reads, from the last to the first. -/
def sweepBlock (stage : Stage) : List Stmt -> Sweep (List Stmt)
  | [] => return []
  | stmt :: rest => do
      let rest ← sweepBlock stage rest
      let stmt ← sweepStmt stage stmt
      return stmt :: rest

/-- Mark what the arms of a chain of conditions read, from the last to the
first. -/
def sweepBranches (stage : Stage) : List (Branch Stmt) -> Sweep (List (Branch Stmt))
  | [] => return []
  | ⟨cond, body, span⟩ :: rest => do
      let rest ← sweepBranches stage rest
      checkReachable body
      let body ← sweepBlock stage body
      let cond ← sweepOptional cond
      return ⟨cond, body, span⟩ :: rest

end

/-- Sweep the modules from the last to the first. -/
def sweepModules (stage : Stage) : List Module -> Sweep (List Module)
  | [] => return []
  | module :: rest => do
      let rest ← sweepModules stage rest
      checkReachable module.statements
      let statements ← sweepBlock stage module.statements
      return { module with statements := statements } :: rest

end Liveness
end ModularGlsl
