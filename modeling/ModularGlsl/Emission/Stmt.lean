import ModularGlsl.Accessor.Basic
import ModularGlsl.Emission.Decl
import ModularGlsl.Liveness.Kept

/-!
# Text of statements

Statements are laid out as pieces, so that their text does not depend on the
characters for line breaks and indentation.  What is not kept is left out.
-/

namespace ModularGlsl
namespace Emission

/-- A single text followed by a semicolon. -/
def terminated (text : String) : List Piece :=
  [.text (text ++ ";")]

/-- The text of a return statement. -/
def returnText (arena : Arena) : Option Expr -> Except Diagnostic String
  | some value => do
      let text ← value.text arena
      return "return " ++ text
  | none => .ok "return"

/-- The text of a store through an accessor. -/
def setIndexText
    (arena : Arena)
    (container position value : Expr)
    (accessor : Option VarId)
    (span : Span) : Except Diagnostic String := do
  let accessor ← accessorText arena .set accessor span
  let container ← container.text arena
  let position ← position.text arena
  let value ← value.text arena
  return s!"{accessor}({container},{position},{value})"

/-- The head of a loop. -/
def loopHead
    (arena : Arena)
    (init : Stmt)
    (cond : Expr)
    (step : Stmt) : Except Diagnostic String := do
  let init ← clauseText arena init
  let cond ← cond.text arena
  let step ← clauseText arena step
  return s!"for({init};{cond};{step})"

/-- What stands before the body of an arm. -/
def armHead
    (arena : Arena)
    (isFirst : Bool)
    (cond : Option Expr) : Except Diagnostic String :=
  match cond with
  | some cond => do
      let text ← cond.text arena
      return (if isFirst then "if(" else "else if(") ++ text ++ ")"
  | none => .ok (if isFirst then "" else "else")

/-- A body in braces. -/
def braced
    (nesting : Nat)
    (body : List Piece) : List Piece :=
  [.text "\x7b", .newline] ++ body ++ [.indent nesting, .text "\x7d"]

mutual

/-- The pieces of a statement at a depth of nesting. -/
def stmtPieces
    (arena : Arena)
    (usage : Usage)
    (nesting : Nat) : Stmt -> Except Diagnostic (List Piece)
  | .version _ _ _
  | .importName _ _ _ _
  | .importAll _ _ _
  | .reexport _ _ _ _
  | .exportName _ _ _ => .ok []
  | .extension name behavior _ => .ok [.text s!"#extension {name} : {behavior}"]
  | .precision precision ty _ =>
      .ok (terminated s!"precision {precision.spelling} {typeText arena ty}")
  | .interface decl => do
      let text ← interfaceText arena decl
      return [.text text]
  | .const decl => do
      let text ← constText arena decl
      return [.text text]
  | .var decl => do
      let text ← clauseText arena (.var decl)
      return terminated text
  | .assign target op value span => do
      let text ← clauseText arena (.assign target op value span)
      return terminated text
  | .update target op span => do
      let text ← clauseText arena (.update target op span)
      return terminated text
  | .struct decl => structPieces arena nesting decl
  | .function header body => do
      let head ← headerText arena header
      let body ← blockPieces arena usage (nesting + 1) body
      return .text head :: braced nesting body
  | .cond branches _ => branchPieces arena usage nesting true branches
  | .loop init cond step body _ => do
      let head ← loopHead arena init cond step
      let body ← blockPieces arena usage (nesting + 1) body
      return .text head :: braced nesting body
  | .ret value _ => do
      let text ← returnText arena value
      return terminated text
  | .call callee args _ => do
      let text ← callText arena callee args
      return terminated text
  | .setIndex container position value accessor span => do
      let text ← setIndexText arena container position value accessor span
      return terminated text
  | .accessor decl => .ok (decl.pieces arena)

/-- The pieces of the statements of a block, each on lines of its own. -/
def blockPieces
    (arena : Arena)
    (usage : Usage)
    (nesting : Nat) : List Stmt -> Except Diagnostic (List Piece)
  | [] => .ok []
  | stmt :: rest =>
      if stmt.isKept usage false then do
        let pieces ← stmtPieces arena usage nesting stmt
        let after ← blockPieces arena usage nesting rest
        return .indent nesting :: (pieces ++ .newline :: after)
      else
        blockPieces arena usage nesting rest

/-- The pieces of the arms of a chain of conditions. -/
def branchPieces
    (arena : Arena)
    (usage : Usage)
    (nesting : Nat)
    (isFirst : Bool) : List (Branch Stmt) -> Except Diagnostic (List Piece)
  | [] => .ok []
  | ⟨cond, body, _⟩ :: rest => do
      let head ← armHead arena isFirst cond
      let body ← blockPieces arena usage (nesting + 1) body
      let after ← branchPieces arena usage nesting false rest
      return .text head :: (braced nesting body ++ after)

end

/-- The pieces of every statement of a module that leaves a trace. -/
def moduleChunks
    (arena : Arena)
    (usage : Usage) : List Stmt -> Except Diagnostic (List (List Piece))
  | [] => .ok []
  | stmt :: rest =>
      if stmt.isKept usage true then do
        let pieces ← stmtPieces arena usage 0 stmt
        let after ← moduleChunks arena usage rest
        return if pieces.isEmpty then after else pieces :: after
      else
        moduleChunks arena usage rest

end Emission
end ModularGlsl
