import ModularGlsl.Arena
import ModularGlsl.Decimal.Format
import ModularGlsl.Tree.Stmt

/-!
# Text of expressions

Expressions are written without blanks under the current names of their
variables.  A sign is kept apart from a following sign of the same kind, with
which it would fuse into an update.
-/

namespace ModularGlsl

/-- Floats are positional from a ten-thousandth to below ten to the sixteenth,
with a digit on either side of the point. -/
def floatFormat : Decimal.Format :=
  { leastPoint := -3
    greatestPoint := 16
    exponentMark := "e"
    notANumber := "NaN"
    infinity := "inf" }

/-- The text of a truth value. -/
def boolText (value : Bool) : String :=
  if value then "true" else "false"

/-- The current name of an identifier, which has to be bound. -/
def Ident.text
    (arena : Arena)
    (ident : Ident) : Except Diagnostic String := do
  let id ← ident.bound
  return arena.name id

/-- Whether an operator would fuse with the operand after it. -/
def fuses (op operand : String) : Bool :=
  (op == "+" || op == "-") && op.toList.isPrefixOf operand.toList

/-- An operator and the operand after it. -/
def operatorThen (op operand : String) : String :=
  if fuses op operand then s!"{op} {operand}" else op ++ operand

/-- The current name of the accessor of a dynamic index. -/
def accessorText
    (arena : Arena)
    (kind : AccessorKind)
    (accessor : Option VarId)
    (span : Span) : Except Diagnostic String :=
  match accessor with
  | some id => .ok (arena.name id)
  | none => .error (.internal (.unresolved kind.spelling span))

mutual

/-- The text of an expression. -/
def Expr.text (arena : Arena) : Expr -> Except Diagnostic String
  | .int value _ => .ok (toString value)
  | .float value _ => .ok (floatFormat.text value)
  | .bool value _ => .ok (boolText value)
  | .var ident => ident.text arena
  | .member _ _ (some id) _ => .ok (arena.name id)
  | .member object key none _ => do
      let object ← object.text arena
      return s!"{object}.{key}"
  | .index container position _ => do
      let container ← container.text arena
      let position ← position.text arena
      return s!"{container}[{position}]"
  | .getIndex container position accessor span => do
      let accessor ← accessorText arena .get accessor span
      let container ← container.text arena
      let position ← position.text arena
      return s!"{accessor}({container},{position})"
  | .call callee args _ => do
      let args ← Expr.texts arena args
      let callee ← callee.text arena
      let list := ",".intercalate args
      return s!"{callee}({list})"
  | .binary op left right _ => do
      let left ← left.text arena
      let right ← right.text arena
      return left ++ operatorThen op.spelling right
  | .unary op operand _ => do
      let operand ← operand.text arena
      return operatorThen op.spelling operand
  | .paren inner _ => do
      let inner ← inner.text arena
      return s!"({inner})"

/-- The texts of a list of expressions. -/
def Expr.texts (arena : Arena) : List Expr -> Except Diagnostic (List String)
  | [] => .ok []
  | expr :: rest => do
      let text ← expr.text arena
      let texts ← Expr.texts arena rest
      return text :: texts

end

/-- The text of a call. -/
def callText
    (arena : Arena)
    (callee : Expr)
    (args : List Expr) : Except Diagnostic String := do
  let args ← Expr.texts arena args
  let callee ← callee.text arena
  let list := ",".intercalate args
  return s!"{callee}({list})"

end ModularGlsl
