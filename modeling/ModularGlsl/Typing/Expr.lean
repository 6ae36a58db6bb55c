import ModularGlsl.Arena
import ModularGlsl.Tree.Stmt
import ModularGlsl.Ty.Call
import ModularGlsl.Ty.Operation

/-!
# Typing of expressions

The type of an expression follows from the types of the variables it names.  A
variable yields its type attributed to the place where it is read.
-/

namespace ModularGlsl

/-- A failure of typing as a diagnostic. -/
def typing
    {α : Type}
    (result : Except TypingError α) : Except Diagnostic α :=
  result.mapError Diagnostic.typing

/-- The type of the variable that an identifier names. -/
def Ident.typeOf
    (arena : Arena)
    (ident : Ident) : Except Diagnostic Ty := do
  let id ← ident.bound
  if (arena.get id).isPackage then
    .error (.binding (.packageAsValue ident.name ident.span))
  else
    let ty ← arena.ty id ident.span
    return ty.locate ident.span

/-- The value of an index that has to be known. -/
def knownIndex
    (ty : Ty)
    (span : Span) : Except TypingError Int :=
  match ty.literal? with
  | some value => .ok value
  | none => .error (.nonConstantIndex AccessorKind.get.spelling span)

/-- The result of a call that has to yield a value. -/
def valueOf
    (result : Option Ty)
    (span : Span) : Except TypingError Ty :=
  match result with
  | some ty => .ok ty
  | none => .error (.voidValue span)

mutual

/-- The type of an expression that yields a value. -/
def Expr.typeOf (arena : Arena) : Expr -> Except Diagnostic Ty
  | .int value _ => .ok (.literal value)
  | .float _ _ => .ok .float
  | .bool _ _ => .ok .bool
  | .var ident => ident.typeOf arena
  | .member _ _ (some id) span => arena.ty id span
  | .member object key none span => do
      let object ← object.typeOf arena
      typing (object.member key span)
  | .index container position span => do
      let container ← container.typeOf arena
      let index ← position.typeOf arena
      let value ← typing (knownIndex index position.span)
      typing (container.index value span)
  | .getIndex container position _ span => do
      let container ← container.typeOf arena
      let index ← position.typeOf arena
      typing (Ty.int.check index position.span)
      typing (container.index 0 span)
  | .call callee args span => do
      let callee ← callee.typeOf arena
      let args ← Expr.typesOf arena args
      let result ← typing (callee.call args span)
      typing (valueOf result span)
  | .binary op left right span => do
      let left ← left.typeOf arena
      let right ← right.typeOf arena
      typing (Ty.binary op left right span)
  | .unary op operand span => do
      let operand ← operand.typeOf arena
      typing (Ty.unary op operand span)
  | .paren inner _ => inner.typeOf arena

/-- The types of a list of expressions. -/
def Expr.typesOf (arena : Arena) : List Expr -> Except Diagnostic (List Ty)
  | [] => .ok []
  | expr :: rest => do
      let ty ← expr.typeOf arena
      let tys ← Expr.typesOf arena rest
      return ty :: tys

end

/-- The result of a call; without one it is void. -/
def callResult
    (arena : Arena)
    (callee : Expr)
    (args : List Expr)
    (span : Span) : Except Diagnostic (Option Ty) := do
  let callee ← callee.typeOf arena
  let args ← Expr.typesOf arena args
  typing (callee.call args span)

/-- The value of an index expression that has to be known. -/
def Expr.constantIndex
    (arena : Arena)
    (position : Expr) : Except Diagnostic Int := do
  let ty ← position.typeOf arena
  typing (knownIndex ty position.span)

/-- Demand that an index expression is an integer. -/
def Expr.checkDynamicIndex
    (arena : Arena)
    (position : Expr) : Except Diagnostic Unit := do
  let ty ← position.typeOf arena
  typing (Ty.int.check ty position.span)

end ModularGlsl
