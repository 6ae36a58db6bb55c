import ModularGlsl.Typing.Expr

/-!
# Targets of stores

A store goes to a variable that is no constant, or to a member or an element of
such a target.
-/

namespace ModularGlsl

/-- The type of a target, which has to lead to a variable that may be stored
to. -/
def Expr.targetType (arena : Arena) : Expr -> Except Diagnostic Ty
  | .var ident => do
      let id ← ident.bound
      if (arena.get id).constant then
        .error (.typing (.assignToConst ident.name ident.span))
      else
        (Expr.var ident).typeOf arena
  | .member _ _ (some _) span => .error (.binding (.packageMemberAssignment span))
  | .member object key none span => do
      let _ ← object.targetType arena
      (Expr.member object key none span).typeOf arena
  | .index container position span => do
      let _ ← container.targetType arena
      (Expr.index container position span).typeOf arena
  | .paren inner _ => inner.targetType arena
  | other => .error (.typing (.notAssignable other.span))

/-- Check that a value may be stored to a target. -/
def Expr.checkStore
    (arena : Arena)
    (value : Ty)
    (span : Span) : Expr -> Except Diagnostic Unit
  | .member object key none _ => do
      let object ← object.targetType arena
      typing (object.setMember key value span)
  | .index container position _ => do
      let container ← container.targetType arena
      let index ← position.constantIndex arena
      typing (container.setIndex index value span)
  | .paren inner _ => inner.checkStore arena value span
  | target => do
      let ty ← target.targetType arena
      typing (ty.check value span)

end ModularGlsl
