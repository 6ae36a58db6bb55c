import ModularGlsl.Binding.State

/-!
# Binding of expressions

Names denote the variables of the open frames.  A member of a package is bound
to the exported variable; every other member is left to typing.
-/

namespace ModularGlsl
namespace Binding

/-- The package that an expression denotes. -/
def packageOf? (arena : Arena) : Expr -> Option VarId
  | .var ident => ident.var.filter fun id => (arena.get id).isPackage
  | .member _ _ packageMember _ => packageMember.filter fun id => (arena.get id).isPackage
  | _ => none

/-- The member of a package that a key names. -/
def bindMember
    (object : Expr)
    (key : String)
    (packageMember : Option VarId)
    (span : Span) : Bind (Option VarId) :=
  unlessFailed packageMember do
    let arena := (← get).arena
    match packageOf? arena object with
    | none => return packageMember
    | some package =>
        let record := arena.get package
        match record.members.bind fun members => members.get? key with
        | some id => return some id
        | none =>
            fail (BindingError.unknownPackageMember record.name key span)
            return packageMember

mutual

/-- Bind the names of an expression from left to right. -/
def bindExpr : Expr -> Bind Expr
  | .int value span => return .int value span
  | .float value span => return .float value span
  | .bool value span => return .bool value span
  | .var ident => return .var (← bindIdent ident)
  | .member object key packageMember span => do
      let object ← bindExpr object
      let packageMember ← bindMember object key packageMember span
      return .member object key packageMember span
  | .index container position span => do
      let container ← bindExpr container
      let position ← bindExpr position
      return .index container position span
  | .getIndex container position accessor span => do
      let container ← bindExpr container
      let position ← bindExpr position
      return .getIndex container position accessor span
  | .call callee args span => do
      let callee ← bindExpr callee
      let args ← bindExprs args
      return .call callee args span
  | .binary op left right span => do
      let left ← bindExpr left
      let right ← bindExpr right
      return .binary op left right span
  | .unary op operand span => do
      let operand ← bindExpr operand
      return .unary op operand span
  | .paren inner span => do
      let inner ← bindExpr inner
      return .paren inner span

/-- Bind the names of a list of expressions. -/
def bindExprs : List Expr -> Bind (List Expr)
  | [] => return []
  | expr :: rest => do
      let expr ← bindExpr expr
      let rest ← bindExprs rest
      return expr :: rest

end

/-- Bind the names of an expression if there is one. -/
def bindOptionalExpr : Option Expr -> Bind (Option Expr)
  | some expr => return some (← bindExpr expr)
  | none => return none

end Binding
end ModularGlsl
