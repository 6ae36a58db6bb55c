import ModularGlsl.Decimal.Shortest
import ModularGlsl.Diagnostic
import ModularGlsl.Operator

/-!
# Expressions

The tree of an expression with the variables its identifiers are bound to.
Binding fills the places for variables; liveness fills those for accessors.
-/

namespace ModularGlsl

/-- A name at a place, with the variable it is bound to. -/
structure Ident where
  /-- The name as written. -/
  name : String
  /-- Where the name stands. -/
  span : Span := {}
  /-- The variable that the name is bound to. -/
  var : Option VarId := none
  deriving DecidableEq, Repr, Inhabited

/-- The variable of an identifier, which has to be bound. -/
def Ident.bound (ident : Ident) : Except Diagnostic VarId :=
  match ident.var with
  | some id => .ok id
  | none => .error (InternalError.unresolved ident.name ident.span)

/-- An expression. -/
inductive Expr
  /-- An integer literal. -/
  | int (value : Int) (span : Span)
  /-- A float literal. -/
  | float (value : Decimal.Binary64) (span : Span)
  /-- A truth value. -/
  | bool (value : Bool) (span : Span)
  /-- A variable, a function or a type. -/
  | var (ident : Ident)
  /-- A swizzle, a field, or a member of a package, which is then bound to a
  variable. -/
  | member (object : Expr) (key : String) (packageMember : Option VarId) (span : Span)
  /-- An element at a constant index. -/
  | index (container position : Expr) (span : Span)
  /-- An element at a dynamic index, read through an accessor. -/
  | getIndex (container position : Expr) (accessor : Option VarId) (span : Span)
  /-- A call of a function or of a constructor. -/
  | call (callee : Expr) (args : List Expr) (span : Span)
  /-- A binary operation. -/
  | binary (op : BinaryOp) (left right : Expr) (span : Span)
  /-- A unary operation. -/
  | unary (op : UnaryOp) (operand : Expr) (span : Span)
  /-- An expression in parentheses. -/
  | paren (inner : Expr) (span : Span)

instance : Inhabited Expr := ⟨.bool false {}⟩

/-- Where an expression stands. -/
def Expr.span : Expr -> Span
  | int _ span
  | float _ span
  | bool _ span
  | member _ _ _ span
  | index _ _ span
  | getIndex _ _ _ span
  | call _ _ span
  | binary _ _ _ span
  | unary _ _ span
  | paren _ span => span
  | var ident => ident.span

/-- The variable of a package member. -/
def Expr.packageMember? : Expr -> Option VarId
  | member _ _ packageMember _ => packageMember
  | _ => none

end ModularGlsl
