import ModularGlsl.Tree.Decl

/-!
# Statements

Modules and function bodies consist of the same statements.  Some of them only
make sense at the level of a module, but none is tied to it.
-/

namespace ModularGlsl

/-- One arm of a chain of conditions; without a condition it is the
alternative to the arms before it. -/
structure Branch (σ : Type) where
  /-- The condition. -/
  cond : Option Expr
  /-- The statements of the arm. -/
  body : List σ
  /-- Where the arm stands. -/
  span : Span

/-- A statement. -/
inductive Stmt
  /-- The version of the language, with a profile. -/
  | version (number : Nat) (profile : Option String) (span : Span)
  /-- An extension of the language. -/
  | extension (name behavior : String) (span : Span)
  /-- The default precision of a type. -/
  | precision (precision : Precision) (ty : Ident) (span : Span)
  /-- An import of one exported name under an alias. -/
  | importName (name : String) (newName : Ident) (path : String) (span : Span)
  /-- An import of everything a module exports as a package. -/
  | importAll (newName : Ident) (path : String) (span : Span)
  /-- An export of a name of another module. -/
  | reexport (name newName path : String) (span : Span)
  /-- An export of a name of this module. -/
  | exportName (target : Ident) (newName : String) (span : Span)
  /-- A variable of the interface. -/
  | interface (decl : InterfaceDecl)
  /-- A constant. -/
  | const (decl : ConstDecl)
  /-- A variable. -/
  | var (decl : VarDecl)
  /-- A struct. -/
  | struct (decl : StructDecl)
  /-- A function. -/
  | function (header : FunctionHeader) (body : List Stmt)
  /-- A plain or compound assignment. -/
  | assign (target : Expr) (op : AssignOp) (value : Expr) (span : Span)
  /-- A chain of conditions. -/
  | cond (branches : List (Branch Stmt)) (span : Span)
  /-- A loop. -/
  | loop (init : Stmt) (cond : Expr) (step : Stmt) (body : List Stmt) (span : Span)
  /-- The end of a function, with its result. -/
  | ret (value : Option Expr) (span : Span)
  /-- A call whose result is void. -/
  | call (callee : Expr) (args : List Expr) (span : Span)
  /-- An increment or decrement. -/
  | update (target : Expr) (op : UpdateOp) (span : Span)
  /-- A store to an element at a dynamic index, through an accessor. -/
  | setIndex (container position value : Expr) (accessor : Option VarId) (span : Span)
  /-- An accessor for dynamic indices. -/
  | accessor (decl : Accessor)

instance : Inhabited Stmt := ⟨.ret none {}⟩

namespace Stmt

/-- Where a statement stands. -/
def span : Stmt -> Span
  | version _ _ span
  | extension _ _ span
  | precision _ _ span
  | importName _ _ _ span
  | importAll _ _ span
  | reexport _ _ _ span
  | exportName _ _ span
  | assign _ _ _ span
  | cond _ span
  | loop _ _ _ _ span
  | ret _ span
  | call _ _ span
  | update _ _ span
  | setIndex _ _ _ _ span => span
  | interface decl => decl.span
  | const decl => decl.span
  | var decl => decl.span
  | struct decl => decl.span
  | function header _ => header.span
  | accessor decl => decl.span

/-- Statements that come before all declarations of a module. -/
def isPrologue : Stmt -> Bool
  | version _ _ _ | extension _ _ _ | precision _ _ _ => true
  | _ => false

/-- Return statements. -/
def isReturn : Stmt -> Bool
  | ret _ _ => true
  | _ => false

/-- The identifier that a statement declares. -/
def declared? : Stmt -> Option Ident
  | interface decl => some decl.name
  | const decl => some decl.name
  | var decl => some decl.name
  | struct decl => some decl.name
  | function header _ => some header.name
  | accessor decl => some decl.name
  | _ => none

/-- The path that a statement imports from. -/
def importPath? : Stmt -> Option String
  | importName _ _ path _
  | importAll _ path _
  | reexport _ _ path _ => some path
  | _ => none

end Stmt

/-- The argument of a version pragma. -/
def versionText
    (number : Nat)
    (profile : Option String) : String :=
  match profile with
  | some profile => s!"{number} {profile}"
  | none => toString number

end ModularGlsl
