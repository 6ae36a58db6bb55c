import ModularGlsl.Binding.Expr

/-!
# Binding of statements

A declaration is bound after the names in it, so that an initial value does not
see the name it initializes; a function is declared before its result type, its
parameters and its body.  Arms of conditions, loops and functions open a frame
of their own.
-/

namespace ModularGlsl
namespace Binding

/-- What declares a variable of the interface. -/
def declKind : InterfaceKind -> DeclKind
  | .vertexAttribute => .vertexAttribute
  | .uniform => .uniform
  | .varying => .varying

/-- Varyings are stored to before the fragment stage; other variables of the
interface never are. -/
def isReadOnly (stage : Stage) : InterfaceKind -> Bool
  | .varying => stage == .fragment
  | _ => true

/-- Bind a variable of the interface. -/
def bindInterface
    (context : Context)
    (decl : InterfaceDecl) : Bind InterfaceDecl := do
  let ty ← bindIdent decl.ty
  let name ← declareIdent decl.name (declKind decl.kind) (isReadOnly context.stage decl.kind)
  return { decl with ty := ty, name := name }

/-- Bind a constant and export it if it says so. -/
def bindConst (decl : ConstDecl) : Bind ConstDecl := do
  let ty ← bindIdent decl.ty
  let init ← bindOptionalExpr decl.init
  let name ← declareIdent decl.name (.const decl.exported) true
  if decl.exported then
    exportIdent name name.name decl.span
  return { decl with ty := ty, init := init, name := name }

/-- Bind a variable. -/
def bindVar (decl : VarDecl) : Bind VarDecl := do
  let ty ← bindIdent decl.ty
  let init ← bindOptionalExpr decl.init
  let depth := (← get).scope.depth
  let name ← declareIdent decl.name
    (if depth = 0 then .globalVariable else .localVariable) false
  return { decl with ty := ty, init := init, name := name }

/-- Bind the types of the members of a struct. -/
def bindMembers : List StructMember -> Bind (List StructMember)
  | [] => return []
  | member :: rest => do
      let ty ← bindIdent member.ty
      let rest ← bindMembers rest
      return { member with ty := ty } :: rest

/-- Bind a struct. -/
def bindStruct (decl : StructDecl) : Bind StructDecl := do
  let members ← bindMembers decl.members
  let name ← declareIdent decl.name .struct true
  return { decl with members := members, name := name }

/-- Bind the parameters of a function. -/
def bindParams : List Param -> Bind (List Param)
  | [] => return []
  | param :: rest => do
      let ty ← bindIdent param.ty
      let name ← declareIdent param.name .param false
      let rest ← bindParams rest
      return { param with ty := ty, name := name } :: rest

/-- Bind the header of a function and open its body. -/
def bindHeader (header : FunctionHeader) : Bind FunctionHeader := do
  checkUndefined header.name
  let name ← declareIdent header.name .function true
  let result ← bindOptional header.result
  changeScope fun scope => scope.pushFunction (name.var.getD 0)
  let params ← bindParams header.params
  return { header with name := name, result := result, params := params }

/-- Refuse to store to a member of a package. -/
def checkTarget
    (target : Expr)
    (span : Span) : Bind Unit :=
  match target.packageMember? with
  | some _ => fail (BindingError.packageMemberAssignment span)
  | none => return ()

mutual

/-- Bind the names of a statement. -/
def bindStmt (context : Context) : Stmt -> Bind Stmt
  | .version number profile span => return .version number profile span
  | .extension name behavior span => return .extension name behavior span
  | .precision precision ty span => return .precision precision (← bindIdent ty) span
  | .importName name newName path span => do
      let newName ← importName context name newName path span
      return .importName name newName path span
  | .importAll newName path span => do
      let newName ← importAll context newName path span
      return .importAll newName path span
  | .reexport name newName path span => do
      reexport context name newName path span
      return .reexport name newName path span
  | .exportName target newName span => do
      let target ← bindIdent target
      exportIdent target newName span
      return .exportName target newName span
  | .interface decl => return .interface (← bindInterface context decl)
  | .const decl => return .const (← bindConst decl)
  | .var decl => return .var (← bindVar decl)
  | .struct decl => return .struct (← bindStruct decl)
  | .function header body => do
      let header ← bindHeader header
      let body ← bindBlock context body
      changeScope Scope.pop
      return .function header body
  | .assign target op value span => do
      let target ← bindExpr target
      checkTarget target span
      let value ← bindExpr value
      return .assign target op value span
  | .cond branches span => do
      let branches ← bindBranches context branches
      return .cond branches span
  | .loop init cond step body span => do
      changeScope Scope.pushBlock
      let init ← bindStmt context init
      let cond ← bindExpr cond
      let step ← bindStmt context step
      let body ← bindBlock context body
      changeScope Scope.pop
      return .loop init cond step body span
  | .ret value span => do
      checkInFunction span
      let value ← bindOptionalExpr value
      return .ret value span
  | .call callee args span => do
      let callee ← bindExpr callee
      let args ← bindExprs args
      return .call callee args span
  | .update target op span => do
      let target ← bindExpr target
      return .update target op span
  | .setIndex container position value accessor span => do
      let container ← bindExpr container
      let position ← bindExpr position
      let value ← bindExpr value
      return .setIndex container position value accessor span
  | .accessor decl => return .accessor decl

/-- Bind the names of a list of statements. -/
def bindBlock (context : Context) : List Stmt -> Bind (List Stmt)
  | [] => return []
  | stmt :: rest => do
      let stmt ← bindStmt context stmt
      let rest ← bindBlock context rest
      return stmt :: rest

/-- Bind the names of the arms of a chain of conditions. -/
def bindBranches (context : Context) : List (Branch Stmt) -> Bind (List (Branch Stmt))
  | [] => return []
  | ⟨cond, body, span⟩ :: rest => do
      let cond ← bindOptionalExpr cond
      changeScope Scope.pushBlock
      let body ← bindBlock context body
      changeScope Scope.pop
      let rest ← bindBranches context rest
      return ⟨cond, body, span⟩ :: rest

end

/-- The main function that a module binds. -/
def mainOf? (state : State) : Option VarId :=
  (state.scope.lookupInnermost "main").filter fun id =>
    (state.arena.get id).decl == .function

end Binding

/-- Bind the names of a module against the built-in names and the modules bound
before. -/
def Module.bind
    (module : Module)
    (context : Binding.Context)
    (globals : List (String × VarId))
    (arena : Arena) : Module × Binding.State :=
  let (statements, state) :=
    (Binding.bindBlock context module.statements).run
      { arena := arena, scope := Scope.ofGlobals globals }
  ({ module with statements := statements }, state)

end ModularGlsl
