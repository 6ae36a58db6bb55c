import ModularGlsl.Proofs.Binding.Program

/-!
# Trees without variables

Binding fills the places for variables and changes nothing else of a tree.  A bound program
is therefore the program that was read, once its variables are left out.
-/

namespace ModularGlsl

/-! ## Places for variables -/

/-- An identifier without its variable. -/
def Ident.unbound (ident : Ident) : Ident :=
  { ident with var := none }

mutual

/-- An expression without the variables of its names and members. -/
def Expr.unbound : Expr -> Expr
  | .int value span => .int value span
  | .float value span => .float value span
  | .bool value span => .bool value span
  | .var ident => .var ident.unbound
  | .member object key _ span => .member object.unbound key none span
  | .index container position span => .index container.unbound position.unbound span
  | .getIndex container position accessor span =>
      .getIndex container.unbound position.unbound accessor span
  | .call callee args span => .call callee.unbound (Expr.unboundAll args) span
  | .binary op left right span => .binary op left.unbound right.unbound span
  | .unary op operand span => .unary op operand.unbound span
  | .paren inner span => .paren inner.unbound span

/-- Expressions without the variables of their names and members. -/
def Expr.unboundAll : List Expr -> List Expr
  | [] => []
  | expr :: rest => expr.unbound :: Expr.unboundAll rest

end

/-- A variable of the interface without its variables. -/
def InterfaceDecl.unbound (decl : InterfaceDecl) : InterfaceDecl :=
  { decl with ty := decl.ty.unbound, name := decl.name.unbound }

/-- A constant without its variables. -/
def ConstDecl.unbound (decl : ConstDecl) : ConstDecl :=
  { decl with
    ty := decl.ty.unbound
    name := decl.name.unbound
    init := decl.init.map Expr.unbound }

/-- A variable without its variables. -/
def VarDecl.unbound (decl : VarDecl) : VarDecl :=
  { decl with
    ty := decl.ty.unbound
    name := decl.name.unbound
    init := decl.init.map Expr.unbound }

/-- A struct without its variables. -/
def StructDecl.unbound (decl : StructDecl) : StructDecl :=
  { decl with
    name := decl.name.unbound
    members := decl.members.map fun member => { member with ty := member.ty.unbound } }

/-- A parameter without its variables. -/
def Param.unbound (param : Param) : Param :=
  { param with ty := param.ty.unbound, name := param.name.unbound }

/-- The header of a function without its variables. -/
def FunctionHeader.unbound (header : FunctionHeader) : FunctionHeader :=
  { header with
    name := header.name.unbound
    result := header.result.map Ident.unbound
    params := header.params.map Param.unbound }

mutual

/-- A statement without its variables. -/
def Stmt.unbound : Stmt -> Stmt
  | .version number profile span => .version number profile span
  | .extension name behavior span => .extension name behavior span
  | .precision degree ty span => .precision degree ty.unbound span
  | .importName name newName path span => .importName name newName.unbound path span
  | .importAll newName path span => .importAll newName.unbound path span
  | .reexport name newName path span => .reexport name newName path span
  | .exportName target newName span => .exportName target.unbound newName span
  | .interface decl => .interface decl.unbound
  | .const decl => .const decl.unbound
  | .var decl => .var decl.unbound
  | .struct decl => .struct decl.unbound
  | .function header body => .function header.unbound (Stmt.unboundBlock body)
  | .assign target op value span => .assign target.unbound op value.unbound span
  | .cond branches span => .cond (Stmt.unboundBranches branches) span
  | .loop init condition step body span =>
      .loop init.unbound condition.unbound step.unbound (Stmt.unboundBlock body) span
  | .ret value span => .ret (value.map Expr.unbound) span
  | .call callee args span => .call callee.unbound (Expr.unboundAll args) span
  | .update target op span => .update target.unbound op span
  | .setIndex container position value filled span =>
      .setIndex container.unbound position.unbound value.unbound filled span
  | .accessor decl => .accessor decl

/-- Statements without their variables. -/
def Stmt.unboundBlock : List Stmt -> List Stmt
  | [] => []
  | stmt :: rest => stmt.unbound :: Stmt.unboundBlock rest

/-- Arms of a chain of conditions without their variables. -/
def Stmt.unboundBranches : List (Branch Stmt) -> List (Branch Stmt)
  | [] => []
  | ⟨condition, body, span⟩ :: rest =>
      ⟨condition.map Expr.unbound, Stmt.unboundBlock body, span⟩ :: Stmt.unboundBranches rest

end

theorem Stmt.unboundBlock_eq_map (block : List Stmt) :
    Stmt.unboundBlock block = block.map Stmt.unbound := by
  induction block with
  | nil => rfl
  | cons stmt rest ih => rw [unboundBlock, ih, List.map_cons]

/-- A module without its variables. -/
def Module.unbound (module : Module) : Module :=
  { module with
    statements := Stmt.unboundBlock module.statements
    exports := {}
    main := none }

namespace Binding

/-! ## Names -/

/-- A name that is bound stays the same. -/
theorem unbound_introduce
    (ident : Ident)
    (id : VarId)
    (state : State) :
    (introduce ident id state).1.unbound = ident.unbound := by
  rw [introduce_apply]
  split <;> rfl

theorem unbound_bindIdent
    (ident : Ident)
    (state : State) :
    (bindIdent ident state).1.unbound = ident.unbound := by
  rw [bindIdent_apply]
  split <;> rfl

theorem unbound_bindOptional
    (ident : Option Ident)
    (state : State) :
    (bindOptional ident state).1.map Ident.unbound = ident.map Ident.unbound := by
  cases ident with
  | none => rfl
  | some ident => exact congrArg some (unbound_bindIdent ident state)

theorem unbound_declareIdent
    (ident : Ident)
    (decl : DeclKind)
    (constant : Bool)
    (state : State) :
    (declareIdent ident decl constant state).1.unbound = ident.unbound := by
  unfold declareIdent unlessFailed
  split
  · rfl
  · exact unbound_introduce ident _ _

theorem unbound_importName
    (context : Context)
    (name : String)
    (newName : Ident)
    (path : String)
    (span : Span)
    (state : State) :
    (importName context name newName path span state).1.unbound = newName.unbound := by
  unfold importName unlessFailed
  split
  · rfl
  · cases context.exported path name span with
    | ok id => exact unbound_introduce newName _ _
    | error error => rfl

/-- The alias of an import of everything stays the same. -/
theorem unbound_importAll
    (context : Context)
    (newName : Ident)
    (path : String)
    (span : Span)
    (state : State) :
    (importAll context newName path span state).1.unbound = newName.unbound := by
  unfold importAll unlessFailed
  split
  · rfl
  · cases context.exportsOf path span with
    | ok exports => exact unbound_introduce newName _ _
    | error error => rfl

/-! ## Expressions -/

mutual

theorem unbound_bindExpr
    (expr : Expr)
    (state : State) :
    (bindExpr expr state).1.unbound = expr.unbound := by
  match expr with
  | .int _ _ | .float _ _ | .bool _ _ =>
      rfl
  | .var ident =>
      rw [bindExpr, Expr.unbound, ← unbound_bindIdent ident state]
      rfl
  | .member operand _ _ _ | .unary _ operand _ | .paren operand _ =>
      rw [bindExpr, Expr.unbound, ← unbound_bindExpr operand state]
      rfl
  | .index left right _ | .getIndex left right _ _ | .binary _ left right _ =>
      rw [bindExpr, Expr.unbound, ← unbound_bindExpr left state,
        ← unbound_bindExpr right (bindExpr left state).2]
      rfl
  | .call callee args _ =>
      rw [bindExpr, Expr.unbound, ← unbound_bindExpr callee state,
        ← unboundAll_bindExprs args (bindExpr callee state).2]
      rfl

theorem unboundAll_bindExprs
    (exprs : List Expr)
    (state : State) :
    Expr.unboundAll (bindExprs exprs state).1 = Expr.unboundAll exprs := by
  match exprs with
  | [] =>
      rfl
  | expr :: rest =>
      rw [bindExprs, Expr.unboundAll, ← unbound_bindExpr expr state,
        ← unboundAll_bindExprs rest (bindExpr expr state).2]
      rfl

end

theorem unbound_bindOptionalExpr
    (expr : Option Expr)
    (state : State) :
    (bindOptionalExpr expr state).1.map Expr.unbound = expr.map Expr.unbound := by
  cases expr with
  | none => rfl
  | some expr => exact congrArg some (unbound_bindExpr expr state)

/-! ## Declarations -/

theorem unbound_bindInterface
    (context : Context)
    (decl : InterfaceDecl)
    (state : State) :
    (bindInterface context decl state).1.unbound = decl.unbound := by
  have ty_eq := unbound_bindIdent decl.ty state
  have name_eq := unbound_declareIdent decl.name (declKind decl.kind)
    (isReadOnly context.stage decl.kind) (bindIdent decl.ty state).2
  unfold InterfaceDecl.unbound
  rw [← ty_eq, ← name_eq]
  rfl

theorem unbound_bindConst
    (decl : ConstDecl)
    (state : State) :
    (bindConst decl state).1.unbound = decl.unbound := by
  have ty_eq := unbound_bindIdent decl.ty state
  have init_eq := unbound_bindOptionalExpr decl.init (bindIdent decl.ty state).2
  have name_eq := unbound_declareIdent decl.name (.const decl.exported) true
    (bindOptionalExpr decl.init (bindIdent decl.ty state).2).2
  unfold ConstDecl.unbound
  rw [← ty_eq, ← init_eq, ← name_eq]
  unfold bindConst
  cases decl.exported <;> rfl

theorem unbound_bindVar
    (decl : VarDecl)
    (state : State) :
    (bindVar decl state).1.unbound = decl.unbound := by
  have ty_eq := unbound_bindIdent decl.ty state
  have init_eq := unbound_bindOptionalExpr decl.init (bindIdent decl.ty state).2
  have name_eq (kind : DeclKind) := unbound_declareIdent decl.name kind false
    (bindOptionalExpr decl.init (bindIdent decl.ty state).2).2
  unfold VarDecl.unbound
  rw [← ty_eq, ← init_eq, ← name_eq]
  rfl

theorem unbound_bindMembers
    (members : List StructMember)
    (state : State) :
    ((bindMembers members state).1.map fun member => { member with ty := member.ty.unbound }) =
      members.map fun member => { member with ty := member.ty.unbound } := by
  induction members generalizing state with
  | nil => rfl
  | cons member rest ih =>
      rw [List.map_cons, ← unbound_bindIdent member.ty state,
        ← ih (bindIdent member.ty state).2]
      rfl

theorem unbound_bindStruct
    (decl : StructDecl)
    (state : State) :
    (bindStruct decl state).1.unbound = decl.unbound := by
  have members_eq := unbound_bindMembers decl.members state
  have name_eq := unbound_declareIdent decl.name .struct true (bindMembers decl.members state).2
  unfold StructDecl.unbound
  rw [← members_eq, ← name_eq]
  rfl

theorem unbound_bindParams
    (params : List Param)
    (state : State) :
    (bindParams params state).1.map Param.unbound = params.map Param.unbound := by
  induction params generalizing state with
  | nil => rfl
  | cons param rest ih =>
      have ty_eq := unbound_bindIdent param.ty state
      have name_eq := unbound_declareIdent param.name .param false (bindIdent param.ty state).2
      rw [List.map_cons, ← ih, Param.unbound, ← ty_eq, ← name_eq]
      rfl

theorem unbound_bindHeader
    (header : FunctionHeader)
    (state : State) :
    (bindHeader header state).1.unbound = header.unbound := by
  unfold FunctionHeader.unbound
  rw [← unbound_bindParams header.params, ← unbound_bindOptional header.result,
    ← unbound_declareIdent header.name]
  rfl

/-! ## Statements -/

mutual

theorem unbound_bindStmt
    (context : Context)
    (stmt : Stmt)
    (state : State) :
    (bindStmt context stmt state).1.unbound = stmt.unbound := by
  cases stmt with
  | precision _ ident _ | exportName ident _ _ =>
      rw [bindStmt, Stmt.unbound, ← unbound_bindIdent ident state]
      rfl
  | importName name newName path span =>
      rw [bindStmt, Stmt.unbound, ← unbound_importName context name newName path span state]
      rfl
  | importAll newName path span =>
      rw [bindStmt, Stmt.unbound, ← unbound_importAll context newName path span state]
      rfl
  | interface decl =>
      rw [bindStmt, Stmt.unbound, ← unbound_bindInterface context decl state]
      rfl
  | const decl =>
      rw [bindStmt, Stmt.unbound, ← unbound_bindConst decl state]
      rfl
  | var decl =>
      rw [bindStmt, Stmt.unbound, ← unbound_bindVar decl state]
      rfl
  | struct decl =>
      rw [bindStmt, Stmt.unbound, ← unbound_bindStruct decl state]
      rfl
  | function header body =>
      rw [bindStmt, Stmt.unbound, ← unbound_bindHeader header state,
        ← unboundBlock_bindBlock context body (bindHeader header state).2]
      rfl
  | assign target _ value _ =>
      rw [bindStmt, Stmt.unbound, ← unbound_bindExpr target state, ← unbound_bindExpr value]
      rfl
  | cond branches _ =>
      rw [bindStmt, Stmt.unbound, ← unboundBranches_bindBranches context branches state]
      rfl
  | loop init condition step body _ =>
      rw [bindStmt, Stmt.unbound, ← unbound_bindStmt context init, ← unbound_bindExpr condition,
        ← unbound_bindStmt context step, ← unboundBlock_bindBlock context body]
      rfl
  | ret value _ =>
      rw [bindStmt, Stmt.unbound, ← unbound_bindOptionalExpr value]
      rfl
  | call callee args _ =>
      rw [bindStmt, Stmt.unbound, ← unbound_bindExpr callee state,
        ← unboundAll_bindExprs args (bindExpr callee state).2]
      rfl
  | update target _ _ =>
      rw [bindStmt, Stmt.unbound, ← unbound_bindExpr target state]
      rfl
  | setIndex container position value _ _ =>
      rw [bindStmt, Stmt.unbound, ← unbound_bindExpr container state,
        ← unbound_bindExpr position (bindExpr container state).2, ← unbound_bindExpr value]
      rfl
  | _ =>
      rw [bindStmt]
      rfl

theorem unboundBlock_bindBlock
    (context : Context)
    (block : List Stmt)
    (state : State) :
    Stmt.unboundBlock (bindBlock context block state).1 = Stmt.unboundBlock block := by
  match block with
  | [] =>
      rw [bindBlock]
      rfl
  | stmt :: rest =>
      rw [bindBlock, Stmt.unboundBlock, ← unbound_bindStmt context stmt state,
        ← unboundBlock_bindBlock context rest (bindStmt context stmt state).2]
      rfl

theorem unboundBranches_bindBranches
    (context : Context)
    (branches : List (Branch Stmt))
    (state : State) :
    Stmt.unboundBranches (bindBranches context branches state).1 =
      Stmt.unboundBranches branches := by
  match branches with
  | [] =>
      rw [bindBranches]
      rfl
  | ⟨condition, body, _⟩ :: rest =>
      rw [bindBranches, Stmt.unboundBranches, ← unbound_bindOptionalExpr condition state,
        ← unboundBlock_bindBlock context body, ← unboundBranches_bindBranches context rest]
      rfl

end

end Binding

/-- Modules that are bound without a failure stay the same. -/
theorem Bundle.unbound_bindModules
    {stage : Stage}
    {registry : List (String × Table Export)}
    {arena : Arena}
    {modules : List Module}
    (succeeded : (bindModules stage registry arena modules).2.2 = none) :
    (bindModules stage registry arena modules).1.map Module.unbound =
      modules.map Module.unbound := by
  induction modules generalizing registry arena with
  | nil => rfl
  | cons module rest ih =>
      obtain ⟨statements, state, run, later, modules_eq, _⟩ := runs_of_bindModules_cons succeeded
      have same := Binding.unboundBlock_bindBlock
        { stage := stage, registry := registry, path := module.path } module.statements
        { arena := arena, scope := Scope.ofGlobals stage.globals }
      rw [run.1] at same
      rw [modules_eq, List.map_cons, List.map_cons, ih later, Module.unbound,
        Module.unbound, same]

end ModularGlsl
