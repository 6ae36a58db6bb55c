import ModularGlsl.Proofs.Declarations

/-!
# Access paths

A name reaches a declaration through names in scope, imports and exports.  This module
says what a name or a member of a package reaches without the steps of binding: the latest
name in scope counts, an import leads to what its module exports under that name, an export
leads to what its name reaches where it stands, and a member of a package is what the module
of the package exports under its key.  Only names, the order of statements and declaring
identifiers are read; what other identifiers are bound to plays no part.
-/

namespace ModularGlsl

/-! ## Names in scope -/

/-- Where a name that is in scope comes from. -/
inductive Origin
  /-- A declaration. -/
  | declared (ident : Ident)
  /-- A name that a module exports. -/
  | imported (path name : String)
  /-- All that a module exports. -/
  | package (path : String)

/-- The names in scope with their origins, latest first. -/
abbrev Names := List (String × Origin)

/-- The names after a declaration. -/
def Names.declare
    (names : Names)
    (ident : Ident) : Names :=
  (ident.name, .declared ident) :: names

/-- The declaration of a built-in name. -/
def Ident.ofBuiltin (entry : String × VarId) : Ident :=
  { name := entry.1, var := some entry.2 }

/-- The names at the start of a module. -/
def Names.ofStage (stage : Stage) : Names :=
  stage.globals.reverse.map fun entry => (entry.1, .declared (.ofBuiltin entry))

/-- The names after the parameters of a function. -/
def Param.namesAfter : Names -> List Param -> Names
  | names, [] => names
  | names, param :: rest => Param.namesAfter (names.declare param.name) rest

/-- The names after a statement; those inside of it are out of scope again. -/
def Stmt.namesAfter (names : Names) : Stmt -> Names
  | .importName name newName path _ => (newName.name, .imported path name) :: names
  | .importAll newName path _ => (newName.name, .package path) :: names
  | .interface decl => names.declare decl.name
  | .const decl => names.declare decl.name
  | .var decl => names.declare decl.name
  | .struct decl => names.declare decl.name
  | .function header _ => names.declare header.name
  | _ => names

/-- A statement with the names in scope before it. -/
structure Situated where
  /-- The names in scope. -/
  names : Names
  /-- The statement. -/
  stmt : Stmt

mutual

/-- A statement and the statements inside of it with the names in scope before each. -/
def Stmt.situated (names : Names) : Stmt -> List Situated
  | .function header body =>
      ⟨names, .function header body⟩ ::
        Stmt.situatedBlock (Param.namesAfter (names.declare header.name) header.params) body
  | .cond branches span => ⟨names, .cond branches span⟩ :: Stmt.situatedBranches names branches
  | .loop init condition step body span =>
      ⟨names, .loop init condition step body span⟩ ::
        (init.situated names ++ (step.situated (init.namesAfter names) ++
          Stmt.situatedBlock (step.namesAfter (init.namesAfter names)) body))
  | stmt => [⟨names, stmt⟩]

/-- The statements of a list with the names in scope before each. -/
def Stmt.situatedBlock (names : Names) : List Stmt -> List Situated
  | [] => []
  | stmt :: rest => stmt.situated names ++ Stmt.situatedBlock (stmt.namesAfter names) rest

/-- The statements in the arms of a chain of conditions with the names in scope before
each. -/
def Stmt.situatedBranches (names : Names) : List (Branch Stmt) -> List Situated
  | [] => []
  | ⟨_, body, _⟩ :: rest => Stmt.situatedBlock names body ++ Stmt.situatedBranches names rest

end

/-- The statements of a module with the names in scope before each. -/
def Module.situated
    (stage : Stage)
    (module : Module) : List Situated :=
  Stmt.situatedBlock (.ofStage stage) module.statements

/-! ## Exports -/

/-- The names that a statement exports, those that statements inside of it export apart. -/
def Situated.exports (situated : Situated) : List (String × Origin) :=
  match situated.stmt with
  | .exportName target newName _ =>
      ((situated.names.lookup target.name).map fun origin => (newName, origin)).toList
  | .reexport name newName path _ => [(newName, .imported path name)]
  | .const decl => if decl.exported then [(decl.name.name, .declared decl.name)] else []
  | _ => []

/-- The names that a module exports with their origins. -/
def Module.origins
    (stage : Stage)
    (module : Module) : List (String × Origin) :=
  (module.situated stage).flatMap Situated.exports

/-- The declarations of a program in order, those of built-in names first. -/
def Bundle.declarations (bundle : Bundle) : List Ident :=
  bundle.stage.globals.map Ident.ofBuiltin ++
    bundle.modules.flatMap Module.declarations

/-! ## References -/

/-- A path with the names in scope where it stands. -/
structure Reference where
  /-- The names in scope. -/
  names : Names
  /-- The path. -/
  path : Expr

mutual

/-- The names and members in an expression. -/
def Expr.paths : Expr -> List Expr
  | .int _ _ | .float _ _ | .bool _ _ => []
  | .var ident => [.var ident]
  | .member object key packageMember span =>
      .member object key packageMember span :: object.paths
  | .index container position _
  | .getIndex container position _ _ => container.paths ++ position.paths
  | .call callee args _ => callee.paths ++ Expr.pathsOfAll args
  | .binary _ left right _ => left.paths ++ right.paths
  | .unary _ operand _ => operand.paths
  | .paren inner _ => inner.paths

/-- The names and members in a list of expressions. -/
def Expr.pathsOfAll : List Expr -> List Expr
  | [] => []
  | expr :: rest => expr.paths ++ Expr.pathsOfAll rest

end

/-- The names and members in an expression if there is one. -/
def Expr.pathsIfAny : Option Expr -> List Expr
  | some expr => expr.paths
  | none => []

/-- References where the same names are in scope. -/
def Names.references
    (names : Names)
    (paths : List Expr) : List Reference :=
  paths.map (Reference.mk names)

/-- The types of parameters, each of which sees the parameters before it. -/
def Param.references : Names -> List Param -> List Reference
  | _, [] => []
  | names, param :: rest =>
      ⟨names, .var param.ty⟩ :: Param.references (names.declare param.name) rest

/-- The references that a statement makes, those of statements inside of it apart.  An initial
value does not see the name that it initializes; the types of a function see its name.  The
alias of an import stands for what is imported. -/
def Situated.references (situated : Situated) : List Reference :=
  match situated.stmt with
  | .version _ _ _ | .extension _ _ _ | .reexport _ _ _ _ | .accessor _ => []
  | .precision _ ty _ => situated.names.references [.var ty]
  | .importName _ newName _ _ | .importAll newName _ _ =>
      (situated.stmt.namesAfter situated.names).references [.var newName]
  | .exportName target _ _ => situated.names.references [.var target]
  | .interface decl => situated.names.references [.var decl.ty]
  | .const decl => situated.names.references (.var decl.ty :: Expr.pathsIfAny decl.init)
  | .var decl => situated.names.references (.var decl.ty :: Expr.pathsIfAny decl.init)
  | .struct decl => situated.names.references (decl.members.map fun member => .var member.ty)
  | .function header _ =>
      (situated.names.declare header.name).references (header.result.toList.map .var) ++
        Param.references (situated.names.declare header.name) header.params
  | .assign target _ value _ => situated.names.references (target.paths ++ value.paths)
  | .cond branches _ =>
      situated.names.references (branches.flatMap fun branch => Expr.pathsIfAny branch.cond)
  | .loop init condition _ _ _ =>
      (init.namesAfter situated.names).references condition.paths
  | .ret value _ => situated.names.references (Expr.pathsIfAny value)
  | .call callee args _ =>
      situated.names.references (callee.paths ++ Expr.pathsOfAll args)
  | .update target _ _ => situated.names.references target.paths
  | .setIndex container position value _ _ =>
      situated.names.references (container.paths ++ (position.paths ++ value.paths))

/-- The references of a program. -/
def Bundle.references (bundle : Bundle) : List Reference :=
  bundle.modules.flatMap fun module => (module.situated bundle.stage).flatMap Situated.references

/-! ## What a path reaches -/

/-- What a path leads to in the end. -/
inductive Target
  /-- A declaration. -/
  | declaration (ident : Ident)
  /-- All that a module exports. -/
  | package (path : String)

/-- Imports lead from module to module to what a name stands for in the end. -/
inductive Origin.Leads (bundle : Bundle) : Origin -> Target -> Prop
  /-- A declaration stands for itself. -/
  | declared (ident : Ident) : Origin.Leads bundle (.declared ident) (.declaration ident)
  /-- So does a package. -/
  | package (path : String) : Origin.Leads bundle (.package path) (.package path)
  /-- An imported name stands for what its module exports. -/
  | imported
      {path name : String}
      {module : Module}
      (isModule : module ∈ bundle.modules)
      (path_eq : module.path = path)
      {origin : Origin}
      (exported : (name, origin) ∈ module.origins bundle.stage)
      {target : Target}
      (leads : origin.Leads bundle target) :
      Origin.Leads bundle (.imported path name) target

/-- What a path reaches where given names are in scope. -/
inductive Expr.Reaches
    (bundle : Bundle)
    (names : Names) : Expr -> Target -> Prop
  /-- A name reaches what it stands for. -/
  | var
      {ident : Ident}
      {origin : Origin}
      (inScope : names.lookup ident.name = some origin)
      {target : Target}
      (leads : origin.Leads bundle target) :
      Expr.Reaches bundle names (.var ident) target
  /-- A member of a package reaches what the module exports under its key. -/
  | member
      {object : Expr}
      {path key : String}
      (package : object.Reaches bundle names (.package path))
      {target : Target}
      (leads : (Origin.imported path key).Leads bundle target)
      {packageMember : Option VarId}
      {span : Span} :
      Expr.Reaches bundle names (.member object key packageMember span) target

/-- Modules have paths of their own and export no name twice. -/
structure Bundle.ExportsOnce (bundle : Bundle) : Prop where
  /-- Paths are distinct. -/
  paths : (bundle.modules.map Module.path).Nodup
  /-- Exported names of a module are distinct. -/
  names : ∀ module ∈ bundle.modules, ((module.origins bundle.stage).map Prod.fst).Nodup

section Unique

variable {bundle : Bundle}

theorem Origin.Leads.unique
    (once : bundle.ExportsOnce)
    {origin : Origin}
    {target other : Target}
    (first : origin.Leads bundle target)
    (second : origin.Leads bundle other) :
    target = other := by
  induction first with
  | declared ident =>
      cases second
      rfl
  | package path =>
      cases second
      rfl
  | imported isModule path_eq exported leads ih =>
      cases second with
      | imported isOther other_eq exportedOther leadsOther =>
          obtain rfl := List.inj_on_of_nodup_map once.paths isModule isOther
            (path_eq.trans other_eq.symm)
          have same := List.inj_on_of_nodup_map (once.names _ isModule) exported exportedOther rfl
          cases same
          exact ih leadsOther

theorem Expr.Reaches.unique
    (once : bundle.ExportsOnce)
    {names : Names}
    {path : Expr}
    {target other : Target}
    (first : path.Reaches bundle names target)
    (second : path.Reaches bundle names other) :
    target = other := by
  induction first generalizing other with
  | var inScope leads =>
      cases second with
      | var found leadsOther =>
          obtain rfl := Option.some.inj (inScope.symm.trans found)
          exact leads.unique once leadsOther
  | member package leads ih =>
      cases second with
      | member packageOther leadsOther =>
          cases ih packageOther
          exact leads.unique once leadsOther

end Unique

end ModularGlsl
