import ModularGlsl.Usage

/-!
# Modules

A module is a list of statements under a path.  Binding fills its table of
exports and finds its main function; accessors are spliced into its statements.
-/

namespace ModularGlsl

/-- An exported variable and the statement that exports it. -/
structure Export where
  /-- The exported variable. -/
  var : VarId
  /-- Where it is exported. -/
  span : Span
  deriving DecidableEq, Repr, Inhabited

/-- A module of a program. -/
structure Module where
  /-- The path that names the module. -/
  path : String
  /-- The number of the source in spans. -/
  source : Nat := 0
  /-- The statements in order. -/
  statements : List Stmt
  /-- The exported names. -/
  exports : Table Export := {}
  /-- Whether the module has to define a main function. -/
  entry : Bool := false
  /-- The main function. -/
  main : Option VarId := none
  deriving Inhabited

namespace Module

/-- Add an import to a list unless its path is listed. -/
def addDependency
    (deps : List (String × Span))
    (stmt : Stmt) : List (String × Span) :=
  match stmt.importPath? with
  | some path =>
      if deps.any fun dep => dep.1 == path then deps else deps ++ [(path, stmt.span)]
  | none => deps

/-- The imported paths in the order of the statements, each with its first
import. -/
def dependencies (module : Module) : List (String × Span) :=
  module.statements.foldl addDependency []

/-- The version that a statement asks for. -/
def version? : Stmt -> Option (String × Span)
  | .version number profile span => some (versionText number profile, span)
  | _ => none

/-- The version that a module asks for, with its span. -/
def declaredVersion? (module : Module) : Option (String × Span) :=
  module.statements.findSome? version?

/-- The variable of a varying. -/
def varying? : Stmt -> Option VarId
  | .interface decl => if decl.kind = .varying then decl.name.var else none
  | _ => none

/-- The names of the varyings with the texts of their types. -/
def varyings
    (module : Module)
    (arena : Arena) : List (String × String) :=
  (module.statements.filterMap varying?).map fun var =>
    let record := arena.get var
    (record.name, (record.ty.map Ty.name).getD "")

/-- The exported constant of a given name that a statement declares. -/
def exportedConst? (name : String) : Stmt -> Option ConstDecl
  | .const decl => if decl.exported && decl.name.name == name then some decl else none
  | _ => none

/-- The exported constant of a given name. -/
def findExportedConst?
    (module : Module)
    (name : String) : Option ConstDecl :=
  module.statements.findSome? (exportedConst? name)

/-- Write a text in place of the initial value of the first exported constant
of a given name. -/
def injectText (name text : String) : List Stmt -> List Stmt
  | [] => []
  | stmt :: rest =>
      match exportedConst? name stmt with
      | some decl => .const { decl with injected := some text } :: rest
      | none => stmt :: injectText name text rest

/-- The struct that a statement declares. -/
def struct? : Stmt -> Option VarId
  | .struct decl => decl.name.var
  | _ => none

/-- Take the waiting statements that a declaration releases. -/
def release
    (usage : Usage)
    (stmt : Stmt) : List Stmt × Usage :=
  match struct? stmt with
  | some var => usage.pop (some var)
  | none => ([], usage)

/-- Splice waiting statements into a list of statements.  Those over a struct
follow its declaration.  The others come before the first statement that is no
prologue, unless they are placed already. -/
def splice :
    Bool -> Usage -> List Stmt -> List Stmt × Usage
  | true, usage, [] => ([], usage)
  | false, usage, [] => usage.pop none
  | placed, usage, stmt :: rest =>
      let here := !placed && !stmt.isPrologue
      let (general, usage) := if here then usage.pop none else ([], usage)
      let (own, usage) := release usage stmt
      let (after, usage) := splice (placed || here) usage rest
      (general ++ stmt :: (own ++ after), usage)

end Module
end ModularGlsl
