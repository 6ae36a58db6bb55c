import ModularGlsl.Liveness.Kept
import ModularGlsl.Module.Basic
import ModularGlsl.NameTree.Basic

/-!
# Final names

Names are given in two sweeps over all modules.  The first claims the names that
have to be kept, at the root; the second gives every other declaration that is
written a free name, functions and blocks on levels of their own.  Names given
before a failure stay.
-/

namespace ModularGlsl
namespace FinalNames

/-- The names claimed so far and the variables. -/
structure State where
  /-- The claimed names. -/
  tree : NameTree
  /-- The variables. -/
  arena : Arena

/-- A step of naming, which keeps its state when it fails. -/
abbrev Name := EStateM Diagnostic State

/-- The variable of an identifier, which has to be bound. -/
def boundVar (ident : Ident) : Name VarId :=
  match ident.bound with
  | .ok id => return id
  | .error error => throw error

/-- Whether a variable keeps its name in a module with a given main function. -/
def keepsName
    (arena : Arena)
    (main : Option VarId)
    (var : VarId) : Bool :=
  some var == main || (arena.get var).decl.keepsName

/-- Claim the current name of a variable at the root. -/
def preserveVar (var : VarId) : Name Unit := do
  let state ← get
  match state.tree.preserve state.arena NameTree.root var with
  | .ok tree => set { state with tree := tree }
  | .error error => throw (.binding error)

/-- Claim the name that a statement of a module declares, if it has to be
kept. -/
def preserveStmt
    (usage : Usage)
    (main : Option VarId)
    (stmt : Stmt) : Name Unit := do
  if stmt.isKept usage true then
    match stmt.declared? with
    | some ident =>
        let var ← boundVar ident
        if keepsName (← get).arena main var then
          preserveVar var
    | none => return ()

/-- Claim the names of a list of statements that have to be kept. -/
def preserveBlock
    (usage : Usage)
    (main : Option VarId) : List Stmt -> Name Unit
  | [] => return ()
  | stmt :: rest => do
      preserveStmt usage main stmt
      preserveBlock usage main rest

/-- Give the variable of an identifier a name at a level. -/
def assignIdent
    (level : LevelId)
    (ident : Ident) : Name Unit := do
  let var ← boundVar ident
  modify fun state =>
    let (tree, arena) := state.tree.assign state.arena level var
    { tree := tree, arena := arena }

/-- Open a level below another one. -/
def openLevel
    (parent : LevelId)
    (isFunction : Bool) : Name LevelId := do
  let state ← get
  set { state with tree := state.tree.addLevel parent isFunction }
  return state.tree.levels.size

/-- Give the parameters of a function their names. -/
def assignParams (level : LevelId) : List Param -> Name Unit
  | [] => return ()
  | param :: rest => do
      assignIdent level param.name
      assignParams level rest

mutual

/-- Give the declarations of a statement their names. -/
def assignStmt
    (usage : Usage)
    (level : LevelId) : Stmt -> Name Unit
  | .function header body => do
      assignIdent level header.name
      let inner ← openLevel level true
      assignParams inner header.params
      assignBlock usage false inner body
  | .cond branches _ => assignBranches usage level branches
  | .loop init _ _ body _ => do
      let inner ← openLevel level false
      assignStmt usage inner init
      assignBlock usage false inner body
  | .interface decl => assignIdent level decl.name
  | .const decl => assignIdent level decl.name
  | .var decl => assignIdent level decl.name
  | .struct decl => assignIdent level decl.name
  | .accessor decl => assignIdent level decl.name
  | _ => return ()

/-- Give the declarations of those statements that are written their names. -/
def assignBlock
    (usage : Usage)
    (atTop : Bool)
    (level : LevelId) : List Stmt -> Name Unit
  | [] => return ()
  | stmt :: rest => do
      if stmt.isKept usage atTop then
        assignStmt usage level stmt
      assignBlock usage atTop level rest

/-- Give the declarations in the arms of a chain of conditions their names. -/
def assignBranches
    (usage : Usage)
    (level : LevelId) : List (Branch Stmt) -> Name Unit
  | [] => return ()
  | ⟨_, body, _⟩ :: rest => do
      let inner ← openLevel level false
      assignBlock usage false inner body
      assignBranches usage level rest

end

/-- Claim the names of all modules that have to be kept. -/
def preserveModules (usage : Usage) : List Module -> Name Unit
  | [] => return ()
  | module :: rest => do
      preserveBlock usage module.main module.statements
      preserveModules usage rest

/-- Give all other declarations of the modules their names. -/
def assignModules (usage : Usage) : List Module -> Name Unit
  | [] => return ()
  | module :: rest => do
      assignBlock usage true NameTree.root module.statements
      assignModules usage rest

/-- Give all declarations of the modules their final names. -/
def nameModules
    (usage : Usage)
    (modules : List Module) : Name Unit := do
  preserveModules usage modules
  assignModules usage modules

end FinalNames
end ModularGlsl
