import ModularGlsl.Builtin
import ModularGlsl.Module.Basic
import ModularGlsl.Scope

/-!
# The state of binding

Binding walks a module in the order of its source, allocates a variable for
every declaration and binds every name.  It stops at the first failure: the
failure is recorded in the state, and from then on every step leaves its part
of the tree and the state as they are.  What was bound before stays bound.
-/

namespace ModularGlsl
namespace Binding

/-- What a module is bound against. -/
structure Context where
  /-- The stage that is built. -/
  stage : Stage
  /-- The exports of the modules bound before, latest first. -/
  registry : List (String × Table Export)
  /-- The path of the module. -/
  path : String

/-- The state while a module is bound. -/
structure State where
  /-- The variables so far. -/
  arena : Arena
  /-- The frames that are open. -/
  scope : Scope
  /-- The exports so far. -/
  exports : Table Export := {}
  /-- The first failure. -/
  failure : Option Diagnostic := none

/-- A step of binding. -/
abbrev Bind := StateM State

/-- Record a failure, unless there is one already. -/
def fail (diagnostic : Diagnostic) : Bind Unit :=
  modify fun state =>
    match state.failure with
    | some _ => state
    | none => { state with failure := some diagnostic }

/-- Take a step unless there is a failure, in which case a given result stands
for its own. -/
def unlessFailed
    {α : Type}
    (result : α)
    (step : Bind α) : Bind α :=
  fun state =>
    match state.failure with
    | some _ => (result, state)
    | none => step state

/-- Change the frames that are open. -/
def changeScope (change : Scope -> Scope) : Bind Unit :=
  modify fun state => { state with scope := change state.scope }

/-- Bind an identifier to the variable that its name denotes. -/
def bindIdent (ident : Ident) : Bind Ident :=
  unlessFailed ident do
    match (← get).scope.lookup ident.name with
    | some id => return { ident with var := some id }
    | none =>
        fail (BindingError.undefined ident.name ident.span)
        return ident

/-- Bind an identifier if there is one. -/
def bindOptional : Option Ident -> Bind (Option Ident)
  | some ident => return some (← bindIdent ident)
  | none => return none

/-- Bind a name in the innermost frame to a variable that exists. -/
def introduce
    (ident : Ident)
    (id : VarId) : Bind Ident := do
  let state ← get
  match state.scope.declare state.arena ident.name id ident.span with
  | .ok scope =>
      set { state with scope := scope }
      return { ident with var := some id }
  | .error error =>
      fail error
      return ident

/-- Add a variable to the arena. -/
def alloc (record : Variable) : Bind VarId := do
  let state ← get
  set { state with arena := state.arena.alloc record }
  return state.arena.size

/-- Allocate a variable for an identifier and bind its name. -/
def declareIdent
    (ident : Ident)
    (decl : DeclKind)
    (constant : Bool) : Bind Ident :=
  unlessFailed ident do
    let id ← alloc
      { name := ident.name, constant := constant, decl := decl, span := ident.span }
    introduce ident id

/-- Export a variable under a name. -/
def addExport
    (name : String)
    (var : VarId)
    (span : Span) : Bind Unit :=
  unlessFailed () do
    let state ← get
    match state.exports.get? name with
    | some previous => fail (BindingError.duplicateExport name span previous.span)
    | none =>
        set { state with exports := state.exports.insert name ⟨var, span⟩ }

/-- Export the variable of an identifier under a name. -/
def exportIdent
    (ident : Ident)
    (name : String)
    (span : Span) : Bind Unit :=
  match ident.bound with
  | .ok id => addExport name id span
  | .error error => fail error

/-- The exports of a module. -/
def Context.exportsOf
    (context : Context)
    (path : String)
    (span : Span) : Except Diagnostic (Table Export) :=
  match context.registry.lookup path with
  | some exports => .ok exports
  | none => .error (AssemblyError.notFound path context.path span)

/-- The variable that a module exports under a name. -/
def Context.exported
    (context : Context)
    (path name : String)
    (span : Span) : Except Diagnostic VarId := do
  let exports ← context.exportsOf path span
  match exports.get? name with
  | some entry => return entry.var
  | none => .error (.binding (.notExported name path span))

/-- Bind an alias to an imported name. -/
def importName
    (context : Context)
    (name : String)
    (newName : Ident)
    (path : String)
    (span : Span) : Bind Ident :=
  unlessFailed newName do
    match context.exported path name span with
    | .ok id => introduce newName id
    | .error error =>
        fail error
        return newName

/-- Bind an alias to a package with the exports of a module. -/
def importAll
    (context : Context)
    (newName : Ident)
    (path : String)
    (span : Span) : Bind Ident :=
  unlessFailed newName do
    match context.exportsOf path span with
    | .ok exports =>
        let id ← alloc
          { name := newName.name
            constant := true
            decl := .package
            members := some (exports.map (·.var))
            span := span }
        introduce newName id
    | .error error =>
        fail error
        return newName

/-- Export a name of another module. -/
def reexport
    (context : Context)
    (name newName path : String)
    (span : Span) : Bind Unit :=
  unlessFailed () do
    match context.exported path name span with
    | .ok id => addExport newName id span
    | .error error => fail error

/-- Demand that no open frame binds the name of a function. -/
def checkUndefined (ident : Ident) : Bind Unit :=
  unlessFailed () do
    let state ← get
    match state.scope.lookup ident.name with
    | some existing =>
        fail (BindingError.alreadyDefined ident.name ident.span
          (state.arena.get existing).span)
    | none => return ()

/-- Demand that the body of a function is open. -/
def checkInFunction (span : Span) : Bind Unit :=
  unlessFailed () do
    match (← get).scope.enclosingFunction with
    | some _ => return ()
    | none => fail (BindingError.returnOutsideFunction span)

end Binding
end ModularGlsl
