import ModularGlsl.Binding.Stmt
import ModularGlsl.Emission.Stmt
import ModularGlsl.FinalNames
import ModularGlsl.Liveness.Sweep
import ModularGlsl.Module.Placement
import ModularGlsl.Typing.Stmt

/-!
# Bundles

A bundle takes the modules of one stage through a build: they are placed, bound,
typed and swept, accessors are spliced in, final names are given and the version
is collected.  After that the text of the stage can be written, and exported
constants can be given other values.

Every step may be taken on its own.  A step that fails leaves the bundle as it
was when the failure arose.
-/

namespace ModularGlsl

/-- A value for an exported constant. -/
inductive ConstValue
  | float (value : Decimal.Binary64)
  | int (value : Int)
  | bool (value : Bool)
  deriving DecidableEq, Repr, Inhabited

namespace ConstValue

/-- The kind of a value. -/
def kind : ConstValue -> ScalarKind
  | float _ => .float
  | int _ => .int
  | bool _ => .bool

/-- The text of a value. -/
def text : ConstValue -> String
  | float value => floatFormat.text value
  | int value => toString value
  | bool value => boolText value

end ConstValue

/-- The modules of one stage and what is known about them. -/
structure Bundle where
  /-- The stage that is built. -/
  stage : Stage
  /-- How final names are chosen. -/
  naming : Naming
  /-- The modules in order. -/
  modules : List Module := []
  /-- The variables. -/
  arena : Arena
  /-- What is read. -/
  usage : Usage := {}
  /-- The version of the language, once it is collected. -/
  version : Option String := none
  /-- Whether a whole build has succeeded. -/
  finalized : Bool := false
  deriving Inhabited

namespace Bundle

/-- A step of a build, which keeps the bundle when it fails. -/
abbrev Step := EStateM Diagnostic Bundle

/-- The bundle without modules. -/
def empty
    (stage : Stage)
    (naming : Naming) : Bundle :=
  { stage := stage, naming := naming, arena := stage.arena }

/-- Add a module that has to define a main function. -/
def append
    (bundle : Bundle)
    (module : Module) : Bundle :=
  { bundle with modules := bundle.modules ++ [{ module with entry := true }] }

/-! ## Steps of a build -/

/-- Fail with a diagnostic if there is one. -/
def failWith : Option Diagnostic -> Step Unit
  | some diagnostic => throw diagnostic
  | none => return ()

/-- Load imported modules and place every module after its imports.  A failure
leaves no modules. -/
def resolveDependencies (library : Library) : Step Unit := do
  let bundle ← get
  match Placement.place library bundle.modules with
  | .ok modules => set { bundle with modules := modules }
  | .error error =>
      set { bundle with modules := [] }
      throw (.assembly error)

/-- Bind the names of the modules in order.  A module that fails keeps its main
function and its exports; those after it are left alone. -/
def bindModules (stage : Stage) :
    List (String × Table Export) -> Arena -> List Module ->
      List Module × Arena × Option Diagnostic
  | _, arena, [] => ([], arena, none)
  | registry, arena, module :: rest =>
      let context : Binding.Context :=
        { stage := stage, registry := registry, path := module.path }
      let (bound, state) := module.bind context stage.globals arena
      let main := Binding.mainOf? state
      match state.failure with
      | some diagnostic => (bound :: rest, state.arena, some diagnostic)
      | none =>
          if module.entry && main.isNone then
            let missing : BindingError :=
              .missingMain module.path { source := module.source }
            (bound :: rest, state.arena, some missing)
          else
            let resolved := { bound with main := main, exports := state.exports }
            let (others, arena, failure) :=
              bindModules stage ((module.path, state.exports) :: registry) state.arena rest
            (resolved :: others, arena, failure)

/-- Bind the names of all modules. -/
def resolveNames : Step Unit := do
  let bundle ← get
  let (modules, arena, failure) := bindModules bundle.stage [] bundle.arena bundle.modules
  set { bundle with modules := modules, arena := arena }
  failWith failure

/-- Demand that an entry module has a proper main function. -/
def checkEntry
    (arena : Arena)
    (module : Module) : Except Diagnostic Unit :=
  match module.entry, module.main with
  | true, some main => Typing.checkMain arena main
  | _, _ => .ok ()

/-- Type the modules in order. -/
def checkModules : List Module -> Typing.Check Unit
  | [] => return ()
  | module :: rest => do
      Typing.checkBlock none module.statements
      Typing.use fun arena => checkEntry arena module
      checkModules rest

/-- Type all modules. -/
def evalTypes : Step Unit := do
  let bundle ← get
  match checkModules bundle.modules bundle.arena with
  | .ok () arena => set { bundle with arena := arena }
  | .error error arena =>
      set { bundle with arena := arena }
      throw error

/-- Mark the main function of an entry module as read. -/
def markMain
    (usage : Usage)
    (module : Module) : Usage :=
  match module.entry, module.main with
  | true, some main => usage.markUsed main
  | _, _ => usage

/-- Find out what is read, beginning with the main functions. -/
def resolveActivity : Step Unit := do
  let bundle ← get
  let usage := bundle.modules.foldl markMain {}
  let (modules, state) :=
    (Liveness.sweepModules bundle.stage bundle.modules).run
      { arena := bundle.arena, usage := usage }
  set { bundle with modules := modules, arena := state.arena, usage := state.usage }
  failWith state.failure

/-- Splice waiting accessors into the modules; those that wait for no struct go
into the first one. -/
def spliceModules :
    Bool -> Usage -> List Module -> List Module × Usage
  | _, usage, [] => ([], usage)
  | isFirst, usage, module :: rest =>
      let (statements, usage) := Module.splice (!isFirst) usage module.statements
      let (others, usage) := spliceModules false usage rest
      ({ module with statements := statements } :: others, usage)

/-- Splice waiting accessors into the modules and demand that everything tracked
is read. -/
def finalizeInjected : Step Unit := do
  let bundle ← get
  let (modules, usage) := spliceModules true bundle.usage bundle.modules
  set { bundle with modules := modules, usage := usage }
  match usage.check bundle.arena with
  | .ok () => return ()
  | .error error => throw error

/-- Give all declarations that are written their final names. -/
def uniqueNames : Step Unit := do
  let bundle ← get
  let builtins := bundle.stage.globals.map (·.1)
  let start : FinalNames.State :=
    { tree := NameTree.ofBuiltins bundle.naming builtins, arena := bundle.arena }
  match FinalNames.nameModules bundle.usage bundle.modules start with
  | .ok () state => set { bundle with arena := state.arena }
  | .error error state =>
      set { bundle with arena := state.arena }
      throw error

/-- The version that all modules agree on, given the one found before. -/
def commonVersion :
    Option (String × Span) -> List Module -> Except AssemblyError (Option (String × Span))
  | found, [] => .ok found
  | found, module :: rest =>
      match found, module.declaredVersion? with
      | _, none => commonVersion found rest
      | none, some declared => commonVersion (some declared) rest
      | some (expected, previous), some (version, span) =>
          if expected = version then
            commonVersion found rest
          else
            .error (.versionMismatch version expected span previous)

/-- Collect the version of the language. -/
def collectVersion : Step Unit := do
  let bundle ← get
  match commonVersion none bundle.modules with
  | .ok found => set { bundle with version := found.map Prod.fst }
  | .error error => throw (.assembly error)

/-- Take all steps of a build. -/
def finalize (library : Library) : Step Unit := do
  resolveDependencies library
  resolveNames
  evalTypes
  resolveActivity
  finalizeInjected
  uniqueNames
  collectVersion
  modify fun bundle => { bundle with finalized := true }

/-! ## Results -/

/-- The type of an exported constant that takes a value. -/
def injectionTarget
    (arena : Arena)
    (decl : ConstDecl)
    (value : ConstValue) : Except Diagnostic VarId := do
  let id ← decl.name.bound
  let declared ← arena.ty id decl.span
  if declared.scalarKind? ≠ some value.kind ∨ decl.length.isSome then
    .error (.typing (.constInjection decl.name.name value.text declared.name decl.span))
  else
    return id

/-- The arena after a constant got a value: an integer is known from then on. -/
def injectType
    (arena : Arena)
    (id : VarId) : ConstValue -> Arena
  | .int value => arena.setTy id (.literal value)
  | _ => arena

/-- Give the first exported constant of a name a value, in the first module
that has one. -/
def injectInto
    (name : String)
    (value : ConstValue) :
    Arena -> List Module -> Except Diagnostic (Arena × List Module)
  | _, [] => .error (.assembly (.constNotFound name))
  | arena, module :: rest =>
      match module.findExportedConst? name with
      | some decl => do
          let id ← injectionTarget arena decl value
          let statements := Module.injectText name value.text module.statements
          return (injectType arena id value, { module with statements := statements } :: rest)
      | none => do
          let (arena, others) ← injectInto name value arena rest
          return (arena, module :: others)

/-- Give an exported constant a value in place of its initial value. -/
def injectConst
    (name : String)
    (value : ConstValue) : Step Unit := do
  let bundle ← get
  match injectInto name value bundle.arena bundle.modules with
  | .ok (arena, modules) => set { bundle with arena := arena, modules := modules }
  | .error error => throw error

/-- The varyings of all modules with the texts of their types. -/
def varyings (bundle : Bundle) : Table String :=
  Table.empty.insertAll (bundle.modules.flatMap fun module => module.varyings bundle.arena)

/-- The pieces of every statement of all modules that leaves a trace. -/
def chunks
    (arena : Arena)
    (usage : Usage) : List Module -> Except Diagnostic (List (List Piece))
  | [] => .ok []
  | module :: rest => do
      let own ← Emission.moduleChunks arena usage module.statements
      let others ← chunks arena usage rest
      return own ++ others

/-- The line that asks for a version of the language. -/
def versionLine : Option String -> String
  | some version => s!"#version {version}\n"
  | none => ""

/-- The text of the stage.  Statements of modules stand on lines of their own,
whatever the spacing, so that pragmas do. -/
def write
    (bundle : Bundle)
    (spacing : Spacing) : Except Diagnostic String := do
  let chunks ← chunks bundle.arena bundle.usage bundle.modules
  return versionLine bundle.version ++ "\n".intercalate (chunks.map (render spacing))

/-- A diagnostic with the path of the module that it points into. -/
def describe
    (bundle : Bundle)
    (diagnostic : Diagnostic) : String :=
  let origin := diagnostic.span?.bind fun span =>
    bundle.modules.find? fun module => module.source == span.source
  match origin with
  | some module => s!"{module.path}: {diagnostic.message}"
  | none => diagnostic.message

end Bundle
end ModularGlsl
