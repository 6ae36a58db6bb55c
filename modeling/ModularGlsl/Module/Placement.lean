import ModularGlsl.Module.Basic

/-!
# Placement of modules

The modules of a program are those that were appended and all that they import,
directly or through others.  They are placed so that every module comes after
its imports; where that is impossible, a circle of imports is reported.

Modules are considered in the order of their paths, appended ones first.  The
placement goes through the waiting modules again and again, and each time
places those whose imports have been placed.
-/

namespace ModularGlsl

/-- The modules that can be imported, one for each path. -/
structure Library where
  /-- The modules. -/
  modules : List Module := []
  deriving Inhabited

namespace Library

/-- The module of a path. -/
def get?
    (library : Library)
    (path : String) : Option Module :=
  library.modules.find? fun module => module.path == path

/-- Add a module in place of any other of its path. -/
def insert
    (library : Library)
    (module : Module) : Library :=
  ⟨library.modules.filter (fun other => other.path != module.path) ++ [module]⟩

/-- The number of modules. -/
def size (library : Library) : Nat :=
  library.modules.length

end Library

namespace Placement

/-- Put a module before the first one with the same or a later path. -/
def insertByPath (module : Module) : List Module -> List Module
  | [] => [module]
  | other :: rest =>
      if other.path < module.path then
        other :: insertByPath module rest
      else
        module :: other :: rest

/-- The modules in the order of their paths; those of one path keep their
order. -/
def sortByPath (modules : List Module) : List Module :=
  modules.foldr insertByPath []

/-! ## Discovery -/

/-- What has been discovered and what is still to be visited. -/
structure Discovery where
  /-- The paths that are known. -/
  known : List String
  /-- The loaded modules in the order of their paths. -/
  loaded : List Module
  /-- The modules to visit, in order. -/
  queue : List Module

/-- Load the imports of a module that are not known. -/
def loadAll
    (library : Library)
    (origin : String) :
    List (String × Span) -> Discovery -> Except AssemblyError Discovery
  | [], discovery => .ok discovery
  | (path, span) :: rest, discovery =>
      if discovery.known.contains path then
        loadAll library origin rest discovery
      else
        match library.get? path with
        | some module =>
            loadAll library origin rest
              { known := path :: discovery.known
                loaded := insertByPath module discovery.loaded
                queue := discovery.queue ++ [module] }
        | none => .error (.notFound path origin span)

/-- Visit the modules of the queue, at most a given number of them. -/
def explore (library : Library) :
    Nat -> Discovery -> Except AssemblyError Discovery
  | 0, discovery => .ok discovery
  | steps + 1, discovery =>
      match discovery.queue with
      | [] => .ok discovery
      | module :: rest => do
          let next ← loadAll library module.path module.dependencies
            { discovery with queue := rest }
          explore library steps next

/-- The modules that are imported from the given ones.  Every appended module
and every module of the library is visited at most once. -/
def discover
    (library : Library)
    (entries : List Module) : Except AssemblyError (List Module) := do
  let discovery ← explore library (entries.length + library.size)
    { known := entries.map (·.path), loaded := [], queue := entries }
  return discovery.loaded

/-! ## Order -/

/-- Whether all imports of a module have been placed. -/
def isReady
    (placed : List String)
    (module : Module) : Bool :=
  module.dependencies.all fun dep => placed.contains dep.1

/-- Go through the waiting modules once: those placed, and those that still
wait.  A module that is placed counts for those after it. -/
def placeReady :
    List String -> List Module -> List Module × List Module
  | _, [] => ([], [])
  | placed, module :: rest =>
      if isReady placed module then
        let (ready, waiting) := placeReady (module.path :: placed) rest
        (module :: ready, waiting)
      else
        let (ready, waiting) := placeReady placed rest
        (ready, module :: waiting)

/-- The waiting module of a path. -/
def waitingAt?
    (waiting : List Module)
    (path : String) : Option Module :=
  waiting.reverse.find? fun module => module.path == path

/-- Follow the first imports that have not been placed until a path repeats.
The walk visits every path at most once before. -/
def followImports
    (waiting : List Module)
    (placed : List String) :
    Nat -> List String -> Span -> String -> List String × Span
  | 0, walked, span, _ => (walked, span)
  | steps + 1, walked, span, path =>
      if walked.contains path then
        (walked.dropWhile (· != path) ++ [path], span)
      else
        let walked := walked ++ [path]
        match waitingAt? waiting path with
        | none => (walked, span)
        | some module =>
            match module.dependencies.find? fun dep => !placed.contains dep.1 with
            | none => (walked, span)
            | some (next, nextSpan) =>
                match waitingAt? waiting next with
                | none => (walked, nextSpan)
                | some _ => followImports waiting placed steps walked nextSpan next

/-- The circle of imports that keeps modules waiting. -/
def circle
    (waiting : List Module)
    (placed : List String) : AssemblyError :=
  match waiting with
  | [] => .circularDependency [] {}
  | module :: _ =>
      let (cycle, span) :=
        followImports waiting placed (waiting.length + 1) [] {} module.path
      .circularDependency cycle span

/-- Place the waiting modules after those already placed, in at most a given
number of rounds. -/
def placeAll :
    Nat -> List Module -> List Module -> Except AssemblyError (List Module)
  | 0, placed, _ => .ok placed
  | rounds + 1, placed, pending =>
      if pending.isEmpty then
        .ok placed
      else
        let (ready, waiting) := placeReady (placed.map (·.path)) pending
        if ready.isEmpty then
          .error (circle waiting (placed.map (·.path)))
        else
          placeAll rounds (placed ++ ready) waiting

/-- The modules of a program, every one after its imports.  A round places at
least one module. -/
def place
    (library : Library)
    (appended : List Module) : Except AssemblyError (List Module) := do
  let entries := sortByPath appended
  let loaded ← discover library entries
  let pending := entries ++ loaded
  placeAll pending.length [] pending

end Placement
end ModularGlsl
