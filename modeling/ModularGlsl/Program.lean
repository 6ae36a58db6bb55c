import ModularGlsl.Bundle

/-!
# Linked programs

A program consists of a vertex stage and a fragment stage, each built from its
own entry module.  The stages have to declare the same varyings with the same
types.
-/

namespace ModularGlsl

/-- How a program is built and written. -/
structure LinkOptions where
  /-- How final names are chosen. -/
  naming : Naming := .readable
  /-- The characters for line breaks and indentation. -/
  spacing : Spacing := ⟨"\n", "\t"⟩
  /-- Values for exported constants of the vertex stage. -/
  vertexConsts : List (String × ConstValue) := []
  /-- Values for exported constants of the fragment stage. -/
  fragmentConsts : List (String × ConstValue) := []

/-- Short names and no spacing. -/
def LinkOptions.minified : LinkOptions :=
  { naming := .minify, spacing := ⟨"", ""⟩ }

/-- The texts of both stages. -/
structure Program where
  /-- The text of the vertex stage. -/
  vertex : String
  /-- The text of the fragment stage. -/
  fragment : String
  deriving DecidableEq, Repr, Inhabited

namespace Program

/-- Give exported constants their values, one after the other. -/
def injectAll : List (String × ConstValue) -> Bundle.Step Unit
  | [] => return ()
  | (name, value) :: rest => do
      Bundle.injectConst name value
      injectAll rest

/-- Build a stage from its entry module. -/
def buildStage
    (library : Library)
    (stage : Stage)
    (path : String)
    (naming : Naming)
    (consts : List (String × ConstValue)) : Except Diagnostic Bundle :=
  match library.get? path with
  | none => .error (.assembly (.notFound path stage.name {}))
  | some module =>
      let build : Bundle.Step Unit := do
        Bundle.finalize library
        injectAll consts
      match build ((Bundle.empty stage naming).append module) with
      | .ok () bundle => .ok bundle
      | .error error _ => .error error

/-- Demand that varyings are declared with the same types by the fragment
stage. -/
def checkVaryings (fragment : Table String) : List (String × String) -> Except AssemblyError Unit
  | [] => .ok ()
  | (name, ty) :: rest =>
      match fragment.get? name with
      | none => .error (.varyingMissing name Stage.fragment.name)
      | some other =>
          if other = ty then
            checkVaryings fragment rest
          else
            .error (.varyingType name Stage.fragment.name)

/-- Demand that two stages declare the same varyings. -/
def checkInterface (vertex fragment : Table String) : Except AssemblyError Unit :=
  if vertex.size ≠ fragment.size then
    .error (.varyingsDiffer vertex.size fragment.size)
  else
    checkVaryings fragment vertex.entries

/-- Build and write both stages of a program. -/
def link
    (library : Library)
    (vertexPath fragmentPath : String)
    (options : LinkOptions) : Except Diagnostic Program := do
  let vertex ←
    buildStage library .vertex vertexPath options.naming options.vertexConsts
  let fragment ←
    buildStage library .fragment fragmentPath options.naming options.fragmentConsts
  (checkInterface vertex.varyings fragment.varyings).mapError Diagnostic.assembly
  let vertexText ← vertex.write options.spacing
  let fragmentText ← fragment.write options.spacing
  return ⟨vertexText, fragmentText⟩

end Program
end ModularGlsl
