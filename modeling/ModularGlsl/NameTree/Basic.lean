import ModularGlsl.Arena
import ModularGlsl.NameTree.Candidate

/-!
# The tree of final names

Final names are claimed at the levels of a tree that follows the nesting of
functions and blocks.  A level knows the chain of levels from itself to the
root.  A name that has to be kept is claimed where its variable is declared; any
other variable takes the first candidate that is free along its chain, and
claims it for the whole function, so that blocks of one function never share a
name.
-/

namespace ModularGlsl

/-- Words of the language that are never chosen as names. -/
def reservedWords : List String :=
  ["attribute", "const", "uniform", "varying", "break", "continue", "do",
    "for", "while", "if", "else", "in", "out", "inout", "float", "int", "void",
    "bool", "true", "false", "lowp", "mediump", "highp", "precision",
    "invariant", "discard", "return", "mat2", "mat3", "mat4", "vec2", "vec3",
    "vec4", "ivec2", "ivec3", "ivec4", "bvec2", "bvec3", "bvec4", "sampler2D",
    "samplerCube", "struct", "asm", "class", "union", "enum", "typedef",
    "template", "this", "packed", "goto", "switch", "default", "inline",
    "noinline", "volatile", "public", "static", "extern", "external",
    "interface", "flat", "long", "short", "double", "half", "fixed",
    "unsigned", "superp", "input", "output", "hvec2", "hvec3", "hvec4",
    "dvec2", "dvec3", "dvec4", "fvec2", "fvec3", "fvec4", "sampler1D",
    "sampler3D", "sampler1DShadow", "sampler2DShadow", "sampler2DRect",
    "sampler3DRect", "sampler2DRectShadow", "sizeof", "cast", "namespace",
    "using", "main"]

/-- Names that begin like those of the stages. -/
def isStageName (name : String) : Bool :=
  "gl_".toList.isPrefixOf name.toList

/-- The number of a level in a tree of names. -/
abbrev LevelId := Nat

/-- A function, a block or the root, with the names claimed there. -/
structure Level where
  /-- Whether the level is that of a function. -/
  isFunction : Bool := false
  /-- The levels from this one to the root. -/
  chain : List LevelId := []
  /-- The variables with the names they claim, latest first. -/
  claims : List (VarId × String) := []
  deriving Inhabited

/-- The levels of a program and the names claimed so far. -/
structure NameTree where
  /-- How names are chosen. -/
  naming : Naming
  /-- Names that are never chosen. -/
  reserved : List String
  /-- The levels by number. -/
  levels : Array Level
  deriving Inhabited

namespace NameTree

/-- The number of the root. -/
def root : LevelId := 0

/-- A tree with only a root, where the built-in names are never chosen. -/
def ofBuiltins
    (naming : Naming)
    (builtins : List String) : NameTree :=
  { naming := naming
    reserved := reservedWords ++ builtins
    levels := #[{ chain := [root] }] }

/-- A level of the tree. -/
def level
    (tree : NameTree)
    (id : LevelId) : Level :=
  tree.levels.getD id default

/-- Add a level below another one; it takes the next number. -/
def addLevel
    (tree : NameTree)
    (parent : LevelId)
    (isFunction : Bool) : NameTree :=
  let chain := tree.levels.size :: (tree.level parent).chain
  { tree with levels := tree.levels.push { isFunction := isFunction, chain := chain } }

/-- The levels from a given one to the root. -/
def chain
    (tree : NameTree)
    (id : LevelId) : List Level :=
  (tree.level id).chain.map tree.level

/-- The nearest enclosing function, or else the root. -/
def functionLevel
    (tree : NameTree)
    (id : LevelId) : LevelId :=
  ((tree.level id).chain.find? fun other => (tree.level other).isFunction).getD root

/-- All claims from a level to the root. -/
def visibleClaims
    (tree : NameTree)
    (id : LevelId) : List (VarId × String) :=
  (tree.chain id).flatMap (·.claims)

/-- Whether a variable has a name on the way to the root. -/
def hasVar
    (tree : NameTree)
    (id : LevelId)
    (var : VarId) : Bool :=
  (tree.visibleClaims id).any fun claim => claim.1 == var

/-- The variable that claims a name on the way to the root. -/
def owner?
    (tree : NameTree)
    (id : LevelId)
    (name : String) : Option VarId :=
  ((tree.visibleClaims id).find? fun claim => claim.2 == name).map (·.1)

/-- Whether a name is claimed on the way to the root. -/
def hasName
    (tree : NameTree)
    (id : LevelId)
    (name : String) : Bool :=
  (tree.owner? id name).isSome

/-- Claim a name for a variable at a level. -/
def claim
    (tree : NameTree)
    (id : LevelId)
    (var : VarId)
    (name : String) : NameTree :=
  { tree with
    levels := tree.levels.modify id fun level =>
      { level with claims := (var, name) :: level.claims } }

/-- Keep the current name of a variable, unless another variable has it. -/
def preserve
    (tree : NameTree)
    (arena : Arena)
    (id : LevelId)
    (var : VarId) : Except BindingError NameTree :=
  if tree.hasVar id var then
    .ok tree
  else
    let record := arena.get var
    match tree.owner? id record.name with
    | some other =>
        .error (.notUnique record.name record.span (arena.get other).span)
    | none => .ok (tree.claim id var record.name)

/-- Whether a name may be chosen at a level. -/
def isFree
    (tree : NameTree)
    (id : LevelId)
    (name : String) : Bool :=
  !tree.reserved.contains name && !isStageName name &&
    !tree.hasName (tree.functionLevel id) name && !tree.hasName id name

/-- The first candidate that may be chosen at a level.  Candidates differ from
each other, so that among one more than there are refused names one is free,
except where candidates begin like the names of the stages: those of `gl_x`, and
all but the first of `gl`.  Where none is found here none is ever free, and the
search for one does not end. -/
def freeName?
    (tree : NameTree)
    (id : LevelId)
    (base : String) : Option String :=
  let refused := tree.reserved.length + (tree.visibleClaims id).length
  (List.range (refused + 1)).findSome? fun index =>
    let name := candidate tree.naming base index
    if tree.isFree id name then some name else none

/-- Give a variable the first free candidate, claimed for its function.  The
last case stands for a search that does not end, and what is said of final names
assumes that there is none. -/
def assign
    (tree : NameTree)
    (arena : Arena)
    (id : LevelId)
    (var : VarId) : NameTree × Arena :=
  if tree.hasVar id var then
    (tree, arena)
  else
    match tree.freeName? id (arena.name var) with
    | some name => (tree.claim (tree.functionLevel id) var name, arena.rename var name)
    | none => (tree, arena)

/-- A new level has the next number. -/
@[simp] theorem size_addLevel
    (tree : NameTree)
    (parent : LevelId)
    (isFunction : Bool) :
    (tree.addLevel parent isFunction).levels.size = tree.levels.size + 1 := by
  simp [addLevel]

/-- A claim adds no level. -/
@[simp] theorem size_claim
    (tree : NameTree)
    (id : LevelId)
    (var : VarId)
    (name : String) :
    (tree.claim id var name).levels.size = tree.levels.size := by
  simp [claim]

end NameTree
end ModularGlsl
