import ModularGlsl.Arena

/-!
# Built-ins

The types, functions and variables that a stage provides.  They take the first
numbers of the arena, in the order of their table, and a function is made under
the number of its variable.  Only the variables that a stage writes to are not
constant.
-/

namespace ModularGlsl

/-- The stage that a bundle is built for. -/
inductive Stage
  | vertex
  | fragment
  deriving DecidableEq, Repr, Inhabited

/-- The text of a stage. -/
def Stage.name : Stage -> String
  | vertex => "vertex"
  | fragment => "fragment"

/-- A name that a stage provides. -/
inductive Builtin
  /-- A type. -/
  | type (ty : Ty)
  /-- A function with its signatures. -/
  | function (name : String) (overloads : List (Signature Ty))
  /-- A variable of the stage. -/
  | stageVariable (name : String) (ty : Ty) (writable : Bool)

namespace Builtin

/-- The vector type of floats. -/
def vec (arity : Nat) : Ty := .vector .float arity

/-- The vector type of integers. -/
def ivec (arity : Nat) : Ty := .vector .int arity

/-- The vector type of truth values. -/
def bvec (arity : Nat) : Ty := .vector .bool arity

/-- The vector types of floats. -/
def floatVectors : List Ty := [vec 2, vec 3, vec 4]

/-- The scalar and the vector types of floats. -/
def floatTypes : List Ty := .float :: floatVectors

/-- For each type of a list a signature that yields it. -/
def family
    (types : List Ty)
    (params : Ty -> List Ty) : List (Signature Ty) :=
  types.map fun ty => ⟨params ty, some ty⟩

/-- One operand of any float type. -/
def oneOperand : List (Signature Ty) :=
  family floatTypes fun ty => [ty]

/-- Two operands of one float type. -/
def twoOperands : List (Signature Ty) :=
  family floatTypes fun ty => [ty, ty]

/-- Three operands of one float type. -/
def threeOperands : List (Signature Ty) :=
  family floatTypes fun ty => [ty, ty, ty]

/-- Two operands of one float type, or a vector and a float. -/
def twoOperandsOrScalar : List (Signature Ty) :=
  twoOperands ++ family floatVectors fun ty => [ty, .float]

/-- A float from any number of operands of one float type. -/
def measure (operands : Nat) : List (Signature Ty) :=
  floatTypes.map fun ty => ⟨List.replicate operands ty, some .float⟩

/-- Comparison of the components of two vectors of one kind. -/
def comparison (kinds : List ScalarKind) : List (Signature Ty) :=
  [2, 3, 4].flatMap fun arity =>
    kinds.map fun kind =>
      ⟨[.vector kind arity, .vector kind arity], some (bvec arity)⟩

/-- A result from one vector of truth values. -/
def fromTruths (result : Nat -> Ty) : List (Signature Ty) :=
  [2, 3, 4].map fun arity => ⟨[bvec arity], some (result arity)⟩

/-- The functions of one float operand. -/
def unaryNames : List String :=
  ["abs", "acos", "asin", "ceil", "cos", "degrees", "exp", "exp2", "floor",
    "fract", "inversesqrt", "log", "log2", "normalize", "radians", "sign",
    "sin", "sqrt", "tan"]

/-- The functions of every stage. -/
def functions : List (String × List (Signature Ty)) :=
  unaryNames.map (fun name => (name, oneOperand)) ++
  [("atan", oneOperand ++ twoOperands),
    ("pow", twoOperands),
    ("mod", twoOperandsOrScalar),
    ("min", twoOperandsOrScalar),
    ("max", twoOperandsOrScalar),
    ("clamp", threeOperands ++ family floatVectors fun ty => [ty, .float, .float]),
    ("mix", threeOperands ++ family floatVectors fun ty => [ty, ty, .float]),
    ("step", twoOperands ++ family floatVectors fun ty => [.float, ty]),
    ("smoothstep",
      threeOperands ++ family floatVectors fun ty => [.float, .float, ty]),
    ("length", measure 1),
    ("distance", measure 2),
    ("dot", measure 2),
    ("cross", [⟨[vec 3, vec 3], some (vec 3)⟩]),
    ("faceforward", threeOperands),
    ("reflect", twoOperands),
    ("refract", family floatTypes fun ty => [ty, ty, .float]),
    ("lessThan", comparison [.float, .int]),
    ("lessThanEqual", comparison [.float, .int]),
    ("greaterThan", comparison [.float, .int]),
    ("greaterThanEqual", comparison [.float, .int]),
    ("equal", comparison [.float, .int, .bool]),
    ("notEqual", comparison [.float, .int, .bool]),
    ("any", fromTruths fun _ => .bool),
    ("all", fromTruths fun _ => .bool),
    ("not", fromTruths bvec)]

/-- The lookups of a texture, with and without a bias. -/
def textureLookup
    (kind : SamplerKind)
    (arity : Nat) : List (Signature Ty) :=
  [⟨[.sampler kind, vec arity], some (vec 4)⟩,
    ⟨[.sampler kind, vec arity, .float], some (vec 4)⟩]

/-- The types of every stage. -/
def types : List Ty :=
  [.float, .int, .bool, vec 2, vec 3, vec 4, ivec 2, ivec 3, ivec 4,
    bvec 2, bvec 3, bvec 4]

/-- All that a stage provides, in the order of the arena. -/
def table : Stage -> List Builtin
  | .vertex =>
      types.map type ++
      functions.map (fun entry => function entry.1 entry.2) ++
      [stageVariable "gl_Position" (vec 4) true,
        stageVariable "gl_PointSize" .float true]
  | .fragment =>
      types.map type ++
      [type (.sampler .flat), type (.sampler .cube)] ++
      functions.map (fun entry => function entry.1 entry.2) ++
      [function "texture2D" (textureLookup .flat 2),
        function "textureCube" (textureLookup .cube 3),
        stageVariable "gl_FragCoord" (vec 4) false,
        stageVariable "gl_FrontFacing" .bool false,
        stageVariable "gl_PointCoord" (vec 2) false,
        stageVariable "gl_FragColor" (vec 4) true]

/-- The name of a built-in. -/
def name : Builtin -> String
  | type ty => ty.name
  | function name _ => name
  | stageVariable name _ _ => name

/-- The type of a built-in with a given number. -/
def ty (id : VarId) : Builtin -> Ty
  | type ty => .descriptor ty
  | function name overloads => .function ⟨id, name, none, overloads⟩
  | stageVariable _ ty _ => ty

/-- Whether a built-in may not be stored to. -/
def constant : Builtin -> Bool
  | stageVariable _ _ writable => !writable
  | _ => true

/-- The variable of a built-in with a given number. -/
def toVariable
    (builtin : Builtin)
    (id : VarId) : Variable :=
  { name := builtin.name
    constant := builtin.constant
    ty := some (builtin.ty id)
    decl := .builtin }

end Builtin

namespace Stage

/-- The variables that a stage provides. -/
def builtins (stage : Stage) : List Variable :=
  (Builtin.table stage).zipIdx.map fun entry => entry.1.toVariable entry.2

/-- The arena that a build starts with. -/
def arena (stage : Stage) : Arena :=
  ⟨stage.builtins.toArray⟩

/-- The names that every module of a stage sees. -/
def globals (stage : Stage) : List (String × VarId) :=
  (Builtin.table stage).zipIdx.map fun entry => (entry.1.name, entry.2)

end Stage
end ModularGlsl
