import ModularGlsl.Span

/-!
# Types

A type describes what an expression yields.  Beside scalars, vectors, arrays,
structs and samplers there are integers whose value is known, functions with
their signatures, and descriptors: the type of a name that stands for a type.
A located type remembers the expression that it was read at; no rule of typing
depends on it, only the span of a mismatch does.

Functions carry the number under which they were made.  Two functions are the
same when they share that number or the variable that declares them.
-/

namespace ModularGlsl

/-- The kind of a scalar and of the components of a vector. -/
inductive ScalarKind
  | float
  | int
  | bool
  deriving DecidableEq, Repr, Inhabited

namespace ScalarKind

/-- The name of the scalar type. -/
def name : ScalarKind -> String
  | float => "float"
  | int => "int"
  | bool => "bool"

/-- What stands before the name of a vector type of this kind. -/
def vectorMark : ScalarKind -> String
  | float => ""
  | int => "i"
  | bool => "b"

/-- The kind with a given name. -/
def ofName? (text : String) : Option ScalarKind :=
  [float, int, bool].find? fun kind => kind.name == text

end ScalarKind

/-- The kind of a texture sampler. -/
inductive SamplerKind
  | flat
  | cube
  deriving DecidableEq, Repr, Inhabited

namespace SamplerKind

/-- The name of the sampler type. -/
def name : SamplerKind -> String
  | flat => "sampler2D"
  | cube => "samplerCube"

/-- The kind with a given name. -/
def ofName? (text : String) : Option SamplerKind :=
  [flat, cube].find? fun kind => kind.name == text

end SamplerKind

/-- A field of a struct. -/
structure Field (τ : Type) where
  /-- The name of the field. -/
  name : String
  /-- What the field holds. -/
  ty : τ
  /-- Where the field is declared. -/
  span : Span

/-- The fields of a struct, which is told apart by its variable. -/
structure Layout (τ : Type) where
  /-- The variable that declares the struct. -/
  owner : VarId
  /-- The name of the struct. -/
  name : String
  /-- The fields in the order of declaration. -/
  fields : List (Field τ)

/-- One signature of a function; without a result it is void. -/
structure Signature (τ : Type) where
  /-- The types of the parameters. -/
  params : List τ
  /-- The type of the result. -/
  result : Option τ

/-- A built-in or declared function with its signatures. -/
structure FunctionType (τ : Type) where
  /-- The number under which the function was made. -/
  identity : Nat
  /-- The name of the function. -/
  name : String
  /-- The variable that declares the function, unless it is built in. -/
  origin : Option VarId
  /-- The signatures, tried in this order. -/
  overloads : List (Signature τ)

/-- The type of an expression or of a declared name. -/
inductive Ty
  /-- A scalar. -/
  | scalar (kind : ScalarKind)
  /-- An integer whose value is known at compile time. -/
  | literal (value : Int)
  /-- A vector with a number of components. -/
  | vector (kind : ScalarKind) (arity : Nat)
  /-- An array of fixed length. -/
  | array (element : Ty) (length : Nat)
  /-- An instance of a struct. -/
  | struct (layout : Layout Ty)
  /-- A function. -/
  | function (callable : FunctionType Ty)
  /-- A texture sampler. -/
  | sampler (kind : SamplerKind)
  /-- A name for a type, whose instances look like the given one. -/
  | descriptor (proto : Ty)
  /-- A type read at an expression. -/
  | located (ty : Ty) (span : Span)

instance : Inhabited Ty := ⟨.scalar .float⟩

namespace Ty

/-- The scalar type of floats. -/
abbrev float : Ty := .scalar .float

/-- The scalar type of integers. -/
abbrev int : Ty := .scalar .int

/-- The scalar type of truth values. -/
abbrev bool : Ty := .scalar .bool

/-- Attribute a type to a span in place of any earlier attribution. -/
def locate (span : Span) : Ty -> Ty
  | located ty _ => located ty span
  | ty => located ty span

/-- The type without the attributions around it. -/
def bare : Ty -> Ty
  | located ty _ => ty.bare
  | ty => ty

/-- Where a type was read last. -/
def span? : Ty -> Option Span
  | located _ span => some span
  | _ => none

/-- The text of a type. -/
def name : Ty -> String
  | scalar kind => kind.name
  | literal _ => ScalarKind.int.name
  | vector kind arity => s!"{kind.vectorMark}vec{arity}"
  | array element length => s!"{element.name}[{length}]"
  | struct layout => layout.name
  | function callable => s!"function {callable.name}"
  | sampler kind => kind.name
  | descriptor ty => s!"type {ty.name}"
  | located ty _ => ty.name

/-- The kind and the number of the components of scalars and vectors. -/
def shape? (ty : Ty) : Option (ScalarKind × Nat) :=
  match ty.bare with
  | scalar kind => some (kind, 1)
  | literal _ => some (.int, 1)
  | vector kind arity => some (kind, arity)
  | _ => none

/-- The kind of a type with exactly one component. -/
def scalarKind? (ty : Ty) : Option ScalarKind :=
  match ty.shape? with
  | some (kind, 1) => some kind
  | _ => none

/-- A single integer. -/
def isInt (ty : Ty) : Bool :=
  ty.scalarKind? == some .int

/-- A single float. -/
def isFloat (ty : Ty) : Bool :=
  ty.scalarKind? == some .float

/-- A single truth value. -/
def isBool (ty : Ty) : Bool :=
  ty.scalarKind? == some .bool

/-- Scalars and vectors, which alone may pass between stages. -/
def isSimple (ty : Ty) : Bool :=
  ty.shape?.isSome

/-- Texture samplers. -/
def isSampler (ty : Ty) : Bool :=
  match ty.bare with
  | sampler _ => true
  | _ => false

/-- The value of an integer that is known at compile time. -/
def literal? (ty : Ty) : Option Int :=
  match ty.bare with
  | literal value => some value
  | _ => none

/-- The number of elements of arrays and vectors. -/
def length? (ty : Ty) : Option Nat :=
  match ty.bare with
  | array _ length => some length
  | vector _ arity => some arity
  | _ => none

/-- Only a located type is changed by taking its attributions away. -/
@[simp] theorem bare_located (ty : Ty) (span : Span) :
    (located ty span).bare = ty.bare :=
  rfl

/-- Attribution does not show in the bare type. -/
@[simp] theorem bare_locate (ty : Ty) (span : Span) :
    (ty.locate span).bare = ty.bare := by
  cases ty <;> rfl

/-- A bare type has no attribution left. -/
@[simp] theorem bare_bare : (ty : Ty) -> ty.bare.bare = ty.bare
  | .scalar _ | .literal _ | .vector _ _ | .array _ _ | .struct _
  | .function _ | .sampler _ | .descriptor _ => rfl
  | .located ty _ => bare_bare ty

/-- Attribution does not show in the text of a type. -/
@[simp] theorem name_bare : (ty : Ty) -> ty.bare.name = ty.name
  | .scalar _ | .literal _ | .vector _ _ | .array _ _ | .struct _
  | .function _ | .sampler _ | .descriptor _ => rfl
  | .located ty _ => name_bare ty

end Ty

end ModularGlsl
