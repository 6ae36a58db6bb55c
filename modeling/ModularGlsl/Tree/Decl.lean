import ModularGlsl.Tree.Expr

/-!
# Declarations

The declarations of a module: variables of the interface between the stages
and the outside, constants, variables, structs, function headers and accessors
for dynamic indices.
-/

namespace ModularGlsl

/-- The precision of numbers. -/
inductive Precision
  | low
  | medium
  | high
  deriving DecidableEq, Repr, Inhabited

namespace Precision

/-- The text of a precision. -/
def spelling : Precision -> String
  | low => "lowp"
  | medium => "mediump"
  | high => "highp"

/-- The precision with a given text. -/
def ofSpelling? (text : String) : Option Precision :=
  [low, medium, high].find? fun precision => precision.spelling == text

end Precision

/-- How a variable of the interface gets its value. -/
inductive InterfaceKind
  | vertexAttribute
  | uniform
  | varying
  deriving DecidableEq, Repr, Inhabited

/-- The text of a kind of interface variable. -/
def InterfaceKind.spelling : InterfaceKind -> String
  | vertexAttribute => "attribute"
  | uniform => "uniform"
  | varying => "varying"

/-- The declaration of an interface variable. -/
structure InterfaceDecl where
  /-- How the variable gets its value. -/
  kind : InterfaceKind
  /-- The precision, if one is written. -/
  precision : Option Precision
  /-- The type, or that of the elements. -/
  ty : Ident
  /-- The declared name. -/
  name : Ident
  /-- The length of an array. -/
  length : Option Nat
  /-- Where the declaration stands. -/
  span : Span
  deriving Inhabited

/-- The declaration of a constant. -/
structure ConstDecl where
  /-- The type, or that of the elements. -/
  ty : Ident
  /-- The declared name. -/
  name : Ident
  /-- The length of an array. -/
  length : Option Nat
  /-- The initial value. -/
  init : Option Expr
  /-- Whether the module exports the constant. -/
  exported : Bool
  /-- The text that is written in place of the initial value. -/
  injected : Option String := none
  /-- Where the declaration stands. -/
  span : Span
  deriving Inhabited

/-- The declaration of a variable. -/
structure VarDecl where
  /-- The type, or that of the elements. -/
  ty : Ident
  /-- The declared name. -/
  name : Ident
  /-- The length of an array. -/
  length : Option Nat
  /-- The initial value. -/
  init : Option Expr
  /-- Where the declaration stands. -/
  span : Span
  deriving Inhabited

/-- A member of a struct. -/
structure StructMember where
  /-- The type, or that of the elements. -/
  ty : Ident
  /-- The name of the field. -/
  name : String
  /-- The length of an array. -/
  length : Option Nat
  /-- Where the member stands. -/
  span : Span
  deriving Inhabited

/-- The declaration of a struct. -/
structure StructDecl where
  /-- The declared name. -/
  name : Ident
  /-- The members in order. -/
  members : List StructMember
  /-- Where the declaration stands. -/
  span : Span
  deriving Inhabited

/-- The direction in which a parameter is passed. -/
inductive Direction
  /-- No direction is written. -/
  | plain
  | inward
  | outward
  | both
  deriving DecidableEq, Repr, Inhabited

/-- What is written before the type of a parameter. -/
def Direction.spelling : Direction -> String
  | plain => ""
  | inward => "in "
  | outward => "out "
  | both => "inout "

/-- A parameter of a function. -/
structure Param where
  /-- The direction in which it is passed. -/
  direction : Direction
  /-- The type, or that of the elements. -/
  ty : Ident
  /-- The declared name. -/
  name : Ident
  /-- The length of an array. -/
  length : Option Nat
  /-- Where the parameter stands. -/
  span : Span
  deriving Inhabited

/-- A function without its body. -/
structure FunctionHeader where
  /-- The type of the result; without one the function is void. -/
  result : Option Ident
  /-- The declared name. -/
  name : Ident
  /-- The parameters in order. -/
  params : List Param
  /-- Where the declaration stands. -/
  span : Span
  deriving Inhabited

/-- Whether an accessor reads or writes an element. -/
inductive AccessorKind
  | get
  | set
  deriving DecidableEq, Repr, Inhabited

/-- The name under which a dynamic index is written in the source. -/
def AccessorKind.spelling : AccessorKind -> String
  | get => "getIndex"
  | set => "setIndex"

/-- What an accessor indexes. -/
inductive Container
  /-- An array with a number of elements. -/
  | array (length : Nat)
  /-- A vector type with a number of components. -/
  | vector (ty : String) (length : Nat)
  deriving DecidableEq, Repr, Inhabited

/-- The number of elements. -/
def Container.length : Container -> Nat
  | array length => length
  | vector _ length => length

/-- A function that reads or writes an element at a dynamic index. -/
structure Accessor where
  /-- Whether it reads or writes. -/
  kind : AccessorKind
  /-- The name of the function. -/
  name : Ident
  /-- The type of the elements, bound to its variable if it is a struct. -/
  element : Ident
  /-- What it indexes. -/
  container : Container
  /-- The dynamic index that asked for it. -/
  span : Span
  deriving Inhabited

end ModularGlsl
