import ModularGlsl.Diagnostic
import ModularGlsl.Table
import ModularGlsl.Ty.Basic

/-!
# Variables and their arena

One build owns one arena of variables.  Scopes, trees, name trees and usage
refer to variables by number; after its allocation only the name and the type
of a variable change.
-/

namespace ModularGlsl

/-- What declares a variable. -/
inductive DeclKind
  /-- The table of built-ins. -/
  | builtin
  | function
  | param
  /-- A variable inside a function. -/
  | localVariable
  /-- A variable of a module that is no constant. -/
  | globalVariable
  | const (exported : Bool)
  | uniform
  | vertexAttribute
  | varying
  | struct
  /-- An import of all that a module exports. -/
  | package
  /-- An accessor for dynamic indices. -/
  | accessor
  deriving DecidableEq, Repr, Inhabited

/-- Declarations that are written under their source name. -/
def DeclKind.keepsName : DeclKind -> Bool
  | builtin | const true | uniform | vertexAttribute | varying | accessor => true
  | _ => false

/-- A named storage location, function, type or package. -/
structure Variable where
  /-- The name, first of the source and finally of the output. -/
  name : String := ""
  /-- Whether the variable may not be stored to. -/
  constant : Bool := false
  /-- The type, once it is known. -/
  ty : Option Ty := none
  /-- What declares the variable. -/
  decl : DeclKind := .localVariable
  /-- The members of a package by exported name. -/
  members : Option (Table VarId) := none
  /-- Where the variable is declared. -/
  span : Span := {}
  deriving Inhabited

/-- A variable that stands for the exports of a module. -/
def Variable.isPackage (record : Variable) : Bool :=
  record.members.isSome

/-- The variables of one build. -/
structure Arena where
  /-- The variables by number. -/
  «variables» : Array Variable := #[]
  deriving Inhabited

namespace Arena

/-- The number of variables. -/
def size (arena : Arena) : Nat :=
  arena.variables.size

/-- The record of a variable. -/
def get
    (arena : Arena)
    (id : VarId) : Variable :=
  arena.variables.getD id default

/-- Add a variable, which takes the next number. -/
def alloc
    (arena : Arena)
    (record : Variable) : Arena :=
  ⟨arena.variables.push record⟩

/-- Change the record of a variable. -/
def modify
    (arena : Arena)
    (id : VarId)
    (change : Variable -> Variable) : Arena :=
  ⟨arena.variables.modify id change⟩

/-- The current name of a variable. -/
def name
    (arena : Arena)
    (id : VarId) : String :=
  (arena.get id).name

/-- Give a variable another name. -/
def rename
    (arena : Arena)
    (id : VarId)
    (name : String) : Arena :=
  arena.modify id fun record => { record with name := name }

/-- Give a variable its type. -/
def setTy
    (arena : Arena)
    (id : VarId)
    (ty : Ty) : Arena :=
  arena.modify id fun record => { record with ty := some ty }

/-- The type of a variable, which has to be known. -/
def ty
    (arena : Arena)
    (id : VarId)
    (span : Span) : Except Diagnostic Ty :=
  match (arena.get id).ty with
  | some ty => .ok ty
  | none => .error (InternalError.valueNotSet (arena.name id) span)

/-- An allocation adds one variable. -/
@[simp] theorem size_alloc
    (arena : Arena)
    (record : Variable) :
    (arena.alloc record).size = arena.size + 1 := by
  simp [alloc, size]

/-- A change of a record adds no variable. -/
@[simp] theorem size_modify
    (arena : Arena)
    (id : VarId)
    (change : Variable -> Variable) :
    (arena.modify id change).size = arena.size := by
  simp [modify, size]

/-- The new variable has the next number. -/
@[simp] theorem get_alloc_size
    (arena : Arena)
    (record : Variable) :
    (arena.alloc record).get arena.size = record := by
  simp [alloc, size, get]

/-- Variables of the arena keep their records when another one is added. -/
theorem get_alloc_of_lt
    {arena : Arena}
    {id : VarId}
    (record : Variable)
    (known : id < arena.size) :
    (arena.alloc record).get id = arena.get id := by
  have below : id < arena.variables.size := known
  simp [alloc, get, Array.getElem?_push, below, Nat.ne_of_lt below]

end Arena
end ModularGlsl
