import ModularGlsl.Ty.Compatibility

/-!
# Members and elements

Vectors are read by swizzles of one to four components, structs by field,
arrays and vectors by an index known at compile time.  A swizzle that is stored
to names no component twice.
-/

namespace ModularGlsl

/-- The position of a vector component. -/
def componentIndex? : Char -> Option Nat
  | 'x' => some 0
  | 'y' => some 1
  | 'z' => some 2
  | 'w' => some 3
  | _ => none

/-- The component belongs to vectors with this number of components. -/
def isComponent
    (arity : Nat)
    (letter : Char) : Bool :=
  match componentIndex? letter with
  | some index => index < arity
  | none => false

/-- The number of components that a valid swizzle selects. -/
def swizzleLength?
    (key : String)
    (arity : Nat) : Option Nat :=
  let letters := key.toList
  if letters.isEmpty || 4 < letters.length then
    none
  else if letters.all (isComponent arity) then
    some letters.length
  else
    none

namespace Layout

/-- The field with a given name. -/
def field?
    {τ : Type}
    (layout : Layout τ)
    (name : String) : Option (Field τ) :=
  layout.fields.find? fun field => field.name == name

/-- The first field whose name was used before, with the span of the latest
earlier use. -/
def repeated? {τ : Type} : List (Field τ) -> List (Field τ) -> Option (Field τ × Span)
  | _, [] => none
  | earlier, field :: rest =>
      match earlier.find? fun other => other.name == field.name with
      | some other => some (field, other.span)
      | none => repeated? (field :: earlier) rest

/-- A layout whose fields have different names. -/
def ofFields
    {τ : Type}
    (owner : VarId)
    (name : String)
    (fields : List (Field τ)) : Except TypingError (Layout τ) :=
  match repeated? [] fields with
  | some (field, previous) =>
      .error (.duplicateField field.name field.span previous)
  | none => .ok ⟨owner, name, fields⟩

end Layout

namespace Ty

/-- The type of a member: a swizzle of a vector or a field of a struct. -/
def member
    (object : Ty)
    (key : String)
    (span : Span) : Except TypingError Ty :=
  match object.bare with
  | vector kind arity =>
      match swizzleLength? key arity with
      | some length => .ok (if length = 1 then scalar kind else vector kind length)
      | none => .error (.invalidSwizzle key object.name span)
  | struct layout =>
      match layout.field? key with
      | some field => .ok field.ty
      | none => .error (.unknownMember layout.name key span)
  | other => .error (.unknownMember other.name key span)

/-- A member of a vector that names a component twice. -/
def repeatsComponent
    (object : Ty)
    (key : String) : Bool :=
  match object.bare with
  | vector _ _ => !decide key.toList.Nodup
  | _ => false

/-- Check a store to a member. -/
def setMember
    (object : Ty)
    (key : String)
    (value : Ty)
    (span : Span) : Except TypingError Unit := do
  let target ← object.member key span
  if object.repeatsComponent key then
    .error (.invalidSwizzle key object.name span)
  else
    target.check value span

/-- The type of the elements and their number. -/
def elements? (container : Ty) : Option (Ty × Nat) :=
  match container.bare with
  | array element length => some (element, length)
  | vector kind arity => some (scalar kind, arity)
  | _ => none

/-- The type of the element at a known index. -/
def index
    (container : Ty)
    (position : Int)
    (span : Span) : Except TypingError Ty :=
  match container.elements? with
  | some (element, length) =>
      if 0 ≤ position ∧ position < length then
        .ok element
      else
        .error (.indexOutOfRange position length span)
  | none => .error (.notIndexable container.name span)

/-- Check a store to the element at a known index. -/
def setIndex
    (container : Ty)
    (position : Int)
    (value : Ty)
    (span : Span) : Except TypingError Unit := do
  let element ← container.index position span
  element.check value span

/-- An array of at least two elements. -/
def arrayOf
    (element : Ty)
    (length : Nat)
    (span : Span) : Except TypingError Ty :=
  if length < 2 then
    .error (.invalidArrayLength length span)
  else
    .ok (array element.bare length)

end Ty
end ModularGlsl
