import ModularGlsl.Accessor.Bisection
import ModularGlsl.Usage

/-!
# Accessors

The language indexes with constants only.  An element at a dynamic index is
read or written through an accessor: a function for one element type and one
length, whose body bisects the range of indices.  Accessors are made on
request, one for each kind, element type and length; an accessor over a struct
waits for the declaration of that struct.
-/

namespace ModularGlsl

namespace Accessor

/-- An accessor that is asked for, without a variable. -/
structure Request where
  /-- The name of the accessor. -/
  name : String
  /-- The type of the elements. -/
  element : Ident
  /-- The declarations that come before the accessor. -/
  deps : List VarId
  /-- What it indexes. -/
  container : Container

/-- The accessor for a container of a given type. -/
def request
    (kind : AccessorKind)
    (container : Ty)
    (span : Span) : Except TypingError Request :=
  match container.bare with
  | .array element length =>
      let (name, struct?) :=
        match element.bare with
        | .struct layout => (layout.name, some layout.owner)
        | other => (other.name, none)
      .ok
        { name := s!"{kind.spelling}_{name}_{length}"
          element := { name := name, span := span, var := struct? }
          deps := struct?.toList
          container := .array length }
  | .vector component arity =>
      .ok
        { name := s!"{kind.spelling}_{container.name}_{component.name}"
          element := { name := component.name, span := span }
          deps := []
          container := .vector container.name arity }
  | other => .error (.notIndexable other.name span)

/-- The accessor for a request, declared by a variable. -/
def ofRequest
    (kind : AccessorKind)
    (request : Request)
    (var : VarId)
    (span : Span) : Accessor :=
  { kind := kind
    name := { name := request.name, span := span, var := some var }
    element := request.element
    container := request.container
    span := span }

/-- The variable of the accessor for a container, which is made if it does not
wait for its place already. -/
def obtainFor
    (arena : Arena)
    (usage : Usage)
    (kind : AccessorKind)
    (container : Ty)
    (span : Span) : Except TypingError (VarId × Arena × Usage) := do
  let request ← request kind container span
  match usage.find? request.name request.deps with
  | some existing => return (existing, arena, usage)
  | none =>
      let var := arena.size
      let arena := arena.alloc
        { name := request.name, constant := true, decl := .accessor, span := span }
      let stmt := Stmt.accessor (ofRequest kind request var span)
      return (var, arena, usage.inject ⟨request.name, var, request.deps, stmt⟩)

/-- The current name of an identifier, or its own name if it is not bound. -/
def currentName
    (arena : Arena)
    (ident : Ident) : String :=
  match ident.var with
  | some id => arena.name id
  | none => ident.name

/-- The first parameter of an accessor. -/
def containerText (element : String) : Container -> String
  | .array length => s!"{element} x[{length}]"
  | .vector ty _ => s!"{ty} x"

/-- The result, the name and the parameters of an accessor. -/
def headText
    (arena : Arena)
    (accessor : Accessor) : String :=
  let name := currentName arena accessor.name
  let element := currentName arena accessor.element
  let container := containerText element accessor.container
  match accessor.kind with
  | .get => s!"{element} {name}(in {container},in int i)"
  | .set => s!"void {name}(inout {container},in int i,in {element} a)"

/-- The definition of an accessor under the current names. -/
def pieces
    (arena : Arena)
    (accessor : Accessor) : List Piece :=
  [.text (accessor.headText arena ++ "\x7b"), .newline] ++
    (Bisection.ofLength accessor.container.length).pieces accessor.kind 1 ++
    [.text "\x7d"]

end Accessor
end ModularGlsl
