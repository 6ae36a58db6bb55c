import ModularGlsl.Accessor.Basic
import ModularGlsl.Builtin
import ModularGlsl.Typing.Expr

/-!
# The state of the liveness sweep

The sweep walks live code backwards, marks what it reads and binds dynamic
indices to accessors.  It stops at the first failure: the failure is recorded in
the state, and from then on every step leaves its part of the tree and the state
as they are.
-/

namespace ModularGlsl
namespace Liveness

/-- The state of the sweep. -/
structure State where
  /-- The variables so far. -/
  arena : Arena
  /-- What is read so far. -/
  usage : Usage
  /-- The first failure. -/
  failure : Option Diagnostic := none

/-- A step of the sweep. -/
abbrev Sweep := StateM State

/-- Record a failure, unless there is one already. -/
def fail (diagnostic : Diagnostic) : Sweep Unit :=
  modify fun state =>
    match state.failure with
    | some _ => state
    | none => { state with failure := some diagnostic }

/-- Change what is read, unless there is a failure. -/
def changeUsage (change : Usage -> Usage) : Sweep Unit :=
  modify fun state =>
    match state.failure with
    | some _ => state
    | none => { state with usage := change state.usage }

/-- Record that a variable is read. -/
def markUsed (var : VarId) : Sweep Unit :=
  changeUsage fun usage => usage.markUsed var

/-- Record that the variable of an identifier is read. -/
def markIdent (ident : Ident) : Sweep Unit :=
  match ident.bound with
  | .ok id => markUsed id
  | .error error => fail error

/-- Demand that the variable of an identifier is read. -/
def trackIdent
    (ident : Ident)
    (span : Span) : Sweep Unit :=
  match ident.bound with
  | .ok id => changeUsage fun usage => usage.track id span
  | .error error => fail error

/-- Whether the variable of an identifier is read, which has to be bound. -/
def readsIdent (ident : Ident) : Sweep Bool := do
  match ident.bound with
  | .ok id => return (← get).usage.isUsed id
  | .error error =>
      fail error
      return false

/-- The accessor for the type of a container, and what is read with it. -/
def accessorFor
    (state : State)
    (kind : AccessorKind)
    (container : Expr)
    (span : Span) : Except Diagnostic (VarId × Arena × Usage) := do
  let ty ← container.typeOf state.arena
  typing (Accessor.obtainFor state.arena state.usage kind ty span)

/-- Bind a dynamic index to the accessor for its container. -/
def bindAccessor
    (kind : AccessorKind)
    (container : Expr)
    (accessor : Option VarId)
    (span : Span) : Sweep (Option VarId) :=
  fun state =>
    match state.failure, accessorFor state kind container span with
    | some _, _ => (accessor, state)
    | none, .error error => (accessor, { state with failure := some error })
    | none, .ok (var, arena, usage) =>
        (some var, { state with arena := arena, usage := usage.markUsed var })

end Liveness
end ModularGlsl
