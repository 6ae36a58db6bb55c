import ModularGlsl.Arena

/-!
# Scopes

While a module is walked its names are bound in a stack of frames: the built-in
names, the frame of the module, and a frame for every function and block that
is open.  The two outer frames are no part of the stack that grows and shrinks,
so they cannot be left.  A frame lists its latest binding first.
-/

namespace ModularGlsl

/-- The bindings of one function, block or module. -/
structure Frame where
  /-- The function whose body the frame belongs to. -/
  function : Option VarId := none
  /-- The bindings, latest first. -/
  bindings : List (String × VarId) := []
  deriving Inhabited

namespace Frame

/-- The variable that a name is bound to in a frame. -/
def get?
    (frame : Frame)
    (name : String) : Option VarId :=
  frame.bindings.lookup name

/-- Bind a name over any earlier binding of it. -/
def bind
    (frame : Frame)
    (name : String)
    (var : VarId) : Frame :=
  { frame with bindings := (name, var) :: frame.bindings }

/-- A bound name yields its variable. -/
@[simp] theorem get?_bind_self
    (frame : Frame)
    (name : String)
    (var : VarId) :
    (frame.bind name var).get? name = some var := by
  simp [bind, get?]

/-- Other names keep their bindings. -/
theorem get?_bind_of_ne
    {name other : String}
    (frame : Frame)
    (var : VarId)
    (different : other ≠ name) :
    (frame.bind name var).get? other = frame.get? other := by
  have unequal : (other == name) = false := by simpa using different
  simp [bind, get?, List.lookup_cons, unequal]

end Frame

/-- The frames that are open at a place of a module. -/
structure Scope where
  /-- The open functions and blocks, innermost first. -/
  inner : List Frame := []
  /-- The frame of the module. -/
  base : Frame := {}
  /-- The frame of the built-in names. -/
  globals : Frame := {}
  deriving Inhabited

namespace Scope

/-- The scope at the start of a module. -/
def ofGlobals (globals : List (String × VarId)) : Scope :=
  { globals := { bindings := globals.reverse } }

/-- All frames, innermost first. -/
def frames (scope : Scope) : List Frame :=
  scope.inner ++ [scope.base, scope.globals]

/-- The innermost frame. -/
def innermost (scope : Scope) : Frame :=
  scope.inner.headD scope.base

/-- Open a block. -/
def pushBlock (scope : Scope) : Scope :=
  { scope with inner := {} :: scope.inner }

/-- Open the body of a function. -/
def pushFunction
    (scope : Scope)
    (function : VarId) : Scope :=
  { scope with inner := { function := some function } :: scope.inner }

/-- Leave the innermost function or block. -/
def pop (scope : Scope) : Scope :=
  { scope with inner := scope.inner.tail }

/-- The number of open functions and blocks. -/
def depth (scope : Scope) : Nat :=
  scope.inner.length

/-- The variable that a name denotes. -/
def lookup
    (scope : Scope)
    (name : String) : Option VarId :=
  scope.frames.findSome? fun frame => frame.get? name

/-- The variable that the innermost frame binds a name to. -/
def lookupInnermost
    (scope : Scope)
    (name : String) : Option VarId :=
  scope.innermost.get? name

/-- The function whose body is open. -/
def enclosingFunction (scope : Scope) : Option VarId :=
  scope.frames.findSome? fun frame => frame.function

/-- Bind a name in the innermost frame. -/
def bind
    (scope : Scope)
    (name : String)
    (var : VarId) : Scope :=
  match scope.inner with
  | [] => { scope with base := scope.base.bind name var }
  | frame :: rest => { scope with inner := frame.bind name var :: rest }

/-- Bind a name in the innermost frame, unless it is bound there to a constant
already. -/
def declare
    (scope : Scope)
    (arena : Arena)
    (name : String)
    (var : VarId)
    (span : Span) : Except BindingError Scope :=
  match scope.lookupInnermost name with
  | some existing =>
      let previous := arena.get existing
      if previous.constant then
        .error (.constRedeclaration name span previous.span)
      else
        .ok (scope.bind name var)
  | none => .ok (scope.bind name var)

/-- Leaving a block just opened changes nothing. -/
@[simp] theorem pop_pushBlock (scope : Scope) :
    scope.pushBlock.pop = scope :=
  rfl

/-- Leaving a function just opened changes nothing. -/
@[simp] theorem pop_pushFunction
    (scope : Scope)
    (function : VarId) :
    (scope.pushFunction function).pop = scope :=
  rfl

/-- A name bound in the innermost frame is found there. -/
@[simp] theorem lookupInnermost_bind_self
    (scope : Scope)
    (name : String)
    (var : VarId) :
    (scope.bind name var).lookupInnermost name = some var := by
  obtain ⟨inner, base, globals⟩ := scope
  cases inner <;> simp [bind, lookupInnermost, innermost]

/-- A name bound in the innermost frame denotes its variable. -/
@[simp] theorem lookup_bind_self
    (scope : Scope)
    (name : String)
    (var : VarId) :
    (scope.bind name var).lookup name = some var := by
  obtain ⟨inner, base, globals⟩ := scope
  cases inner <;> simp [bind, lookup, frames]

/-- A binding opens nothing. -/
@[simp] theorem depth_bind
    (scope : Scope)
    (name : String)
    (var : VarId) :
    (scope.bind name var).depth = scope.depth := by
  obtain ⟨inner, base, globals⟩ := scope
  cases inner <;> simp [bind, depth]

/-- A declaration that is accepted binds its name. -/
theorem eq_bind_of_declare
    {scope after : Scope}
    {arena : Arena}
    {name : String}
    {var : VarId}
    {span : Span}
    (accepted : scope.declare arena name var span = .ok after) :
    after = scope.bind name var := by
  unfold declare at accepted
  split at accepted
  · dsimp only at accepted
    split at accepted <;> cases accepted
    rfl
  · cases accepted
    rfl

end Scope
end ModularGlsl
