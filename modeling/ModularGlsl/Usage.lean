import ModularGlsl.Arena
import ModularGlsl.Tree.Stmt

/-!
# Usage

What a program reads, which of its declarations have to be read, and the
accessors that wait for a place in a module.  An accessor over a struct waits
until the declaration of the struct has been placed; a declaration that is
tracked and never read is reported, the one with the smallest number first.
-/

namespace ModularGlsl

/-- A statement that waits for a place in a module. -/
structure Pending where
  /-- The name under which it was asked for. -/
  name : String
  /-- The variable that it declares. -/
  var : VarId
  /-- The declarations that come before it. -/
  deps : List VarId
  /-- The statement. -/
  stmt : Stmt
  deriving Inhabited

namespace Pending

/-- A statement whose given dependency has been placed. -/
def release
    (dep : Option VarId)
    (waiting : Pending) : Pending :=
  match dep with
  | some dep => { waiting with deps := waiting.deps.filter (· != dep) }
  | none => waiting

/-- Whether a statement waits for nothing. -/
def isReady (waiting : Pending) : Bool :=
  waiting.deps.isEmpty

end Pending

/-- What is read, what has to be read, and what waits for its place. -/
structure Usage where
  /-- The variables that are read. -/
  used : List VarId := []
  /-- The declarations that have to be read, with their spans. -/
  tracked : List (VarId × Span) := []
  /-- The statements that wait for a place, in the order of their requests. -/
  pending : List Pending := []
  deriving Inhabited

namespace Usage

/-- Whether a variable is read. -/
def isUsed
    (usage : Usage)
    (var : VarId) : Bool :=
  usage.used.contains var

/-- Record that a variable is read. -/
def markUsed
    (usage : Usage)
    (var : VarId) : Usage :=
  if usage.isUsed var then usage else { usage with used := var :: usage.used }

/-- Demand that a variable is read; the first demand counts. -/
def track
    (usage : Usage)
    (var : VarId)
    (span : Span) : Usage :=
  if usage.tracked.any fun entry => entry.1 == var then
    usage
  else
    { usage with tracked := usage.tracked ++ [(var, span)] }

/-- The variable of a waiting statement with a name and exactly these
declarations before it. -/
def find?
    (usage : Usage)
    (name : String)
    (deps : List VarId) : Option VarId :=
  (usage.pending.find? fun waiting => waiting.name == name && waiting.deps == deps).map
    (·.var)

/-- Let a statement wait for its place. -/
def inject
    (usage : Usage)
    (waiting : Pending) : Usage :=
  { usage with pending := usage.pending ++ [waiting] }

/-- Release a dependency and take all statements that wait for nothing. -/
def pop
    (usage : Usage)
    (dep : Option VarId) : List Stmt × Usage :=
  let released := usage.pending.map (Pending.release dep)
  let (ready, waiting) := released.partition Pending.isReady
  (ready.map (·.stmt), { usage with pending := waiting })

/-- The entry with the smaller number. -/
def earlier (left right : VarId × Span) : VarId × Span :=
  if right.1 < left.1 then right else left

/-- The unread declaration with the smallest number. -/
def firstUnused? (usage : Usage) : Option (VarId × Span) :=
  match usage.tracked.filter fun entry => !usage.isUsed entry.1 with
  | [] => none
  | entry :: rest => some (rest.foldl earlier entry)

/-- Demand that all tracked declarations are read and nothing waits. -/
def check
    (usage : Usage)
    (arena : Arena) : Except Diagnostic Unit :=
  match usage.firstUnused?, usage.pending with
  | some (var, span), _ => .error (FlowError.unusedDeclaration (arena.name var) span)
  | none, waiting :: _ =>
      .error (InternalError.unconsumedAccessor waiting.name waiting.stmt.span)
  | none, [] => .ok ()

/-- A marked variable is read, and no other one becomes so. -/
@[simp] theorem isUsed_markUsed
    (usage : Usage)
    (var other : VarId) :
    (usage.markUsed var).isUsed other = (other == var || usage.isUsed other) := by
  unfold markUsed
  split
  · next known =>
      by_cases same : other = var
      · subst same
        simp [known]
      · simp [same]
  · exact List.contains_cons

/-- Tracking a declaration reads nothing. -/
@[simp] theorem isUsed_track
    (usage : Usage)
    (var other : VarId)
    (span : Span) :
    (usage.track var span).isUsed other = usage.isUsed other := by
  unfold track
  split <;> rfl

end Usage
end ModularGlsl
