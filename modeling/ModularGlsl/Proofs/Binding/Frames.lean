import Mathlib.Data.List.Basic
import ModularGlsl.Scope

/-!
# Runs of scopes

Frames are opened and left, and names are declared and looked up, in any order.  An operation
changes the innermost frame only.  So a frame that is left gives back what was open before it,
and as long as a frame is open its bindings depend on the declarations made in it alone: the
first constant stays, and otherwise the latest declaration counts.
-/

namespace ModularGlsl

variable {scope : Scope} {name : String} {place : Nat}

/-! ## Frames by place -/

variable {outer : List Frame}

namespace Scope

/-- The variable that a name is bound to in the frame at a place, counted from the frame of the
built-in names. -/
def binding?
    (scope : Scope)
    (place : Nat)
    (name : String) : Option VarId :=
  scope.frames.reverse[place]?.bind (·.get? name)

@[simp] theorem length_frames (scope : Scope) :
    scope.frames.length = scope.depth + 2 := by
  simp [frames, depth]

theorem frames_eq_cons (scope : Scope) :
    scope.frames = scope.innermost :: scope.frames.tail := by
  obtain ⟨inner, base, globals⟩ := scope
  cases inner <;> rfl

theorem frames_bind
    (scope : Scope)
    (name : String)
    (var : VarId) :
    (scope.bind name var).frames = scope.innermost.bind name var :: scope.frames.tail := by
  obtain ⟨inner, base, globals⟩ := scope
  cases inner <;> rfl

/-- The two outer frames are never left. -/
theorem frames_pop (scope : Scope) :
    scope.depth = 0 ∧ scope.pop = scope ∨ scope.pop.frames = scope.frames.tail := by
  obtain ⟨inner, base, globals⟩ := scope
  cases inner with
  | nil => exact .inl ⟨rfl, rfl⟩
  | cons frame rest => exact .inr rfl

variable {first second : Scope}

theorem eq_of_frames_eq (same : first.frames = second.frames) :
    first = second := by
  obtain ⟨otherInner, otherBase, otherGlobals⟩ := second
  obtain ⟨rfl, outer⟩ := List.append_inj' same rfl
  cases outer
  rfl

/-- The bindings at a place depend on the frames up to it. -/
theorem binding?_eq_of_suffix
    (inFirst : outer <:+ first.frames)
    (inSecond : outer <:+ second.frames)
    (isOuter : place < outer.length) :
    first.binding? place name = second.binding? place name := by
  obtain ⟨above, first_eq⟩ := inFirst
  obtain ⟨others, second_eq⟩ := inSecond
  have small : place < outer.reverse.length := by simpa using isOuter
  rw [binding?, binding?, ← first_eq, ← second_eq, List.reverse_append, List.reverse_append,
    List.getElem?_append_left small, List.getElem?_append_left small]

@[simp] theorem binding?_innermost
    (scope : Scope)
    (name : String) :
    scope.binding? (scope.depth + 1) name = scope.lookupInnermost name := by
  have length_eq : scope.frames.tail.reverse.length = scope.depth + 1 := by simp
  rw [binding?, frames_eq_cons, List.reverse_cons, ← length_eq, List.getElem?_concat_length]
  rfl

theorem lookupInnermost_bind
    (scope : Scope)
    (name other : String)
    (var : VarId) :
    (scope.bind name var).lookupInnermost other =
      if name = other then some var else scope.lookupInnermost other := by
  split
  · next same =>
      subst same
      exact scope.lookupInnermost_bind_self name var
  · next different =>
      have innermost_eq : (scope.bind name var).innermost = scope.innermost.bind name var :=
        (List.cons_eq_cons.mp ((scope.bind name var).frames_eq_cons.symm.trans
          (scope.frames_bind name var))).1
      rw [lookupInnermost, innermost_eq, Frame.get?_bind_of_ne _ _ (Ne.symm different)]
      rfl

end Scope

/-! ## Operations -/

/-- An operation on open frames. -/
inductive ScopeOp
  | pushBlock
  | pushFunction (function : VarId)
  | pop
  /-- A name is declared, with the variables known at the time. -/
  | declare (arena : Arena) (name : String) (var : VarId) (span : Span)
  | lookup (name : String)

namespace ScopeOp

variable {op : ScopeOp} {constant : VarId -> Bool}

/-- The frames after an operation.  Nothing changes where a name cannot be declared. -/
def run (scope : Scope) : ScopeOp -> Scope
  | pushBlock => scope.pushBlock
  | pushFunction function => scope.pushFunction function
  | pop => scope.pop
  | declare arena name var span =>
      match scope.declare arena name var span with
      | .ok after => after
      | .error _ => scope
  | lookup _ => scope

/-- A declaration finds the right flag for the variable that has its name. -/
def Reads
    (constant : VarId -> Bool)
    (scope : Scope) : ScopeOp -> Prop
  | declare arena name _ _ =>
      ∀ old ∈ scope.lookupInnermost name, (arena.get old).constant = constant old
  | _ => True

/-- The variables that an operation declares under a name in the frame at a place. -/
def declared
    (scope : Scope)
    (place : Nat)
    (name : String) : ScopeOp -> List VarId
  | declare _ other var _ => if place = scope.depth + 1 ∧ other = name then [var] else []
  | _ => []

/-- A binding after a declaration: a constant stays. -/
def settle
    (constant : VarId -> Bool)
    (bound : Option VarId)
    (var : VarId) : Option VarId :=
  if bound.any constant then bound else some var

/-! ## Steps -/

section Declare

variable {arena : Arena} {var : VarId} {span : Span}
variable (reads : (declare arena name var span).Reads constant scope)
include reads

theorem declare_eq_ok (replaceable : (scope.lookupInnermost name).any constant = false) :
    scope.declare arena name var span = .ok (scope.bind name var) := by
  cases bound : scope.lookupInnermost name with
  | none => simp [Scope.declare, bound]
  | some old =>
      have flag : (arena.get old).constant = false := by
        rw [bound] at replaceable
        exact (reads old bound).trans replaceable
      simp [Scope.declare, bound, flag]

theorem declare_eq_error
    {old : VarId}
    (bound : scope.lookupInnermost name = some old)
    (isConstant : constant old = true) :
    scope.declare arena name var span =
      .error (.constRedeclaration name span (arena.get old).span) := by
  simp [Scope.declare, bound, reads old bound, isConstant]

theorem run_declare :
    (declare arena name var span).run scope =
      if (scope.lookupInnermost name).any constant then scope else scope.bind name var := by
  split
  · next isConstant =>
      obtain ⟨old, bound, isConstant⟩ := (Option.any_eq_true _ _).mp isConstant
      simp [run, declare_eq_error reads bound isConstant]
  · next replaceable =>
      simp [run, declare_eq_ok reads (Bool.eq_false_iff.mpr replaceable)]

end Declare

/-- An operation keeps the frames around the innermost one. -/
theorem suffix_run (outside : outer <:+ scope.frames.tail) :
    outer <:+ (op.run scope).frames := by
  have isOpen : outer <:+ scope.frames := outside.trans (List.tail_suffix _)
  cases op with
  | pushBlock | pushFunction function => exact isOpen.trans (List.suffix_cons _ _)
  | pop =>
      rcases scope.frames_pop with ⟨_, same⟩ | left
      · exact (congrArg Scope.frames same).symm ▸ isOpen
      · exact left.symm ▸ outside
  | declare arena other var span =>
      simp only [run]
      split
      · next after accepted =>
          rw [Scope.eq_bind_of_declare accepted, Scope.frames_bind]
          exact outside.trans (List.suffix_cons _ _)
      · exact isOpen
  | lookup other => exact isOpen

/-- In a frame that stays open an operation leaves what its declaration leaves. -/
theorem binding?_run
    (reads : op.Reads constant scope)
    (isOpen : place < scope.frames.length)
    (stays : place < (op.run scope).frames.length) :
    (op.run scope).binding? place name =
      (op.declared scope place name).foldl (settle constant) (scope.binding? place name) := by
  by_cases isOuter : place < scope.frames.tail.length
  · have other : place ≠ scope.depth + 1 := by
      rw [List.length_tail, Scope.length_frames] at isOuter
      exact Nat.ne_of_lt isOuter
    have none_declared : op.declared scope place name = [] := by
      cases op <;> simp [declared, other]
    rw [none_declared]
    exact Scope.binding?_eq_of_suffix (suffix_run (List.suffix_refl _)) (List.tail_suffix _) isOuter
  · obtain rfl : place = scope.depth + 1 := by
      simp only [List.length_tail, Scope.length_frames] at isOuter isOpen
      omega
    cases op with
    | pushBlock | pushFunction function =>
        exact Scope.binding?_eq_of_suffix (List.suffix_cons _ _) (List.suffix_refl _) isOpen
    | pop =>
        rcases scope.frames_pop with ⟨_, same⟩ | left
        · rw [run, same]
          rfl
        · have length_eq : scope.pop.frames.length = scope.depth + 1 := by simp [left]
          exact absurd stays (by simp [run, length_eq])
    | declare arena other var span =>
        have bound := (scope.bind other var).binding?_innermost name
        rw [Scope.depth_bind, Scope.lookupInnermost_bind] at bound
        rw [run_declare reads, Scope.binding?_innermost]
        by_cases same : other = name
        · subst same
          have listed :
              declared scope (scope.depth + 1) other (declare arena other var span) = [var] := by
            simp [declared]
          rw [listed, List.foldl_cons, List.foldl_nil, settle]
          split
          · exact scope.binding?_innermost other
          · rw [bound, if_pos rfl]
        · have unlisted :
              declared scope (scope.depth + 1) name (declare arena other var span) = [] := by
            simp [declared, same]
          rw [unlisted, List.foldl_nil]
          split
          · exact scope.binding?_innermost name
          · rw [bound, if_neg same]
    | lookup other => rfl

/-! ## Runs -/

/-- The frames after operations, from the first to the last. -/
def runAll
    (scope : Scope)
    (ops : List ScopeOp) : Scope :=
  ops.foldl run scope

/-- All declarations find the right flags. -/
def ReadsAll (constant : VarId -> Bool) : Scope -> List ScopeOp -> Prop
  | _, [] => True
  | scope, op :: rest => op.Reads constant scope ∧ ReadsAll constant (op.run scope) rest

/-- The frame at a place is open at the start and after every operation. -/
def StaysOpen (place : Nat) : Scope -> List ScopeOp -> Prop
  | scope, [] => place < scope.frames.length
  | scope, op :: rest => place < scope.frames.length ∧ StaysOpen place (op.run scope) rest

/-- The variables that operations declare under a name in the frame at a place. -/
def declaredAll
    (place : Nat)
    (name : String) : Scope -> List ScopeOp -> List VarId
  | _, [] => []
  | scope, op :: rest =>
      op.declared scope place name ++ declaredAll place name (op.run scope) rest

variable {ops : List ScopeOp}

theorem StaysOpen.isOpen (stays : StaysOpen place scope ops) :
    place < scope.frames.length := by
  cases ops with
  | nil => exact stays
  | cons op rest => exact stays.1

/-- While a frame is open, its bindings depend on the declarations made in it. -/
theorem binding?_runAll
    (reads : ReadsAll constant scope ops)
    (stays : StaysOpen place scope ops) :
    (runAll scope ops).binding? place name =
      (declaredAll place name scope ops).foldl (settle constant) (scope.binding? place name) := by
  induction ops generalizing scope with
  | nil => rfl
  | cons op rest ih =>
      rw [declaredAll, List.foldl_append, ← binding?_run reads.1 stays.1 stays.2.isOpen]
      exact ih reads.2 stays.2

theorem foldl_settle_of_constant
    {var : VarId}
    (isConstant : constant var = true)
    (vars : List VarId) :
    vars.foldl (settle constant) (some var) = some var := by
  induction vars with
  | nil => rfl
  | cons other rest ih => rw [List.foldl_cons, settle, Option.any_some, if_pos isConstant, ih]

/-- Frames around one that stays open are still there. -/
theorem suffix_runAll
    (isOpen : outer <:+ scope.frames)
    (stays : StaysOpen outer.length scope ops) :
    outer <:+ (runAll scope ops).frames := by
  induction ops generalizing scope with
  | nil => exact isOpen
  | cons op rest ih =>
      refine ih (suffix_run ?_) stays.2
      have isOuter := stays.isOpen
      rw [scope.frames_eq_cons] at isOpen isOuter
      rcases List.suffix_cons_iff.mp isOpen with rfl | outside
      · exact absurd isOuter (Nat.lt_irrefl _)
      · exact outside

/-- The two outer frames stay open. -/
theorem staysOpen_of_lt
    (isOuter : place < 2)
    (scope : Scope)
    (ops : List ScopeOp) :
    StaysOpen place scope ops := by
  have isOpen (scope : Scope) : place < scope.frames.length := by
    rw [Scope.length_frames]
    omega
  induction ops generalizing scope with
  | nil => exact isOpen scope
  | cons op rest ih => exact ⟨isOpen scope, ih (op.run scope)⟩

/-- An operation that opens a frame. -/
def opens : ScopeOp -> Bool
  | pushBlock | pushFunction _ => true
  | _ => false

/-- Operations that leave every frame they open, and no other. -/
inductive Balanced : List ScopeOp -> Prop
  | nil : Balanced []
  | declare (arena : Arena) (name : String) (var : VarId) (span : Span) {rest : List ScopeOp} :
      Balanced rest -> Balanced (declare arena name var span :: rest)
  | lookup (name : String) {rest : List ScopeOp} : Balanced rest -> Balanced (lookup name :: rest)
  /-- A frame is opened and left, with operations inside it and after it. -/
  | nested (op : ScopeOp) (inner : List ScopeOp) {rest : List ScopeOp} :
      op.opens = true -> Balanced inner -> Balanced rest -> Balanced (op :: inner ++ pop :: rest)

/-- A frame that is opened binds nothing and stands before all others. -/
theorem frames_run_of_opens
    (isOpening : op.opens = true)
    (scope : Scope) :
    ∃ frame, (op.run scope).frames = frame :: scope.frames ∧ ∀ name, frame.get? name = none := by
  cases op with
  | pushBlock | pushFunction function => exact ⟨_, rfl, fun _ => rfl⟩
  | pop | declare | lookup => cases isOpening

theorem pop_eq_of_tail
    {inside : Scope}
    (tail_eq : inside.frames.tail = scope.frames) :
    inside.pop = scope := by
  rcases inside.frames_pop with ⟨isOutermost, _⟩ | left
  · have lengths := congrArg List.length tail_eq
    simp [isOutermost] at lengths
  · exact Scope.eq_of_frames_eq (left.trans tail_eq)

/-- Balanced operations change the innermost frame only. -/
theorem Balanced.tail_frames
    (balanced : Balanced ops)
    (scope : Scope) :
    (runAll scope ops).frames.tail = scope.frames.tail := by
  induction balanced generalizing scope with
  | nil => rfl
  | declare arena name var span _ ih =>
      refine (ih _).trans ?_
      simp only [run]
      split
      · next after accepted =>
          rw [Scope.eq_bind_of_declare accepted, Scope.frames_bind, List.tail_cons]
      · rfl
  | lookup name _ ih => exact ih scope
  | nested op inner isOpening _ _ within later =>
      obtain ⟨frame, opened, _⟩ := frames_run_of_opens isOpening scope
      have restored := pop_eq_of_tail ((within (op.run scope)).trans (congrArg List.tail opened))
      rw [List.cons_append, runAll, List.foldl_cons, List.foldl_append, List.foldl_cons]
      exact (congrArg (fun scope => (runAll scope _).frames.tail) restored).trans (later scope)

/-- The discipline of a scope whose frame of built-in names is given. -/
structure IsDisciplined
    (constant : VarId -> Bool)
    (globals : Frame)
    (scope : Scope) : Prop where
  /-- A frame is opened before all others, and binds nothing. -/
  opened : ∀ op : ScopeOp, op.opens = true -> ∃ frame,
    (op.run scope).frames = frame :: scope.frames ∧ ∀ name, frame.get? name = none
  /-- After a frame has been opened and left, all is as before. -/
  restored : ∀ op : ScopeOp, op.opens = true -> ∀ ops, Balanced ops ->
    runAll scope (op :: ops ++ [pop]) = scope
  /-- A name that is bound to a constant stays so while its frame is open. -/
  sticks : ∀ place name var, scope.binding? place name = some var -> constant var = true ->
    ∀ ops, ReadsAll constant scope ops -> StaysOpen place scope ops ->
      (runAll scope ops).binding? place name = some var
  /-- Such a name cannot be declared again, and then nothing changes. -/
  refused : ∀ arena name var span old, (declare arena name var span).Reads constant scope ->
    scope.lookupInnermost name = some old -> constant old = true ->
      scope.declare arena name var span =
          .error (.constRedeclaration name span (arena.get old).span) ∧
        (declare arena name var span).run scope = scope
  /-- Any other name is bound by the latest declaration in its frame. -/
  replaced : ∀ arena name var span, (declare arena name var span).Reads constant scope ->
    (scope.lookupInnermost name).any constant = false ->
      ∃ after, scope.declare arena name var span = .ok after ∧
        ∀ ops, ReadsAll constant after ops -> StaysOpen (scope.depth + 1) after ops ->
          declaredAll (scope.depth + 1) name after ops = [] ->
            (runAll after ops).binding? (scope.depth + 1) name = some var
  /-- A name stands for what the innermost frame that has it binds it to. -/
  innermost : ∀ name var, scope.lookup name = some var ↔
    ∃ inside frame outside, scope.frames = inside ++ frame :: outside ∧
      frame.get? name = some var ∧ ∀ other ∈ inside, other.get? name = none
  /-- The two outer frames stay open. -/
  outer : ∀ place < 2, ∀ ops, StaysOpen place scope ops
  /-- The built-in names stay bound as they are. -/
  globals_eq : scope.globals = globals
  /-- With only the outer frames open there is nothing to leave. -/
  unleft : scope.depth = 0 -> scope.pop = scope
  /-- Otherwise the innermost frame is left. -/
  left : 0 < scope.depth -> scope.pop.frames = scope.frames.tail

/-- Scopes keep their discipline over every run of operations. -/
theorem runAll_isDisciplined
    (constant : VarId -> Bool)
    (globals : List (String × VarId))
    (ops : List ScopeOp) :
    IsDisciplined constant (Scope.ofGlobals globals).globals
      (runAll (Scope.ofGlobals globals) ops) := by
  generalize reached : runAll (Scope.ofGlobals globals) ops = scope
  constructor
  case opened => exact fun op isOpening => frames_run_of_opens isOpening scope
  case restored =>
    intro op isOpening ops balanced
    obtain ⟨frame, opened, _⟩ := frames_run_of_opens isOpening scope
    rw [List.cons_append, runAll, List.foldl_cons, List.foldl_append]
    exact pop_eq_of_tail ((balanced.tail_frames _).trans (congrArg List.tail opened))
  case sticks =>
    intro place name var bound isConstant ops reads stays
    rw [binding?_runAll reads stays, bound, foldl_settle_of_constant isConstant]
  case refused =>
    intro arena name var span old reads bound isConstant
    have failed := declare_eq_error reads bound isConstant
    exact ⟨failed, by simp [run, failed]⟩
  case replaced =>
    intro arena name var span reads replaceable
    refine ⟨_, declare_eq_ok reads replaceable, fun ops later stays none_declared => ?_⟩
    · have bound := (scope.bind name var).binding?_innermost name
      rw [Scope.depth_bind, Scope.lookupInnermost_bind_self] at bound
      rw [binding?_runAll later stays, none_declared, bound]
      rfl
  case innermost =>
    intro name var
    exact List.findSome?_eq_some_iff
  case outer => exact fun place isOuter => staysOpen_of_lt isOuter scope
  case globals_eq =>
    have isSuffix : [(Scope.ofGlobals globals).globals] <:+ scope.frames :=
      reached ▸ suffix_runAll (List.suffix_cons _ _) (staysOpen_of_lt (by simp) _ _)
    obtain ⟨above, frames_eq⟩ := isSuffix
    have last := congrArg List.getLast? frames_eq
    simpa [Scope.frames, eq_comm] using last
  case unleft =>
    intro isOutermost
    rcases scope.frames_pop with ⟨_, same⟩ | left
    · exact same
    · have lengths := congrArg List.length left
      simp [isOutermost] at lengths
  case left =>
    intro isInside
    exact scope.frames_pop.resolve_left fun outermost => Nat.ne_of_gt isInside outermost.1

/-- A block declares a name anew, and a function inside the block another one: both are gone
after it. -/
theorem runAll_shadowing_isDisciplined :
    ∃ scope : Scope, ∃ ops : List ScopeOp,
      scope = runAll (Scope.ofGlobals [("x", 0)]) [declare {} "x" 1 default] ∧
      ops = [declare {} "x" 2 default, pushFunction 3, declare {} "y" 4 default, pop] ∧
      (runAll scope (pushBlock :: ops)).lookup "x" = some 2 ∧
      (runAll scope (pushBlock :: ops ++ [pop])).lookup "x" = some 1 ∧
      (runAll scope (pushBlock :: ops ++ [pop])).lookup "y" = none := by
  refine ⟨_, _, rfl, rfl, by decide, ?_⟩
  have balanced :
      Balanced [declare {} "x" 2 default, pushFunction 3, declare {} "y" 4 default, pop] :=
    .declare {} _ _ _ (.nested (pushFunction 3) [_] rfl (.declare {} _ _ _ .nil) .nil)
  rw [(runAll_isDisciplined (fun _ => false) _ _).restored pushBlock rfl _ balanced]
  decide

end ScopeOp
end ModularGlsl
