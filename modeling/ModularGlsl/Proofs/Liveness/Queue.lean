import Mathlib.Data.List.Infix
import ModularGlsl.Usage

/-!
# The queue of waiting statements

Statements are injected with any dependencies, and dependencies are released in any order.
What becomes of a statement depends on the operations after its injection alone: it is returned
by the first release at which all its dependencies have been released, and until then it waits
for those that have not.
-/

namespace ModularGlsl

/-- An operation on the statements that wait. -/
inductive QueueOp
  /-- A statement begins to wait. -/
  | inject (waiting : Pending)
  /-- A dependency is released, or none. -/
  | pop (dep : Option VarId)

namespace QueueOp

variable {waiting : Pending} {since earlier : List QueueOp} {dep : Option VarId}

/-- What waits after an operation. -/
def run (usage : Usage) : QueueOp -> Usage
  | inject waiting => usage.inject waiting
  | pop dep => (usage.pop dep).2

/-- What waits after operations on a queue that starts empty. -/
def runAll (ops : List QueueOp) : Usage :=
  ops.foldl run {}

/-! ## Histories -/

/-- The statements that are injected, each with the operations after it. -/
def injected : List QueueOp -> List (Pending × List QueueOp)
  | [] => []
  | inject waiting :: since => (waiting, since) :: injected since
  | pop _ :: since => injected since

/-- The dependencies that operations release. -/
def released (ops : List QueueOp) : List VarId :=
  ops.filterMap fun
    | inject _ => none
    | pop dep => dep

/-- A statement that still waits for what has not been released. -/
def remaining
    (waiting : Pending)
    (since : List QueueOp) : Pending :=
  { waiting with deps := waiting.deps.filter fun dep => !(released since).contains dep }

/-- Operations end with a release, and all dependencies of a statement have been released. -/
def isDue
    (waiting : Pending)
    (since : List QueueOp) : Bool :=
  match since.getLast? with
  | some (pop _) => waiting.deps.all (released since).contains
  | _ => false

/-- A statement has been due after some of the operations. -/
def hasLeft
    (waiting : Pending)
    (since : List QueueOp) : Bool :=
  since.inits.any (isDue waiting)

/-- A statement is due after the last operation, and has not been due before. -/
def leaves
    (waiting : Pending)
    (since : List QueueOp) : Bool :=
  isDue waiting since && !hasLeft waiting since.dropLast

theorem hasLeft_iff :
    hasLeft waiting since = true ↔ ∃ earlier, earlier <+: since ∧ isDue waiting earlier = true := by
  simp [hasLeft, List.any_eq_true, List.mem_inits]

theorem hasLeft_concat (op : QueueOp) :
    hasLeft waiting (since ++ [op]) = (hasLeft waiting since || isDue waiting (since ++ [op])) := by
  rw [Bool.eq_iff_iff, Bool.or_eq_true, hasLeft_iff, hasLeft_iff]
  simp only [List.prefix_concat_iff, or_and_right, exists_or, exists_eq_left]
  exact or_comm

@[simp] theorem leaves_concat (op : QueueOp) :
    leaves waiting (since ++ [op]) =
      (isDue waiting (since ++ [op]) && !hasLeft waiting since) := by
  simp [leaves]

@[simp] theorem isDue_concat_inject (other : Pending) :
    isDue waiting (since ++ [inject other]) = false := by
  simp [isDue]

@[simp] theorem released_concat_inject (other : Pending) :
    released (since ++ [inject other]) = released since := by
  simp [released]

theorem injected_concat
    (ops : List QueueOp)
    (op : QueueOp) :
    injected (ops ++ [op]) =
      (injected ops).map (fun entry => (entry.1, entry.2 ++ [op])) ++ injected [op] := by
  induction ops with
  | nil => rfl
  | cons first rest ih => cases first <;> simp [injected, ih]

@[simp] theorem released_concat_pop :
    released (since ++ [pop dep]) = released since ++ dep.toList := by
  cases dep <;> simp [released]

theorem release_remaining :
    (remaining waiting since).release dep = remaining waiting (since ++ [pop dep]) := by
  cases dep with
  | none => simp [Pending.release, remaining]
  | some dep =>
      simp only [Pending.release, remaining, released_concat_pop, List.filter_filter]
      congr 2
      funext other
      simp [bne, Bool.and_comm, beq_eq_decide]

theorem isReady_remaining :
    (remaining waiting (since ++ [pop dep])).isReady = isDue waiting (since ++ [pop dep]) := by
  rw [Bool.eq_iff_iff]
  simp [Pending.isReady, remaining, isDue, List.filter_eq_nil_iff, or_iff_not_imp_left]

/-- A statement that has left has done so once. -/
theorem leaves_unique
    (left : leaves waiting since = true)
    {other : List QueueOp}
    (isPrefix : other <+: since)
    (leftBefore : leaves waiting other = true) :
    other = since := by
  simp only [leaves, Bool.and_eq_true, Bool.not_eq_true'] at left leftBefore
  rcases List.eq_nil_or_concat since with rfl | ⟨front, op, rfl⟩
  · exact List.prefix_nil.mp isPrefix
  · rw [List.concat_eq_append, List.dropLast_concat] at left
    rcases List.prefix_concat_iff.mp (List.concat_eq_append ▸ isPrefix) with same | inFront
    · rw [same, List.concat_eq_append]
    · rw [hasLeft_iff.mpr ⟨other, inFront, leftBefore.1⟩] at left
      cases left.2

theorem exists_leaves_iff :
    (∃ earlier, earlier <+: since ∧ leaves waiting earlier = true) ↔
      hasLeft waiting since = true := by
  constructor
  · rintro ⟨earlier, isPrefix, left⟩
    exact hasLeft_iff.mpr ⟨earlier, isPrefix, (Bool.and_eq_true_iff.mp left).1⟩
  · intro left
    induction since using List.reverseRecOn with
    | nil => cases left
    | append_singleton since op ih =>
        by_cases before : hasLeft waiting since = true
        · obtain ⟨earlier, isPrefix, leaves⟩ := ih before
          exact ⟨earlier, isPrefix.trans (List.prefix_append _ _), leaves⟩
        · refine ⟨_, List.prefix_refl _, ?_⟩
          simpa [hasLeft_concat, before] using left

/-! ## Runs -/

/-- What waits has not left, and waits for what has not been released. -/
theorem pending_runAll
    (ops : List QueueOp) :
    (runAll ops).pending =
      ((injected ops).filter fun entry => !hasLeft entry.1 entry.2).map fun entry =>
        remaining entry.1 entry.2 := by
  induction ops using List.reverseRecOn with
  | nil => rfl
  | append_singleton ops op ih =>
      rw [runAll, List.foldl_concat, ← runAll, injected_concat, List.filter_append,
        List.map_append, List.filter_map, List.map_map]
      cases op with
      | inject waiting =>
          have isNew : remaining waiting [] = waiting := by simp [remaining, released]
          have unleft : hasLeft waiting [] = false := by simp [hasLeft, isDue]
          have same (entry : Pending × List QueueOp) :
              remaining entry.1 (entry.2 ++ [inject waiting]) = remaining entry.1 entry.2 := by
            simp [remaining]
          simp [run, Usage.inject, ih, injected, Function.comp_def, hasLeft_concat, isNew, unleft,
            same]
      | pop dep =>
          simp only [run, Usage.pop, ih, injected, List.partition_eq_filter_filter,
            Function.comp_def, hasLeft_concat, List.map_map, List.filter_map, release_remaining,
            isReady_remaining, List.filter_filter, List.filter_nil, List.map_nil, List.append_nil]
          simp [Bool.and_comm]

/-- A release returns what leaves with it. -/
theorem pop_runAll
    (ops : List QueueOp)
    (dep : Option VarId) :
    ((runAll ops).pop dep).1 =
      ((injected (ops ++ [pop dep])).filter fun entry => leaves entry.1 entry.2).map fun entry =>
        entry.1.stmt := by
  simp only [Usage.pop, pending_runAll, injected_concat, injected, List.partition_eq_filter_filter,
    Function.comp_def, leaves_concat, List.map_map, List.filter_map, release_remaining,
    isReady_remaining, List.filter_filter, List.append_nil]
  rfl

/-- How the queue of waiting statements answers after operations. -/
structure IsFaithful (ops : List QueueOp) : Prop where
  /-- A release returns the statements that leave with it, in the order of their injections. -/
  returned : ∀ dep, ((runAll ops).pop dep).1 =
    ((injected (ops ++ [pop dep])).filter fun entry => leaves entry.1 entry.2).map fun entry =>
      entry.1.stmt
  /-- The statements that have not left wait, in the order of their injections. -/
  waits : (runAll ops).pending =
    ((injected ops).filter fun entry => !hasLeft entry.1 entry.2).map fun entry =>
      remaining entry.1 entry.2
  /-- Every statement waits, or has left with exactly one release. -/
  once : ∀ entry ∈ injected ops,
    (hasLeft entry.1 entry.2 = false ∧
        ∀ earlier, earlier <+: entry.2 -> leaves entry.1 earlier = false) ∨
      hasLeft entry.1 entry.2 = true ∧
        ∃! earlier, earlier <+: entry.2 ∧ leaves entry.1 earlier = true
  /-- After a release every statement waits for something. -/
  blocked : ∀ dep, ∀ waiting ∈ ((runAll ops).pop dep).2.pending, waiting.deps ≠ []

/-- Over every run of operations no statement is lost, and none is returned twice. -/
theorem runAll_isFaithful (ops : List QueueOp) :
    IsFaithful ops := by
  constructor
  case returned => exact pop_runAll ops
  case waits => exact pending_runAll ops
  case once =>
    rintro ⟨waiting, since⟩ _
    cases left : hasLeft waiting since with
    | false =>
        refine .inl ⟨rfl, fun earlier isPrefix => Bool.eq_false_iff.mpr fun leaves => ?_⟩
        rw [exists_leaves_iff.mp ⟨earlier, isPrefix, leaves⟩] at left
        cases left
    | true =>
        obtain ⟨earlier, isPrefix, leaves⟩ := exists_leaves_iff.mpr left
        refine .inr ⟨rfl, earlier, ⟨isPrefix, leaves⟩, ?_⟩
        rintro other ⟨isOther, leavesToo⟩
        rcases List.prefix_or_prefix_of_prefix isOther isPrefix with shorter | longer
        · exact leaves_unique leaves shorter leavesToo
        · exact (leaves_unique leavesToo longer leaves).symm
  case blocked =>
    intro dep waiting mem
    rw [Usage.pop, List.partition_eq_filter_filter] at mem
    simpa [Pending.isReady] using (List.mem_filter.mp mem).2

end QueueOp
end ModularGlsl
