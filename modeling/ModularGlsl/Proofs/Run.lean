import ModularGlsl.Binding.State
import ModularGlsl.Liveness.State

/-!
# Runs of steps

Binding and the liveness sweep carry their first failure in the state, typing
and naming end with it.  This module says once how a run of several steps falls
into the runs of the single ones, so that no later proof opens a monad.

For steps that carry their failure the central notion is what a step may do to
it: leave it alone, or record one where there was none.  A run that ends without
a failure therefore has none in between.
-/

namespace ModularGlsl

/-! ## Steps that carry their failure -/

/-- States that remember the first failure of a run. -/
class Failing (σ : Type) where
  /-- The first failure. -/
  failure : σ -> Option Diagnostic

instance : Failing Binding.State := ⟨Binding.State.failure⟩

instance : Failing Liveness.State := ⟨Liveness.State.failure⟩

@[simp] theorem failure_binding (state : Binding.State) :
    Failing.failure state = state.failure := rfl

@[simp] theorem failure_liveness (state : Liveness.State) :
    Failing.failure state = state.failure := rfl

section Carried

variable {σ α β : Type} [Failing σ]

/-- A step never takes a failure back. -/
class Sticky (step : StateM σ α) : Prop where
  /-- A step that ends without a failure starts without one. -/
  clear_of_step : ∀ state,
    Failing.failure (step state).2 = none -> Failing.failure state = none

instance sticky_pure (value : α) : Sticky (pure value : StateM σ α) :=
  ⟨fun _ clear => clear⟩

instance sticky_bind
    (first : StateM σ α)
    (next : α -> StateM σ β)
    [early : Sticky first]
    [late : ∀ value, Sticky (next value)] :
    Sticky (first >>= next) where
  clear_of_step state clear :=
    early.clear_of_step state ((late (first state).1).clear_of_step (first state).2 clear)

instance sticky_ite
    (condition : Prop)
    [Decidable condition]
    (first second : StateM σ α)
    [yes : Sticky first]
    [no : Sticky second] :
    Sticky (if condition then first else second) := by
  split
  · exact yes
  · exact no

/-- A step yields a value and ends in a state without a failure. -/
def Runs
    (step : StateM σ α)
    (before : σ)
    (value : α)
    (after : σ) : Prop :=
  step before = (value, after) ∧ Failing.failure after = none

@[simp] theorem runs_pure
    {value result : α}
    {before after : σ} :
    Runs (pure value) before result after ↔
      value = result ∧ before = after ∧ Failing.failure after = none := by
  change (value, before) = (result, after) ∧ _ ↔ _
  rw [Prod.mk.injEq, and_assoc]

variable {first : StateM σ α} {next : α -> StateM σ β}

theorem runs_bind
    [late : ∀ value, Sticky (next value)]
    {before after : σ}
    {result : β} :
    Runs (first >>= next) before result after ↔
      ∃ value middle, Runs first before value middle ∧ Runs (next value) middle result after := by
  constructor
  · rintro ⟨run, clear⟩
    change next (first before).1 (first before).2 = (result, after) at run
    refine ⟨(first before).1, (first before).2, ⟨rfl, ?_⟩, run, clear⟩
    apply (late (first before).1).clear_of_step
    rw [run]
    exact clear
  · rintro ⟨value, middle, ⟨firstRun, _⟩, nextRun, clear⟩
    refine ⟨?_, clear⟩
    change next (first before).1 (first before).2 = (result, after)
    rw [firstRun]
    exact nextRun

variable {rewrite : α -> β}

/-- A step whose result is only rewritten, as at the end of a `do` block. -/
theorem runs_map
    {before after : σ}
    {result : β} :
    Runs (first >>= fun value => pure (rewrite value)) before result after ↔
      ∃ value, Runs first before value after ∧ rewrite value = result := by
  rw [runs_bind]
  constructor
  · rintro ⟨value, _, run, late⟩
    obtain ⟨rfl, rfl, _⟩ := runs_pure.mp late
    exact ⟨value, run, rfl⟩
  · rintro ⟨value, run, rfl⟩
    exact ⟨value, after, run, runs_pure.mpr ⟨rfl, rfl, run.2⟩⟩

section Sequence

variable {first : StateM σ α} {before after : σ} {result : β} {holds : α -> σ -> Prop}

/-- The first of two parts of a run does what it does alone. -/
theorem Runs.step
    [∀ value, Sticky (next value)]
    (run : Runs (first >>= next) before result after)
    (early : ∀ {value middle}, Runs first before value middle -> holds value middle) :
    ∃ value middle, holds value middle ∧ Runs (next value) middle result after := by
  obtain ⟨value, middle, firstRun, nextRun⟩ := runs_bind.mp run
  exact ⟨value, middle, early firstRun, nextRun⟩

/-- A part of a run whose result is only rewritten does what it does alone. -/
theorem Runs.last
    (run : Runs (first >>= fun value => pure (rewrite value)) before result after)
    (alone : ∀ {value middle}, Runs first before value middle -> holds value middle) :
    ∃ value, holds value after ∧ rewrite value = result := by
  obtain ⟨value, firstRun, same⟩ := runs_map.mp run
  exact ⟨value, alone firstRun, same⟩

end Sequence

end Carried

/-! ## Steps that end with their failure -/

section Ended

variable {ε σ α β : Type}

variable {first : EStateM ε σ α} {next : α -> EStateM ε σ β}

theorem bind_eq_ok
    {before after : σ}
    {result : β} :
    (first >>= next) before = .ok result after ↔
      ∃ value middle, first before = .ok value middle ∧ next value middle = .ok result after := by
  change EStateM.bind first next before = _ ↔ _
  unfold EStateM.bind
  cases outcome : first before with
  | ok value middle =>
      constructor
      · intro rest
        exact ⟨value, middle, rfl, rest⟩
      · rintro ⟨_, _, same, rest⟩
        cases same
        exact rest
  | error error middle => simp

theorem bind_eq_error
    {before after : σ}
    {error : ε} :
    (first >>= next) before = .error error after ↔
      first before = .error error after ∨
        ∃ value middle, first before = .ok value middle ∧
          next value middle = .error error after := by
  change EStateM.bind first next before = _ ↔ _
  unfold EStateM.bind
  cases outcome : first before with
  | ok value middle =>
      constructor
      · intro rest
        exact .inr ⟨value, middle, rfl, rest⟩
      · rintro (failed | ⟨_, _, same, rest⟩)
        · cases failed
        · cases same
          exact rest
  | error error middle => simp

@[simp] theorem pure_eq_ok
    {value result : α}
    {before after : σ} :
    (pure value : EStateM ε σ α) before = .ok result after ↔
      value = result ∧ before = after := by
  change EStateM.Result.ok value before = .ok result after ↔ _
  simp

theorem get_bind_apply
    (next : σ -> EStateM ε σ α)
    (state : σ) :
    (get >>= next) state = next state state :=
  rfl

/-- Two outcomes agree: they have the same value or the same failure, in states that
are related. -/
inductive Agree (related : σ -> σ -> Prop) :
    EStateM.Result ε σ α -> EStateM.Result ε σ α -> Prop
  /-- Both succeed. -/
  | ok
      {value : α}
      {first second : σ}
      (held : related first second) :
      Agree related (.ok value first) (.ok value second)
  /-- Both fail. -/
  | error
      {error : ε}
      {first second : σ}
      (held : related first second) :
      Agree related (.error error first) (.error error second)

theorem Agree.mono
    {related weaker : σ -> σ -> Prop}
    {first second : EStateM.Result ε σ α}
    (agree : Agree related first second)
    (weaken : ∀ first second, related first second -> weaker first second) :
    Agree weaker first second := by
  cases agree with
  | ok held => exact .ok (weaken _ _ held)
  | error held => exact .error (weaken _ _ held)

variable {first second : σ}

/-- States of outcomes that both succeed are related. -/
theorem Agree.of_ok
    {related : σ -> σ -> Prop}
    {value other : α}
    (agree : Agree related (.ok value first : EStateM.Result ε σ α) (.ok other second)) :
    related first second := by
  cases agree with
  | ok held => exact held

theorem Agree.bind
    {related between : σ -> σ -> Prop}
    {early : EStateM ε σ α}
    {late : α -> EStateM ε σ β}
    (agree : Agree between (early first) (early second))
    (weaken : ∀ first second, between first second -> related first second)
    (next : ∀ value firstNext secondNext, early first = .ok value firstNext ->
      early second = .ok value secondNext -> between firstNext secondNext ->
        Agree related (late value firstNext) (late value secondNext)) :
    Agree related ((early >>= late) first) ((early >>= late) second) := by
  change Agree related (EStateM.bind early late first) (EStateM.bind early late second)
  unfold EStateM.bind
  generalize early first = left at agree next
  generalize early second = right at agree next
  cases agree with
  | ok held => exact next _ _ _ rfl rfl held
  | error held => exact .error (weaken _ _ held)

/-- Two computations succeed when the first does and the second does with its
value. -/
theorem except_bind_eq_ok
    {first : Except ε α}
    {next : α -> Except ε β}
    {result : β} :
    (first >>= next) = .ok result ↔ ∃ value, first = .ok value ∧ next value = .ok result := by
  cases first with
  | error error => simp [bind, Except.bind]
  | ok value => simp [bind, Except.bind]

end Ended

theorem typing_eq_ok
    {α : Type}
    {result : Except TypingError α}
    {value : α} :
    typing result = .ok value ↔ result = .ok value := by
  cases result with
  | error error => exact ⟨by rintro ⟨⟩, by rintro ⟨⟩⟩
  | ok other => exact ⟨by rintro ⟨⟩; rfl, by rintro ⟨⟩; rfl⟩

end ModularGlsl
