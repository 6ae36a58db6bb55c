import ModularGlsl.Proofs.Build
import ModularGlsl.Proofs.Typing.Targets

/-!
# Compound assignments

A compound assignment is typed as the operation followed by a store.  It agrees with the
plain assignment of the same operation but for one kind of target: only the plain
assignment refuses a swizzle that names a component twice.
-/

namespace ModularGlsl

namespace Typing

/-- A statement passes the check inside a function with a given result type. -/
def Accepts
    (arena : Arena)
    (result : Option Ty)
    (stmt : Stmt) : Prop :=
  ∃ after, checkStmt result stmt arena = .ok () after

section Assignments

variable {arena : Arena} {result : Option Ty} {target value : Expr} {op : AssignOp}
variable {binary : BinaryOp} {span : Span}

theorem accepts_assign_iff :
    Accepts arena result (.assign target op value span) ↔
      checkAssign arena target op value span = .ok () := by
  unfold Accepts
  constructor
  · rintro ⟨after, run⟩
    exact (use_eq_ok.mp run).1
  · intro checked
    exact ⟨arena, use_eq_ok.mpr ⟨checked, rfl⟩⟩

/-- Where an operation stands decides nothing about its type. -/
theorem binary_elsewhere
    {left right ty : Ty}
    (typed : Ty.binary binary left right span = .ok ty)
    (elsewhere : Span) :
    Ty.binary binary left right elsewhere = .ok ty := by
  cases binary with
  | and | or | xor | less | lessEqual | greater | greaterEqual =>
      simp only [Ty.binary] at typed ⊢
      split at typed
      · next held => rw [if_pos held, typed]
      · cases typed
  | add | sub | mul | div =>
      simp only [Ty.binary] at typed ⊢
      split at typed
      · exact typed
      · cases typed
  | equal | notEqual =>
      obtain ⟨_, compatible, typed⟩ := except_bind_eq_ok.mp typed
      have accepted := Ty.check_eq_ok_iff.mp compatible
      exact except_bind_eq_ok.mpr ⟨(), Ty.check_eq_ok_iff.mpr accepted, typed⟩

/-- The operation of a target and a value has a type that the target accepts. -/
def Combines
    (arena : Arena)
    (target : Expr)
    (binary : BinaryOp)
    (value : Expr) : Prop :=
  ∃ current operand combined, target.targetType arena = .ok current ∧
    value.typeOf arena = .ok operand ∧
    (∀ span, Ty.binary binary current operand span = .ok combined) ∧
    current.accepts combined = true

theorem accepts_compound_iff (compound : op.binary? = some binary) :
    Accepts arena result (.assign target op value span) ↔
      Combines arena target binary value := by
  rw [accepts_assign_iff, checkAssign, compound]
  constructor
  · intro checked
    obtain ⟨operand, valueTyped, checked⟩ := except_bind_eq_ok.mp checked
    obtain ⟨current, targetTyped, checked⟩ := except_bind_eq_ok.mp checked
    obtain ⟨combined, combination, checked⟩ := except_bind_eq_ok.mp checked
    exact ⟨current, operand, combined, targetTyped, valueTyped,
      binary_elsewhere (typing_eq_ok.mp combination),
      Ty.check_eq_ok_iff.mp (typing_eq_ok.mp checked)⟩
  · rintro ⟨current, operand, combined, targetTyped, valueTyped, combination, accepted⟩
    refine except_bind_eq_ok.mpr ⟨operand, valueTyped, ?_⟩
    refine except_bind_eq_ok.mpr ⟨current, targetTyped, ?_⟩
    refine except_bind_eq_ok.mpr ⟨combined, typing_eq_ok.mpr (combination span), ?_⟩
    exact typing_eq_ok.mpr (Ty.check_eq_ok_iff.mpr accepted)

/-- The plain assignment of an operation on its target passes exactly if the operation
may be stored and no component is repeated. -/
theorem accepts_desugared_iff {opSpan : Span} :
    Accepts arena result (.assign target .assign (.binary binary target value opSpan) span) ↔
      Combines arena target binary value ∧ ¬target.RepeatsComponent arena := by
  rw [accepts_assign_iff, checkAssign, except_bind_eq_ok]
  simp only [AssignOp.binary?, Expr.checkStore_eq_ok_iff, Expr.typeOf]
  constructor
  · rintro ⟨combined, typed, current, targetTyped, accepted, single⟩
    obtain ⟨left, leftTyped, typed⟩ := except_bind_eq_ok.mp typed
    obtain ⟨operand, valueTyped, combination⟩ := except_bind_eq_ok.mp typed
    cases (target.typeOf_of_targetType targetTyped).symm.trans leftTyped
    exact ⟨⟨current, operand, combined, targetTyped, valueTyped,
      binary_elsewhere (typing_eq_ok.mp combination), accepted⟩, single⟩
  · rintro ⟨⟨current, operand, combined, targetTyped, valueTyped, combination, accepted⟩, single⟩
    refine ⟨combined, ?_, current, targetTyped, accepted, single⟩
    refine except_bind_eq_ok.mpr ⟨current, target.typeOf_of_targetType targetTyped, ?_⟩
    exact except_bind_eq_ok.mpr ⟨operand, valueTyped, typing_eq_ok.mpr (combination opSpan)⟩

/-- The operation on a target may be stored only where a store changes a variable. -/
theorem Combines.exists_storesTo (combines : Combines arena target binary value) :
    ∃ id, target.StoresTo arena id := by
  obtain ⟨_, _, _, targetTyped, _⟩ := combines
  exact target.exists_storesTo_of_targetType targetTyped

/-- A compound assignment stands for the plain assignment of its operation, but for
targets that repeat a component: the plain assignment passes exactly if the compound one
does and no component is repeated.  Both pass only where a store changes a variable that
is not constant, and never through a member of a package. -/
theorem accepts_plain_iff_compound
    (arena : Arena)
    (result : Option Ty)
    (target value : Expr)
    (span opSpan : Span)
    (op : AssignOp)
    (binary : BinaryOp)
    (compound : op.binary? = some binary) :
    (Accepts arena result (.assign target .assign (.binary binary target value opSpan) span) ↔
      Accepts arena result (.assign target op value span) ∧ ¬target.RepeatsComponent arena) ∧
    (Accepts arena result (.assign target op value span) -> ∃ id, target.StoresTo arena id) := by
  rw [accepts_compound_iff compound]
  exact ⟨accepts_desugared_iff, Combines.exists_storesTo⟩

end Assignments

end Typing

/-- The diagnostic that a build fails with. -/
def Bundle.error? : EStateM.Result Diagnostic Bundle Unit -> Option Diagnostic
  | .ok _ _ => none
  | .error error _ => some error

namespace Sample

/-- An arena with one vector. -/
def vectors : Arena :=
  ⟨#[{ name := "v", ty := some (.vector .float 3) }]⟩

/-- A swizzle of the vector. -/
def swizzle
    (key : String)
    (id : Option VarId) : Expr :=
  .member (.var { name := "v", var := id }) key none {}

/-- A program that changes a vector by one statement. -/
def changing (change : Stmt) : Bundle :=
  (Bundle.empty .vertex .readable).append
    { path := "/main"
      statements :=
        [main
          [declare "vec3" "v" (.call (read "vec3") [.float ⟨0x3ff0000000000000⟩ {}] {}),
            change,
            .assign (read "gl_PointSize") .assign (.member (read "v") "x" none {}) {}]] }

end Sample

namespace Typing

/-- Two components of a vector change by an operation, plain and compound. -/
theorem accepts_plain_swizzle :
    Accepts Sample.vectors none (.assign (Sample.swizzle "xy" (some 0)) .add
        (Sample.swizzle "zz" (some 0)) {}) ∧
      Accepts Sample.vectors none (.assign (Sample.swizzle "xy" (some 0)) .assign
        (.binary .add (Sample.swizzle "xy" (some 0)) (Sample.swizzle "zz" (some 0)) {}) {}) := by
  have compound : Accepts Sample.vectors none (.assign (Sample.swizzle "xy" (some 0)) .add
      (Sample.swizzle "zz" (some 0)) {}) := accepts_assign_iff.mpr (by rfl)
  have single : ¬(Sample.swizzle "xy" (some 0)).RepeatsComponent Sample.vectors := by
    rintro ⟨_, _, _, _, _, repeated⟩
    exact repeated (by decide)
  exact ⟨compound, (accepts_plain_iff_compound Sample.vectors none _ _ {} {} .add .add rfl).1.mpr
    ⟨compound, single⟩⟩

/-- A build passes with a compound assignment that repeats a component, and fails with the
plain assignment of the same operation. -/
theorem changing_repeats :
    Bundle.passes (fun _ => true) (Bundle.finalize ⟨[]⟩ (Sample.changing
        (.assign (Sample.swizzle "xx" none) .add (Sample.swizzle "yz" none) {}))) = true ∧
      Bundle.error? (Bundle.finalize ⟨[]⟩ (Sample.changing
        (.assign (Sample.swizzle "xx" none) .assign
          (.binary .add (Sample.swizzle "xx" none) (Sample.swizzle "yz" none) {}) {}))) =
        some (.typing (.invalidSwizzle "xx" "vec3" {})) := by
  decide +kernel

end Typing

end ModularGlsl
