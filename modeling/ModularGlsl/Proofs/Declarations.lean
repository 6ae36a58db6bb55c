import Mathlib.Data.List.Nodup
import ModularGlsl.Proofs.Parts

/-!
# Declared identifiers

Binding numbers the identifiers that a program declares in the order of its statements.
No variable is therefore declared twice, and all variables but packages are declared.
-/

namespace ModularGlsl

/-- The identifiers that a module declares. -/
def Module.declarations (module : Module) : List Ident :=
  module.parts.flatMap Stmt.declares

/-- Identifiers are bound to ascending numbers in a range, and to all of them that are not
skipped. -/
structure Ident.Ascend
    (skips : VarId -> Prop)
    (low high : VarId)
    (idents : List Ident) : Prop where
  /-- Later identifiers have larger numbers. -/
  ordered : idents.Pairwise fun first second =>
    ∀ id ∈ first.var, ∀ other ∈ second.var, id < other
  /-- The numbers lie between the given ones. -/
  range : ∀ ident ∈ idents, ∃ id, ident.var = some id ∧ low ≤ id ∧ id < high
  /-- No other number is left out. -/
  covers : ∀ id, low ≤ id -> id < high -> ¬skips id -> ∃ ident ∈ idents, ident.var = some id

variable {idents : List Ident}

namespace Ident.Ascend

variable {skips : VarId -> Prop} {low middle high : VarId}

theorem nil : Ascend skips low low [] :=
  ⟨.nil, by simp, fun _ above below => absurd above (Nat.not_le_of_lt below)⟩

theorem skip (isSkipped : skips low) :
    Ascend skips low (low + 1) [] := by
  refine ⟨.nil, by simp, fun id above below kept => ?_⟩
  obtain rfl := Nat.le_antisymm (Nat.le_of_lt_succ below) above
  exact absurd isSkipped kept

theorem single
    {ident : Ident}
    (var_eq : ident.var = some low) :
    Ascend skips low (low + 1) [ident] := by
  refine ⟨List.pairwise_singleton _ _, fun other mem => ?_, fun id above below _ => ?_⟩
  · rw [List.mem_singleton.mp mem]
    exact ⟨low, var_eq, Nat.le_refl _, Nat.lt_succ_self _⟩
  · obtain rfl := Nat.le_antisymm (Nat.le_of_lt_succ below) above
    exact ⟨ident, List.mem_cons_self, var_eq⟩

theorem append
    {first second : List Ident}
    (early : Ascend skips low middle first)
    (late : Ascend skips middle high second)
    (low_le : low ≤ middle)
    (le_high : middle ≤ high) :
    Ascend skips low high (first ++ second) where
  ordered := by
    refine List.pairwise_append.mpr ⟨early.ordered, late.ordered, ?_⟩
    intro one isFirst other isSecond id isOne otherId isOther
    obtain ⟨_, one_eq, _, below⟩ := early.range one isFirst
    obtain ⟨_, other_eq, above, _⟩ := late.range other isSecond
    cases one_eq.symm.trans isOne
    cases other_eq.symm.trans isOther
    exact Nat.lt_of_lt_of_le below above
  range := by
    refine List.forall_mem_append.mpr ⟨fun ident mem => ?_, fun ident mem => ?_⟩
    · obtain ⟨id, var_eq, above, below⟩ := early.range ident mem
      exact ⟨id, var_eq, above, Nat.lt_of_lt_of_le below le_high⟩
    · obtain ⟨id, var_eq, above, below⟩ := late.range ident mem
      exact ⟨id, var_eq, Nat.le_trans low_le above, below⟩
  covers id above below kept := by
    rcases Nat.lt_or_ge id middle with isEarly | isLate
    · obtain ⟨ident, mem, var_eq⟩ := early.covers id above isEarly kept
      exact ⟨ident, List.mem_append_left _ mem, var_eq⟩
    · obtain ⟨ident, mem, var_eq⟩ := late.covers id isLate below kept
      exact ⟨ident, List.mem_append_right _ mem, var_eq⟩

/-- Ascending numbers are distinct. -/
theorem nodup
    (ascend : Ascend skips low high idents) :
    (idents.map Ident.var).Nodup := by
  refine List.pairwise_map.mpr (ascend.ordered.imp_of_mem ?_)
  intro first second isFirst _ less same
  obtain ⟨id, var_eq, _⟩ := ascend.range first isFirst
  exact Nat.lt_irrefl id (less id var_eq id (same ▸ var_eq))

end Ident.Ascend

section Bound

variable {arena : Arena} {accessors : Accessor -> Prop}

/-- Packages are no variables of the output. -/
def Arena.IsPackage
    (arena : Arena)
    (id : VarId) : Prop :=
  (arena.get id).members ≠ none

variable {before after : Place}

theorem Param.AreBound.declares
    {params : List Param}
    (bound : Param.AreBound arena params before after) :
    ∀ param ∈ params, ∃ id, param.name.Declares arena id .param := by
  induction params generalizing before with
  | nil => simp
  | cons param rest ih =>
      obtain ⟨_, declares, restBound⟩ := bound
      exact List.forall_mem_cons.mpr ⟨⟨_, declares⟩, ih restBound⟩

/-- What a bound statement declares is not built in, and only declarations of constants
declare constants. -/
theorem Stmt.IsPlaced.declares
    {stmt : Stmt}
    (placed : stmt.IsPlaced arena accessors) :
    ∀ ident ∈ stmt.declares, ∃ id kind, ident.Declares arena id kind ∧ kind ≠ .builtin ∧
      ∀ exported, kind = .const exported -> ∃ decl, stmt = .const decl ∧ decl.name = ident := by
  obtain ⟨first, last, bound, _⟩ := placed
  cases stmt with
  | interface decl =>
      obtain ⟨_, declares, _⟩ := bound
      refine List.forall_mem_singleton.mpr ⟨_, _, declares, ?_⟩
      cases decl.kind <;> simp [Binding.declKind]
  | const decl =>
      obtain ⟨_, _, declares, _⟩ := bound
      exact List.forall_mem_singleton.mpr
        ⟨_, _, declares, by simp, fun _ _ => ⟨decl, rfl, rfl⟩⟩
  | var =>
      obtain ⟨_, _, declares, _⟩ := bound
      refine List.forall_mem_singleton.mpr ⟨_, _, declares, ?_⟩
      unfold DeclKind.ofDepth
      split <;> simp
  | struct =>
      obtain ⟨_, declares, _⟩ := bound
      exact List.forall_mem_singleton.mpr ⟨_, _, declares, by simp⟩
  | function =>
      obtain ⟨declares, _, _, _, paramsBound, _⟩ := bound
      refine List.forall_mem_cons.mpr ⟨⟨_, _, declares, by simp⟩, ?_⟩
      rw [List.forall_mem_map]
      intro param mem
      obtain ⟨id, declares⟩ := paramsBound.declares param mem
      exact ⟨id, _, declares, by simp⟩
  | _ => simp [Stmt.declares]

/-- The identifiers that steps declare have ascending numbers. -/
theorem Place.Steps.ascend
    {exports : Bool}
    (steps : Place.Steps arena idents exports before after) :
    Ident.Ascend arena.IsPackage before.next after.next idents := by
  induction steps with
  | refl | publish => exact .nil
  | declare declares => exact .single declares.var_eq
  | package declares => exact .skip declares.members_ne
  | inside _ ih => exact ih
  | trans early late inEarly inLate =>
      exact inEarly.append inLate early.leads.next_le late.leads.next_le

theorem Module.AreBound.ascend
    {modules : List Module}
    {visible : List VarId}
    {next stop : VarId}
    (bound : Module.AreBound arena accessors modules visible next stop) :
    Ident.Ascend arena.IsPackage next stop (modules.flatMap Module.declarations) := by
  induction modules generalizing visible next with
  | nil =>
      obtain rfl : stop = next := bound
      exact .nil
  | cons module rest ih =>
      obtain ⟨last, own, others⟩ := bound
      exact own.statements.steps.ascend.append (ih others)
        own.statements.leads.next_le others.le

end Bound

end ModularGlsl
