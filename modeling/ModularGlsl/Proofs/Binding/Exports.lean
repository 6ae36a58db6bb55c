import ModularGlsl.Proofs.Binding.Source

/-!
# Exports at module level

A module hands over what it exports and what is visible at its end.  If exports
stand at module level, then whatever is exported is visible too, so that the
modules after it can name nothing else.
-/

namespace ModularGlsl

/-- Whether a statement inside a statement exports a name. -/
def Stmt.exportsInside : Stmt -> Bool
  | .exportName _ _ _ | .reexport _ _ _ _ | .const _ => false
  | stmt => stmt.exports

/-- The exports of a module stand at module level. -/
def Module.ExportsOutside (module : Module) : Prop :=
  ∀ stmt ∈ module.statements, stmt.exportsInside = false

/-! ## Places -/

variable {arena : Arena}

section Places

variable {accessors : Accessor -> Prop} {first last : Place}

variable {var : VarId}

theorem Stmt.IsBound.mem_visible_of_exported
    {stmt : Stmt}
    (bound : stmt.IsBound arena accessors first last)
    (outside : stmt.exportsInside = false)
    (mem : var ∈ last.exported) :
    var ∈ first.exported ∨ var ∈ last.visible := by
  have unchanged (silent : stmt.exports = false) : var ∈ first.exported := by
    rw [← bound.steps.exported_eq silent]
    exact mem
  cases stmt with
  | exportName _ _ _ =>
      obtain ⟨id, isVisible, _, rfl⟩ := bound
      rcases List.mem_cons.mp mem with rfl | earlier
      · exact .inr isVisible
      · exact .inl earlier
  | reexport _ _ _ _ =>
      obtain ⟨id, isVisible, rfl⟩ := bound
      rcases List.mem_cons.mp mem with rfl | earlier
      · exact .inr isVisible
      · exact .inl earlier
  | const decl =>
      cases exported : decl.exported with
      | false => exact .inl (unchanged exported)
      | true =>
          obtain ⟨_, _, _, rfl⟩ := bound
          rw [Place.afterConst, exported] at mem ⊢
          rcases List.mem_cons.mp mem with rfl | earlier
          · exact .inr List.mem_cons_self
          · exact .inl earlier
  | _ =>
      exact .inl (unchanged outside)

theorem Stmt.AreBound.mem_visible_of_exported
    {block : List Stmt}
    (bound : Stmt.AreBound arena accessors block first last)
    (outside : ∀ stmt ∈ block, stmt.exportsInside = false)
    (mem : var ∈ last.exported) :
    var ∈ first.exported ∨ var ∈ last.visible := by
  induction block generalizing first with
  | nil =>
      obtain rfl : last = first := bound
      exact .inl mem
  | cons stmt rest ih =>
      obtain ⟨middle, stmtBound, restBound⟩ := bound
      obtain ⟨ownOutside, restOutside⟩ := List.forall_mem_cons.mp outside
      rcases ih restBound restOutside with earlier | isVisible
      · rcases stmtBound.mem_visible_of_exported ownOutside earlier with first | isVisible
        · exact .inl first
        · exact .inr (restBound.leads.visible var isVisible)
      · exact .inr isVisible

/-- A module whose exports stand at module level hands over what is visible at its
end. -/
theorem Module.IsBound.mem_visible_of_handOver
    {module : Module}
    {visible : List VarId}
    {next : VarId}
    {last : Place}
    (bound : module.IsBound arena accessors visible next last)
    (outside : module.ExportsOutside)
    (mem : var ∈ last.handOver) :
    var ∈ last.visible := by
  rcases List.mem_append.mp mem with isExported | isVisible
  · rcases bound.statements.mem_visible_of_exported outside isExported with impossible | isVisible
    · cases impossible
    · exact isVisible
  · exact isVisible

end Places

/-! ## Binding -/

mutual

/-- Names have no part in what a statement exports. -/
theorem Stmt.exports_unbound (stmt : Stmt) : stmt.unbound.exports = stmt.exports := by
  cases stmt with
  | function _ body => rw [Stmt.unbound, exports, exports, Stmt.anyExports_unbound body]
  | cond branches _ => rw [Stmt.unbound, exports, exports, Stmt.anyArmExports_unbound branches]
  | loop init _ step body _ =>
      rw [Stmt.unbound, exports, exports, init.exports_unbound, step.exports_unbound,
        Stmt.anyExports_unbound body]
  | _ => rfl

/-- Names have no part in what a list of statements exports. -/
theorem Stmt.anyExports_unbound (block : List Stmt) :
    Stmt.anyExports (Stmt.unboundBlock block) = Stmt.anyExports block := by
  match block with
  | [] => rfl
  | stmt :: rest =>
      rw [Stmt.unboundBlock, anyExports, anyExports, stmt.exports_unbound,
        Stmt.anyExports_unbound rest]

/-- Names have no part in what the arms of a chain of conditions export. -/
theorem Stmt.anyArmExports_unbound (branches : List (Branch Stmt)) :
    Stmt.anyArmExports (Stmt.unboundBranches branches) = Stmt.anyArmExports branches := by
  match branches with
  | [] => rfl
  | ⟨_, body, _⟩ :: rest =>
      rw [Stmt.unboundBranches, anyArmExports, anyArmExports, Stmt.anyExports_unbound body,
        Stmt.anyArmExports_unbound rest]

end

/-- Names have no part in where a module exports. -/
theorem Module.exportsOutside_unbound (module : Module) :
    module.unbound.ExportsOutside ↔ module.ExportsOutside := by
  have inside_eq (stmt : Stmt) : stmt.unbound.exportsInside = stmt.exportsInside := by
    have exports_eq := stmt.exports_unbound
    cases stmt with
    | exportName | reexport | const => rfl
    | _ => exact exports_eq
  simp [ExportsOutside, unbound, Stmt.unboundBlock_eq_map, inside_eq]

/-- Modules that are bound without a failure export at module level what they did
before. -/
theorem Bundle.exportsOutside_of_bindModules
    {stage : Stage}
    {registry : List (String × Table Export)}
    {modules : List Module}
    (outside : ∀ module ∈ modules, module.ExportsOutside)
    (succeeded : (bindModules stage registry arena modules).2.2 = none) :
    ∀ module ∈ (bindModules stage registry arena modules).1, module.ExportsOutside := by
  intro module mem
  have isOwn : module.unbound ∈ modules.map Module.unbound := by
    rw [← unbound_bindModules succeeded]
    exact List.mem_map_of_mem mem
  obtain ⟨source, isSource, same⟩ := List.mem_map.mp isOwn
  rw [← module.exportsOutside_unbound, ← same, source.exportsOutside_unbound]
  exact outside source isSource

end ModularGlsl
