import ModularGlsl.Proofs.Stage

/-!
# Parts of statements

The parts of a statement are the statement and all statements inside it, in order.  A
view of statements extends to their parts: a build that keeps what a view finds in a
statement keeps what it finds in its parts.
-/

namespace ModularGlsl

variable {stmt : Stmt}

theorem Stmt.mem_partsOfBlock
    {block : List Stmt}
    (mem : stmt ∈ block) :
    stmt ∈ Stmt.partsOfBlock block := by
  induction block with
  | nil => cases mem
  | cons first rest ih =>
      rw [Stmt.partsOfBlock, List.mem_append]
      rcases List.mem_cons.mp mem with rfl | later
      · exact .inl (by cases stmt <;> simp [Stmt.parts])
      · exact .inr (ih later)

/-- The statements of a module and all statements inside them. -/
def Module.parts (module : Module) : List Stmt :=
  Stmt.partsOfBlock module.statements

/-- The expressions of a module, of all its statements. -/
def Module.exprs (module : Module) : List Expr :=
  module.parts.flatMap Stmt.exprs

theorem Stmt.partsOfBlock_eq_flatMap (block : List Stmt) :
    Stmt.partsOfBlock block = block.flatMap Stmt.parts := by
  induction block with
  | nil => rfl
  | cons stmt rest ih =>
      rw [partsOfBlock, ih, List.flatMap_cons]

theorem Stmt.sublist_flatMap_parts (block : List Stmt) :
    block.Sublist (block.flatMap Stmt.parts) := by
  induction block with
  | nil => exact .refl _
  | cons stmt rest ih =>
      have own : [stmt].Sublist stmt.parts := by cases stmt <;> simp [Stmt.parts]
      exact own.append ih

/-! ## Conditions -/

section Every

variable {onExpr : Expr -> Prop} {onStmt : Stmt -> Prop} {part : Stmt}

/-- A requirement on the statements of a module holds of its expressions. -/
theorem Stmt.EveryIn.of_mem_exprs
    {module : Module}
    (satisfied : Stmt.EveryIn onExpr onStmt module.statements) :
    ∀ expr ∈ module.exprs, onExpr expr := by
  intro expr mem
  obtain ⟨part, isPart, isOwn⟩ := List.mem_flatMap.mp mem
  exact ((Stmt.everyIn_iff_parts _).mp satisfied part isPart).2 expr isOwn

end Every

/-! ## Bound parts -/

section Bound

variable {arena : Arena} {accessors : Accessor -> Prop} {part : Stmt}

/-- A statement is bound at a place where what is visible has a number. -/
def Stmt.IsPlaced
    (arena : Arena)
    (accessors : Accessor -> Prop)
    (stmt : Stmt) : Prop :=
  ∃ first last, stmt.IsBound arena accessors first last ∧ Place.InRange first

mutual

theorem Stmt.IsBound.of_mem_parts
    (stmt : Stmt)
    {first last : Place}
    (bound : stmt.IsBound arena accessors first last)
    (inRange : first.InRange)
    (mem : part ∈ stmt.parts) :
    part.IsPlaced arena accessors := by
  cases stmt with
  | function _ body =>
      rw [Stmt.parts, List.mem_cons] at mem
      rcases mem with rfl | inBody
      · exact ⟨first, last, bound, inRange⟩
      · obtain ⟨_, _, _, _, paramsBound, bodyBound, _⟩ := bound
        have start := paramsBound.leads.inRange (first.leads_declare.inRange inRange).enter
        exact Stmt.AreBound.of_mem_parts body bodyBound start inBody
  | cond branches _ =>
      rw [Stmt.parts, List.mem_cons] at mem
      rcases mem with rfl | inBranches
      · exact ⟨first, last, bound, inRange⟩
      · exact Stmt.BranchesBound.of_mem_parts branches bound inRange inBranches
  | loop init _ step body _ =>
      rw [Stmt.parts, List.mem_cons, List.mem_append, List.mem_append] at mem
      rcases mem with rfl | mem
      · exact ⟨first, last, bound, inRange⟩
      · obtain ⟨_, _, _, initBound, _, stepBound, bodyBound, _⟩ := bound
        have atStep := initBound.leads.inRange inRange.enter
        rcases mem with inInit | inStep | inBody
        · exact initBound.of_mem_parts init inRange.enter inInit
        · exact stepBound.of_mem_parts step atStep inStep
        · exact Stmt.AreBound.of_mem_parts body bodyBound (stepBound.leads.inRange atStep) inBody
  | _ =>
      rw [List.mem_singleton.mp mem]
      exact ⟨first, last, bound, inRange⟩

theorem Stmt.AreBound.of_mem_parts
    (block : List Stmt)
    {first last : Place}
    (bound : Stmt.AreBound arena accessors block first last)
    (inRange : first.InRange)
    (mem : part ∈ Stmt.partsOfBlock block) :
    part.IsPlaced arena accessors := by
  match block with
  | [] => cases mem
  | stmt :: rest =>
      obtain ⟨_, stmtBound, restBound⟩ := bound
      rw [Stmt.partsOfBlock, List.mem_append] at mem
      rcases mem with inStmt | inRest
      · exact stmtBound.of_mem_parts stmt inRange inStmt
      · exact Stmt.AreBound.of_mem_parts rest restBound (stmtBound.leads.inRange inRange) inRest

theorem Stmt.BranchesBound.of_mem_parts
    (branches : List (Branch Stmt))
    {first last : Place}
    (bound : Stmt.BranchesBound arena accessors branches first last)
    (inRange : first.InRange)
    (mem : part ∈ Stmt.partsOfBranches branches) :
    part.IsPlaced arena accessors := by
  match branches with
  | [] => cases mem
  | ⟨_, body, _⟩ :: rest =>
      obtain ⟨_, _, bodyBound, restBound⟩ := bound
      rw [Stmt.partsOfBranches, List.mem_append] at mem
      rcases mem with inBody | inRest
      · exact Stmt.AreBound.of_mem_parts body bodyBound inRange.enter inBody
      · exact Stmt.BranchesBound.of_mem_parts rest restBound
          (bodyBound.leads.leave.inRange inRange) inRest

end

theorem Module.AreBound.of_mem_parts
    {modules : List Module}
    {visible : List VarId}
    {next stop : VarId}
    (bound : Module.AreBound arena accessors modules visible next stop)
    (below : ∀ var ∈ visible, var < next) :
    ∀ module ∈ modules, ∀ part ∈ module.parts, part.IsPlaced arena accessors := by
  induction modules generalizing visible next with
  | nil => simp
  | cons module rest ih =>
      obtain ⟨_, own, others⟩ := bound
      have start := Place.inRange_ofModule below
      exact List.forall_mem_cons.mpr
        ⟨fun _ => Stmt.AreBound.of_mem_parts _ own.statements start,
          ih others (Place.handOver_lt (own.statements.leads.inRange start))⟩

end Bound

/-! ## Views of parts -/

/-- What a view finds in the parts of a statement, unless it is an accessor. -/
def Stmt.within
    {β : Type}
    (view : Stmt -> Option β) : Stmt -> Option (List β)
  | .accessor _ => none
  | stmt => some (stmt.parts.filterMap view)

section Views

variable {β : Type} {view : Stmt -> Option β}

/-- What a view finds in the parts of a module, if accessors are of no interest. -/
theorem Module.flatten_collect_within
    (accessor_eq : ∀ accessor, view (.accessor accessor) = none)
    (module : Module) :
    (module.collect (Stmt.within view)).flatten = module.parts.filterMap view := by
  rw [parts, collect]
  induction module.statements with
  | nil => rfl
  | cons stmt rest ih =>
      rw [Stmt.partsOfBlock, List.filterMap_append, ← ih, List.filterMap_cons]
      cases stmt with
      | accessor accessor => simp [Stmt.within, Stmt.parts, accessor_eq]
      | _ => rfl

/-- Accessors have no part in what a plain view finds in the parts of a statement. -/
theorem Stmt.IsPlainView.within (plain : IsPlainView view) : IsPlainView (Stmt.within view) where
  erase_eq stmt := by
    have parts_eq : stmt.erase.parts.filterMap view = stmt.parts.filterMap view := by
      rw [Stmt.parts_erase, List.filterMap_map]
      exact List.filterMap_congr fun part _ => plain.erase_eq part
    cases stmt with
    | accessor => rfl
    | _ => exact congrArg some parts_eq
  accessor_eq _ := rfl

mutual

/-- Parts lose their variables with their statement. -/
theorem Stmt.parts_unbound (stmt : Stmt) : stmt.unbound.parts = stmt.parts.map Stmt.unbound := by
  cases stmt with
  | function _ body =>
      rw [Stmt.unbound, Stmt.parts, Stmt.parts, List.map_cons, Stmt.partsOfBlock_unbound body,
        Stmt.unbound]
  | cond branches _ =>
      rw [Stmt.unbound, Stmt.parts, Stmt.parts, List.map_cons,
        Stmt.partsOfBranches_unbound branches, Stmt.unbound]
  | loop init _ step body _ =>
      rw [Stmt.unbound, Stmt.parts, Stmt.parts, List.map_cons, List.map_append, List.map_append,
        init.parts_unbound, step.parts_unbound, Stmt.partsOfBlock_unbound body, Stmt.unbound]
  | _ => rfl

theorem Stmt.partsOfBlock_unbound (block : List Stmt) :
    Stmt.partsOfBlock (Stmt.unboundBlock block) =
      (Stmt.partsOfBlock block).map Stmt.unbound := by
  match block with
  | [] => rfl
  | stmt :: rest =>
      rw [Stmt.unboundBlock, Stmt.partsOfBlock, Stmt.partsOfBlock, List.map_append,
        stmt.parts_unbound, Stmt.partsOfBlock_unbound rest]

theorem Stmt.partsOfBranches_unbound (branches : List (Branch Stmt)) :
    Stmt.partsOfBranches (Stmt.unboundBranches branches) =
      (Stmt.partsOfBranches branches).map Stmt.unbound := by
  match branches with
  | [] => rfl
  | ⟨_, body, _⟩ :: rest =>
      rw [Stmt.unboundBranches, Stmt.partsOfBranches, Stmt.partsOfBranches, List.map_append,
        Stmt.partsOfBlock_unbound body, Stmt.partsOfBranches_unbound rest]

end

/-- Names have no part in what a view of the source finds in the parts of a statement. -/
theorem Stmt.IsSourceView.within (source : IsSourceView view) :
    IsSourceView (Stmt.within view) where
  toIsPlainView := source.toIsPlainView.within
  unbound_eq stmt := by
    have parts_eq : stmt.unbound.parts.filterMap view = stmt.parts.filterMap view := by
      rw [Stmt.parts_unbound, List.filterMap_map]
      exact List.filterMap_congr fun part _ => source.unbound_eq part
    cases stmt with
    | accessor => rfl
    | _ => exact congrArg some parts_eq

end Views

/-! ## Constants -/

/-- The constant that a statement declares. -/
def Stmt.const? : Stmt -> Option ConstDecl
  | .const decl => some decl
  | _ => none

theorem Stmt.const?_eq_some {decl : ConstDecl} :
    stmt.const? = some decl ↔ stmt = .const decl := by
  cases stmt <;> simp [const?]

/-- The constants of a bundle, at whatever depth its modules declare them. -/
def Bundle.consts (bundle : Bundle) : List ConstDecl :=
  bundle.modules.flatMap fun module => module.parts.filterMap Stmt.const?

theorem Bundle.mem_consts
    {bundle : Bundle}
    {decl : ConstDecl} :
    decl ∈ bundle.consts ↔ ∃ module ∈ bundle.modules, .const decl ∈ module.parts := by
  simp [consts, List.mem_flatMap, List.mem_filterMap, Stmt.const?_eq_some]

/-- The variables of constants. -/
def ConstDecl.vars (decls : List ConstDecl) : List (Option VarId) :=
  decls.map fun decl => decl.name.var

end ModularGlsl
