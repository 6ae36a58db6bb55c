import ModularGlsl.Bundle
import ModularGlsl.Proofs.Binding.Bound

/-!
# Bound programs

A bound tree numbers its declarations upwards and leaves visible what was
visible before it.  The modules of a program are bound one after the other: each
starts with all that is visible at the end of the one before it or exported by
it, at depth zero.
-/

namespace ModularGlsl

/-! ## Order of places -/

/-- All that can be named at a place has a number already. -/
structure Place.InRange (place : Place) : Prop where
  /-- Visible variables have a number. -/
  visible : ∀ var ∈ place.visible, var < place.next
  /-- Exported variables have a number. -/
  exported : ∀ var ∈ place.exported, var < place.next

/-- A place comes before another one in the same function or block. -/
structure Place.Leads (before after : Place) : Prop where
  /-- Numbers only grow. -/
  next_le : before.next ≤ after.next
  /-- The nesting is the same. -/
  depth_eq : after.depth = before.depth
  /-- What is visible stays visible. -/
  visible : ∀ var ∈ before.visible, var ∈ after.visible
  /-- What becomes visible has a new number. -/
  fresh : ∀ var ∈ after.visible, var ∈ before.visible ∨ before.next ≤ var ∧ var < after.next
  /-- What is exported stays exported. -/
  exported : ∀ var ∈ before.exported, var ∈ after.exported
  /-- What becomes exported has a number. -/
  exported_lt : before.InRange -> ∀ var ∈ after.exported, var < after.next

variable {before after place : Place}

namespace Place

theorem Leads.refl (place : Place) : place.Leads place :=
  ⟨Nat.le_refl _, rfl, fun _ mem => mem, fun _ mem => .inl mem,
    fun _ mem => mem, fun inRange => inRange.exported⟩

/-- What can be named later has a number then. -/
theorem Leads.inRange
    (leads : before.Leads after)
    (inRange : before.InRange) :
    after.InRange where
  visible var mem := by
    rcases leads.fresh var mem with earlier | ⟨_, below⟩
    · exact Nat.lt_of_lt_of_le (inRange.visible var earlier) leads.next_le
    · exact below
  exported := leads.exported_lt inRange

theorem Leads.trans
    {middle : Place}
    (early : before.Leads middle)
    (late : middle.Leads after) :
    before.Leads after where
  next_le := Nat.le_trans early.next_le late.next_le
  depth_eq := late.depth_eq.trans early.depth_eq
  visible var mem := late.visible var (early.visible var mem)
  fresh var mem := by
    rcases late.fresh var mem with earlier | ⟨above, below⟩
    · rcases early.fresh var earlier with first | ⟨above, below⟩
      · exact .inl first
      · exact .inr ⟨above, Nat.lt_of_lt_of_le below late.next_le⟩
    · exact .inr ⟨Nat.le_trans early.next_le above, below⟩
  exported var mem := late.exported var (early.exported var mem)
  exported_lt inRange := late.exported_lt (early.inRange inRange)

theorem leads_declare (place : Place) : place.Leads place.declare where
  next_le := Nat.le_succ _
  depth_eq := rfl
  visible _ mem := List.mem_cons_of_mem _ mem
  fresh var mem := by
    rcases List.mem_cons.mp mem with same | earlier
    · exact .inr ⟨Nat.le_of_eq same.symm, Nat.lt_succ_of_le (Nat.le_of_eq same)⟩
    · exact .inl earlier
  exported _ mem := mem
  exported_lt inRange var mem := Nat.lt_succ_of_lt (inRange.exported var mem)

/-- The place after an export of a variable that has a number. -/
theorem leads_publish
    {var : VarId}
    (below : place.InRange -> var < place.next) :
    place.Leads (place.publish var) where
  next_le := Nat.le_refl _
  depth_eq := rfl
  visible _ mem := mem
  fresh _ mem := .inl mem
  exported _ mem := List.mem_cons_of_mem _ mem
  exported_lt inRange other mem := by
    rcases List.mem_cons.mp mem with same | earlier
    · rw [same]
      exact below inRange
    · exact inRange.exported other earlier

/-- The start of a block can name what the place before it can. -/
theorem InRange.enter (inRange : place.InRange) :
    place.enter.InRange :=
  ⟨inRange.visible, inRange.exported⟩

theorem Leads.leave
    {inner : Place}
    (leads : place.enter.Leads inner) :
    place.Leads (place.leave inner) where
  next_le := leads.next_le
  depth_eq := rfl
  visible _ mem := mem
  fresh _ mem := .inl mem
  exported := leads.exported
  exported_lt inRange := leads.exported_lt inRange.enter

end Place

variable {accessors : Accessor -> Prop} {arena : Arena} {visible : List VarId}
variable {modules : List Module}

/-! ## Steps -/

/-- Steps from one place to another, with the identifiers that they declare and whether they
export. -/
inductive Place.Steps (arena : Arena) : List Ident -> Bool -> Place -> Place -> Prop
  /-- No step. -/
  | refl (place : Place) : Steps arena [] false place place
  /-- A declaration. -/
  | declare
      {place : Place}
      {ident : Ident}
      {kind : DeclKind}
      (declares : ident.Declares arena place.next kind) :
      Steps arena [ident] false place place.declare
  /-- An import of a package. -/
  | package
      {place : Place}
      {ident : Ident}
      (declares : ident.DeclaresPackage arena place) :
      Steps arena [] false place place.declare
  /-- An export. -/
  | publish
      {place : Place}
      {var : VarId}
      (isVisible : var ∈ place.visible) :
      Steps arena [] true place (place.publish var)
  /-- A function or block. -/
  | inside
      {place inner : Place}
      {idents : List Ident}
      {exports : Bool}
      (steps : Steps arena idents exports place.enter inner) :
      Steps arena idents exports place (place.leave inner)
  /-- Steps after others. -/
  | trans
      {before middle after : Place}
      {idents others : List Ident}
      {exports exportsLater : Bool}
      (early : Steps arena idents exports before middle)
      (late : Steps arena others exportsLater middle after) :
      Steps arena (idents ++ others) (exports || exportsLater) before after

variable {params : List Param}

theorem Param.AreBound.steps (bound : Param.AreBound arena params before after) :
    Place.Steps arena (params.map Param.name) false before after := by
  induction params generalizing before with
  | nil =>
      obtain rfl : after = before := bound
      exact .refl _
  | cons param rest ih =>
      obtain ⟨_, declares, restBound⟩ := bound
      exact .trans (.declare declares) (ih restBound)

mutual

/-- A bound statement declares what its parts declare. -/
theorem Stmt.IsBound.steps
    {arena : Arena}
    {accessors : Accessor -> Prop}
    {stmt : Stmt}
    {before after : Place}
    (bound : stmt.IsBound arena accessors before after) :
    Place.Steps arena (stmt.parts.flatMap Stmt.declares) stmt.exports before after := by
  cases stmt with
  | version _ _ _ | extension _ _ _ =>
      obtain rfl : after = before := bound
      exact .refl _
  | importAll _ _ _ =>
      obtain ⟨declares, rfl⟩ := bound
      exact .package declares
  | reexport _ _ _ _ =>
      obtain ⟨_, isVisible, rfl⟩ := bound
      exact .publish isVisible
  | exportName _ _ _ =>
      obtain ⟨_, isVisible, _, rfl⟩ := bound
      exact .publish isVisible
  | interface _ | struct _ =>
      obtain ⟨_, declares, rfl⟩ := bound
      exact .declare declares
  | const decl =>
      obtain ⟨_, _, declares, rfl⟩ := bound
      rw [Stmt.exports, Place.afterConst]
      cases decl.exported with
      | false => exact .declare declares
      | true => exact .trans (.declare declares) (.publish List.mem_cons_self)
  | var _ =>
      obtain ⟨_, _, declares, rfl⟩ := bound
      exact .declare declares
  | function _ _ =>
      obtain ⟨declares, _, _, _, paramsBound, bodyBound, rfl⟩ := bound
      have inside := paramsBound.steps.trans (Stmt.AreBound.steps bodyBound)
      exact .trans (.declare declares) inside.inside
  | assign _ _ _ _ | call _ _ _ =>
      obtain ⟨_, _, rfl⟩ := bound
      exact .refl _
  | setIndex _ _ _ _ _ =>
      obtain ⟨_, _, _, rfl⟩ := bound
      exact .refl _
  | cond _ _ => exact Stmt.BranchesBound.steps bound
  | loop _ _ _ _ _ =>
      obtain ⟨_, _, _, initBound, _, stepBound, bodyBound, rfl⟩ := bound
      have inside := (initBound.steps.trans stepBound.steps).trans (Stmt.AreBound.steps bodyBound)
      rw [List.append_assoc, ← List.flatMap_append, ← List.flatMap_append] at inside
      exact inside.inside
  | _ =>
      obtain ⟨_, rfl⟩ := bound
      exact .refl _

theorem Stmt.AreBound.steps
    {arena : Arena}
    {accessors : Accessor -> Prop}
    {block : List Stmt}
    {before after : Place}
    (bound : Stmt.AreBound arena accessors block before after) :
    Place.Steps arena ((Stmt.partsOfBlock block).flatMap Stmt.declares) (Stmt.anyExports block)
      before after := by
  match block with
  | [] =>
      obtain rfl : after = before := bound
      exact .refl _
  | stmt :: rest =>
      obtain ⟨_, stmtBound, restBound⟩ := bound
      rw [Stmt.partsOfBlock, List.flatMap_append]
      exact stmtBound.steps.trans (Stmt.AreBound.steps restBound)

theorem Stmt.BranchesBound.steps
    {arena : Arena}
    {accessors : Accessor -> Prop}
    {branches : List (Branch Stmt)}
    {before after : Place}
    (bound : Stmt.BranchesBound arena accessors branches before after) :
    Place.Steps arena ((Stmt.partsOfBranches branches).flatMap Stmt.declares)
      (Stmt.anyArmExports branches) before after := by
  match branches with
  | [] =>
      obtain rfl : after = before := bound
      exact .refl _
  | ⟨_, body, _⟩ :: rest =>
      obtain ⟨_, _, bodyBound, restBound⟩ := bound
      rw [Stmt.partsOfBranches, List.flatMap_append]
      exact (Stmt.AreBound.steps bodyBound).inside.trans (Stmt.BranchesBound.steps restBound)

end

section Steps

variable {idents : List Ident} {exports : Bool}
variable (steps : Place.Steps arena idents exports before after)
include steps

theorem Place.Steps.leads : before.Leads after := by
  induction steps with
  | refl place => exact .refl place
  | declare | package => exact leads_declare _
  | publish isVisible => exact leads_publish fun inRange => inRange.visible _ isVisible
  | inside _ ih => exact ih.leave
  | trans _ _ early late => exact early.trans late

/-- Without exports, as much is exported after the steps as before them. -/
theorem Place.Steps.exported_eq (silent : exports = false) :
    after.exported = before.exported := by
  induction steps with
  | refl | declare | package => rfl
  | publish => cases silent
  | inside _ ih => exact ih silent
  | trans _ _ early late =>
      obtain ⟨isEarly, isLate⟩ := Bool.or_eq_false_iff.mp silent
      exact (late isLate).trans (early isEarly)

end Steps

theorem Param.AreBound.leads (bound : Param.AreBound arena params before after) :
    before.Leads after :=
  bound.steps.leads

theorem Stmt.IsBound.leads
    {stmt : Stmt}
    (bound : stmt.IsBound arena accessors before after) :
    before.Leads after :=
  bound.steps.leads

theorem Stmt.AreBound.leads
    {block : List Stmt}
    (bound : Stmt.AreBound arena accessors block before after) :
    before.Leads after :=
  bound.steps.leads

theorem Stmt.BranchesBound.leads
    {branches : List (Branch Stmt)}
    (bound : Stmt.BranchesBound arena accessors branches before after) :
    before.Leads after :=
  bound.steps.leads

/-! ## Modules -/

/-- The place at the start of a module. -/
def Place.ofModule
    (visible : List VarId)
    (next : VarId) : Place :=
  { visible := visible, exported := [], next := next, depth := 0 }

/-- What the module after a place can name. -/
def Place.handOver (place : Place) : List VarId :=
  place.exported ++ place.visible

variable {next stop : VarId}

/-- A module can name what has a number at its start. -/
theorem Place.inRange_ofModule
    (below : ∀ var ∈ visible, var < next) :
    (Place.ofModule visible next).InRange :=
  ⟨below, fun _ mem => by cases mem⟩

theorem Place.handOver_lt (inRange : place.InRange) :
    ∀ var ∈ place.handOver, var < place.next := by
  intro var mem
  rcases List.mem_append.mp mem with isExported | isVisible
  · exact inRange.exported var isExported
  · exact inRange.visible var isVisible

/-- A module is bound from its start to a place, and its main function is one of
the visible functions there. -/
structure Module.IsBound
    (arena : Arena)
    (accessors : Accessor -> Prop)
    (module : Module)
    (visible : List VarId)
    (next : VarId)
    (last : Place) : Prop where
  /-- The statements lead from the start to the place. -/
  statements : Stmt.AreBound arena accessors module.statements (.ofModule visible next) last
  /-- The main function is visible and a function. -/
  main : ∀ main ∈ module.main, main ∈ last.visible ∧ (arena.get main).decl = .function

/-- Modules are bound one after the other. -/
def Module.AreBound
    (arena : Arena)
    (accessors : Accessor -> Prop) : List Module -> List VarId -> VarId -> VarId -> Prop
  | [], _, next, stop => stop = next
  | module :: rest, visible, next, stop =>
      ∃ last, module.IsBound arena accessors visible next last ∧
        Module.AreBound arena accessors rest last.handOver last.next stop

theorem Stmt.AreBound.exists_of_mem
    {block : List Stmt}
    {first last : Place}
    (bound : Stmt.AreBound arena accessors block first last)
    {stmt : Stmt}
    (mem : stmt ∈ block) :
    ∃ before after, first.Leads before ∧ stmt.IsBound arena accessors before after ∧
      after.Leads last := by
  induction block generalizing first with
  | nil => cases mem
  | cons head rest ih =>
      obtain ⟨middle, headBound, restBound⟩ := bound
      rcases List.mem_cons.mp mem with rfl | later
      · exact ⟨first, middle, .refl first, headBound, restBound.leads⟩
      · obtain ⟨before, after, leads, stmtBound, rest⟩ := ih restBound later
        exact ⟨before, after, headBound.leads.trans leads, stmtBound, rest⟩

variable {module : Module}

section

variable (bound : Module.AreBound arena accessors modules visible next stop)
include bound

/-- The modules of a bound program are numbered upwards. -/
theorem Module.AreBound.le :
    next ≤ stop := by
  induction modules generalizing visible next with
  | nil => exact Nat.le_of_eq bound.symm
  | cons module rest ih =>
      obtain ⟨last, own, others⟩ := bound
      exact Nat.le_trans own.statements.leads.next_le (ih others)

theorem Module.AreBound.exists_of_mem (mem : module ∈ modules) :
    ∃ visible next last, module.IsBound arena accessors visible next last := by
  induction modules generalizing visible next with
  | nil => cases mem
  | cons head rest ih =>
      obtain ⟨last, own, others⟩ := bound
      rcases List.mem_cons.mp mem with rfl | later
      · exact ⟨visible, next, last, own⟩
      · exact ih others later

end

variable {state : State}

namespace Binding

/-- The main function of a module is a function. -/
theorem decl_of_mainOf?
    {main : VarId}
    (found : mainOf? state = some main) :
    main ∈ state.scope.vars ∧ main < state.arena.size ∧
      (state.arena.get main).decl = .function := by
  obtain ⟨bound, isFunction⟩ := Option.filter_eq_some_iff.mp found
  have decl_eq : (state.arena.get main).decl = .function := by simpa using isFunction
  refine ⟨Scope.mem_vars_of_lookupInnermost bound, ?_, decl_eq⟩
  rcases Nat.lt_or_ge main state.arena.size with inside | outside
  · exact inside
  · rw [Arena.get_of_size_le outside] at decl_eq
    cases decl_eq

end Binding

namespace Bundle

open Binding

/-- What is visible before modules are bound. -/
structure Sees
    (stage : Stage)
    (registry : List (String × Table Export))
    (arena : Arena)
    (visible : List VarId) : Prop where
  /-- The built-in variables. -/
  globals : ∀ entry ∈ stage.globals, entry.2 ∈ visible
  /-- What the modules bound before export. -/
  registered : ∀ registered ∈ registry, ∀ entry ∈ registered.2.entries, entry.2.var ∈ visible
  /-- The members of packages. -/
  packages : ∀ id members, (arena.get id).members = some members ->
    ∀ entry ∈ members.entries, entry.2 ∈ visible

variable {registry : List (String × Table Export)} {stage : Stage}

/-- The state at the start of a module. -/
theorem Sees.startAt (sees : Sees stage registry arena visible) :
    State.At (· ∈ visible) (.ofModule visible arena.size)
      { arena := arena, scope := Scope.ofGlobals stage.globals } where
  size_eq := rfl
  depth_eq := rfl
  visible var bound := by
    obtain ⟨entry, mem, rfl⟩ := List.mem_map.mp (Scope.mem_vars_ofGlobals.mp bound)
    exact sees.globals entry mem
  known_visible _ isKnown := isKnown
  exported entry mem := by cases mem
  packages := sees.packages

theorem runs_of_bindModules_cons
    {rest : List Module}
    (succeeded : (bindModules stage registry arena (module :: rest)).2.2 = none) :
    ∃ statements state,
      Runs (bindBlock { stage := stage, registry := registry, path := module.path }
          module.statements)
        { arena := arena, scope := Scope.ofGlobals stage.globals } statements state ∧
      (bindModules stage ((module.path, state.exports) :: registry) state.arena rest).2.2 = none ∧
      (bindModules stage registry arena (module :: rest)).1 =
        { module with statements := statements, exports := state.exports, main := mainOf? state } ::
          (bindModules stage ((module.path, state.exports) :: registry) state.arena rest).1 ∧
      (bindModules stage registry arena (module :: rest)).2.1 =
        (bindModules stage ((module.path, state.exports) :: registry) state.arena rest).2.1 := by
  rw [bindModules] at succeeded ⊢
  dsimp only at succeeded ⊢
  cases failed : (module.bind { stage := stage, registry := registry, path := module.path }
      stage.globals arena).2.failure with
  | some diagnostic =>
      rw [failed] at succeeded
      cases succeeded
  | none =>
      rw [failed] at succeeded
      dsimp only at succeeded ⊢
      split at succeeded
      · cases succeeded
      · next mem =>
          rw [if_neg mem]
          exact ⟨_, _, ⟨rfl, failed⟩, succeeded, rfl, rfl⟩

/-- Binding modules keeps what every single step of binding keeps. -/
theorem holds_bindModules
    {declarable : String -> Prop}
    {holds : Arena -> Prop}
    (admits : ∀ registry path,
      Admits { stage := stage, registry := registry, path := path } declarable
        fun before after => holds before.arena -> holds after.arena)
    (declared : ∀ module ∈ modules, ∀ name ∈ Stmt.declaredNamesOfBlock module.statements,
      declarable name)
    (held : holds arena)
    (succeeded : (bindModules stage registry arena modules).2.2 = none) :
    holds (bindModules stage registry arena modules).2.1 := by
  induction modules generalizing registry arena with
  | nil => exact held
  | cons module rest ih =>
      obtain ⟨_, _, run, later, _, arena_eq⟩ := runs_of_bindModules_cons succeeded
      obtain ⟨own, others⟩ := List.forall_mem_cons.mp declared
      rw [arena_eq]
      exact ih others
        ((follows_bindBlock (admits _ _) _ own).of_runs run held) later

theorem Sees.bindBlock
    (sees : Sees stage registry arena visible)
    {path : String}
    {block bound : List Stmt}
    (fresh : Stmt.EveryIn (Expr.MembersSatisfy (· ∈ visible)) (Stmt.AccessorSatisfies accessors) block)
    (run : Runs (bindBlock { stage := stage, registry := registry, path := path } block)
      { arena := arena, scope := Scope.ofGlobals stage.globals } bound state) :
    ∃ last, state.At (· ∈ visible) last ∧ arena.Grows state.arena ∧
      (∀ final, state.arena.Keeps final ->
        Stmt.AreBound final accessors bound (.ofModule visible arena.size) last) ∧
      (∀ var ∈ visible, var ∈ last.handOver) ∧
        Sees stage ((path, state.exports) :: registry) state.arena last.handOver := by
  have knows : Context.Knows { stage := stage, registry := registry, path := path }
      (· ∈ visible) := sees.registered
  obtain ⟨last, lastAt, extended, blockBound⟩ := areBound_of_bindBlock knows _ fresh sees.startAt run
  have handedOver : ∀ var ∈ visible, var ∈ last.handOver := fun var mem =>
    List.mem_append_right _ (lastAt.known_visible var mem)
  refine ⟨last, lastAt, extended.grows, blockBound, handedOver, ?_, ?_, ?_⟩
  · exact fun entry mem => handedOver _ (sees.globals entry mem)
  · intro registered mem entry held
    rcases List.mem_cons.mp mem with rfl | earlier
    · exact List.mem_append_left _ (lastAt.exported entry held)
    · exact handedOver _ (sees.registered registered earlier entry held)
  · intro id members held entry mem
    exact handedOver _ (lastAt.packages id members held entry mem)

theorem freshFor_of_subset
    {visible later : List VarId}
    (subset : ∀ var ∈ visible, var ∈ later)
    (fresh : ∀ module ∈ modules,
      Stmt.EveryIn (Expr.MembersSatisfy (· ∈ visible)) (Stmt.AccessorSatisfies accessors)
        module.statements) :
    ∀ module ∈ modules,
      Stmt.EveryIn (Expr.MembersSatisfy (· ∈ later)) (Stmt.AccessorSatisfies accessors)
        module.statements := by
  intro module mem
  exact Stmt.EveryIn.mono (fun _ => Expr.MembersSatisfy.mono subset) (fun _ same => same)
    (fresh module mem)

/-- Modules that are bound without a failure form a bound program. -/
theorem areBound_of_bindModules
    (sees : Sees stage registry arena visible)
    (fresh : ∀ module ∈ modules,
      Stmt.EveryIn (Expr.MembersSatisfy (· ∈ visible)) (Stmt.AccessorSatisfies accessors)
        module.statements)
    (succeeded : (bindModules stage registry arena modules).2.2 = none) :
    arena.Grows (bindModules stage registry arena modules).2.1 ∧
      ∀ final, (bindModules stage registry arena modules).2.1.Keeps final ->
        Module.AreBound final accessors (bindModules stage registry arena modules).1 visible arena.size
          (bindModules stage registry arena modules).2.1.size := by
  induction modules generalizing registry arena visible with
  | nil => exact ⟨.refl _, fun _ _ => rfl⟩
  | cons module rest ih =>
      obtain ⟨statements, state, run, later, modules_eq, arena_eq⟩ :=
        runs_of_bindModules_cons succeeded
      obtain ⟨own, others⟩ := List.forall_mem_cons.mp fresh
      obtain ⟨last, lastAt, growsOwn, statementsBound, handedOver, seesNext⟩ :=
        sees.bindBlock own run
      obtain ⟨grows, restBound⟩ :=
        ih seesNext (freshFor_of_subset handedOver others) later
      rw [arena_eq, modules_eq]
      refine ⟨growsOwn.trans grows, fun final keepsFinal => ?_⟩
      have keepsState := grows.keeps.trans keepsFinal
      refine ⟨last, ⟨statementsBound final keepsState, ?_⟩, ?_⟩
      · intro main found
        obtain ⟨bound, inside, decl_eq⟩ := decl_of_mainOf? found
        exact ⟨lastAt.visible main bound, by rw [keepsState.decl_eq inside, decl_eq]⟩
      · rw [← lastAt.size_eq]
        exact restBound final keepsFinal

end Bundle

end ModularGlsl
