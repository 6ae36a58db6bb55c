import ModularGlsl.Proofs.Build

/-!
# Functions of modules

A function of a module stays bound to its name in the frame of the module: it is
a constant, and no later declaration or import takes the name of a constant.  So
a module that declares a function under the name of a main function has it as its
main function.
-/

namespace ModularGlsl
variable {accessors : Accessor -> Prop}

namespace Binding

/-- The frame of the module binds a name to a constant. -/
structure State.Holds
    (name : String)
    (var : VarId)
    (record : Variable)
    (state : State) : Prop where
  /-- The name is bound. -/
  bound : state.scope.base.get? name = some var
  /-- The variable exists. -/
  lt_size : var < state.arena.size
  /-- The variable has a given record. -/
  get_eq : state.arena.get var = record

/-- A constant of a module stays bound whatever is declared later. -/
theorem admits_holds
    (context : Context)
    (name : String)
    (var : VarId)
    (record : Variable)
    (constant : record.constant = true) :
    Admits context (fun _ => True) fun before after =>
      before.Holds name var record -> after.Holds name var record where
  refl _ holds := holds
  trans early late holds := late (early holds)
  fail _ _ _ _ holds := ⟨holds.bound, holds.lt_size, holds.get_eq⟩
  frames _ _ holds := ⟨holds.bound, holds.lt_size, holds.get_eq⟩
  publish _ _ holds := ⟨holds.bound, holds.lt_size, holds.get_eq⟩
  alloc state record _ _ holds := by
    refine ⟨holds.bound, ?_, ?_⟩
    · exact Nat.lt_of_lt_of_le holds.lt_size (by simp)
    · exact (Arena.get_alloc_of_lt record holds.lt_size).trans holds.get_eq
  declare state other id span scope accepted holds := by
    refine ⟨?_, holds.lt_size, holds.get_eq⟩
    obtain rfl := Scope.eq_bind_of_declare accepted
    cases inner : state.scope.inner with
    | cons frame rest => simpa [Scope.bind, inner] using holds.bound
    | nil =>
        -- The innermost frame is that of the module, which keeps the name.
        have found : state.scope.lookupInnermost name = some var := by
          simpa [Scope.lookupInnermost, Scope.innermost, inner] using holds.bound
        have different : name ≠ other := by
          rintro rfl
          simp [Scope.declare, found, holds.get_eq, constant] at accepted
        simpa [Scope.bind, inner, Frame.get?_bind_of_ne _ _ different] using holds.bound

/-- The record of a function. -/
def functionRecord (ident : Ident) : Variable :=
  { name := ident.name, constant := true, decl := .function, span := ident.span }

section Function

variable {context : Context} {before after : State} {header : FunctionHeader}

/-- A function of a module is bound to its name once its header is. -/
theorem holds_of_bindHeader
    {bound : FunctionHeader}
    (atTop : before.scope.depth = 0)
    (run : Runs (bindHeader header) before bound after) :
    bound.name = { header.name with var := some before.arena.size } ∧
      after.Holds header.name.name before.arena.size (functionRecord header.name) := by
  have keeps := admits_holds ⟨.vertex, [], ""⟩ header.name.name before.arena.size
    (functionRecord header.name) rfl
  obtain ⟨_, _, rfl, run⟩ := run.step runs_checkUndefined
  obtain ⟨_, _, ⟨rfl, rfl⟩, run⟩ := run.step runs_declareIdent
  obtain ⟨_, _, result, run⟩ := runs_bind.mp run
  obtain ⟨_, _, opened, run⟩ := runs_bind.mp run
  obtain ⟨_, params, rfl⟩ := runs_map.mp run
  refine ⟨rfl, ?_⟩
  refine (follows_bindParams keeps fun _ _ => trivial).of_runs params ?_
  refine keeps.of_runs opened ?_
  refine keeps.of_runs result ?_
  refine ⟨?_, by simp, Arena.get_alloc_size _ _⟩
  have inner : before.scope.inner = [] := List.length_eq_zero_iff.mp atTop
  simp [Scope.bind, inner]

variable {body : List Stmt}

/-- A function of a module is bound to its name after its statement. -/
theorem holds_of_bindFunction
    {boundHeader : FunctionHeader}
    {boundBody : List Stmt}
    (atTop : before.scope.depth = 0)
    (run : Runs (bindStmt context (.function header body)) before
      (.function boundHeader boundBody) after) :
    boundHeader.name = { header.name with var := some before.arena.size } ∧
      after.Holds header.name.name before.arena.size (functionRecord header.name) := by
  have keeps := admits_holds context header.name.name before.arena.size
    (functionRecord header.name) rfl
  obtain ⟨_, _, headerRun, run⟩ := runs_bind.mp run
  obtain ⟨_, _, bodyRun, run⟩ := runs_bind.mp run
  obtain ⟨_, _, closed, run⟩ := runs_bind.mp run
  obtain ⟨same, rfl, _⟩ := runs_pure.mp run
  cases same
  obtain ⟨name_eq, holds⟩ := holds_of_bindHeader atTop headerRun
  refine ⟨name_eq, keeps.of_runs closed ?_⟩
  exact (follows_bindBlock keeps body fun _ _ => trivial).of_runs bodyRun holds

theorem eq_function_of_bindStmt
    {stmt : Stmt}
    (run : Runs (bindStmt context stmt) before (.function header body) after) :
    ∃ sourceHeader sourceBody, stmt = .function sourceHeader sourceBody := by
  cases stmt with
  | function header body => exact ⟨header, body, rfl⟩
  | _ =>
      rw [bindStmt] at run
      simp only [runs_bind, runs_pure, reduceCtorEq, false_and, and_false, exists_false] at run

theorem holds_of_bindBlock
    {known : VarId -> Prop}
    (knows : context.Knows known)
    {block bound : List Stmt}
    (fresh : Stmt.EveryIn (Expr.MembersSatisfy known) (Stmt.AccessorSatisfies accessors) block)
    {place : Place}
    (isAt : before.At known place)
    (atTop : before.scope.depth = 0)
    (run : Runs (bindBlock context block) before bound after)
    (mem : .function header body ∈ bound) :
    ∃ var record, header.name.var = some var ∧ record.decl = .function ∧
      after.Holds header.name.name var record := by
  induction block generalizing before bound place with
  | nil =>
      obtain ⟨rfl, _, _⟩ := runs_pure.mp run
      cases mem
  | cons stmt rest ih =>
      obtain ⟨boundStmt, middle, stmtRun, run⟩ := runs_bind.mp run
      obtain ⟨boundRest, restRun, rfl⟩ := runs_map.mp run
      rcases List.mem_cons.mp mem with same | later
      · subst same
        obtain ⟨sourceHeader, sourceBody, rfl⟩ := eq_function_of_bindStmt stmtRun
        obtain ⟨name_eq, holds⟩ := holds_of_bindFunction atTop stmtRun
        have keeps := admits_holds context sourceHeader.name.name before.arena.size
          (functionRecord sourceHeader.name) rfl
        refine ⟨before.arena.size, functionRecord sourceHeader.name, by rw [name_eq], rfl, ?_⟩
        rw [name_eq]
        exact (follows_bindBlock keeps rest fun _ _ => trivial).of_runs restRun holds
      · obtain ⟨next, nextAt, extended, _⟩ := isBound_of_bindStmt knows stmt fresh.1 isAt stmtRun
        exact ih fresh.2 nextAt (extended.depth_eq.trans atTop) restRun
          later

end Function

/-- What the frame of a module binds to a function under the name of a main
function is its main function. -/
theorem State.Holds.mainOf?_eq
    {state : State}
    {var : VarId}
    {record : Variable}
    (holds : state.Holds "main" var record)
    (atTop : state.scope.depth = 0)
    (isFunction : record.decl = .function) :
    mainOf? state = some var := by
  have inner : state.scope.inner = [] := List.length_eq_zero_iff.mp atTop
  have found : state.scope.lookupInnermost "main" = some var := by
    simpa [Scope.lookupInnermost, Scope.innermost, inner] using holds.bound
  simp [mainOf?, found, holds.get_eq, isFunction]

end Binding

/-- A function of a module that is named like a main function is the main function
of the module. -/
def Module.OwnsMain (module : Module) : Prop :=
  ∀ header body, Stmt.function header body ∈ module.statements -> header.name.name = "main" ->
    ∃ var, header.name.var = some var ∧ module.main = some var

namespace Bundle

open Binding

/-- Bound modules own the functions that are named like main functions. -/
theorem ownsMain_of_bindModules
    {stage : Stage}
    {registry : List (String × Table Export)}
    {arena : Arena}
    {modules : List Module}
    {visible : List VarId}
    (sees : Sees stage registry arena visible)
    (fresh : ∀ module ∈ modules,
      Stmt.EveryIn (Expr.MembersSatisfy (· ∈ visible)) (Stmt.AccessorSatisfies accessors)
        module.statements)
    (succeeded : (bindModules stage registry arena modules).2.2 = none) :
    ∀ module ∈ (bindModules stage registry arena modules).1, module.OwnsMain := by
  induction modules generalizing registry arena visible with
  | nil => exact fun _ mem => by cases mem
  | cons module rest ih =>
      obtain ⟨statements, state, run, later, modules_eq, _⟩ := runs_of_bindModules_cons succeeded
      obtain ⟨own, others⟩ := List.forall_mem_cons.mp fresh
      obtain ⟨last, lastAt, _, statementsBound, handedOver, seesNext⟩ := sees.bindBlock own run
      rw [modules_eq]
      refine List.forall_mem_cons.mpr
        ⟨?_, ih seesNext (freshFor_of_subset handedOver others) later⟩
      intro header body mem isMain
      have knows : Context.Knows { stage := stage, registry := registry, path := module.path }
          (· ∈ visible) := sees.registered
      obtain ⟨var, record, bound, isFunction, holds⟩ :=
        holds_of_bindBlock knows own sees.startAt rfl run mem
      have atTop : state.scope.depth = 0 :=
        lastAt.depth_eq.trans (statementsBound state.arena (.refl _)).leads.depth_eq
      rw [isMain] at holds
      exact ⟨var, bound, holds.mainOf?_eq atTop isFunction⟩

/-- After names are bound, modules own the functions that are named like main
functions. -/
theorem IsInRange.ownsMain
    {library : Library}
    {bundle placed named : Bundle}
    (inRange : IsInRange library accessors bundle)
    (build : Named library bundle placed named) :
    ∀ module ∈ named.modules, module.OwnsMain := by
  obtain ⟨placed_eq, fresh⟩ := inRange.placed_eq build.placing
  obtain ⟨succeeded, rfl⟩ := resolveNames_eq_ok build.binding
  rw [placed_eq] at succeeded ⊢
  exact ownsMain_of_bindModules inRange.sees fresh succeeded

end Bundle
end ModularGlsl
