import ModularGlsl.Proofs.Binding.Program
import ModularGlsl.Proofs.Liveness.Waiting
import ModularGlsl.Proofs.Placement
import ModularGlsl.Proofs.Typing

/-!
# Steps of a build

What each step of a build leaves behind when it succeeds, and what is then known
of the modules: they are bound, typing adds no variable, and the sweep keeps them
bound and makes accessors with new variables.
-/

namespace ModularGlsl

/-! ## Modules before they are bound -/

/-- Whatever a module names as a member of a package satisfies a condition. -/
def Module.MembersSatisfy
    (known : VarId -> Prop)
    (accessors : Accessor -> Prop)
    (module : Module) : Prop :=
  Stmt.EveryIn (Expr.MembersSatisfy known) (Stmt.AccessorSatisfies accessors) module.statements

instance
    (known : VarId -> Prop)
    (accessors : Accessor -> Prop)
    [DecidablePred known]
    [DecidablePred accessors]
    (module : Module) :
    Decidable (module.MembersSatisfy known accessors) :=
  decidable_of_iff _ (Stmt.everyIn_iff_parts _).symm

variable {accessors : Accessor -> Prop}

theorem Module.MembersSatisfy.mono
    {known wider : VarId -> Prop}
    {allowed : Accessor -> Prop}
    {module : Module}
    (wide : ∀ var, known var -> wider var)
    (allow : ∀ accessor, accessors accessor -> allowed accessor)
    (satisfied : module.MembersSatisfy known accessors) :
    module.MembersSatisfy wider allowed := by
  exact Stmt.EveryIn.mono (fun _ => Expr.MembersSatisfy.mono wide)
    (fun _ => Stmt.AccessorSatisfies.mono allow) satisfied

namespace Bundle

/-- The variables that a bundle and a library refer to exist.  Which accessors
may stand among the statements is left open. -/
structure IsInRange
    (library : Library)
    (accessors : Accessor -> Prop)
    (bundle : Bundle) : Prop where
  /-- The variables of the stage exist. -/
  builtins_le : bundle.stage.arena.size ≤ bundle.arena.size
  /-- The members of packages exist. -/
  packages : ∀ id members, (bundle.arena.get id).members = some members ->
    ∀ entry ∈ members.entries, entry.2 < bundle.arena.size
  /-- The modules of the bundle name members that exist. -/
  modules : ∀ module ∈ bundle.modules, module.MembersSatisfy (· < bundle.arena.size) accessors
  /-- The modules of the library name members that exist. -/
  library : ∀ module ∈ library.modules, module.MembersSatisfy (· < bundle.arena.size) accessors

/-- A bundle that no step was taken on, and a library of modules as they are
read: no name denotes a member of a package, and the names of accessors that
stand among the statements denote nothing. -/
structure IsFresh
    (library : Library)
    (bundle : Bundle) : Prop where
  /-- There are only the variables of the stage. -/
  arena_eq : bundle.arena = bundle.stage.arena
  /-- The modules of the bundle are as they were read. -/
  modules : ∀ module ∈ bundle.modules, module.MembersSatisfy (fun _ => False) Accessor.IsUnbound
  /-- The modules of the library are as they were read. -/
  library : ∀ module ∈ library.modules, module.MembersSatisfy (fun _ => False) Accessor.IsUnbound

theorem get_builtins
    (stage : Stage)
    {id : VarId}
    (inside : id < stage.arena.size) :
    ∃ builtin ∈ Builtin.table stage, stage.arena.get id = builtin.toVariable id := by
  have inTable : id < (Builtin.table stage).length := by
    simpa [Stage.arena, Arena.size, Stage.builtins] using inside
  refine ⟨_, List.getElem_mem inTable, ?_⟩
  simp [Stage.arena, Arena.get, Stage.builtins, inTable]

/-- The variables of a stage are no packages. -/
theorem members_builtins
    (stage : Stage)
    (id : VarId) :
    (stage.arena.get id).members = none := by
  rcases Nat.lt_or_ge id stage.arena.size with inside | outside
  · obtain ⟨builtin, _, record_eq⟩ := get_builtins stage inside
    rw [record_eq]
    rfl
  · rw [Arena.get_of_size_le outside]
    rfl

theorem globals_lt
    (stage : Stage)
    {entry : String × VarId}
    (mem : entry ∈ stage.globals) :
    entry.2 < stage.arena.size := by
  obtain ⟨⟨builtin, index⟩, inTable, rfl⟩ := List.mem_map.mp mem
  have inside := List.snd_lt_of_mem_zipIdx inTable
  simpa [Stage.arena, Arena.size, Stage.builtins] using inside

/-- A fresh bundle refers to no variable that does not exist. -/
theorem IsFresh.isInRange
    {library : Library}
    {bundle : Bundle}
    (fresh : IsFresh library bundle) :
    IsInRange library Accessor.IsUnbound bundle := by
  refine ⟨Nat.le_of_eq (congrArg Arena.size fresh.arena_eq.symm), ?_, ?_, ?_⟩
  · intro id members held
    rw [fresh.arena_eq, members_builtins] at held
    cases held
  · intro module mem
    exact (fresh.modules module mem).mono (fun _ => False.elim) fun _ => id
  · intro module mem
    exact (fresh.library module mem).mono (fun _ => False.elim) fun _ => id

/-! ## Single steps -/

section Steps

variable {library : Library} {bundle after : Bundle}

theorem resolveDependencies_eq_ok (run : resolveDependencies library bundle = .ok () after) :
    ∃ modules, after = { bundle with modules := modules } ∧
      ∀ module ∈ modules, module ∈ bundle.modules ∨ module ∈ library.modules := by
  rw [resolveDependencies_apply] at run
  rcases Placement.place_spec library bundle.modules with
    ⟨⟨path, origin, span, failed⟩, _⟩ | ⟨loaded, loadedFor, outcome⟩
  · rw [failed] at run
    cases run
  · rcases outcome with ⟨modules, placed, permuted, _⟩ | ⟨⟨cycle, span, failed⟩, _⟩
    · rw [placed] at run
      cases run
      refine ⟨modules, rfl, fun module mem => ?_⟩
      rcases List.mem_append.mp (permuted.subset mem) with isAppended | isLoaded
      · exact .inl isAppended
      · exact .inr (List.mem_of_find?_eq_some (loadedFor.get? module isLoaded))
    · rw [failed] at run
      cases run

/-- Placed modules are as fresh as before. -/
theorem IsFresh.placed
    (fresh : IsFresh library bundle)
    (placing : resolveDependencies library bundle = .ok () after) :
    IsFresh library after := by
  obtain ⟨modules, rfl, origin⟩ := resolveDependencies_eq_ok placing
  refine ⟨fresh.arena_eq, fun module mem => ?_, fresh.library⟩
  exact (origin module mem).elim (fresh.modules module) (fresh.library module)

variable {diagnostic : Option Diagnostic}

theorem failWith_eq_ok (run : failWith diagnostic bundle = .ok () after) :
    diagnostic = none ∧ bundle = after := by
  cases diagnostic with
  | some diagnostic => cases run
  | none => exact ⟨rfl, (pure_eq_ok.mp run).2⟩

theorem failWith_eq_error
    {raised : Diagnostic}
    (failed : failWith diagnostic bundle = .error raised after) :
    diagnostic = some raised := by
  cases diagnostic with
  | some diagnostic =>
      cases failed
      rfl
  | none => cases failed

theorem resolveNames_eq_ok
    (run : resolveNames bundle = .ok () after) :
    (bindModules bundle.stage [] bundle.arena bundle.modules).2.2 = none ∧
      after = { bundle with
        modules := (bindModules bundle.stage [] bundle.arena bundle.modules).1
        arena := (bindModules bundle.stage [] bundle.arena bundle.modules).2.1 } := by
  rw [resolveNames, bind_eq_ok] at run
  obtain ⟨_, _, early, run⟩ := run
  cases early
  obtain ⟨_, _, early, run⟩ := bind_eq_ok.mp run
  cases early
  obtain ⟨clear, rfl⟩ := failWith_eq_ok run
  exact ⟨clear, rfl⟩

theorem evalTypes_eq_ok (run : evalTypes bundle = .ok () after) :
    ∃ arena, checkModules bundle.modules bundle.arena = .ok () arena ∧
      after = { bundle with arena := arena } := by
  rw [evalTypes, bind_eq_ok] at run
  obtain ⟨_, _, early, run⟩ := run
  cases early
  cases outcome : checkModules bundle.modules bundle.arena with
  | ok done arena =>
      rw [outcome] at run
      cases run
      exact ⟨arena, rfl, rfl⟩
  | error error arena =>
      rw [outcome] at run
      cases run

theorem resolveActivity_eq_ok (run : resolveActivity bundle = .ok () after) :
    ∃ modules state,
      Runs (Liveness.sweepModules bundle.stage bundle.modules)
        { arena := bundle.arena, usage := bundle.modules.foldl markMain {} } modules state ∧
      after = { bundle with modules := modules, arena := state.arena, usage := state.usage } := by
  rw [resolveActivity, bind_eq_ok] at run
  obtain ⟨_, _, early, run⟩ := run
  cases early
  obtain ⟨_, _, early, run⟩ := bind_eq_ok.mp run
  cases early
  obtain ⟨clear, rfl⟩ := failWith_eq_ok run
  exact ⟨_, _, ⟨rfl, clear⟩, rfl⟩

theorem finalizeInjected_eq_ok (run : finalizeInjected bundle = .ok () after) :
    after = { bundle with
        modules := (spliceModules true bundle.usage bundle.modules).1
        usage := (spliceModules true bundle.usage bundle.modules).2 } ∧
      after.usage.check bundle.arena = .ok () := by
  rw [finalizeInjected, bind_eq_ok] at run
  obtain ⟨_, _, early, run⟩ := run
  cases early
  obtain ⟨_, _, early, run⟩ := bind_eq_ok.mp run
  cases early
  cases outcome : (spliceModules true bundle.usage bundle.modules).2.check bundle.arena with
  | error error =>
      rw [outcome] at run
      cases run
  | ok done =>
      rw [outcome] at run
      cases run
      exact ⟨rfl, outcome⟩

/-- The state in which names start to be given. -/
abbrev namer (bundle : Bundle) : FinalNames.State :=
  { tree := .ofBuiltins bundle.naming (bundle.stage.globals.map Prod.fst), arena := bundle.arena }

theorem uniqueNames_eq_ok (run : uniqueNames bundle = .ok () after) :
    ∃ state,
      FinalNames.nameModules bundle.usage bundle.modules bundle.namer = .ok () state ∧
      after = { bundle with arena := state.arena } := by
  rw [uniqueNames, bind_eq_ok] at run
  obtain ⟨_, _, early, run⟩ := run
  cases early
  cases outcome : FinalNames.nameModules bundle.usage bundle.modules bundle.namer with
  | ok done state =>
      rw [outcome] at run
      cases run
      exact ⟨state, rfl, rfl⟩
  | error error state =>
      rw [outcome] at run
      cases run

theorem collectVersion_eq_ok (run : collectVersion bundle = .ok () after) :
    ∃ found, commonVersion none bundle.modules = .ok found ∧
      after = { bundle with version := found.map Prod.fst } := by
  rw [collectVersion, bind_eq_ok] at run
  obtain ⟨_, _, early, run⟩ := run
  cases early
  cases outcome : commonVersion none bundle.modules with
  | ok found =>
      rw [outcome] at run
      cases run
      exact ⟨found, rfl, rfl⟩
  | error error =>
      rw [outcome] at run
      cases run

/-- A bundle whose modules are placed and whose names are bound. -/
structure Named (library : Library) (bundle placed named : Bundle) : Prop where
  placing : resolveDependencies library bundle = .ok () placed
  binding : resolveNames placed = .ok () named

/-- A bundle that is bound and typed. -/
structure Typed (library : Library) (bundle placed named typed : Bundle) : Prop
    extends Named library bundle placed named where
  typing : evalTypes named = .ok () typed

/-- A bundle that is typed and whose live code is swept. -/
structure Swept (library : Library) (bundle placed named typed swept : Bundle) : Prop
    extends Typed library bundle placed named typed where
  sweeping : resolveActivity typed = .ok () swept

/-- A bundle before its names are given. -/
structure Spliced (library : Library) (bundle placed named typed swept spliced : Bundle) : Prop
    extends Swept library bundle placed named typed swept where
  splicing : finalizeInjected swept = .ok () spliced

section Spliced

variable {library : Library} {bundle placed named typed swept spliced : Bundle}
variable (build : Spliced library bundle placed named typed swept spliced)
include build

/-- Until names are given, the stage and the choice of names stay. -/
theorem Spliced.stage_eq :
    spliced.stage = bundle.stage ∧ spliced.naming = bundle.naming := by
  obtain ⟨_, rfl, _⟩ := resolveDependencies_eq_ok build.placing
  obtain ⟨_, rfl⟩ := resolveNames_eq_ok build.binding
  obtain ⟨_, _, rfl⟩ := evalTypes_eq_ok build.typing
  obtain ⟨_, _, _, rfl⟩ := resolveActivity_eq_ok build.sweeping
  obtain ⟨rfl, _⟩ := finalizeInjected_eq_ok build.splicing
  exact ⟨rfl, rfl⟩

theorem Spliced.arena_eq :
    spliced.arena = swept.arena := by
  obtain ⟨rfl, _⟩ := finalizeInjected_eq_ok build.splicing
  rfl

end Spliced

theorem finalize_eq_ok
    {result : Bundle}
    (run : finalize library bundle = .ok () result) :
    ∃ placed named typed swept spliced unique found,
      Spliced library bundle placed named typed swept spliced ∧
      uniqueNames spliced = .ok () unique ∧
      commonVersion none unique.modules = .ok found ∧
      result = { unique with version := found.map Prod.fst, finalized := true } := by
  obtain ⟨_, placed, first, run⟩ := bind_eq_ok.mp run
  obtain ⟨_, named, second, run⟩ := bind_eq_ok.mp run
  obtain ⟨_, typed, third, run⟩ := bind_eq_ok.mp run
  obtain ⟨_, swept, fourth, run⟩ := bind_eq_ok.mp run
  obtain ⟨_, spliced, fifth, run⟩ := bind_eq_ok.mp run
  obtain ⟨_, unique, sixth, run⟩ := bind_eq_ok.mp run
  obtain ⟨_, _, seventh, run⟩ := bind_eq_ok.mp run
  obtain ⟨found, common, rfl⟩ := collectVersion_eq_ok seventh
  cases run
  exact ⟨placed, named, typed, swept, spliced, unique, found,
    ⟨⟨⟨⟨first, second⟩, third⟩, fourth⟩, fifth⟩, sixth, common, rfl⟩

end Steps

end Bundle

/-! ## Bound modules -/

theorem Liveness.areBound_of_sweepModules
    (stage : Stage)
    {modules swept : List Module}
    {before after : State}
    (run : Runs (sweepModules stage modules) before swept after) :
    before.Moves after ∧
      ∀ arena accessors visible next stop,
        Module.AreBound arena accessors modules visible next stop ->
          Module.AreBound arena accessors swept visible next stop := by
  refine ⟨Sweeping.moves run, fun arena accessors visible next stop bound => ?_⟩
  induction modules generalizing swept after visible next with
  | nil =>
      obtain ⟨rfl, rfl, _⟩ := runs_pure.mp run
      exact bound
  | cons module rest ih =>
      obtain ⟨_, _, restRun, late⟩ := runs_bind.mp run
      obtain ⟨_, _, early, late⟩ := runs_bind.mp late
      obtain ⟨_, ownRun, rfl⟩ := runs_map.mp late
      obtain ⟨last, own, others⟩ := bound
      exact ⟨last, ⟨areBound_of_sweepBlock ownRun own.statements, own.main⟩,
        ih restRun _ _ others⟩

namespace Bundle

section Known

variable {library : Library} {bundle placed named typed swept : Bundle}

section

variable (inRange : IsInRange library accessors bundle)
include inRange

/-- At the start all variables of the bundle are visible. -/
theorem IsInRange.sees :
    Sees bundle.stage [] bundle.arena (List.range bundle.arena.size) := by
  refine ⟨fun entry mem => List.mem_range.mpr ?_, by simp, ?_⟩
  · exact Nat.lt_of_lt_of_le (globals_lt bundle.stage mem) inRange.builtins_le
  · intro id members held entry mem
    exact List.mem_range.mpr (inRange.packages id members held entry mem)

theorem IsInRange.placed_eq (placing : resolveDependencies library bundle = .ok () placed) :
    placed = { bundle with modules := placed.modules } ∧
      ∀ module ∈ placed.modules,
        Stmt.EveryIn (Expr.MembersSatisfy (· ∈ List.range bundle.arena.size))
          (Stmt.AccessorSatisfies accessors) module.statements := by
  obtain ⟨modules, rfl, origin⟩ := resolveDependencies_eq_ok placing
  refine ⟨rfl, fun module mem => ?_⟩
  have satisfied : module.MembersSatisfy (· < bundle.arena.size) accessors := by
    rcases origin module mem with isOwn | isLoaded
    · exact inRange.modules module isOwn
    · exact inRange.library module isLoaded
  exact satisfied.mono (fun _ => List.mem_range.mpr) fun _ => id

/-- After names are bound, the modules form a bound program. -/
theorem IsInRange.areBound (build : Named library bundle placed named) :
    bundle.arena.Grows named.arena ∧
      ∀ final, named.arena.Keeps final ->
        Module.AreBound final accessors named.modules (List.range bundle.arena.size)
          bundle.arena.size named.arena.size := by
  obtain ⟨placed_eq, fresh⟩ := inRange.placed_eq build.placing
  obtain ⟨succeeded, rfl⟩ := resolveNames_eq_ok build.binding
  rw [placed_eq] at succeeded ⊢
  exact areBound_of_bindModules inRange.sees fresh succeeded

end

/-- After the names of a fresh bundle are bound, its modules form a bound program. -/
theorem IsFresh.areBound
    (fresh : IsFresh library bundle)
    (binding : resolveNames bundle = .ok () named) :
    bundle.arena.Grows named.arena ∧
      ∀ final, named.arena.Keeps final ->
        Module.AreBound final Accessor.IsUnbound named.modules (List.range bundle.arena.size)
          bundle.arena.size named.arena.size := by
  obtain ⟨succeeded, rfl⟩ := resolveNames_eq_ok binding
  exact areBound_of_bindModules fresh.isInRange.sees
    (fun module mem => (fresh.isInRange.modules module mem).mono
      (fun _ => List.mem_range.mpr) fun _ => id) succeeded

/-- No statement waits when the sweep begins. -/
theorem pending_foldl_markMain
    (modules : List Module)
    (usage : Usage) :
    (modules.foldl markMain usage).pending = usage.pending := by
  induction modules generalizing usage with
  | nil => rfl
  | cons module rest ih =>
      rw [List.foldl_cons, ih, markMain]
      split
      · exact Usage.pending_markUsed ..
      · rfl

/-- After the sweep, the modules still form a bound program, and the accessors
have new variables. -/
theorem IsInRange.areBound_swept
    (inRange : IsInRange library accessors bundle)
    (build : Swept library bundle placed named typed swept) :
    Module.AreBound swept.arena accessors swept.modules (List.range bundle.arena.size)
        bundle.arena.size named.arena.size ∧
      named.arena.size ≤ swept.arena.size ∧
        swept.usage.Waits swept.arena named.arena.size := by
  obtain ⟨_, bound⟩ := inRange.areBound build.toNamed
  obtain ⟨arena, checked, rfl⟩ := evalTypes_eq_ok build.typing
  obtain ⟨modules, state, run, rfl⟩ := resolveActivity_eq_ok build.sweeping
  have typedKeeps : named.arena.Keeps arena :=
    (Typing.KeepsArena.retypes checked).keeps
  obtain ⟨moves, same⟩ := Liveness.areBound_of_sweepModules _ run
  have sweptKeeps : named.arena.Keeps state.arena := typedKeeps.trans moves.grows.keeps
  refine ⟨same _ _ _ _ _ (bound state.arena sweptKeeps), sweptKeeps.size_le, ?_⟩
  exact moves.waits typedKeeps.size_le
    (Usage.waits_of_pending_eq_nil (pending_foldl_markMain named.modules {}))

end Known

end Bundle

/-! ## A program -/

namespace Bundle

/-- Whether a build succeeds with a result that passes a check. -/
def passes (check : Bundle -> Bool) : EStateM.Result Diagnostic Bundle Unit -> Bool
  | .ok _ result => check result
  | .error _ _ => false

/-- A build that passes a check succeeds. -/
theorem exists_of_passes
    {check : Bundle -> Bool}
    {outcome : EStateM.Result Diagnostic Bundle Unit}
    (passed : passes check outcome = true) :
    ∃ result, outcome = .ok () result ∧ check result = true := by
  cases outcome with
  | ok done result => exact ⟨result, rfl, passed⟩
  | error error result => cases passed

end Bundle

namespace Sample

/-- A name as it is read. -/
def name (text : String) : Ident :=
  { name := text }

/-- A variable as it is read. -/
def read (text : String) : Expr :=
  .var (name text)

/-- A variable with an initial value. -/
def declare
    (ty text : String)
    (init : Expr) : Stmt :=
  .var { ty := name ty, name := name text, length := none, init := some init, span := {} }

/-- A function of a number. -/
def numeric
    (text : String)
    (value : Expr) : Stmt :=
  .function
    { result := some (name "float")
      name := name text
      params := [⟨.plain, name "float", name "x", none, {}⟩]
      span := {} }
    [.ret (some value) {}]

/-- A main function. -/
def main (body : List Stmt) : Stmt :=
  .function { result := none, name := name "main", params := [], span := {} } body

/-- A module with a struct, an exported constant and two functions, of which
nobody calls the second. -/
def light : Module :=
  { path := "/light"
    statements :=
      [.struct ⟨name "Light", [⟨name "float", "power", none, {}⟩], {}⟩,
        .const
          { ty := name "float"
            name := name "unit"
            length := none
            init := some (.float ⟨0x3ff0000000000000⟩ {})
            exported := true
            span := {} },
        numeric "scale" (.binary .mul (read "x") (read "unit") {}),
        numeric "dim" (.call (read "scale") [read "x"] {}),
        .exportName (name "Light") "Light" {},
        .exportName (name "scale") "scale" {}] }

/-- A module that sums up the elements of an array of structs at a dynamic index,
and declares a name in two blocks. -/
def program : Module :=
  { path := "/main"
    statements :=
      [.importName "Light" (name "Light") "/light" {},
        .importAll (name "light") "/light" {},
        .interface ⟨.uniform, none, name "Light", name "x", some 2, {}⟩,
        main
          [declare "float" "sum" (.float ⟨0⟩ {}),
            .loop (declare "int" "i" (.int 0 {})) (.binary .less (read "i") (.int 2 {}) {})
              (.update (read "i") .increment {})
              [declare "float" "y"
                  (.member (.getIndex (read "x") (read "i") none {}) "power" none {}),
                .assign (read "sum") .add
                  (.call (.member (read "light") "scale" none {}) [read "y"] {}) {}]
              {},
            .cond
              [⟨some (.bool true {}),
                [declare "float" "y" (read "sum"),
                  .assign (read "gl_PointSize") .assign (read "y") {}], {}⟩]
              {}]] }

/-- The library of the program. -/
def library : Library :=
  ⟨[light]⟩

/-- The bundle of the program. -/
def bundle : Bundle :=
  (Bundle.empty .vertex .readable).append program

theorem isFresh_bundle : Bundle.IsFresh library bundle :=
  ⟨rfl, by decide +kernel, by decide +kernel⟩

end Sample

end ModularGlsl
