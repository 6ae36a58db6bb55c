import ModularGlsl.Proofs.Entry
import ModularGlsl.Proofs.Liveness.Views
import ModularGlsl.Proofs.Renaming

/-!
# Names of built-ins

Built-ins keep their names, and no name that is chosen is one of theirs.  Names that
have to be kept are never compared with them: a variable of the interface or an
exported constant that is declared under the name of a built-in has that name in the
output, and takes it from the built-in wherever it is visible.  Functions are not
declared under such names, and accessors are not called by them.
-/

namespace ModularGlsl

/-- The names of the built-ins of a stage. -/
def Stage.names (stage : Stage) : List String :=
  stage.globals.map Prod.fst

/-! ## Functions -/

variable {ident : Ident} {stmt : Stmt}

namespace Binding

/-- The frame of the built-in names never changes. -/
theorem admits_globals (context : Context) :
    Admits context (fun _ => True) fun before after =>
      after.scope.globals = before.scope.globals where
  refl _ := rfl
  trans early late := late.trans early
  fail _ _ _ _ := rfl
  frames _ _ := rfl
  publish _ _ := rfl
  alloc _ _ _ _ := rfl
  declare state _ _ _ _ accepted := by
    obtain rfl := Scope.eq_bind_of_declare accepted
    cases inner : state.scope.inner with
    | nil => simp [Scope.bind, inner]
    | cons frame rest => simp [Scope.bind, inner]

section Runs

variable {context : Context} {before after : State}

/-- What is not bound is not bound to a built-in. -/
theorem get?_globals_of_checkUndefined
    {done : Unit}
    (run : Runs (checkUndefined ident) before done after) :
    before.scope.globals.get? ident.name = none := by
  obtain ⟨_, run, clear⟩ := runs_of_unlessFailed run
  simp only [bind, StateT.bind, get, getThe, MonadStateOf.get, StateT.get, pure] at run
  cases found : before.scope.lookup ident.name with
  | some existing =>
      rw [found] at run
      exact absurd ⟨run, clear⟩ not_runs_fail
  | none =>
      rw [Scope.lookup, List.findSome?_eq_none_iff] at found
      exact found _ (by simp [Scope.frames])

variable {header : FunctionHeader}

/-- A function is not declared under the name of a built-in. -/
theorem get?_globals_of_bindFunction
    {body : List Stmt}
    (run : Runs (bindStmt context stmt) before (.function header body) after) :
    before.scope.globals.get? header.name.name = none := by
  obtain ⟨source, sourceBody, rfl⟩ := eq_function_of_bindStmt run
  obtain ⟨_, _, headerRun, run⟩ := runs_bind.mp run
  obtain ⟨same, _, _⟩ := runs_pure.mp run
  cases same
  obtain ⟨_, _, early, headerRun⟩ := runs_bind.mp headerRun
  have unbound := get?_globals_of_checkUndefined early
  obtain ⟨_, _, ⟨rfl, rfl⟩, headerRun⟩ := headerRun.step runs_declareIdent
  obtain ⟨_, _, _, headerRun⟩ := runs_bind.mp headerRun
  obtain ⟨rfl, _, _⟩ := runs_pure.mp headerRun
  exact unbound

theorem get?_globals_of_bindBlock
    {block bound : List Stmt}
    (run : Runs (bindBlock context block) before bound after)
    {body : List Stmt}
    (mem : .function header body ∈ bound) :
    before.scope.globals.get? header.name.name = none := by
  induction block generalizing before bound with
  | nil =>
      obtain ⟨rfl, _, _⟩ := runs_pure.mp run
      cases mem
  | cons stmt rest ih =>
      obtain ⟨boundStmt, middle, stmtRun, run⟩ := runs_bind.mp run
      obtain ⟨boundRest, restRun, rfl⟩ := runs_map.mp run
      rcases List.mem_cons.mp mem with same | later
      · subst same
        exact get?_globals_of_bindFunction stmtRun
      · have unchanged := (follows_bindStmt (admits_globals context) stmt
          fun _ _ => trivial).of_runs stmtRun
        rw [← unchanged]
        exact ih restRun later

end Runs

end Binding

variable {arena : Arena}

namespace Bundle

open Binding

/-- A name that the frame of the built-in names does not bind is none of theirs. -/
theorem notMem_names_of_get?
    {stage : Stage}
    {name : String}
    (unbound : (Scope.ofGlobals stage.globals).globals.get? name = none) :
    name ∉ stage.names := by
  intro mem
  obtain ⟨entry, isEntry, rfl⟩ := List.mem_map.mp mem
  have different := List.lookup_eq_none_iff.mp unbound entry (List.mem_reverse.mpr isEntry)
  simp at different

/-- No function of bound modules is declared under the name of a built-in. -/
theorem notMem_names_of_bindModules
    {stage : Stage}
    {registry : List (String × Table Export)}
    {modules : List Module}
    (succeeded : (bindModules stage registry arena modules).2.2 = none) :
    ∀ module ∈ (bindModules stage registry arena modules).1, ∀ header ∈ module.functions,
      header.name.name ∉ stage.names := by
  induction modules generalizing registry arena with
  | nil => exact fun _ mem => by cases mem
  | cons module rest ih =>
      obtain ⟨statements, state, run, later, modules_eq, _⟩ := runs_of_bindModules_cons succeeded
      rw [modules_eq]
      refine List.forall_mem_cons.mpr ⟨fun header isFunction => ?_, ih later⟩
      obtain ⟨body, isStmt⟩ := Module.mem_functions.mp isFunction
      exact notMem_names_of_get? (get?_globals_of_bindBlock run isStmt)

end Bundle

/-! ## Accessors -/

/-- Accessors are not called like built-ins. -/
theorem Accessor.notMem_names_of_request
    {kind : AccessorKind}
    {container : Ty}
    {span : Span}
    {request : Accessor.Request}
    (asked : Accessor.request kind container span = .ok request)
    (stage : Stage) :
    request.name ∉ stage.names := by
  -- The first letters tell accessors and built-ins apart.
  have others : ∀ name ∈ stage.names, name.toList.take 4 ≠ kind.spelling.toList.take 4 := by
    cases stage <;> cases kind <;> decide +kernel
  have starts (first second third fourth : String) :
      (kind.spelling ++ first ++ second ++ third ++ fourth).toList.take 4 =
        kind.spelling.toList.take 4 := by
    simp only [String.toList_append, List.append_assoc]
    cases kind <;> rfl
  intro mem
  refine others _ mem ?_
  unfold Accessor.request at asked
  split at asked
  · cases asked
    exact starts _ _ _ _
  · cases asked
    exact starts _ _ _ _
  · cases asked

/-! ## The output -/

/-- Declarations that the outside refers to by name. -/
def DeclKind.isExternal : DeclKind -> Bool
  | .const true | .uniform | .vertexAttribute | .varying => true
  | _ => false

namespace Bundle

/-- The names of built-ins in the output. -/
structure SparesBuiltins (bundle : Bundle) : Prop where
  /-- Built-ins keep their names. -/
  builtins_eq : ∀ id < bundle.stage.arena.size, bundle.arena.name id = bundle.stage.arena.name id
  /-- A declaration has the name of a built-in exactly if it keeps this name. -/
  named_iff : ∀ site ∈ bundle.sites,
    bundle.arena.name site.var ∈ bundle.stage.names ↔
      site.keeps = true ∧ site.name ∈ bundle.stage.names
  /-- Only variables of the interface and exported constants do. -/
  isExternal : ∀ site ∈ bundle.sites, bundle.arena.name site.var ∈ bundle.stage.names ->
    (bundle.arena.get site.var).decl.isExternal = true
  /-- Any variable that has the name of a built-in was declared under it, also in the
  steps of loops. -/
  inherited : ∀ module ∈ bundle.modules, Stmt.EveryIn (fun _ => True)
    (Stmt.DeclaredSatisfy fun var name =>
      bundle.arena.name var ∈ bundle.stage.names -> bundle.arena.name var = name)
    module.statements

section Build

variable {library : Library} {bundle placed named typed swept spliced unique : Bundle}

/-- Until names are given, built-ins keep their names. -/
theorem IsFresh.name_builtins
    (fresh : IsFresh library bundle)
    (build : Swept library bundle placed named typed swept)
    {id : VarId}
    (isBuiltin : id < bundle.stage.arena.size) :
    swept.arena.name id = bundle.stage.arena.name id := by
  obtain ⟨grows, _⟩ := fresh.isInRange.areBound build.toNamed
  obtain ⟨arena, checked, rfl⟩ := evalTypes_eq_ok build.typing
  obtain ⟨modules, state, run, rfl⟩ := resolveActivity_eq_ok build.sweeping
  have retypes := Typing.KeepsArena.retypes checked
  obtain ⟨moves, _⟩ := Liveness.areBound_of_sweepModules _ run
  have inBundle : id < bundle.arena.size := by rw [fresh.arena_eq]; exact isBuiltin
  have inNamed : id < named.arena.size := Nat.lt_of_lt_of_le inBundle grows.size_le
  have inTyped : id < arena.size := by rw [retypes.size_eq]; exact inNamed
  obtain ⟨ty, record_eq⟩ := retypes.get_eq id
  change (state.arena.get id).name = (bundle.stage.arena.get id).name
  rw [moves.grows.get_eq id inTyped, record_eq]
  rw [grows.get_eq id inBundle, fresh.arena_eq]

/-- A statement of a module that keeps the name of a built-in declares a variable of the
interface or an exported constant. -/
theorem IsFresh.isExternal
    (fresh : IsFresh library bundle)
    (build : Spliced library bundle placed named typed swept spliced)
    {site : Site}
    (mem : site ∈ spliced.sites)
    (keeps : site.keeps = true)
    (isBuiltin : site.name ∈ bundle.stage.names) :
    (swept.arena.get site.var).decl.isExternal = true := by
  obtain ⟨bound, _, _⟩ := fresh.isInRange.areBound_swept build.toSwept
  have requested := holdsRequested_of_resolveActivity build.sweeping
  have functions_eq := fresh.outline_spliced build
  obtain ⟨module, isModule, isSite⟩ := List.mem_flatMap.mp mem
  obtain ⟨stmt, isStmt, isSite⟩ := List.mem_flatMap.mp isSite
  rw [Stmt.sitesInModule] at isSite
  split at isSite
  swap
  · cases isSite
  obtain ⟨ident, declared, isSite⟩ := Stmt.declared_of_mem_sites isSite keeps
  obtain ⟨var, isVar, rfl⟩ := List.mem_map.mp isSite
  rw [Option.mem_toList] at isVar
  obtain ⟨rfl, _⟩ := finalizeInjected_eq_ok build.splicing
  obtain ⟨original, isOriginal, _, holds⟩ := mem_spliceModules true isModule
  rcases holds stmt isStmt with isOwn | isWaiting
  · obtain ⟨_, _, _, own⟩ := bound.exists_of_mem isOriginal
    obtain ⟨first, last, _, stmtBound, _⟩ := own.statements.exists_of_mem isOwn
    cases stmt with
    | interface decl =>
        obtain ⟨_, declares, _⟩ := stmtBound
        cases declared
        obtain rfl : first.next = var := Option.some.inj (declares.var_eq.symm.trans isVar)
        rw [declares.decl_eq]
        cases decl.kind <;> rfl
    | const decl =>
        obtain ⟨_, _, declares, _⟩ := stmtBound
        cases declared
        obtain rfl : first.next = var := Option.some.inj (declares.var_eq.symm.trans isVar)
        have isExported : decl.exported = true := keeps
        rw [declares.decl_eq, isExported]
        rfl
    | function header body =>
        cases declared
        have mapped := List.mem_map_of_mem (f := Module.outline) isModule
        rw [functions_eq] at mapped
        obtain ⟨source, isSource, same⟩ := List.mem_map.mp mapped
        obtain ⟨_, _, functions_eq⟩ := Module.eq_of_outline same
        have isFunction : header ∈ source.functions := by
          rw [functions_eq]
          exact Module.mem_functions.mpr ⟨body, isStmt⟩
        obtain ⟨_, rfl, _⟩ := resolveDependencies_eq_ok build.placing
        obtain ⟨succeeded, rfl⟩ := resolveNames_eq_ok build.binding
        exact absurd isBuiltin (notMem_names_of_bindModules succeeded source isSource header isFunction)
    | accessor decl =>
        cases declared
        rw [stmtBound.1.name_eq] at isVar
        cases isVar
    | var decl => cases keeps
    | struct decl => cases keeps
    | _ => cases declared
  · obtain ⟨kind, container, span, request, number, asked, rfl⟩ := requested stmt isWaiting
    cases declared
    exact absurd isBuiltin (Accessor.notMem_names_of_request asked bundle.stage)

/-- Variables of spliced modules have the names that they are declared under. -/
theorem IsFresh.named_spliced
    (fresh : IsFresh library bundle)
    (build : Spliced library bundle placed named typed swept spliced) :
    ∀ module ∈ spliced.modules, Stmt.EveryIn (fun _ => True)
      (Stmt.DeclaredSatisfy fun var name => swept.arena.name var = name) module.statements := by
  obtain ⟨bound, _, waits⟩ := fresh.isInRange.areBound_swept build.toSwept
  refine everyIn_spliced build.splicing (fun stmt isWaiting => ?_) fun module mem => ?_
  · obtain ⟨waiting, isPending, rfl⟩ := List.mem_map.mp isWaiting
    obtain ⟨accessor, stmt_eq, declares, _⟩ := waits.isAccessor waiting isPending
    rw [stmt_eq]
    refine ⟨fun ident mem _ bound => ?_, trivial⟩
    obtain rfl := List.mem_singleton.mp mem
    exact declares.name_eq_of_mem bound
  · refine (Stmt.everyIn_iff_parts _).mpr fun part isPart => ⟨?_, fun _ _ => trivial⟩
    exact (bound.of_mem_parts (fun _ => List.mem_range.mp) module mem part isPart).named

end Build

/-- After a build of a fresh bundle whose searches for names end, built-ins have their
names, and a declaration has the name of one exactly if it is a variable of the interface
or an exported constant that is declared under it. -/
theorem finalize_sparesBuiltins
    {library : Library}
    {bundle result : Bundle}
    (fresh : IsFresh library bundle)
    (run : finalize library bundle = .ok () result)
    (ends : Site.SearchesEnd bundle.naming result.sites) :
    result.SparesBuiltins := by
  obtain ⟨placed, named, typed, swept, spliced, unique, _, build, naming, _, rfl⟩ :=
    finalize_eq_ok run
  obtain ⟨stage_eq, naming_eq⟩ := build.stage_eq
  have nameable := fresh.isNameable build
  have above := fun site mem => ((fresh.numbered build).range site mem).1
  have arena_eq := build.arena_eq
  obtain ⟨state, rfl, inherits, _⟩ := nameable.inherits naming
  have names := nameable.hasDistinctNames (naming_eq ▸ ends) naming
  have named_iff (site : Site) (mem : site ∈ spliced.sites) :
      state.arena.name site.var ∈ spliced.stage.names ↔
        site.keeps = true ∧ site.name ∈ spliced.stage.names := by
    cases keeps : site.keeps with
    | false =>
        have unreserved : state.arena.name site.var ∉ spliced.stage.names :=
          (names.chosen site mem keeps).2.1
        simp [unreserved]
    | true =>
        have unchanged : state.arena.name site.var = site.name := names.kept site mem keeps
        simp [unchanged]
  refine ⟨fun id isBuiltin => ?_, named_iff, fun site mem isBuiltin => ?_, ?_⟩
  · have isBuiltin : id < bundle.stage.arena.size := stage_eq ▸ isBuiltin
    have unchanged := inherits.unchanged id fun site mem same => by
      have notBelow := above site mem
      rw [same, fresh.arena_eq] at notBelow
      exact absurd isBuiltin (Nat.not_lt_of_le notBelow)
    rw [unchanged, arena_eq, stage_eq]
    exact fresh.name_builtins build.toSwept isBuiltin
  · obtain ⟨keeps, isBuiltin⟩ := (named_iff site mem).mp isBuiltin
    change (state.arena.get site.var).decl.isExternal = true
    rw [inherits.renames.get_eq, arena_eq]
    exact fresh.isExternal build mem keeps
      (stage_eq ▸ isBuiltin)
  · intro module mem
    refine Stmt.EveryIn.mono (fun _ => id) (fun stmt declared ident isIdent var isVar => ?_)
      (fresh.named_spliced build module mem)
    intro isBuiltin
    rcases inherits.chosen var with same | ⟨_, unreserved⟩
    · rw [same, arena_eq]
      exact declared ident isIdent var isVar
    · exact absurd (List.mem_append_right _ isBuiltin) unreserved

end Bundle

namespace Sample

/-- A module with a variable of the interface under the name of a built-in. -/
def waves : Library :=
  ⟨[{ path := "/waves"
      statements :=
        [.interface ⟨.uniform, none, name "float", name "sin", none, {}⟩,
          .exportName (name "sin") "phase" {}] }]⟩

/-- A main function that applies the built-in to this variable, and has a local variable
under the name of another built-in. -/
def shadowing : Bundle :=
  (Bundle.empty .vertex .readable).append
    { path := "/main"
      statements :=
        [.importName "phase" (name "phase") "/waves" {},
          main
            [declare "float" "cos" (.call (read "sin") [read "phase"] {}),
              .assign (read "gl_PointSize") .assign (read "cos") {}]] }

theorem isFresh_shadowing : Bundle.IsFresh waves shadowing :=
  ⟨rfl, by decide +kernel, by decide +kernel⟩

end Sample

namespace Bundle

/-- The names of built-ins in the output of a program that declares two of them. -/
theorem finalize_shadowing_sparesBuiltins :
    ∃ result, finalize Sample.waves Sample.shadowing = .ok () result ∧
      Site.SearchesEnd .readable result.sites ∧ result.SparesBuiltins := by
  have passed : passes (fun result => decide (Site.SearchesEnd .readable result.sites))
      (finalize Sample.waves Sample.shadowing) = true := by
    decide +kernel
  obtain ⟨result, run, ends⟩ := exists_of_passes passed
  have ends : Site.SearchesEnd .readable result.sites := of_decide_eq_true ends
  exact ⟨result, run, ends, finalize_sparesBuiltins Sample.isFresh_shadowing run ends⟩

/-- A variable of the interface captures a built-in: in the output, what was a call of the
built-in names the variable. -/
theorem finalize_shadowing_captures :
    ∃ result, finalize Sample.waves Sample.shadowing = .ok () result ∧
      result.arena.name 58 ∈ result.stage.names ∧
      (result.write ⟨"\n", ""⟩).toOption =
        some ("uniform float sin;\nvoid main()\x7b\nfloat cos_1=sin(sin);\n" ++
          "gl_PointSize=cos_1;\n\x7d") := by
  have passed : passes (fun result =>
      decide (result.arena.name 58 ∈ result.stage.names ∧
        (result.write ⟨"\n", ""⟩).toOption =
          some ("uniform float sin;\nvoid main()\x7b\nfloat cos_1=sin(sin);\n" ++
            "gl_PointSize=cos_1;\n\x7d"))) (finalize Sample.waves Sample.shadowing) = true := by
    decide +kernel
  obtain ⟨result, run, captures⟩ := exists_of_passes passed
  exact ⟨result, run, of_decide_eq_true captures⟩

end Bundle

end ModularGlsl
