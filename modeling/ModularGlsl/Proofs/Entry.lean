import ModularGlsl.Proofs.Binding.Functions
import ModularGlsl.Proofs.Liveness.Least
import ModularGlsl.Proofs.Naming.Inherited
import ModularGlsl.Proofs.Typing.Signatures

/-!
# Entry points

The main function of a module is what the name `main` denotes at its end, so it may
be a function that was imported under this name.  Only a function that is declared
under it keeps it in the output.  A build therefore defines its entry point exactly
if the main function of every entry module is declared as such.
-/

namespace ModularGlsl

/-! ## Functions of modules -/

/-- The header of the function that a statement defines. -/
def Stmt.header? : Stmt -> Option FunctionHeader
  | .function header _ => some header
  | _ => none

variable {header : FunctionHeader}

theorem Stmt.eq_function_of_header?
    {stmt : Stmt}
    (found : stmt.header? = some header) :
    ∃ body, stmt = .function header body := by
  unfold header? at found
  split at found
  · cases found
    exact ⟨_, rfl⟩
  · cases found

/-- The functions of a module. -/
def Module.functions (module : Module) : List FunctionHeader :=
  module.statements.filterMap Stmt.header?

variable {module : Module}

theorem Module.mem_functions {header : FunctionHeader} :
    header ∈ module.functions ↔ ∃ body, Stmt.function header body ∈ module.statements := by
  rw [functions, List.mem_filterMap]
  constructor
  · rintro ⟨stmt, mem, found⟩
    obtain ⟨body, rfl⟩ := Stmt.eq_function_of_header? found
    exact ⟨body, mem⟩
  · rintro ⟨body, mem⟩
    exact ⟨_, mem, rfl⟩

/-- What a build keeps of a module once its names are bound. -/
structure Module.Outline where
  /-- Whether the module has to define a main function. -/
  entry : Bool
  /-- The main function. -/
  main : Option VarId
  /-- The functions. -/
  functions : List FunctionHeader

/-- The outline of a module. -/
def Module.outline (module : Module) : Outline :=
  ⟨module.entry, module.main, module.functions⟩

/-- Modules with one outline have the same functions, and the same main function. -/
theorem Module.eq_of_outline
    {other : Module}
    (same : module.outline = other.outline) :
    module.entry = other.entry ∧ module.main = other.main ∧ module.functions = other.functions := by
  simpa [outline] using same

/-! ## Outlines stay -/

namespace Liveness

variable (stage : Stage)

theorem header?_sweepStmt
    (stmt : Stmt)
    (state : State) :
    (sweepStmt stage stmt state).1.header? = stmt.header? := by
  cases stmt with
  | function header body =>
      change Stmt.header?
        ((if (readsIdent header.name state).1 = true then _ else _ : Sweep Stmt)
          (readsIdent header.name state).2).1 = _
      split
      · rfl
      · rfl
  | _ =>
      rfl

theorem functions_sweepBlock
    (block : List Stmt)
    (state : State) :
    (sweepBlock stage block state).1.filterMap Stmt.header? = block.filterMap Stmt.header? := by
  induction block generalizing state with
  | nil =>
      rfl
  | cons stmt rest ih =>
      change ((sweepStmt stage stmt _).1 :: (sweepBlock stage rest state).1).filterMap _ = _
      rw [List.filterMap_cons, List.filterMap_cons, header?_sweepStmt, ih]

theorem outline_sweepModules
    (modules : List Module)
    (state : State) :
    (sweepModules stage modules state).1.map Module.outline = modules.map Module.outline := by
  induction modules generalizing state with
  | nil => rfl
  | cons module rest ih =>
      change ({ module with statements := (sweepBlock stage module.statements _).1 } ::
        (sweepModules stage rest state).1).map Module.outline = _
      rw [List.map_cons, List.map_cons, ih]
      simp only [Module.outline, Module.functions, functions_sweepBlock]

end Liveness

/-- No waiting statement defines a function. -/
def Usage.HoldsNoFunction (usage : Usage) : Prop :=
  ∀ stmt ∈ usage.pending.map Pending.stmt, stmt.header? = none

variable {usage : Usage}

namespace Usage

/-- Accessors are no functions of the source. -/
theorem Waits.holdsNoFunction
    {arena : Arena}
    {low : VarId}
    (waits : usage.Waits arena low) :
    usage.HoldsNoFunction := by
  intro stmt mem
  obtain ⟨waiting, isWaiting, rfl⟩ := List.mem_map.mp mem
  obtain ⟨accessor, stmt_eq, _⟩ := waits.isAccessor waiting isWaiting
  rw [stmt_eq]
  rfl

/-- Statements that are taken define no function, and neither do those left. -/
theorem HoldsNoFunction.hands
    {before after : Usage}
    {taken : List Stmt}
    (holds : before.HoldsNoFunction)
    (hands : before.Hands taken after) :
    taken.filterMap Stmt.header? = [] ∧ after.HoldsNoFunction := by
  refine ⟨List.filterMap_eq_nil_iff.mpr fun stmt mem => ?_, fun stmt mem => ?_⟩
  · exact holds stmt (hands.mem_of_taken mem)
  · exact holds stmt (hands.mem_of_left mem)

end Usage

theorem Module.functions_splice
    (placed : Bool)
    (holds : usage.HoldsNoFunction)
    (block : List Stmt) :
    (splice placed usage block).1.filterMap Stmt.header? = block.filterMap Stmt.header? := by
  induction block generalizing placed usage with
  | nil =>
      cases placed with
      | true => rfl
      | false => exact (holds.hands (usage.hands_pop none)).1
  | cons stmt rest ih =>
      obtain ⟨noneBefore, holdsBefore⟩ := holds.hands (hands_general placed usage stmt)
      obtain ⟨noneOwn, holdsOwn⟩ := holdsBefore.hands (hands_release _ stmt)
      rw [splice_cons]
      simp only [List.filterMap_append, List.filterMap_cons, noneBefore, noneOwn, List.nil_append,
        ih _ holdsOwn]

namespace Bundle

theorem outline_spliceModules
    (isFirst : Bool)
    (holds : usage.HoldsNoFunction)
    (modules : List Module) :
    (spliceModules isFirst usage modules).1.map Module.outline = modules.map Module.outline := by
  induction modules generalizing isFirst usage with
  | nil => rfl
  | cons module rest ih =>
      obtain ⟨taken, _, hands⟩ := Module.splice_perm (!isFirst) usage module.statements
      rw [spliceModules]
      rw [List.map_cons, List.map_cons, ih false (holds.hands hands).2]
      simp only [Module.outline, Module.functions, Module.functions_splice _ holds]

/-- Bound modules are entry modules if they were. -/
theorem entry_bindModules
    {stage : Stage}
    {registry : List (String × Table Export)}
    {arena : Arena}
    {modules : List Module}
    (succeeded : (bindModules stage registry arena modules).2.2 = none) :
    (bindModules stage registry arena modules).1.map Module.entry = modules.map Module.entry := by
  induction modules generalizing registry arena with
  | nil => rfl
  | cons module rest ih =>
      obtain ⟨statements, state, _, later, modules_eq, _⟩ := runs_of_bindModules_cons succeeded
      rw [modules_eq, List.map_cons, List.map_cons, ih later]

/-! ## The main function -/

/-- The functions of all modules. -/
def functions (bundle : Bundle) : List FunctionHeader :=
  bundle.modules.flatMap Module.functions

/-- The functions of all modules that are written. -/
def writtenFunctions (bundle : Bundle) : List FunctionHeader :=
  bundle.functions.filter fun header => bundle.usage.reads header.name

/-- The functions that are written under a given name. -/
def functionsNamed
    (bundle : Bundle)
    (name : String) : List FunctionHeader :=
  bundle.writtenFunctions.filter fun header => header.name.var.map bundle.arena.name == some name

/-- A bundle defines its entry point: one function is written under the name of a
main function, it neither takes nor yields values, and it is the main function of
every entry module. -/
structure DefinesMain
    (bundle : Bundle)
    (header : FunctionHeader) : Prop where
  /-- No other function is written under this name. -/
  only : bundle.functionsNamed "main" = [header]
  /-- The function takes no values. -/
  params_eq : header.params = []
  /-- The function yields no value. -/
  result_eq : header.result = none
  /-- The function is the main function of every entry module. -/
  main_eq : ∀ module ∈ bundle.modules, module.entry = true ->
    module.main = header.name.var ∧ module.main ≠ none

/-- What is known of the functions of a bundle before names are given. -/
structure DeclaresFunctions (bundle : Bundle) : Prop where
  /-- Functions have variables. -/
  bound : ∀ header ∈ bundle.functions, ∃ var, header.name.var = some var
  /-- A function that is declared as a main function is that of its module. -/
  owned : ∀ module ∈ bundle.modules, ∀ header ∈ module.functions,
    header.name.name = "main" -> header.name.var = module.main
  /-- Main functions of entry modules are read. -/
  used : ∀ module ∈ bundle.modules, module.entry = true ->
    ∀ main ∈ module.main, bundle.usage.isUsed main = true
  /-- Main functions of entry modules neither take nor yield values. -/
  signature : ∀ module ∈ bundle.modules, module.entry = true ->
    ∀ header ∈ bundle.functions, header.name.var = module.main ->
      header.params = [] ∧ header.result = none

/-- What is known of the functions of a bundle once names are given. -/
structure KnowsFunctions (bundle : Bundle) : Prop
    extends DeclaresFunctions bundle where
  /-- No function is written twice. -/
  nodup : (bundle.writtenFunctions.filterMap fun header => header.name.var).Nodup
  /-- A function keeps the name of a main function, and none gets it. -/
  named_iff : ∀ header ∈ bundle.writtenFunctions,
    header.name.var.map bundle.arena.name = some "main" ↔ header.name.name = "main"
  /-- Functions that are declared as main functions are one. -/
  unique : ∀ first ∈ bundle.writtenFunctions, ∀ second ∈ bundle.writtenFunctions,
    first.name.name = "main" -> second.name.name = "main" -> first.name.var = second.name.var

variable {bundle unique placed : Bundle}

namespace KnowsFunctions

variable (knows : bundle.KnowsFunctions)
include knows

/-- The functions that are written under the name of a main function are those that
are declared under it. -/
theorem mem_functionsNamed {header : FunctionHeader} :
    header ∈ bundle.functionsNamed "main" ↔
      header ∈ bundle.writtenFunctions ∧ header.name.name = "main" := by
  rw [functionsNamed, List.mem_filter, beq_iff_eq]
  exact and_congr_right (knows.named_iff header)

theorem functionsNamed_eq (own : header ∈ bundle.functionsNamed "main") :
    bundle.functionsNamed "main" = [header] := by
  obtain ⟨isWritten, isMain⟩ := knows.mem_functionsNamed.mp own
  obtain ⟨var, bound⟩ := knows.bound header (List.mem_of_mem_filter isWritten)
  -- All functions of this name have one variable, and no variable is written twice.
  have same : ∀ other ∈ bundle.functionsNamed "main", other.name.var = some var := by
    intro other isOther
    obtain ⟨otherWritten, otherMain⟩ := knows.mem_functionsNamed.mp isOther
    rw [knows.unique other otherWritten header isWritten otherMain isMain, bound]
  have vars : (bundle.functionsNamed "main").filterMap (fun header => header.name.var) =
      List.replicate (bundle.functionsNamed "main").length var := by
    rw [← List.map_const', ← List.filterMap_eq_map]
    exact List.filterMap_congr fun other isOther => same other isOther
  have sublist : (bundle.functionsNamed "main").Sublist bundle.writtenFunctions :=
    List.filter_sublist
  have nodup := (sublist.filterMap fun header => header.name.var).nodup knows.nodup
  rw [vars, List.nodup_replicate] at nodup
  obtain ⟨other, isOnly⟩ : ∃ other, bundle.functionsNamed "main" = [other] :=
    List.length_eq_one_iff.mp (Nat.le_antisymm nodup (List.length_pos_of_mem own))
  rw [isOnly] at own ⊢
  rw [List.mem_singleton.mp own]

/-- The main function of an entry module is written if it is declared under this
name. -/
theorem mem_functionsNamed_of_main
    (mem : module ∈ bundle.modules)
    (isEntry : module.entry = true)
    (isFunction : header ∈ bundle.functions)
    (isMain : header.name.name = "main")
    (var_eq : header.name.var = module.main) :
    header ∈ bundle.functionsNamed "main" := by
  obtain ⟨var, bound⟩ := knows.bound header isFunction
  have used := knows.used module mem isEntry var (var_eq.symm.trans bound)
  refine knows.mem_functionsNamed.mpr ⟨List.mem_filter.mpr ⟨isFunction, ?_⟩, isMain⟩
  simp [Usage.reads, bound, used]

/-- A bundle defines its entry point exactly if the main function of every entry
module is declared under the name of a main function. -/
theorem definesMain_iff
    (hasEntry : ∃ module ∈ bundle.modules, module.entry = true) :
    (∃ header, bundle.DefinesMain header) ↔
      ∀ module ∈ bundle.modules, module.entry = true ->
        ∃ header ∈ bundle.functions, header.name.name = "main" ∧ header.name.var = module.main := by
  constructor
  · rintro ⟨header, defines⟩ module mem isEntry
    have own : header ∈ bundle.functionsNamed "main" := by
      rw [defines.only]
      exact List.mem_cons_self
    obtain ⟨isWritten, isMain⟩ := knows.mem_functionsNamed.mp own
    exact ⟨header, List.mem_of_mem_filter isWritten, isMain,
      (defines.main_eq module mem isEntry).1.symm⟩
  · intro declared
    obtain ⟨module, mem, isEntry⟩ := hasEntry
    obtain ⟨header, isFunction, isMain, var_eq⟩ := declared module mem isEntry
    have only := knows.functionsNamed_eq
      (knows.mem_functionsNamed_of_main mem isEntry isFunction isMain var_eq)
    obtain ⟨params_eq, result_eq⟩ := knows.signature module mem isEntry header isFunction var_eq
    refine ⟨header, only, params_eq, result_eq, fun other isOther otherEntry => ?_⟩
    obtain ⟨own, ownFunction, ownMain, ownVar⟩ := declared other isOther otherEntry
    have named :=
      knows.mem_functionsNamed_of_main isOther otherEntry ownFunction ownMain ownVar
    rw [only] at named
    obtain ⟨var, bound⟩ := knows.bound header isFunction
    rw [← ownVar, List.mem_singleton.mp named, bound]
    exact ⟨rfl, Option.some_ne_none var⟩

end KnowsFunctions

/-! ## Functions after a build -/

/-- The functions of a module that are written have declarations of the output. -/
theorem sublist_sitesInModule
    (usage : Usage)
    (main : Option VarId)
    (block : List Stmt) :
    (((block.filterMap Stmt.header?).filter fun header => usage.reads header.name).filterMap
      fun header => header.name.var).Sublist
        ((block.flatMap (Stmt.sitesInModule usage main)).map Site.var) := by
  induction block with
  | nil => exact .refl _
  | cons stmt rest ih =>
      rw [List.flatMap_cons, List.map_append]
      cases found : stmt.header? with
      | none =>
          rw [List.filterMap_cons_none found]
          exact ih.trans (List.sublist_append_right _ _)
      | some header =>
          obtain ⟨body, rfl⟩ := Stmt.eq_function_of_header? found
          rw [List.filterMap_cons_some found, List.filter_cons, Stmt.sitesInModule, Stmt.isKept]
          split
          · rw [Stmt.sites, List.map_append, List.append_assoc, Ident.sites, List.filterMap_cons]
            have later := ih.trans (List.sublist_append_right
              ((Param.sites (header.inside []) header.params ++
                Stmt.sitesOfBlock usage body (header.inside [])).map Site.var) _)
            cases header.name.var with
            | none => exact later
            | some var => exact later.cons_cons var
          · exact ih

/-- The functions that are written have declarations of the output. -/
theorem sublist_sites (bundle : Bundle) :
    (bundle.writtenFunctions.filterMap fun header => header.name.var).Sublist
      (bundle.sites.map Site.var) := by
  rw [writtenFunctions, functions, sites]
  induction bundle.modules with
  | nil => exact .refl _
  | cons module rest ih =>
      rw [List.flatMap_cons, List.flatMap_cons, List.filter_append, List.filterMap_append,
        List.map_append]
      exact (sublist_sitesInModule bundle.usage module.main module.statements).append
        ih

theorem DeclaresFunctions.mem_sites
    (declares : bundle.DeclaresFunctions)
    (isWritten : header ∈ bundle.writtenFunctions) :
    ∃ site ∈ bundle.sites, header.name.var = some site.var ∧ site.name = header.name.name ∧
      (header.name.name = "main" -> site.keeps = true) := by
  obtain ⟨isFunction, isRead⟩ := List.mem_filter.mp isWritten
  obtain ⟨var, bound⟩ := declares.bound header isFunction
  obtain ⟨module, mem, isFunction⟩ := List.mem_flatMap.mp isFunction
  obtain ⟨body, isStmt⟩ := Module.mem_functions.mp isFunction
  refine ⟨⟨var, header.name.name, [], some var == module.main⟩, ?_, bound, rfl, fun isMain => ?_⟩
  · refine List.mem_flatMap.mpr ⟨module, mem, List.mem_flatMap.mpr ⟨_, isStmt, ?_⟩⟩
    rw [Stmt.sitesInModule, Stmt.isKept, if_pos isRead, Stmt.sites, Stmt.mustKeep]
    refine List.mem_append_left _ ?_
    rw [Ident.sites, bound]
    exact List.mem_cons_self
  · rw [← declares.owned module mem header isFunction isMain, bound]
    exact beq_self_eq_true _

/-- Naming keeps the names of main functions, and gives them to no other one. -/
theorem DeclaresFunctions.knowsFunctions
    (declares : bundle.DeclaresFunctions)
    (nameable : bundle.IsNameable)
    (naming : uniqueNames bundle = .ok () unique) :
    unique.KnowsFunctions := by
  obtain ⟨state, rfl, inherits, distinct⟩ := nameable.inherits naming
  refine ⟨⟨declares.bound, declares.owned, declares.used, declares.signature⟩, ?_, ?_, ?_⟩
  · exact (sublist_sites bundle).nodup nameable.nodup
  · intro header isWritten
    obtain ⟨site, isSite, bound, name_eq, keeps⟩ := declares.mem_sites isWritten
    rw [bound, Option.map_some, Option.some.injEq]
    have source_eq := (nameable.named site isSite).trans name_eq
    constructor
    · intro isNamed
      rcases inherits.chosen site.var with same | ⟨_, unreserved⟩
      · exact source_eq.symm.trans (same.symm.trans isNamed)
      · rw [isNamed] at unreserved
        exact absurd (List.mem_append_left _ (by decide)) unreserved
    · intro isMain
      have unchanged := inherits.unchanged site.var fun other isOther same => by
        rw [List.inj_on_of_nodup_map nameable.nodup isOther isSite same]
        exact keeps isMain
      exact unchanged.trans (source_eq.trans isMain)
  · intro first isFirst second isSecond firstMain secondMain
    obtain ⟨one, isOne, oneBound, oneName, oneKeeps⟩ := declares.mem_sites isFirst
    obtain ⟨other, isOther, otherBound, otherName, otherKeeps⟩ := declares.mem_sites isSecond
    have same : one.name = other.name := by rw [oneName, otherName, firstMain, secondMain]
    rw [oneBound, otherBound, distinct one isOne other isOther (oneKeeps firstMain)
      (otherKeeps secondMain) same]

variable {library : Library}

theorem mem_of_resolveDependencies (placing : resolveDependencies library bundle = .ok () placed) :
    ∀ module ∈ bundle.modules, module ∈ placed.modules := by
  rw [resolveDependencies_apply] at placing
  intro module mem
  rcases Placement.place_spec library bundle.modules with
    ⟨⟨path, origin, span, failed⟩, _⟩ | ⟨loaded, _, outcome⟩
  · rw [failed] at placing
    cases placing
  · rcases outcome with ⟨modules, succeeded, permuted, _⟩ | ⟨⟨cycle, span, failed⟩, _⟩
    · rw [succeeded] at placing
      cases placing
      exact permuted.symm.subset (List.mem_append_left _ mem)
    · rw [failed] at placing
      cases placing

section Build

variable {named typed swept spliced : Bundle}

/-- From binding to naming, modules keep their outlines. -/
theorem IsFresh.outline_spliced
    (fresh : IsFresh library bundle)
    (build : Spliced library bundle placed named typed swept spliced) :
    spliced.modules.map Module.outline = named.modules.map Module.outline := by
  obtain ⟨_, _, waits⟩ := fresh.isInRange.areBound_swept build.toSwept
  obtain ⟨arena, _, rfl⟩ := evalTypes_eq_ok build.typing
  obtain ⟨modules, state, run, rfl⟩ := resolveActivity_eq_ok build.sweeping
  obtain ⟨rfl, _⟩ := finalizeInjected_eq_ok build.splicing
  rw [outline_spliceModules true waits.holdsNoFunction]
  have swept_eq := Liveness.outline_sweepModules named.stage named.modules
    { arena := arena, usage := named.modules.foldl markMain {} }
  rw [run.1] at swept_eq
  exact swept_eq

/-- Main functions of entry modules are read after the sweep. -/
theorem isUsed_main
    (sweeping : resolveActivity typed = .ok () swept)
    (splicing : finalizeInjected swept = .ok () spliced)
    (mem : module ∈ typed.modules)
    (isEntry : module.entry = true)
    {main : VarId}
    (isMain : module.main = some main) :
    spliced.usage.isUsed main = true := by
  obtain ⟨modules, state, run, rfl⟩ := resolveActivity_eq_ok sweeping
  obtain ⟨rfl, _⟩ := finalizeInjected_eq_ok splicing
  obtain ⟨taken, hands⟩ := hands_spliceModules true state.usage modules
  obtain ⟨moves, _⟩ := Liveness.areBound_of_sweepModules typed.stage run
  rw [Usage.isUsed, hands.used_eq]
  refine moves.isUsed ?_
  exact (isUsed_foldl_markMain typed.modules {} main).mpr
    (.inr ⟨module, mem, isEntry, isMain⟩)

section

variable (fresh : IsFresh library bundle)
variable (build : Spliced library bundle placed named typed swept spliced)
include fresh build

/-- What is known of the functions of a fresh bundle before names are given. -/
theorem IsFresh.declaresFunctions :
    spliced.DeclaresFunctions := by
  have outline_eq := fresh.outline_spliced build
  have isTyped {module : Module} (mem : module ∈ named.modules) : module ∈ typed.modules := by
    obtain ⟨_, _, rfl⟩ := evalTypes_eq_ok build.typing
    exact mem
  have owns := fresh.isInRange.ownsMain build.toNamed
  have original {module : Module} (mem : module ∈ spliced.modules) :
      ∃ original ∈ named.modules, module.entry = original.entry ∧ module.main = original.main ∧
        module.functions = original.functions := by
    have mapped : module.outline ∈ named.modules.map Module.outline :=
      outline_eq ▸ List.mem_map_of_mem mem
    obtain ⟨original, isOriginal, same⟩ := List.mem_map.mp mapped
    exact ⟨original, isOriginal, Module.eq_of_outline same.symm⟩
  have signed {header : FunctionHeader} (isFunction : header ∈ spliced.functions) :
      ∃ var signature, header.name.var = some var ∧
        header.HasSignature typed.arena var signature := by
    obtain ⟨module, mem, isFunction⟩ := List.mem_flatMap.mp isFunction
    obtain ⟨other, isOther, _, _, functions_eq⟩ := original mem
    obtain ⟨body, isStmt⟩ := Module.mem_functions.mp (functions_eq ▸ isFunction)
    exact ((fresh.placed build.placing).isPassed build.binding build.typing (isTyped isOther) _
      (Stmt.mem_partsOfBlock isStmt)).hasSignature
  refine ⟨?_, ?_, ?_, ?_⟩
  · intro header isFunction
    obtain ⟨var, _, bound, _⟩ := signed isFunction
    exact ⟨var, bound⟩
  · intro module mem header isFunction name_eq
    obtain ⟨other, isOther, _, main_eq, functions_eq⟩ := original mem
    obtain ⟨body, isStmt⟩ := Module.mem_functions.mp (functions_eq ▸ isFunction)
    obtain ⟨var, bound, isMain⟩ := owns other isOther header body isStmt name_eq
    rw [bound, main_eq, isMain]
  · intro module mem isEntry main isMain
    obtain ⟨other, isOther, entry_eq, main_eq, _⟩ := original mem
    exact isUsed_main build.sweeping build.splicing (isTyped isOther) (entry_eq ▸ isEntry)
      (main_eq ▸ isMain)
  · intro module mem isEntry header isFunction var_eq
    obtain ⟨var, signature, bound, hasSignature⟩ := signed isFunction
    obtain ⟨other, isOther, entry_eq, main_eq, _⟩ := original mem
    have isMain : other.main = some var := by rw [← main_eq, ← var_eq, bound]
    exact hasSignature.eq_of_isEntryPoint ((fresh.placed build.placing).isEntryPoint_main
      build.binding build.typing (isTyped isOther) (entry_eq ▸ isEntry) isMain)

/-- Modules that were appended as entry modules stay such until naming. -/
theorem IsFresh.hasEntry_spliced (appended : ∃ module ∈ bundle.modules, module.entry = true) :
    ∃ module ∈ spliced.modules, module.entry = true := by
  obtain ⟨module, mem, isEntry⟩ := appended
  have isPlaced := mem_of_resolveDependencies build.placing module mem
  have outline_eq := fresh.outline_spliced build
  have bound_eq : named.modules.map Module.entry = placed.modules.map Module.entry := by
    obtain ⟨succeeded, rfl⟩ := resolveNames_eq_ok build.binding
    exact entry_bindModules succeeded
  have spliced_eq : spliced.modules.map Module.entry = named.modules.map Module.entry := by
    have same := congrArg (List.map Module.Outline.entry) outline_eq
    rw [List.map_map, List.map_map] at same
    exact same
  refine List.mem_map.mp ?_
  rw [spliced_eq, bound_eq, ← isEntry]
  exact List.mem_map_of_mem isPlaced

end

end Build

/-- A build of a fresh bundle with an entry module defines its entry point exactly if
the main function of every entry module is declared under the name of a main
function, and not only imported under it. -/
theorem finalize_definesMain_iff
    {library : Library}
    {bundle result : Bundle}
    (fresh : IsFresh library bundle)
    (appended : ∃ module ∈ bundle.modules, module.entry = true)
    (run : finalize library bundle = .ok () result) :
    (∃ header, result.DefinesMain header) ↔
      ∀ module ∈ result.modules, module.entry = true ->
        ∃ header ∈ result.functions, header.name.name = "main" ∧ header.name.var = module.main := by
  obtain ⟨placed, named, typed, swept, spliced, unique, _, build, naming, _, rfl⟩ :=
    finalize_eq_ok run
  have declares := fresh.declaresFunctions build
  have knows := declares.knowsFunctions (fresh.isNameable build) naming
  have splicedEntry := fresh.hasEntry_spliced build appended
  have hasEntry : ∃ module ∈ unique.modules, module.entry = true := by
    obtain ⟨_, _, rfl⟩ := uniqueNames_eq_ok naming
    exact splicedEntry
  have iff := knows.definesMain_iff hasEntry
  refine ⟨fun ⟨header, defines⟩ => iff.mp ⟨header, ?_⟩, fun declared => ?_⟩
  · exact ⟨defines.only, defines.params_eq, defines.result_eq, defines.main_eq⟩
  · obtain ⟨header, defines⟩ := iff.mpr declared
    exact ⟨header, defines.only, defines.params_eq, defines.result_eq, defines.main_eq⟩

/-- A program that declares its main function defines its entry point. -/
theorem finalize_sample_definesMain :
    (∃ module ∈ Sample.bundle.modules, module.entry = true) ∧
      ∃ result, finalize Sample.library Sample.bundle = .ok () result ∧
        ∃ header, result.DefinesMain header := by
  have appended : ∃ module ∈ Sample.bundle.modules, module.entry = true :=
    ⟨_, List.mem_cons_self, rfl⟩
  have passed : passes (fun result => decide
      (∀ module ∈ result.modules, module.entry = true ->
        ∃ header ∈ result.functions, header.name.name = "main" ∧ header.name.var = module.main))
      (finalize Sample.library Sample.bundle) = true := by
    decide +kernel
  obtain ⟨result, run, declared⟩ := exists_of_passes passed
  refine ⟨appended, result, run, ?_⟩
  exact (finalize_definesMain_iff Sample.isFresh_bundle appended run).mpr
    (of_decide_eq_true declared)

end Bundle

namespace Sample

/-- A library with a function that could be a main function. -/
def starting : Library :=
  ⟨[{ path := "/lib"
      statements :=
        [.function { result := none, name := name "start", params := [], span := {} }
            [.assign (read "gl_PointSize") .assign (.float ⟨0x3ff0000000000000⟩ {}) {}],
          .exportName (name "start") "start" {}] }]⟩

/-- A module that imports its main function under this name. -/
def aliased : Bundle :=
  (Bundle.empty .vertex .readable).append
    { path := "/main", statements := [.importName "start" (name "main") "/lib" {}] }

end Sample

namespace Bundle

/-- A main function that is only imported under this name is written under another
one: nothing that is written is called `main`. -/
theorem finalize_aliased_definesNoMain :
    ∃ result, finalize Sample.starting Sample.aliased = .ok () result ∧
      result.writtenFunctions.length = 1 ∧ result.functionsNamed "main" = [] := by
  have passed : passes (fun result => decide (result.writtenFunctions.length = 1) &&
      (result.functionsNamed "main").isEmpty)
      (finalize Sample.starting Sample.aliased) = true := by
    decide +kernel
  obtain ⟨result, run, absent⟩ := exists_of_passes passed
  rw [Bool.and_eq_true, decide_eq_true_eq, List.isEmpty_iff] at absent
  exact ⟨result, run, absent⟩

end Bundle

end ModularGlsl
