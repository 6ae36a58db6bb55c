import ModularGlsl.Program
import ModularGlsl.Proofs.Binding.Source
import ModularGlsl.Proofs.Build
import ModularGlsl.Proofs.Liveness.Views
import ModularGlsl.Proofs.Typing.Structs

/-!
# Stages of programs

A stage is built from its entry module, and exported constants are given values
afterwards.  A build keeps what modules declare, as far as it does not depend on the
variables that names are bound to.  The value of a constant changes one declaration, at
the level of a module, and the type of its variable; everything else of the bundle stays.
-/

namespace ModularGlsl

/-! ## Declarations of the source -/

/-- A view of statements that neither binding nor accessors have a part in. -/
structure Stmt.IsSourceView
    {β : Type}
    (view : Stmt -> Option β) : Prop extends Stmt.IsPlainView view where
  /-- The variables that names are bound to are of no interest. -/
  unbound_eq : ∀ stmt, view stmt.unbound = view stmt

variable {library : Library} {name : String} {decl : ConstDecl} {arena : Arena} {bundle : Bundle}

namespace Stmt.IsSourceView

variable {β : Type} {view : Stmt -> Option β} (source : IsSourceView view)
include source

/-- Modules that differ in variables only declare the same. -/
theorem collect_unbound (module : Module) :
    module.unbound.collect view = module.collect view := by
  rw [Module.collect, Module.unbound, Stmt.unboundBlock_eq_map, List.filterMap_map]
  exact List.filterMap_congr fun stmt _ => source.unbound_eq stmt

/-- Bound modules declare what they did. -/
theorem collect_bindModules
    {stage : Stage}
    {registry : List (String × Table Export)}
    {modules : List Module}
    (succeeded : (Bundle.bindModules stage registry arena modules).2.2 = none) :
    (Bundle.bindModules stage registry arena modules).1.map (Module.collect view) =
      modules.map (Module.collect view) := by
  have collect_eq : Module.collect view = Module.collect view ∘ Module.unbound :=
    funext fun module => (source.collect_unbound module).symm
  rw [collect_eq, ← List.map_map, Bundle.unbound_bindModules succeeded, List.map_map]

/-- A build keeps what the placed modules declare. -/
theorem collect_finalized
    {result : Bundle}
    (run : Bundle.finalize library bundle = .ok () result) :
    ∃ modules, Placement.place library bundle.modules = .ok modules ∧
      result.modules.map (Module.collect view) = modules.map (Module.collect view) := by
  obtain ⟨placed, named, typed, swept, spliced, unique, _, build, naming, _, rfl⟩ :=
    Bundle.finalize_eq_ok run
  obtain ⟨_, _, rfl⟩ := Bundle.uniqueNames_eq_ok naming
  have swept_eq := source.collect_spliced build.sweeping build.splicing
  obtain ⟨_, _, rfl⟩ := Bundle.evalTypes_eq_ok build.typing
  obtain ⟨bound, rfl⟩ := Bundle.resolveNames_eq_ok build.binding
  have placing := build.placing
  rw [Bundle.resolveDependencies_apply] at placing
  split at placing
  next modules outcome =>
    cases placing
    exact ⟨modules, outcome, swept_eq.trans (source.collect_bindModules bound)⟩
  next => cases placing

end Stmt.IsSourceView

theorem Bundle.mem_of_place
    {appended modules : List Module}
    (placed : Placement.place library appended = .ok modules) :
    ∀ module ∈ modules, module ∈ appended ∨ module ∈ library.modules := by
  have run : resolveDependencies library { empty .vertex .readable with modules := appended } =
      .ok () { empty .vertex .readable with modules := modules } := by
    rw [resolveDependencies_apply]
    simp only [placed]
  obtain ⟨_, same, isOneOf⟩ := resolveDependencies_eq_ok run
  obtain rfl : modules = _ := congrArg Bundle.modules same
  exact isOneOf

/-! ## Values of constants -/

namespace Module

/-- An exported constant is declared as such. -/
theorem eq_const_of_exportedConst?
    {stmt : Stmt}
    (found : exportedConst? name stmt = some decl) :
    stmt = .const decl ∧ decl.exported = true ∧ decl.name.name = name := by
  unfold exportedConst? at found
  split at found
  · split at found
    next condition =>
      cases found
      simpa using condition
    · cases found
  · cases found

/-- A text takes the place of the initial value of one constant. -/
theorem injectText_of_findSome?
    {block : List Stmt}
    (found : block.findSome? (exportedConst? name) = some decl)
    (text : String) :
    ∃ before after, block = before ++ .const decl :: after ∧
      injectText name text block =
        before ++ .const { decl with injected := some text } :: after := by
  induction block with
  | nil => cases found
  | cons stmt rest ih =>
      rw [List.findSome?_cons] at found
      rw [injectText]
      cases outcome : exportedConst? name stmt with
      | some other =>
          rw [outcome] at found
          cases found
          obtain ⟨rfl, _, _⟩ := eq_const_of_exportedConst? outcome
          exact ⟨[], rest, rfl, rfl⟩
      | none =>
          rw [outcome] at found
          obtain ⟨before, after, block_eq, injected_eq⟩ := ih found
          exact ⟨stmt :: before, after, by rw [block_eq]; rfl, by rw [injected_eq]; rfl⟩

end Module

variable {consts : List (String × ConstValue)}

namespace Bundle

variable {after : Bundle} {value : ConstValue}

theorem injectionTarget_eq_ok
    {id : VarId}
    (target : injectionTarget arena decl value = .ok id) :
    decl.name.var = some id ∧ decl.length = none ∧
      ∃ ty, (arena.get id).ty = some ty ∧ ty.scalarKind? = some value.kind := by
  obtain ⟨own, bound, target⟩ := except_bind_eq_ok.mp target
  obtain ⟨ty, known, target⟩ := except_bind_eq_ok.mp target
  split at target
  · cases target
  next fits =>
    cases target
    rw [not_or, not_not, Option.isSome_iff_ne_none, not_not] at fits
    exact ⟨Ident.bound_eq_ok.mp bound, fits.2, ty, Arena.ty_eq_ok.mp known, fits.1⟩

theorem get_injectType
    (arena : Arena)
    {id other : VarId}
    (different : other ≠ id)
    (value : ConstValue) :
    (injectType arena id value).get other = arena.get other := by
  cases value with
  | int value =>
      rw [injectType, Arena.setTy, Arena.get_modify, if_neg fun same => different same.1.symm]
  | float | bool => rfl

/-- One constant of a bundle gets a value: its declaration and the type of its variable
change, and nothing else does. -/
inductive Injects (bundle : Bundle) : Bundle -> Prop
  | const
      {front back : List Module}
      {module : Module}
      {early late : List Stmt}
      {decl : ConstDecl}
      {value : ConstValue}
      {id : VarId}
      (modules_eq : bundle.modules = front ++ module :: back)
      (statements_eq : module.statements = early ++ .const decl :: late)
      (isExported : decl.exported = true)
      (target : injectionTarget bundle.arena decl value = .ok id) :
      Injects bundle
        { bundle with
          arena := injectType bundle.arena id value
          modules := front ++
            { module with
              statements :=
                early ++ .const { decl with injected := some value.text } :: late } :: back }

/-- A value is given to the first exported constant of a name. -/
theorem injects_of_injectInto
    {modules others : List Module}
    (injected : injectInto name value bundle.arena modules = .ok (arena, others))
    (front : List Module)
    (modules_eq : bundle.modules = front ++ modules) :
    bundle.Injects { bundle with arena := arena, modules := front ++ others } := by
  induction modules generalizing others front with
  | nil => cases injected
  | cons module rest ih =>
      rw [injectInto] at injected
      split at injected
      next decl found =>
        obtain ⟨id, target, injected⟩ := except_bind_eq_ok.mp injected
        cases injected
        obtain ⟨_, _, isConst⟩ := List.exists_of_findSome?_eq_some found
        obtain ⟨_, isExported, _⟩ := Module.eq_const_of_exportedConst? isConst
        obtain ⟨early, late, statements_eq, injected_eq⟩ :=
          Module.injectText_of_findSome? found value.text
        rw [injected_eq]
        exact .const modules_eq statements_eq isExported target
      next =>
        obtain ⟨⟨_, later⟩, inner, injected⟩ := except_bind_eq_ok.mp injected
        cases injected
        have injects := ih inner (front ++ [module]) (by simpa using modules_eq)
        rwa [List.append_assoc] at injects

theorem injects_of_injectConst (run : injectConst name value bundle = .ok () after) :
    bundle.Injects after := by
  rw [injectConst, bind_eq_ok] at run
  obtain ⟨_, _, early, run⟩ := run
  cases early
  cases outcome : injectInto name value bundle.arena bundle.modules with
  | error error =>
      rw [outcome] at run
      cases run
  | ok changed =>
      rw [outcome] at run
      cases run
      exact injects_of_injectInto outcome [] rfl

theorem injects_of_injectAll (run : Program.injectAll consts bundle = .ok () after) :
    Relation.ReflTransGen Injects bundle after := by
  induction consts generalizing bundle with
  | nil =>
      obtain ⟨_, rfl⟩ := pure_eq_ok.mp run
      exact .refl
  | cons entry rest ih =>
      obtain ⟨_, middle, first, others⟩ := bind_eq_ok.mp run
      exact .head (injects_of_injectConst first) (ih others)

theorem Injects.get_eq (injects : bundle.Injects after) :
    ∃ decl id, decl.name.var = some id ∧
      (∃ module ∈ bundle.modules, .const decl ∈ module.statements) ∧
      ∀ other ≠ id, after.arena.get other = bundle.arena.get other := by
  cases injects with
  | @const _ _ module _ _ decl value id modules_eq statements_eq _ target =>
      obtain ⟨bound, _⟩ := injectionTarget_eq_ok target
      refine ⟨decl, id, bound, ⟨module, ?_, ?_⟩, fun other different => ?_⟩
      · rw [modules_eq]
        exact List.mem_append_right _ List.mem_cons_self
      · rw [statements_eq]
        exact List.mem_append_right _ List.mem_cons_self
      · exact get_injectType bundle.arena different value

theorem Injects.collect_eq
    {β : Type}
    {view : Stmt -> Option β}
    (const_eq : ∀ (decl : ConstDecl) text,
      view (.const { decl with injected := text }) = view (.const decl))
    (injects : bundle.Injects after) :
    after.modules.map (Module.collect view) = bundle.modules.map (Module.collect view) := by
  cases injects with
  | const modules_eq statements_eq _ _ =>
      simp only [modules_eq, List.map_append, List.map_cons, Module.collect, statements_eq,
        List.filterMap_append, List.filterMap_cons, const_eq]

/-- Values of constants keep conditions on the parts of modules that do not depend on
them. -/
theorem Injects.everyIn
    {onExpr : Expr -> Prop}
    {onStmt : Stmt -> Prop}
    (const : ∀ (decl : ConstDecl) text, onStmt (.const decl) ->
      onStmt (.const { decl with injected := text }))
    (injects : bundle.Injects after)
    (satisfied : ∀ module ∈ bundle.modules, Stmt.EveryIn onExpr onStmt module.statements) :
    ∀ module ∈ after.modules, Stmt.EveryIn onExpr onStmt module.statements := by
  cases injects with
  | @const front back module early late decl value id modules_eq statements_eq _ _ =>
      intro other mem
      rw [modules_eq] at satisfied
      simp only [List.mem_append, List.mem_cons] at satisfied mem
      rcases mem with isFront | rfl | isBack
      · exact satisfied other (.inl isFront)
      · have own := satisfied module (.inr (.inl rfl))
        rw [statements_eq, Stmt.everyIn_iff, List.forall_mem_append, List.forall_mem_cons] at own
        obtain ⟨inEarly, ⟨isOwn, inInit⟩, inLate⟩ := own
        refine Stmt.everyIn_iff.mpr (List.forall_mem_append.mpr ⟨inEarly, ?_⟩)
        exact List.forall_mem_cons.mpr ⟨⟨const decl _ isOwn, inInit⟩, inLate⟩
      · exact satisfied other (.inr (.inr isBack))

end Bundle

/-! ## Programs -/

namespace Program

theorem buildStage_eq_ok
    {stage : Stage}
    {path : String}
    {naming : Naming}
    (built : buildStage library stage path naming consts = .ok bundle) :
    ∃ entry finalized, library.get? path = some entry ∧
      Bundle.finalize library ((Bundle.empty stage naming).append entry) = .ok () finalized ∧
      Relation.ReflTransGen Bundle.Injects finalized bundle := by
  unfold buildStage at built
  split at built
  · cases built
  next entry found =>
    dsimp only at built
    split at built
    next run =>
      cases built
      obtain ⟨_, finalized, finalizing, injecting⟩ := bind_eq_ok.mp run
      exact ⟨entry, finalized, found, finalizing, Bundle.injects_of_injectAll injecting⟩
    next => cases built

theorem link_eq_ok
    {vertexPath fragmentPath : String}
    {options : LinkOptions}
    {program : Program}
    (linked : link library vertexPath fragmentPath options = .ok program) :
    ∃ vertex fragment,
      buildStage library .vertex vertexPath options.naming options.vertexConsts = .ok vertex ∧
      buildStage library .fragment fragmentPath options.naming options.fragmentConsts =
        .ok fragment ∧
      checkInterface vertex.varyings fragment.varyings = .ok () ∧
      vertex.write options.spacing = .ok program.vertex ∧
      fragment.write options.spacing = .ok program.fragment := by
  obtain ⟨vertex, vertexBuilt, linked⟩ := except_bind_eq_ok.mp linked
  obtain ⟨fragment, fragmentBuilt, linked⟩ := except_bind_eq_ok.mp linked
  obtain ⟨_, checked, linked⟩ := except_bind_eq_ok.mp linked
  obtain ⟨vertexText, vertexWritten, linked⟩ := except_bind_eq_ok.mp linked
  obtain ⟨fragmentText, fragmentWritten, linked⟩ := except_bind_eq_ok.mp linked
  cases linked
  refine ⟨vertex, fragment, vertexBuilt, fragmentBuilt, ?_, vertexWritten, fragmentWritten⟩
  cases outcome : checkInterface vertex.varyings fragment.varyings with
  | ok done => rfl
  | error error =>
      rw [outcome] at checked
      cases checked

end Program

end ModularGlsl
