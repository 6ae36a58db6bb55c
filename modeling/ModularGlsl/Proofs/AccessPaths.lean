import ModularGlsl.Proofs.Binding.Reached
import ModularGlsl.Proofs.Binding.Source
import ModularGlsl.Proofs.Emission
import ModularGlsl.Proofs.Placement

/-!
# Access paths lead to declarations

A bound program is the program that was read with its names bound.  Every name in it reaches
something, and so does every member of a package; whatever reaches a declaration is bound to
its variable and is written under its current name.  Paths to different declarations are bound
to different variables.
-/

namespace ModularGlsl

/-! ## Variables of built-in names -/

variable {skips : VarId -> Prop}

/-- Numbered names have ascending numbers. -/
theorem Ident.ascend_zipIdx
    (table : List Builtin)
    (start : Nat) :
    Ident.Ascend skips start (start + table.length)
      ((table.zipIdx start).map fun entry => Ident.ofBuiltin (entry.1.name, entry.2)) := by
  induction table generalizing start with
  | nil => exact .nil
  | cons builtin rest ih =>
      rw [List.zipIdx_cons, List.map_cons, List.length_cons, Nat.add_comm rest.length,
        ← Nat.add_assoc]
      exact (Ident.Ascend.single rfl).append (ih (start + 1)) (Nat.le_succ _)
        (Nat.le_add_right _ _)

/-- Built-in names have ascending numbers. -/
theorem Stage.ascend_globals (stage : Stage) :
    Ident.Ascend skips 0 stage.arena.size (stage.globals.map Ident.ofBuiltin) := by
  have size_eq : stage.arena.size = 0 + (Builtin.table stage).length := by
    simp [Stage.arena, Arena.size, Stage.builtins]
  rw [size_eq, Stage.globals, List.map_map]
  exact Ident.ascend_zipIdx (Builtin.table stage) 0

/-- A name at the start of a module stands for the latest built-in variable of that name. -/
theorem Scope.lookup_ofGlobals
    (globals : List (String × VarId))
    (name : String) :
    (ofGlobals globals).lookup name = globals.reverse.lookup name := by
  simp only [ofGlobals, lookup, frames, Frame.get?, List.findSome?_cons, List.findSome?_nil,
    List.nil_append, List.lookup_nil]
  cases globals.reverse.lookup name <;> rfl

/-! ## Modules -/

variable {bundle placed : Bundle} {done : List Module} {arena : Arena}
variable {registry : List (String × Table Export)}

theorem Binding.Registered.cons
    {later : Arena}
    (registered : Registered bundle done arena registry)
    {module : Module}
    (isModule : module ∈ bundle.modules)
    {path : String}
    (path_eq : module.path = path)
    (kept : arena.Keeps later)
    (finished : module.IsFinished bundle done later) :
    Registered bundle (module :: done) later ((path, module.exports) :: registry) where
  lookup other exports found := by
    rw [List.lookup_cons] at found
    split at found
    · next same =>
        cases found
        exact ⟨module, List.mem_cons_self, path_eq.trans (eq_of_beq same).symm, rfl⟩
    · obtain ⟨earlier, mem, earlier_eq, exports_eq⟩ := registered.lookup other exports found
      exact ⟨earlier, List.mem_cons_of_mem _ mem, earlier_eq, exports_eq⟩
  subset := List.cons_subset.mpr ⟨isModule, registered.subset⟩
  finished := by
    refine List.forall_mem_cons.mpr ⟨?_, fun other mem => ?_⟩
    · exact finished.mono (List.subset_cons_self _ _) (.refl _)
    · exact (registered.finished other mem).mono (List.subset_cons_self _ _) kept

variable {library : Library}

namespace Bundle

open Binding

/-- At the start of a module, built-in names are in scope. -/
theorem matches_start
    (bundle : Bundle)
    (done : List Module)
    (kept : bundle.stage.arena.Keeps arena) :
    State.Matches bundle done (.ofStage bundle.stage) []
      { arena := arena, scope := Scope.ofGlobals bundle.stage.globals } where
  lookup name id found := by
    rw [Scope.lookup_ofGlobals] at found
    have mem : (name, id) ∈ bundle.stage.globals :=
      List.mem_reverse.mp (Table.mem_of_get?_eq_some
        (show Table.get? ⟨bundle.stage.globals.reverse⟩ name = some id from found))
    have inside := globals_lt bundle.stage mem
    refine ⟨.declared (.ofBuiltin (name, id)), ?_, _, .declared _, ?_, rfl, ?_, ?_⟩
    · have mapped := lookup_map (fun name id => Origin.declared (.ofBuiltin (name, id)))
        bundle.stage.globals.reverse name
      rw [found] at mapped
      exact mapped
    · exact List.mem_append_left _ (List.mem_map_of_mem mem)
    · exact Nat.lt_of_lt_of_le inside kept.size_le
    · exact (kept.members_eq inside).trans (members_builtins bundle.stage id)
  exports key entry found := by cases found
  published key mem := by cases mem
  nodup := .nil

/-- Modules that are bound without a failure export no name twice, and their paths are bound
to what they reach. -/
theorem linked_of_bindModules
    {onStmt : Stmt -> Prop}
    {modules : List Module}
    (fresh : ∀ module ∈ modules,
      Stmt.EveryIn (Expr.MembersSatisfy fun _ => False) onStmt module.statements)
    (succeeded : (bindModules bundle.stage registry arena modules).2.2 = none)
    (within : (bindModules bundle.stage registry arena modules).1 ⊆ bundle.modules)
    (kept : bundle.stage.arena.Keeps arena)
    (registered : Registered bundle done arena registry) :
    arena.Keeps (bindModules bundle.stage registry arena modules).2.1 ∧
      ∀ module ∈ (bindModules bundle.stage registry arena modules).1,
        ((module.origins bundle.stage).map Prod.fst).Nodup ∧
          ∀ part ∈ module.situated bundle.stage, ∀ reference ∈ part.references,
            reference.IsLinked bundle bundle.modules
              (bindModules bundle.stage registry arena modules).2.1 := by
  -- The modules before are finished and registered; each adds itself for those after it.
  induction modules generalizing done registry arena with
  | nil => exact ⟨.refl _, by simp [bindModules]⟩
  | cons module rest ih =>
      obtain ⟨statements, state, run, later, modules_eq, arena_eq⟩ :=
        runs_of_bindModules_cons succeeded
      rw [modules_eq] at within ⊢
      rw [arena_eq]
      obtain ⟨isModule, areModules⟩ := List.cons_subset.mp within
      obtain ⟨own, others⟩ := List.forall_mem_cons.mp fresh
      have declared : (Stmt.partsOfBlock statements).flatMap Stmt.declares ⊆ bundle.declarations :=
        fun ident mem =>
          List.mem_append_right _ (List.mem_flatMap.mpr ⟨_, isModule, mem⟩)
      obtain ⟨_, carries⟩ := carries_of_bindBlock module.statements own run registered
        (matches_start bundle done kept) declared
      have isMatch := carries.isMatch
      obtain ⟨keptRest, restLinked⟩ := ih others later areModules
        (kept.trans carries.extended.keeps)
        (registered.cons isModule rfl carries.extended.keeps isMatch.exports)
      refine ⟨carries.extended.keeps.trans keptRest, List.forall_mem_cons.mpr
        ⟨⟨isMatch.nodup, fun part mem reference isReference => ?_⟩, restLinked⟩⟩
      exact (carries.linked part mem reference isReference).mono registered.subset keptRest

/-! ## Paths -/

theorem nodup_paths_of_resolveDependencies
    (distinct : (bundle.modules.map Module.path).Nodup)
    (placing : resolveDependencies library bundle = .ok () placed) :
    (placed.modules.map Module.path).Nodup := by
  rw [resolveDependencies_apply] at placing
  rcases Placement.place_spec library bundle.modules with
    ⟨⟨_, _, _, failed⟩, _⟩ |
      ⟨loaded, loadedFor, ⟨modules, found, permuted, _⟩ | ⟨⟨_, _, failed⟩, _⟩⟩
  · rw [failed] at placing
    cases placing
  · rw [found] at placing
    cases placing
    rw [(permuted.map Module.path).nodup_iff, List.map_append, List.nodup_append]
    refine ⟨distinct, loadedFor.nodup, ?_⟩
    rintro path isOwn other isLoaded rfl
    exact ((loadedFor.mem_paths _).mp isLoaded).2 isOwn
  · rw [failed] at placing
    cases placing

end Bundle

/-- A plain expression reaches no package. -/
theorem Expr.IsPlain.not_reaches_package
    (once : bundle.ExportsOnce)
    {names : Names}
    {expr : Expr}
    (plain : expr.IsPlain bundle names)
    {path : String}
    (reaches : expr.Reaches bundle names (.package path)) :
    False := by
  cases expr with
  | var ident =>
      obtain ⟨declared, other⟩ := plain
      cases reaches.unique once other
  | member object key packageMember span =>
      rcases plain with inside | ⟨declared, other⟩
      · cases reaches with
        | member package _ => exact inside.not_reaches_package once package
      · cases reaches.unique once other
  | _ => cases reaches

/-- A path is written under the current name of a variable, wherever it stands. -/
structure Expr.IsWrittenAs
    (path : Expr)
    (id : VarId) : Prop where
  /-- In an expression. -/
  inExpr : ∀ arena, path.text arena = .ok (arena.name id)
  /-- As the type of a declaration. -/
  asType : ∀ ty, path = .var ty -> ∀ arena, Emission.typeText arena ty = arena.name id
  /-- As the element of an accessor. -/
  asElement : ∀ element, path = .var element -> ∀ arena,
    Accessor.currentName arena element = arena.name id
  /-- The path mentions the variable and nothing else. -/
  mentions_eq : path.mentions = [.name id]

/-- A bound path is written under the current name of its variable. -/
theorem Expr.isWrittenAs_of_boundVar?
    {path : Expr}
    {id : VarId}
    (bound : path.boundVar? = some id) :
    path.IsWrittenAs id := by
  cases path with
  | var ident =>
      have var_eq : ident.var = some id := bound
      refine ⟨fun arena => ?_, ?_, ?_, by rw [Expr.mentions, Ident.mentions, var_eq]; rfl⟩
      · rw [Expr.text, Ident.text, Ident.bound, var_eq]
        rfl
      · rintro ty ⟨⟩ arena
        rw [Emission.typeText, var_eq]
      · rintro element ⟨⟩ arena
        rw [Accessor.currentName, var_eq]
  | member object key packageMember span =>
      obtain rfl : packageMember = some id := bound
      exact ⟨fun arena => by rw [Expr.text], by simp, by simp, by rw [Expr.mentions]⟩
  | _ => cases bound

/-- What a reference reaches. -/
def Reference.Reaches
    (bundle : Bundle)
    (reference : Reference)
    (target : Target) : Prop :=
  reference.path.Reaches bundle reference.names target

namespace Bundle

/-- Paths are bound to what they reach. -/
structure BindsPaths (bundle : Bundle) : Prop where
  /-- A name reaches something. -/
  name : ∀ reference ∈ bundle.references, ∀ ident, reference.path = .var ident ->
    ∃ target, reference.Reaches bundle target
  /-- A member is bound exactly if it is one of a package, and reaches something then. -/
  member : ∀ reference ∈ bundle.references, ∀ object key packageMember span,
    reference.path = .member object key packageMember span ->
      (packageMember ≠ none ↔ ∃ path, object.Reaches bundle reference.names (.package path)) ∧
        (packageMember ≠ none -> ∃ target, reference.Reaches bundle target)
  /-- A path to a declaration is bound to its variable and is written under its current
  name. -/
  declaration : ∀ reference ∈ bundle.references, ∀ ident,
    reference.Reaches bundle (.declaration ident) ->
      ident ∈ bundle.declarations ∧
        ∃ id, ident.var = some id ∧ reference.path.boundVar? = some id ∧
          reference.path.IsWrittenAs id
  /-- Whatever is kept and however variables are called, the text of the program has the
  current names of variables where its paths stand, and no others. -/
  written : ∀ usage arena spacing text,
    { bundle with usage := usage, arena := arena }.write spacing = .ok text ->
      { bundle with usage := usage }.Respells arena arena spacing text text
  /-- Paths to different declarations are bound to different variables. -/
  apart : ∀ first ∈ bundle.references, ∀ second ∈ bundle.references, ∀ ident other,
    first.Reaches bundle (.declaration ident) -> second.Reaches bundle (.declaration other) ->
      ident ≠ other -> first.path.boundVar? ≠ second.path.boundVar?
  /-- No variable is declared twice. -/
  nodup : (bundle.declarations.map Ident.var).Nodup

section Linked

variable {reference : Reference}

variable {ident : Ident}

section

variable (once : bundle.ExportsOnce)
variable (linked : reference.IsLinked bundle bundle.modules bundle.arena)
include once linked

/-- A path to a declaration is bound to its variable. -/
theorem declaration_of_isLinked (reaches : reference.Reaches bundle (.declaration ident)) :
    ident ∈ bundle.declarations ∧
      ∃ id, ident.var = some id ∧ reference.path.boundVar? = some id := by
  rcases linked with ⟨target, id, other, bound, isAt⟩ | ⟨object, key, span, path_eq, plain⟩
  · cases other.unique once reaches
    exact ⟨isAt.1, id, isAt.2.1, bound⟩
  · rw [Reference.Reaches, path_eq] at reaches
    cases reaches with
    | member package _ => exact (plain.not_reaches_package once package).elim

/-- A member is bound exactly if it is one of a package. -/
theorem member_of_isLinked
    {object : Expr}
    {key : String}
    {packageMember : Option VarId}
    {span : Span}
    (path_eq : reference.path = .member object key packageMember span) :
    (packageMember ≠ none ↔ ∃ path, object.Reaches bundle reference.names (.package path)) ∧
      (packageMember ≠ none -> ∃ target, reference.Reaches bundle target) := by
  rcases linked with ⟨target, id, reaches, bound, _⟩ | ⟨_, _, _, other_eq, plain⟩
  · have isBound : packageMember ≠ none := by
      rw [path_eq] at bound
      exact Option.ne_none_iff_exists'.mpr ⟨id, bound⟩
    refine ⟨⟨fun _ => ?_, fun _ => isBound⟩, fun _ => ⟨target, reaches⟩⟩
    rw [path_eq] at reaches
    cases reaches with
    | member package _ => exact ⟨_, package⟩
  · cases path_eq.symm.trans other_eq
    refine ⟨⟨fun isBound => absurd rfl isBound, ?_⟩, fun isBound => absurd rfl isBound⟩
    rintro ⟨_, package⟩
    exact (plain.not_reaches_package once package).elim

end

theorem name_of_isLinked
    (linked : reference.IsLinked bundle bundle.modules bundle.arena)
    (path_eq : reference.path = .var ident) :
    ∃ target, reference.Reaches bundle target := by
  rcases linked with ⟨target, _, reaches, _⟩ | ⟨_, _, _, other_eq, _⟩
  · exact ⟨target, reaches⟩
  · cases path_eq.symm.trans other_eq

end Linked

section Bound

variable {named : Bundle}

/-- Bound modules export no name twice, and their paths are bound to what they reach. -/
theorem IsFresh.areLinked
    (fresh : IsFresh library bundle)
    (build : Named library bundle placed named) :
    named.modules.map Module.unbound = placed.modules.map Module.unbound ∧
      (∀ module ∈ named.modules, ((module.origins named.stage).map Prod.fst).Nodup) ∧
        ∀ reference ∈ named.references,
          reference.IsLinked named named.modules named.arena := by
  obtain ⟨modules, rfl, sources⟩ := resolveDependencies_eq_ok build.placing
  obtain ⟨succeeded, named_eq⟩ := resolveNames_eq_ok build.binding
  have unbound := unbound_bindModules succeeded
  have areFresh (module : Module) (mem : module ∈ modules) :
      module.MembersSatisfy (fun _ => False) Accessor.IsUnbound := by
    rcases sources module mem with isOwn | isLoaded
    · exact fresh.modules module isOwn
    · exact fresh.library module isLoaded
  have stage_eq : named.stage = bundle.stage := by rw [named_eq]
  have modules_eq : named.modules = (bindModules named.stage [] bundle.arena modules).1 := by
    rw [named_eq]
  have arena_eq : named.arena = (bindModules named.stage [] bundle.arena modules).2.1 := by
    rw [named_eq]
  have kept : named.stage.arena.Keeps bundle.arena := by
    rw [stage_eq, fresh.arena_eq]
    exact .refl _
  have registered : Binding.Registered named [] bundle.arena [] :=
    ⟨by simp, List.nil_subset _, by simp⟩
  obtain ⟨_, linked⟩ := linked_of_bindModules areFresh (stage_eq ▸ succeeded)
    (modules_eq ▸ List.Subset.refl _) kept registered
  rw [← modules_eq, ← arena_eq] at linked
  refine ⟨?_, fun module mem => (linked module mem).1, fun reference isReference => ?_⟩
  · rw [modules_eq, stage_eq]
    exact unbound
  · obtain ⟨module, mem, isReference⟩ := List.mem_flatMap.mp isReference
    obtain ⟨part, isPart, isReference⟩ := List.mem_flatMap.mp isReference
    exact (linked module mem).2 part isPart reference isReference

theorem IsFresh.nodup_declarations
    (fresh : IsFresh library bundle)
    (build : Named library bundle placed named) :
    (named.declarations.map Ident.var).Nodup := by
  obtain ⟨_, bound⟩ := fresh.isInRange.areBound build
  have ascend := (bound named.arena (.refl _)).ascend
  have size_le := (bound named.arena (.refl _)).le
  have stage_eq : named.stage = bundle.stage := by
    obtain ⟨modules, rfl, _⟩ := resolveDependencies_eq_ok build.placing
    obtain ⟨_, rfl⟩ := resolveNames_eq_ok build.binding
    rfl
  have size_eq : bundle.arena.size = named.stage.arena.size := by rw [stage_eq, fresh.arena_eq]
  rw [size_eq] at ascend size_le
  exact (named.stage.ascend_globals.append ascend (Nat.zero_le _) size_le).nodup

/-- A bound program is the one that was placed with its names bound, and each of its paths is
bound to what it reaches. -/
theorem resolveNames_bindsPaths
    (fresh : IsFresh library bundle)
    (distinct : (bundle.modules.map Module.path).Nodup)
    (placing : resolveDependencies library bundle = .ok () placed)
    (binding : resolveNames placed = .ok () named) :
    named.modules.map Module.unbound = placed.modules.map Module.unbound ∧ named.BindsPaths := by
  obtain ⟨unbound, names, linked⟩ := fresh.areLinked ⟨placing, binding⟩
  have paths_eq := congrArg (List.map Module.path) unbound
  rw [List.map_map, List.map_map] at paths_eq
  have once : named.ExportsOnce :=
    ⟨paths_eq ▸ nodup_paths_of_resolveDependencies distinct placing, names⟩
  have nodup := fresh.nodup_declarations ⟨placing, binding⟩
  refine ⟨unbound, ?_, ?_, ?_, ?_, ?_, nodup⟩
  · intro reference mem ident path_eq
    exact name_of_isLinked (linked reference mem) path_eq
  · intro reference mem object key packageMember span path_eq
    exact member_of_isLinked once (linked reference mem) path_eq
  · intro reference mem ident reaches
    obtain ⟨declared, id, var_eq, bound⟩ :=
      declaration_of_isLinked once (linked reference mem) reaches
    exact ⟨declared, id, var_eq, bound, Expr.isWrittenAs_of_boundVar? bound⟩
  · intro usage arena spacing text written
    have alike := { named with usage := usage, arena := arena }.alike_write
      (fun _ => .inl rfl) spacing
    rw [written] at alike
    cases alike with
    | ok held => exact held
  · intro first isFirst second isSecond ident other reaches otherReaches different same
    obtain ⟨declared, id, var_eq, bound⟩ :=
      declaration_of_isLinked once (linked first isFirst) reaches
    obtain ⟨otherDeclared, otherId, other_eq, otherBound⟩ :=
      declaration_of_isLinked once (linked second isSecond) otherReaches
    refine different (List.inj_on_of_nodup_map nodup declared otherDeclared ?_)
    rw [var_eq, other_eq, ← bound, ← otherBound, same]

end Bound

end Bundle

namespace Sample

/-- A module that exports a function and a constant. -/
def base : Module :=
  { path := "/base"
    statements :=
      [.function
          { result := some (name "float"), name := name "one", params := [], span := {} }
          [.ret (some (.float ⟨0x3ff0000000000000⟩ {})) {}],
        .exportName (name "one") "unit" {},
        .const
          { ty := name "float"
            name := name "half"
            length := none
            init := some (.float ⟨0x3fe0000000000000⟩ {})
            exported := true
            span := {} }] }

/-- A module that exports an imported name and another name under aliases. -/
def renamed : Module :=
  { path := "/renamed"
    statements :=
      [.importName "unit" (name "single") "/base" {},
        .exportName (name "single") "sole" {},
        .reexport "half" "part" "/base" {}] }

/-- A module that exports a package. -/
def nested : Module :=
  { path := "/nested"
    statements :=
      [.importAll (name "base") "/base" {},
        .exportName (name "base") "inner" {}] }

/-- A member of the package in a package. -/
def innerMember (key : String) : Expr :=
  .member (.member (read "outer") "inner" none {}) key none {}

/-- A program that reaches a function and a constant by two paths each. -/
def reaching : Bundle :=
  (Bundle.empty .vertex .readable).append
    { path := "/main"
      statements :=
        [.importName "sole" (name "lone") "/renamed" {},
          .importName "part" (name "part") "/renamed" {},
          .importAll (name "outer") "/nested" {},
          main
            [.assign (read "gl_PointSize") .assign (.call (read "lone") [] {}) {},
              .assign (read "gl_PointSize") .add (.call (innerMember "unit") [] {}) {},
              .assign (read "gl_PointSize") .mul (read "part") {},
              .assign (read "gl_PointSize") .mul (innerMember "half") {}]] }

theorem isFresh_reaching : Bundle.IsFresh ⟨[base, renamed, nested]⟩ reaching :=
  ⟨rfl, by decide +kernel, by decide +kernel⟩

end Sample

namespace Bundle

/-- A name with two aliases in between and a member of a package in a package are bound to one
function, and a name that is exported again and another such member to one constant. -/
theorem resolveNames_reaching_bindsPaths :
    ∃ placed named,
      resolveDependencies ⟨[Sample.base, Sample.renamed, Sample.nested]⟩ Sample.reaching =
          .ok () placed ∧
        resolveNames placed = .ok () named ∧
      ((named.references.drop 10).filterMap fun reference => reference.path.boundVar?) =
        [57, 58, 57, 58, 60, 61, 57, 59, 57, 59, 60, 61] ∧
      named.modules.map Module.unbound = placed.modules.map Module.unbound ∧
        named.BindsPaths := by
  have passed : passes
      (fun named => decide
        (((named.references.drop 10).filterMap fun reference => reference.path.boundVar?) =
          [57, 58, 57, 58, 60, 61, 57, 59, 57, 59, 60, 61]))
      ((do
        resolveDependencies ⟨[Sample.base, Sample.renamed, Sample.nested]⟩
        resolveNames) Sample.reaching) = true := by
    decide +kernel
  obtain ⟨named, run, reached⟩ := exists_of_passes passed
  obtain ⟨_, placed, placing, binding⟩ := bind_eq_ok.mp run
  exact ⟨placed, named, placing, binding, of_decide_eq_true reached,
    resolveNames_bindsPaths Sample.isFresh_reaching (by decide) placing binding⟩

end Bundle
end ModularGlsl
