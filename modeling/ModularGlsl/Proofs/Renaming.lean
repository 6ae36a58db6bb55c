import ModularGlsl.Proofs.Naming.Inherited
import ModularGlsl.Proofs.Naming.Words

/-!
# Short names

A build with short names differs from one with readable names in the names only.
No step before naming looks at how names are chosen, and naming goes in lockstep:
the names that have to be kept are claimed alike, and every other declaration gets
some name.  Both builds therefore succeed or fail alike, with the same statements
and variables, and write the same text up to the names.
-/

namespace ModularGlsl

/-! ## Names that are kept -/

/-- Claiming a name does not look at how others are chosen. -/
theorem NameTree.preserve_choosing
    (tree : NameTree)
    (naming : Naming)
    (arena : Arena)
    (id : LevelId)
    (var : VarId) :
    { tree with naming := naming }.preserve arena id var =
      (tree.preserve arena id var).map fun tree => { tree with naming := naming } := by
  have hasVar_eq : { tree with naming := naming }.hasVar id var = tree.hasVar id var := rfl
  have owner_eq : { tree with naming := naming }.owner? id (arena.get var).name =
      tree.owner? id (arena.get var).name := rfl
  unfold preserve
  dsimp only
  rw [hasVar_eq, owner_eq]
  split
  · rfl
  · cases tree.owner? id (arena.get var).name with
    | none => rfl
    | some other => rfl

variable {naming : Naming}

namespace FinalNames

/-- The state with names chosen in another way. -/
def State.choosing
    (state : State)
    (naming : Naming) : State :=
  { state with tree := { state.tree with naming := naming } }

/-- A step does not look at how names are chosen. -/
def Ignores
    {α : Type}
    (naming : Naming)
    (step : Name α) : Prop :=
  ∀ state : State, Agree (fun first second => second = first.choosing naming) (step state)
    (step (state.choosing naming))

section Kept

variable {α β : Type}

theorem Ignores.pure (value : α) : Ignores naming (Pure.pure value : Name α) :=
  fun _ => .ok rfl

theorem Ignores.bind
    {first : Name α}
    {next : α -> Name β}
    (early : Ignores naming first)
    (late : ∀ value, Ignores naming (next value)) :
    Ignores naming (first >>= next) := by
  intro state
  refine .bind (early state) (fun _ _ => id) ?_
  rintro value middle _ _ _ rfl
  exact late value middle

theorem ignores_boundVar (ident : Ident) : Ignores naming (boundVar ident) := by
  intro state
  unfold boundVar
  cases ident.bound with
  | ok var => exact .ok rfl
  | error error => exact .error rfl

theorem ignores_preserveVar (var : VarId) : Ignores naming (preserveVar var) := by
  intro state
  have claimed := state.tree.preserve_choosing naming state.arena NameTree.root var
  rw [preserveVar, get_bind_apply, get_bind_apply]
  dsimp only [State.choosing]
  rw [claimed]
  cases state.tree.preserve state.arena NameTree.root var with
  | ok tree => exact .ok rfl
  | error error => exact .error rfl

/-- The name that a statement declares is claimed if it has to be kept. -/
theorem ignores_preserveStmt
    (usage : Usage)
    (main : Option VarId)
    (stmt : Stmt) :
    Ignores naming (preserveStmt usage main stmt) := by
  unfold preserveStmt
  split
  · split
    · refine .bind (ignores_boundVar _) fun var state => ?_
      have arena_eq : (state.choosing naming).arena = state.arena := rfl
      rw [get_bind_apply, get_bind_apply, arena_eq]
      by_cases keeps : keepsName state.arena main var = true
      · rw [if_pos keeps]
        exact ignores_preserveVar var state
      · rw [if_neg keeps]
        exact .ok rfl
    · exact .pure ()
  · exact .pure ()

/-- The names of modules that have to be kept are claimed. -/
theorem ignores_preserveModules
    (usage : Usage)
    (modules : List Module) :
    Ignores naming (preserveModules usage modules) := by
  induction modules with
  | nil => exact .pure ()
  | cons module rest ih =>
      refine .bind ?_ fun _ => ih
      induction module.statements with
      | nil => exact .pure ()
      | cons stmt others ih =>
          exact .bind (ignores_preserveStmt usage module.main stmt) fun _ => ih

end Kept

end FinalNames

/-! ## Names that are chosen -/

namespace Bundle

/-- Two arenas hold the same variables of a bundle, with names that differ only where
they may change. -/
structure NamesAlike
    (bundle : Bundle)
    (first second : Arena) : Prop where
  /-- Nothing but names differs. -/
  renames : first.Renames second
  /-- Built-in variables have the same names. -/
  builtins : ∀ var < bundle.stage.arena.size, second.name var = first.name var
  /-- Declarations that keep their names have the same ones. -/
  kept : ∀ site ∈ bundle.sites, site.keeps = true -> second.name site.var = first.name site.var
  /-- Other names are words. -/
  starts : first.SameStarts second

section Chosen

variable {bundle : Bundle}

theorem NamesAlike.refl (arena : Arena) : bundle.NamesAlike arena arena :=
  ⟨.refl arena, fun _ _ => rfl, fun _ _ _ => rfl, fun _ => .inl rfl⟩

theorem NamesAlike.of_eq
    {first second : Arena}
    (alike : bundle.NamesAlike first second)
    {other : Bundle}
    (stage_eq : other.stage = bundle.stage)
    (sites_eq : other.sites = bundle.sites) :
    other.NamesAlike first second :=
  ⟨alike.renames, stage_eq ▸ alike.builtins, sites_eq ▸ alike.kept, alike.starts⟩

/-- Two arenas that inherit their names from one are alike. -/
theorem IsNameable.namesAlike
    (nameable : bundle.IsNameable)
    (words : bundle.arena.NamesWords)
    (above : ∀ site ∈ bundle.sites, bundle.stage.arena.size ≤ site.var)
    {naming' : Naming}
    {reserved : List String}
    {first second : FinalNames.State}
    (inherits : FinalNames.Inherits naming (fun _ _ => (startsWord · = true)) bundle.arena reserved
      bundle.sites first)
    (other : FinalNames.Inherits naming' (fun _ _ => (startsWord · = true)) bundle.arena reserved
      bundle.sites second) :
    bundle.NamesAlike first.arena second.arena := by
  refine ⟨⟨?_, fun id => ?_⟩, fun var below => ?_, fun site mem keeps => ?_, fun var => ?_⟩
  · rw [other.renames.size_eq, inherits.renames.size_eq]
  · rw [inherits.renames.get_eq id]
    exact other.renames.get_eq id
  · have stays : ∀ site ∈ bundle.sites, site.var = var -> site.keeps = true := by
      rintro site mem rfl
      exact absurd below (Nat.not_lt_of_le (above site mem))
    rw [other.unchanged var stays, inherits.unchanged var stays]
  · have stays : ∀ site' ∈ bundle.sites, site'.var = site.var -> site'.keeps = true := by
      intro site' isSite same
      rw [List.inj_on_of_nodup_map nameable.nodup isSite mem same]
      exact keeps
    rw [other.unchanged _ stays, inherits.unchanged _ stays]
  · by_cases declared : ∃ site ∈ bundle.sites, site.var = var
    · obtain ⟨site, mem, rfl⟩ := declared
      have word := words site.var (nameable.inside site mem)
      have starts {naming : Naming} {state : FinalNames.State}
          (inherits : FinalNames.Inherits naming (fun _ _ => (startsWord · = true)) bundle.arena
            reserved bundle.sites state) : startsWord (state.arena.name site.var) = true := by
        rcases inherits.chosen site.var with same | ⟨isWord, _⟩
        · rw [same]
          exact word
        · exact isWord
      exact .inr ⟨starts inherits, starts other⟩
    · have stays : ∀ site ∈ bundle.sites, site.var = var -> site.keeps = true :=
        fun site mem same => absurd ⟨site, mem, same⟩ declared
      exact .inl ((inherits.unchanged var stays).trans (other.unchanged var stays).symm)

/-- Once the names that have to be kept are claimed, names are inherited. -/
theorem IsNameable.inherits_of_preserveModules
    (nameable : bundle.IsNameable)
    (fits : Naming -> VarId -> String -> Prop)
    {middle : FinalNames.State}
    (run : FinalNames.preserveModules bundle.usage bundle.modules bundle.namer = .ok () middle) :
    FinalNames.Inherits bundle.naming fits bundle.arena
      (reservedWords ++ bundle.stage.globals.map Prod.fst) bundle.sites middle := by
  obtain ⟨_, preserved⟩ := nameable.preserved run
  exact preserved.inherits

/-- Naming in two ways fails alike and leaves arenas that are alike. -/
theorem IsNameable.agree_nameModules
    (nameable : bundle.IsNameable)
    (words : bundle.arena.NamesWords)
    (above : ∀ site ∈ bundle.sites, bundle.stage.arena.size ≤ site.var)
    (naming : Naming) :
    Agree (fun first second => bundle.NamesAlike first.arena second.arena)
      (FinalNames.nameModules bundle.usage bundle.modules bundle.namer)
      (FinalNames.nameModules bundle.usage bundle.modules
        { bundle with naming := naming }.namer) := by
  refine .bind (FinalNames.ignores_preserveModules bundle.usage bundle.modules bundle.namer) ?_ ?_
  · rintro first _ rfl
    exact .refl first.arena
  intro _ first second early other same
  have otherNameable : { bundle with naming := naming }.IsNameable :=
    ⟨nameable.nodup, nameable.inside, nameable.named, nameable.keepsAsDeclared⟩
  have inherits := nameable.inherits_of_preserveModules (fun _ _ => (startsWord · = true)) early
  have otherInherits : FinalNames.Inherits naming (fun _ _ => (startsWord · = true)) bundle.arena
      (reservedWords ++ bundle.stage.globals.map Prod.fst) bundle.sites second :=
    otherNameable.inherits_of_preserveModules _ other
  have size_eq : second.tree.levels.size = first.tree.levels.size := by
    rw [same]
    rfl
  have closed (naming : Naming) (_ : VarId) (name : String) (index : Nat)
      (starts : startsWord name = true) : startsWord (candidate naming name index) = true :=
    startsWord_candidate naming starts index
  have fit (_ : Naming) (site : Site) (mem : site ∈ bundle.sites) :
      startsWord (bundle.arena.name site.var) = true :=
    words site.var (nameable.inside site mem)
  have agrees := (FinalNames.visits_assignModules bundle.modules).agrees
    (FinalNames.lockstep_inherits closed fit nameable.inside naming) Nat.one_pos
    (fun site mem => ⟨site, mem, rfl⟩) first second
    ⟨⟨⟨inherits, otherInherits⟩, size_eq⟩, inherits.shaped.root_lt⟩
  exact agrees.mono fun _ _ held => nameable.namesAlike words above held.1.1.1 held.1.1.2

end Chosen

/-! ## Two builds -/

/-- Bundles that differ in how names are chosen only. -/
def Choosing
    (naming : Naming)
    (first second : Bundle) : Prop :=
  second = { first with naming := naming }

/-- Bundles that differ in how names are chosen and in their names. -/
def NamedBy
    (naming : Naming)
    (first second : Bundle) : Prop :=
  ∃ arena, second = { first with naming := naming, arena := arena } ∧
    first.NamesAlike first.arena arena

variable {first second : Bundle}

section Steps

variable (naming : Naming) (bundle : Bundle)

/-- A failure does not depend on how names are chosen. -/
theorem agree_failWith (diagnostic : Option Diagnostic) :
    Agree (Choosing naming) (failWith diagnostic bundle)
      (failWith diagnostic { bundle with naming := naming }) := by
  cases diagnostic with
  | none => exact .ok rfl
  | some diagnostic => exact .error rfl

/-- Placing modules does not look at how names are chosen. -/
theorem agree_resolveDependencies (library : Library) :
    Agree (Choosing naming) (resolveDependencies library bundle)
      (resolveDependencies library { bundle with naming := naming }) := by
  rw [resolveDependencies_apply, resolveDependencies_apply]
  cases Placement.place library bundle.modules with
  | ok modules => exact .ok rfl
  | error error => exact .error rfl

/-- Binding names does not look at how they are chosen. -/
theorem agree_resolveNames :
    Agree (Choosing naming) (resolveNames bundle) (resolveNames { bundle with naming := naming }) :=
  agree_failWith naming _ _

/-- Typing does not look at how names are chosen. -/
theorem agree_evalTypes :
    Agree (Choosing naming) (evalTypes bundle) (evalTypes { bundle with naming := naming }) := by
  rw [evalTypes, get_bind_apply, get_bind_apply]
  cases checkModules bundle.modules bundle.arena with
  | ok done arena => exact .ok rfl
  | error error arena => exact .error rfl

/-- The sweep does not look at how names are chosen. -/
theorem agree_resolveActivity :
    Agree (Choosing naming) (resolveActivity bundle)
      (resolveActivity { bundle with naming := naming }) :=
  agree_failWith naming _ _

/-- Splicing does not look at how names are chosen. -/
theorem agree_finalizeInjected :
    Agree (Choosing naming) (finalizeInjected bundle)
      (finalizeInjected { bundle with naming := naming }) := by
  rw [finalizeInjected, get_bind_apply, get_bind_apply]
  dsimp only
  cases (spliceModules true bundle.usage bundle.modules).2.check bundle.arena with
  | ok done => exact .ok rfl
  | error error => exact .error rfl

/-- Final names are given in two ways. -/
theorem IsNameable.agree_uniqueNames
    {bundle : Bundle}
    (nameable : bundle.IsNameable)
    (words : bundle.arena.NamesWords)
    (above : ∀ site ∈ bundle.sites, bundle.stage.arena.size ≤ site.var) :
    Agree (NamedBy naming) (uniqueNames bundle) (uniqueNames { bundle with naming := naming }) := by
  have agree := nameable.agree_nameModules words above naming
  rw [uniqueNames, get_bind_apply, get_bind_apply]
  generalize FinalNames.nameModules bundle.usage bundle.modules bundle.namer = left at agree ⊢
  generalize FinalNames.nameModules bundle.usage bundle.modules
    { bundle with naming := naming }.namer = right at agree ⊢
  cases agree with
  | @ok _ first second alike => exact .ok ⟨second.arena, rfl, alike.of_eq rfl rfl⟩
  | @error _ first second alike => exact .error ⟨second.arena, rfl, alike.of_eq rfl rfl⟩

/-- Collecting the version does not look at names. -/
theorem agree_collectVersion (held : NamedBy naming first second) :
    Agree (NamedBy naming) (collectVersion first) (collectVersion second) := by
  obtain ⟨arena, rfl, alike⟩ := held
  rw [collectVersion, get_bind_apply, get_bind_apply]
  cases commonVersion none first.modules with
  | ok found => exact .ok ⟨arena, rfl, alike.of_eq rfl rfl⟩
  | error error => exact .error ⟨arena, rfl, alike⟩

end Steps

/-- A bundle that differs from another one in names only: the statements, the
variables, what is read and the version are the same, built-in variables and
declarations that have to keep their names have the same ones, and the texts are
the same up to the names of variables. -/
structure RenamedTo (first second : Bundle) : Prop where
  /-- Nothing but the arena and how names are chosen differs. -/
  bundle_eq : second = { first with naming := second.naming, arena := second.arena }
  /-- The variables are the same up to their names. -/
  renames : first.arena.Renames second.arena
  /-- Built-in variables have the same names. -/
  builtins : ∀ var < first.stage.arena.size, second.arena.name var = first.arena.name var
  /-- Declarations that keep their names have the same ones. -/
  kept : ∀ site ∈ first.sites, site.keeps = true ->
    second.arena.name site.var = first.arena.name site.var
  /-- The texts are the same up to the names of the variables that are mentioned. -/
  written : ∀ spacing, Alike (first.Respells first.arena second.arena spacing)
    (first.write spacing) (second.write spacing)

/-- Bundles with other names write the same text up to them. -/
theorem NamedBy.renamedTo (held : NamedBy naming first second) :
    first.RenamedTo second := by
  obtain ⟨arena, rfl, alike⟩ := held
  exact ⟨rfl, alike.renames, alike.builtins, alike.kept, fun spacing =>
    first.alike_write alike.starts spacing⟩

/-- Bundles that differ in how names are chosen only have the same names. -/
theorem Choosing.namedBy (held : Choosing naming first second) :
    NamedBy naming first second :=
  ⟨first.arena, held, .refl first.arena⟩

/-- Builds that choose names in two ways go in lockstep. -/
theorem IsFresh.agree_finalize
    {library : Library}
    {bundle : Bundle}
    (fresh : IsFresh library bundle)
    (identifiers : DeclaresIdentifiers library bundle)
    (naming : Naming) :
    Agree (NamedBy naming) (finalize library bundle)
      (finalize library { bundle with naming := naming }) := by
  refine .bind (agree_resolveDependencies naming bundle library) (fun _ _ => Choosing.namedBy) ?_
  rintro _ placed _ placing _ rfl
  refine .bind (agree_resolveNames naming placed) (fun _ _ => Choosing.namedBy) ?_
  rintro _ named _ binding _ rfl
  refine .bind (agree_evalTypes naming named) (fun _ _ => Choosing.namedBy) ?_
  rintro _ typed _ typing _ rfl
  refine .bind (agree_resolveActivity naming typed) (fun _ _ => Choosing.namedBy) ?_
  rintro _ swept _ sweeping _ rfl
  refine .bind (agree_finalizeInjected naming swept) (fun _ _ => Choosing.namedBy) ?_
  rintro _ spliced _ splicing _ rfl
  have build : Spliced library bundle placed named typed swept spliced :=
    ⟨⟨⟨⟨placing, binding⟩, typing⟩, sweeping⟩, splicing⟩
  have words : spliced.arena.NamesWords :=
    build.arena_eq ▸ fresh.namesWords identifiers build.toSwept
  have above : ∀ site ∈ spliced.sites, spliced.stage.arena.size ≤ site.var := by
    rw [build.stage_eq.1, ← fresh.arena_eq]
    exact fun site mem => ((fresh.numbered build).range site mem).1
  refine .bind ((fresh.isNameable build).agree_uniqueNames naming words above) (fun _ _ => id) ?_
  intro _ unique _ _ _ held
  refine .bind (agree_collectVersion naming held) (fun _ _ => id) ?_
  rintro _ versioned _ _ _ ⟨arena, rfl, alike⟩
  exact .ok ⟨arena, rfl, alike.of_eq rfl rfl⟩

/-- Short names are readable names respelled: the builds succeed or fail alike, and
the results differ in names only. -/
theorem finalize_renamedTo
    {library : Library}
    {bundle : Bundle}
    (fresh : IsFresh library bundle)
    (identifiers : DeclaresIdentifiers library bundle) :
    Agree RenamedTo (finalize library { bundle with naming := .readable })
      (finalize library { bundle with naming := .minify }) := by
  have readable : IsFresh library { bundle with naming := .readable } :=
    ⟨fresh.arena_eq, fresh.modules, fresh.library⟩
  exact (readable.agree_finalize identifiers .minify).mono fun _ _ => NamedBy.renamedTo

/-- The sum of a program is written under its own name and under a short one. -/
theorem finalize_sample_renamedTo :
    DeclaresIdentifiers Sample.library Sample.bundle ∧
      ∃ readable minified,
        finalize Sample.library { Sample.bundle with naming := .readable } = .ok () readable ∧
          finalize Sample.library { Sample.bundle with naming := .minify } = .ok () minified ∧
            readable.arena.name 67 = "sum" ∧ Mention.name 67 ∈ readable.mentions ∧
              minified.arena.name 67 = "c" ∧ readable.RenamedTo minified := by
  have identifiers : DeclaresIdentifiers Sample.library Sample.bundle := by
    rintro module (mem | mem)
    · rw [List.mem_singleton.mp mem]
      decide +kernel
    · rw [List.mem_singleton.mp mem]
      decide +kernel
  have readablePassed : passes
      (fun result => decide (result.arena.name 67 = "sum" ∧ .name 67 ∈ result.mentions))
      (finalize Sample.library { Sample.bundle with naming := .readable }) = true := by
    decide +kernel
  have minifiedPassed : passes (fun result => decide (result.arena.name 67 = "c"))
      (finalize Sample.library { Sample.bundle with naming := .minify }) = true := by
    decide +kernel
  obtain ⟨readable, run, checked⟩ := exists_of_passes readablePassed
  obtain ⟨isSum, isMentioned⟩ := of_decide_eq_true checked
  obtain ⟨minified, otherRun, isShort⟩ := exists_of_passes minifiedPassed
  have agree := finalize_renamedTo Sample.isFresh_bundle identifiers
  rw [run, otherRun] at agree
  exact ⟨identifiers, readable, minified, run, otherRun, isSum, isMentioned,
    of_decide_eq_true isShort, agree.of_ok⟩

end Bundle
end ModularGlsl
