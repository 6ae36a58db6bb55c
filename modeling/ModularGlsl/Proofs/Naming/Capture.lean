import ModularGlsl.Proofs.Build
import ModularGlsl.Proofs.Naming.Preserve

/-!
# Renaming never captures

After a build, declarations of the output that can be seen from one another have
different names.  A name that is chosen is neither reserved nor that of a
built-in, and a name that has to be kept is kept.  Declarations in the step of a
loop are left out: they get no name of their own, and may capture others.
-/

namespace ModularGlsl

variable {visible : List VarId} {next stop : VarId} {arena : Arena}

section Bound

variable {before after : Place} {main : Option VarId}

/-- A bound statement of a module keeps the name it declares exactly if it has
to. -/
theorem Stmt.IsBound.keepsAsDeclared
    {stmt : Stmt}
    (bound : stmt.IsBound arena Accessor.IsUnbound before after)
    (atTop : before.depth = 0)
    (isFunction : ∀ var ∈ main, (arena.get var).decl = .function) :
    stmt.KeepsAsDeclared arena main := by
  have notMain {ident : Ident} {var number : VarId} {decl : DeclKind}
      (declares : ident.Declares arena number decl) (isBound : ident.var = some var)
      (different : decl ≠ .function) :
      (some var == main) = false ∧ (arena.get var).decl = decl := by
    obtain rfl : number = var := Option.some.inj (declares.var_eq.symm.trans isBound)
    refine ⟨?_, declares.decl_eq⟩
    rw [beq_eq_false_iff_ne]
    rintro rfl
    exact different (declares.decl_eq.symm.trans (isFunction number rfl))
  intro ident isDeclared var isBound
  rw [FinalNames.keepsName]
  match stmt with
  | .interface decl =>
      obtain ⟨_, declares, _⟩ := bound
      cases isDeclared
      obtain ⟨other, decl_eq⟩ := notMain declares isBound (by cases decl.kind <;> simp [Binding.declKind])
      rw [other, decl_eq]
      cases decl.kind <;> rfl
  | .const decl =>
      obtain ⟨_, _, declares, _⟩ := bound
      cases isDeclared
      obtain ⟨other, decl_eq⟩ := notMain declares isBound (by simp)
      rw [other, decl_eq, Stmt.mustKeep]
      cases decl.exported <;> rfl
  | .var decl =>
      obtain ⟨_, _, declares, _⟩ := bound
      cases isDeclared
      rw [DeclKind.ofDepth, if_pos atTop] at declares
      obtain ⟨other, decl_eq⟩ := notMain declares isBound (by simp)
      rw [other, decl_eq]
      rfl
  | .struct decl =>
      obtain ⟨_, declares, _⟩ := bound
      cases isDeclared
      obtain ⟨other, decl_eq⟩ := notMain declares isBound (by simp)
      rw [other, decl_eq]
      rfl
  | .function header body =>
      obtain ⟨declares, _⟩ := bound
      cases isDeclared
      obtain rfl : before.next = var := Option.some.inj (declares.var_eq.symm.trans isBound)
      rw [declares.decl_eq, Stmt.mustKeep, isBound]
      simp [DeclKind.keepsName]
  | .accessor _ =>
      cases isDeclared
      rw [bound.1.name_eq] at isBound
      cases isBound

/-- The statements of a bound module keep the names they have to. -/
theorem Stmt.AreBound.keepsAsDeclared
    {block : List Stmt}
    (bound : Stmt.AreBound arena Accessor.IsUnbound block before after)
    (atTop : before.depth = 0)
    (isFunction : ∀ var ∈ main, (arena.get var).decl = .function) :
    ∀ stmt ∈ block, stmt.KeepsAsDeclared arena main := by
  induction block generalizing before with
  | nil => simp
  | cons head rest ih =>
      obtain ⟨middle, headBound, restBound⟩ := bound
      intro stmt mem
      rcases List.mem_cons.mp mem with rfl | later
      · exact headBound.keepsAsDeclared atTop isFunction
      · exact ih restBound (headBound.leads.depth_eq.trans atTop) stmt later

variable {modules : List Module}

theorem Module.AreBound.keepsAsDeclared
    (bound : Module.AreBound arena Accessor.IsUnbound modules visible next stop) :
    ∀ module ∈ modules, ∀ stmt ∈ module.statements, stmt.KeepsAsDeclared arena module.main := by
  induction modules generalizing visible next with
  | nil => simp
  | cons head rest ih =>
      obtain ⟨last, own, others⟩ := bound
      intro module mem
      rcases List.mem_cons.mp mem with rfl | later
      · exact own.statements.keepsAsDeclared rfl fun var isMain => (own.main var isMain).2
      · exact ih others module later

end Bound

/-! ## Accessors -/

variable {usage : Usage}

section Waiting

variable {low : VarId}

/-- An accessor declares its variable and keeps its name. -/
theorem Pending.IsAccessor.sites
    {waiting : Pending}
    (isAccessor : waiting.IsAccessor arena)
    (usage : Usage)
    (main : Option VarId) :
    waiting.stmt.sitesInModule usage main =
      [Site.mk waiting.var (arena.name waiting.var) [] true] := by
  obtain ⟨accessor, stmt_eq, declares, _⟩ := isAccessor
  rw [stmt_eq]
  change accessor.name.sites [] true = _
  rw [Ident.sites, declares.var_eq, Arena.name, declares.name_eq]
  rfl

/-- The declarations of waiting accessors. -/
theorem Usage.Waits.sites
    (waits : usage.Waits arena low)
    (kept : Usage) :
    (usage.pending.map Pending.stmt).flatMap (Stmt.sitesInModule kept none) =
      usage.pending.map fun waiting =>
        Site.mk waiting.var (arena.name waiting.var) [] true := by
  rw [List.flatMap_map, List.map_eq_flatMap]
  exact List.flatMap_congr fun waiting mem => (waits.isAccessor waiting mem).sites kept none

/-- Accessors that are taken declare different new variables. -/
theorem Usage.Waits.numbered
    {after : Usage}
    (waits : usage.Waits arena low)
    {taken : List Stmt}
    (hands : usage.Hands taken after)
    (kept : Usage) :
    Site.Numbered arena low arena.size (taken.flatMap (Stmt.sitesInModule kept none)) := by
  have permuted := hands.perm.flatMap_right (Stmt.sitesInModule kept none)
  rw [waits.sites kept, List.flatMap_append] at permuted
  have isWaiting {site : Site} (mem : site ∈ taken.flatMap (Stmt.sitesInModule kept none)) :=
    List.mem_map.mp (permuted.symm.subset (List.mem_append_left _ mem))
  refine ⟨?_, fun site mem => ?_, fun site mem => ?_⟩
  · have nodup := (permuted.map Site.var).nodup_iff.mp ?_
    · rw [List.map_append] at nodup
      exact (List.nodup_append.mp nodup).1
    · rw [List.map_map]
      exact List.pairwise_map.mpr (waits.ordered.imp Nat.ne_of_lt)
  · obtain ⟨waiting, isPending, rfl⟩ := isWaiting mem
    obtain ⟨_, _, declares, _⟩ := waits.isAccessor waiting isPending
    exact ⟨waits.low_le waiting isPending, declares.lt_size⟩
  · obtain ⟨waiting, _, rfl⟩ := isWaiting mem
    rfl

theorem Pending.IsAccessor.keepsAsDeclared
    {waiting : Pending}
    (isAccessor : waiting.IsAccessor arena)
    (main : Option VarId) :
    waiting.stmt.KeepsAsDeclared arena main := by
  obtain ⟨accessor, stmt_eq, declares, _⟩ := isAccessor
  rw [stmt_eq]
  intro ident isDeclared var isBound
  cases isDeclared
  obtain rfl : waiting.var = var := Option.some.inj (declares.var_eq.symm.trans isBound)
  rw [FinalNames.keepsName, declares.decl_eq, DeclKind.keepsName, Bool.or_true]
  rfl

end Waiting

/-- Splicing adds the declarations of the accessors that it takes. -/
theorem Usage.Waits.exists_sites_perm
    {low : VarId}
    (waits : usage.Waits arena low)
    (modules : List Module)
    (kept : Usage) :
    ∃ taken, usage.Hands taken (Bundle.spliceModules true usage modules).2 ∧
      ((Bundle.spliceModules true usage modules).1.flatMap (Module.sites kept)).Perm
        (modules.flatMap (Module.sites kept) ++
          taken.flatMap (Stmt.sitesInModule kept none)) := by
  refine Bundle.spliceModules_perm (Stmt.sitesInModule kept) _ true modules fun stmt mem main => ?_
  obtain ⟨waiting, isWaiting, rfl⟩ := List.mem_map.mp mem
  have isAccessor := waits.isAccessor waiting isWaiting
  rw [isAccessor.sites, isAccessor.sites]

namespace Bundle

/-- What is known of the declarations of a bundle once accessors are spliced into
its modules. -/
structure IsNameable (bundle : Bundle) : Prop where
  /-- No variable is declared twice. -/
  nodup : (bundle.sites.map Site.var).Nodup
  /-- Declared variables exist. -/
  inside : ∀ site ∈ bundle.sites, site.var < bundle.arena.size
  /-- Variables have the names of their declarations. -/
  named : ∀ site ∈ bundle.sites, bundle.arena.name site.var = site.name
  /-- Variables keep their names exactly if their declarations do. -/
  keepsAsDeclared : ∀ module ∈ bundle.modules, ∀ stmt ∈ module.statements,
    stmt.KeepsAsDeclared bundle.arena module.main

section Build

variable {library : Library} {bundle placed named typed swept spliced : Bundle}

/-- The declarations of bound modules and of the accessors that are spliced into them. -/
theorem IsFresh.numbered
    (fresh : IsFresh library bundle)
    (build : Spliced library bundle placed named typed swept spliced) :
    Site.Numbered spliced.arena bundle.arena.size spliced.arena.size spliced.sites := by
  obtain ⟨bound, stop_le, waits⟩ := fresh.isInRange.areBound_swept build.toSwept
  obtain ⟨rfl, _⟩ := finalizeInjected_eq_ok build.splicing
  obtain ⟨taken, hands, permuted⟩ := waits.exists_sites_perm swept.modules
    (spliceModules true swept.usage swept.modules).2
  exact ((bound.numbered _ fun _ => List.mem_range.mp).append (waits.numbered hands _) bound.le
    stop_le).perm permuted.symm

/-- The declarations of bound modules with waiting accessors can be named once
the accessors are spliced in. -/
theorem IsFresh.isNameable
    (fresh : IsFresh library bundle)
    (build : Spliced library bundle placed named typed swept spliced) :
    spliced.IsNameable := by
  have numbered := fresh.numbered build
  refine ⟨numbered.nodup, fun site mem => (numbered.range site mem).2, numbered.name_eq, ?_⟩
  obtain ⟨bound, _, waits⟩ := fresh.isInRange.areBound_swept build.toSwept
  obtain ⟨rfl, _⟩ := finalizeInjected_eq_ok build.splicing
  intro module mem stmt isIn
  obtain ⟨original, isOriginal, main_eq, holds⟩ := mem_spliceModules true mem
  rw [main_eq]
  rcases holds stmt isIn with isOwn | isWaiting
  · exact bound.keepsAsDeclared original isOriginal stmt isOwn
  · obtain ⟨waiting, isPending, rfl⟩ := List.mem_map.mp isWaiting
    exact (waits.isAccessor waiting isPending).keepsAsDeclared original.main

end Build

/-- The word before the underscore is no reserved name. -/
theorem gl_unreserved (stage : Stage) :
    "gl" ∉ reservedWords ++ stage.globals.map Prod.fst := by
  cases stage <;> decide +kernel

/-- The declarations of the output have names that never capture each other. -/
structure HasDistinctNames (bundle : Bundle) : Prop where
  /-- No variable is declared twice. -/
  nodup : (bundle.sites.map Site.var).Nodup
  /-- Two declarations have different names if the functions around the earlier
  one are around the later one too. -/
  distinct : bundle.sites.Pairwise fun first second =>
    first.functions <+: second.functions ->
      bundle.arena.name first.var ≠ bundle.arena.name second.var
  /-- No other declaration has a name that is kept. -/
  distinctKept : ∀ first ∈ bundle.sites, first.keeps = true -> ∀ second ∈ bundle.sites,
    first.var ≠ second.var -> bundle.arena.name first.var ≠ bundle.arena.name second.var
  /-- A name that may change is not reserved, not that of a built-in and does not
  begin like those of the stages. -/
  chosen : ∀ site ∈ bundle.sites, site.keeps = false ->
    bundle.arena.name site.var ∉ reservedWords ∧
      bundle.arena.name site.var ∉ bundle.stage.globals.map Prod.fst ∧
        isStageName (bundle.arena.name site.var) = false
  /-- A name that has to be kept is that of the source. -/
  kept : ∀ site ∈ bundle.sites, site.keeps = true -> bundle.arena.name site.var = site.name

/-- Declarations that can be named get distinct names. -/
theorem IsNameable.hasDistinctNames
    {bundle unique : Bundle}
    (nameable : bundle.IsNameable)
    (ends : Site.SearchesEnd bundle.naming bundle.sites)
    (run : uniqueNames bundle = .ok () unique) :
    unique.HasDistinctNames := by
  obtain ⟨state, named, rfl⟩ := uniqueNames_eq_ok run
  have names := FinalNames.names_of_nameModules nameable.nodup nameable.inside nameable.named
    nameable.keepsAsDeclared ends (gl_unreserved bundle.stage) named
  refine ⟨nameable.nodup, names.distinct, names.distinctKept, ?_, ?_⟩
  · intro site mem changes
    obtain ⟨_, unreserved, noStageName⟩ := names.chosen site mem changes
    rw [List.mem_append, not_or] at unreserved
    exact ⟨unreserved.1, unreserved.2, noStageName⟩
  · intro site mem keeps
    exact names.untouched site mem (.inl keeps)

/-- Renaming never captures: after a build of a fresh bundle whose searches for
names end, the declarations of the output have distinct names. -/
theorem finalize_hasDistinctNames
    {library : Library}
    {bundle result : Bundle}
    (fresh : IsFresh library bundle)
    (run : finalize library bundle = .ok () result)
    (ends : Site.SearchesEnd bundle.naming result.sites) :
    result.HasDistinctNames := by
  obtain ⟨placed, named, typed, swept, spliced, unique, _, build, naming, _, rfl⟩ :=
    finalize_eq_ok run
  have nameable := fresh.isNameable build
  have ends : Site.SearchesEnd spliced.naming spliced.sites := by
    obtain ⟨_, _, rfl⟩ := uniqueNames_eq_ok naming
    rw [build.stage_eq.2]
    exact ends
  obtain ⟨nodup, distinct, distinctKept, chosen, kept⟩ := nameable.hasDistinctNames ends naming
  exact ⟨nodup, distinct, distinctKept, chosen, kept⟩

/-- The names of a program with numbered names are distinct. -/
theorem finalize_sample_hasDistinctNames :
    ∃ result, finalize Sample.library Sample.bundle = .ok () result ∧
      Site.SearchesEnd .readable result.sites ∧ result.HasDistinctNames := by
  have passed : passes (fun result => decide (Site.SearchesEnd .readable result.sites))
      (finalize Sample.library Sample.bundle) = true := by
    decide +kernel
  obtain ⟨result, run, ends⟩ := exists_of_passes passed
  have ends : Site.SearchesEnd .readable result.sites := of_decide_eq_true ends
  exact ⟨result, run, ends, finalize_hasDistinctNames Sample.isFresh_bundle run ends⟩

/-- A loop whose step declares a name of the block around the loop once more. -/
def capturing : Bundle :=
  (empty .vertex .readable).append
    { path := "/main"
      statements :=
        [Sample.main
          [Sample.declare "float" "x" (.float ⟨0x3ff0000000000000⟩ {}),
            Sample.declare "float" "y" (Sample.read "x"),
            .loop (Sample.declare "int" "i" (.int 0 {}))
              (.binary .less (Sample.read "i") (.int 3 {}) {})
              (.cond
                [⟨some (.bool true {}),
                  [Sample.declare "float" "x" (Sample.read "y"),
                    .assign (Sample.read "y") .assign (Sample.read "x") {}], {}⟩]
                {})
              [] {},
            .assign (Sample.read "gl_PointSize") .assign (Sample.read "y") {}]] }

/-- The variables that a function with a loop declares first in its body and first in the block
of the step. -/
def bodyAndStep? : List Stmt -> Option (VarId × VarId)
  | [.function _ (.var outer :: _ :: .loop _ _ (.cond [⟨_, .var inner :: _, _⟩] _) _ _ :: _)] =>
      return (← outer.name.var, ← inner.name.var)
  | _ => none

/-- A declaration inside the step of a loop captures: a variable of the body of the main
function and one in the step of its loop are different, both used and both local, and have one
name. -/
theorem finalize_capturing :
    ∃ result outer inner, finalize {} capturing = .ok () result ∧
      result.modules.map (fun module => bodyAndStep? module.statements) = [some (outer, inner)] ∧
      outer ≠ inner ∧
      (result.usage.isUsed outer = true ∧ (result.arena.get outer).decl = .localVariable) ∧
      (result.usage.isUsed inner = true ∧ (result.arena.get inner).decl = .localVariable) ∧
      result.arena.name outer = result.arena.name inner := by
  have passed : passes (fun result => decide (
      result.modules.map (fun module => bodyAndStep? module.statements) = [some (59, 62)] ∧
        59 ≠ 62 ∧
        (result.usage.isUsed 59 = true ∧ (result.arena.get 59).decl = .localVariable) ∧
        (result.usage.isUsed 62 = true ∧ (result.arena.get 62).decl = .localVariable) ∧
        result.arena.name 59 = result.arena.name 62)) (finalize {} capturing) = true := by
    decide +kernel
  obtain ⟨result, run, same⟩ := exists_of_passes passed
  exact ⟨result, 59, 62, run, of_decide_eq_true same⟩

end Bundle

end ModularGlsl
