import ModularGlsl.Proofs.Naming.Faults
import ModularGlsl.Proofs.Naming.Inherited

/-!
# When naming succeeds

The names that have to be kept are claimed first, and this fails exactly if two
declarations have to keep one name.  Everything after that succeeds: a declaration that
may change takes another name if it has to.
-/

namespace ModularGlsl

/-- No two declarations have to keep one name. -/
def Site.AreApart (sites : List Site) : Prop :=
  ∀ first ∈ sites, ∀ second ∈ sites, first.keeps = true -> second.keeps = true ->
    first.name = second.name -> first.var = second.var

theorem Site.AreApart.mono
    {sites fewer : List Site}
    (apart : AreApart sites)
    (subset : fewer ⊆ sites) :
    AreApart fewer :=
  fun first isFirst second isSecond =>
    apart first (subset isFirst) second (subset isSecond)

variable {arena : Arena}

/-- A name can be kept unless another variable has it. -/
theorem NameTree.exists_preserve
    {tree : NameTree}
    {id : LevelId}
    {var : VarId}
    (free : ∀ other, (other, arena.name var) ∈ tree.visibleClaims id -> other = var) :
    ∃ result, tree.preserve arena id var = .ok result := by
  unfold preserve
  split
  next => exact ⟨tree, rfl⟩
  next unknown =>
    dsimp only
    cases owner : tree.owner? id (arena.get var).name with
    | none => exact ⟨_, rfl⟩
    | some other =>
        have held := mem_of_owner? owner
        obtain rfl := free other held
        exact absurd (hasVar_iff.mpr ⟨_, held⟩) unknown

namespace FinalNames

section Preserve

variable {naming : Naming} {reserved : List String} {sites : List Site}
variable {claims : List (VarId × String)} {usage : Usage} {main : Option VarId}

/-- What statements declare is bound. -/
def DeclaresBound (block : List Stmt) : Prop :=
  ∀ stmt ∈ block, ∀ ident, stmt.declared? = some ident -> ∃ var, ident.var = some var

variable {before : State}

section

variable (preserved : Preserved naming reserved arena sites claims before)
include preserved

/-- A variable can claim its name unless a declaration of another variable keeps it. -/
theorem Preserved.exists_preserveVar
    {var : VarId}
    (free : ∀ site ∈ sites, site.keeps = true -> site.name = arena.name var -> site.var = var) :
    ∃ after, FinalNames.preserveVar var before = .ok () after := by
  obtain ⟨tree, kept⟩ : ∃ tree,
      before.tree.preserve before.arena NameTree.root var = .ok tree := by
    rw [preserved.state_eq]
    refine NameTree.exists_preserve fun other held => ?_
    rw [NameTree.visibleClaims_ofClaims] at held
    obtain ⟨site, mem, keeps, claim_eq⟩ := preserved.origin _ held
    obtain ⟨rfl, same⟩ := Prod.mk.inj claim_eq
    exact free site mem keeps same
  refine ⟨{ before with tree := tree }, bind_eq_ok.mpr ⟨before, before, rfl, ?_⟩⟩
  rw [kept]
  rfl

/-- A statement whose name is not taken claims it. -/
theorem Preserved.exists_preserveStmt
    {stmt : Stmt}
    (keepsAsDeclared : stmt.KeepsAsDeclared arena main)
    (named : ∀ site ∈ stmt.sitesInModule usage main, arena.name site.var = site.name)
    (isBound : ∀ ident, stmt.declared? = some ident -> ∃ var, ident.var = some var)
    (apart : Site.AreApart (sites ++ stmt.sitesInModule usage main)) :
    ∃ after, FinalNames.preserveStmt usage main stmt before = .ok () after := by
  unfold FinalNames.preserveStmt
  rw [Stmt.sitesInModule] at named apart
  split
  swap
  · exact ⟨before, rfl⟩
  next isKept =>
    rw [if_pos isKept] at named apart
    cases declared : stmt.declared? with
    | none => exact ⟨before, rfl⟩
    | some ident =>
        obtain ⟨var, bound⟩ := isBound ident declared
        have arena_eq : before.arena = arena := by rw [preserved.state_eq]
        suffices claims : ∃ after, (if keepsName before.arena main var
            then FinalNames.preserveVar var else pure ()) before = .ok () after by
          obtain ⟨after, claims⟩ := claims
          refine ⟨after, bind_eq_ok.mpr ⟨var, before, boundVar_eq_ok.mpr ⟨bound, rfl⟩, ?_⟩⟩
          exact bind_eq_ok.mpr ⟨before, before, rfl, claims⟩
        rw [arena_eq, keepsAsDeclared ident declared var bound]
        split
        swap
        · exact ⟨before, rfl⟩
        next keeps =>
          rw [keeps] at named apart
          have own : Site.mk var ident.name [] true ∈ stmt.sites usage [] true := by
            refine Stmt.mem_sites_of_declared usage declared ?_
            rw [Ident.sites, bound]
            exact List.mem_cons_self
          refine preserved.exists_preserveVar fun site mem siteKeeps same => ?_
          exact apart site (List.mem_append_left _ mem) _ (List.mem_append_right _ own)
            siteKeeps rfl (same.trans (named _ own))

theorem Preserved.exists_preserveBlock
    {block : List Stmt}
    (keepsAsDeclared : ∀ stmt ∈ block, stmt.KeepsAsDeclared arena main)
    (named : ∀ site ∈ block.flatMap (Stmt.sitesInModule usage main),
      arena.name site.var = site.name)
    (isBound : DeclaresBound block)
    (apart : Site.AreApart (sites ++ block.flatMap (Stmt.sitesInModule usage main))) :
    ∃ after, FinalNames.preserveBlock usage main block before = .ok () after := by
  induction block generalizing sites claims before with
  | nil => exact ⟨before, rfl⟩
  | cons stmt rest ih =>
      rw [List.flatMap_cons] at named apart
      rw [← List.append_assoc] at apart
      obtain ⟨stmtKeeps, restKeeps⟩ := List.forall_mem_cons.mp keepsAsDeclared
      obtain ⟨stmtNamed, restNamed⟩ := List.forall_mem_append.mp named
      obtain ⟨stmtBound, restBound⟩ := List.forall_mem_cons.mp isBound
      obtain ⟨middle, early⟩ := preserved.exists_preserveStmt stmtKeeps stmtNamed stmtBound
        (apart.mono (List.subset_append_left _ _))
      obtain ⟨claims, preserved⟩ := preserved.preserveStmt stmtKeeps stmtNamed early
      obtain ⟨after, late⟩ := ih preserved restKeeps restNamed restBound apart
      exact ⟨after, bind_eq_ok.mpr ⟨(), middle, early, late⟩⟩

/-- Modules claim the names they have to keep if these differ. -/
theorem Preserved.exists_preserveModules
    {modules : List Module}
    (keepsAsDeclared : ∀ module ∈ modules, ∀ stmt ∈ module.statements,
      stmt.KeepsAsDeclared arena module.main)
    (named : ∀ site ∈ modules.flatMap (Module.sites usage), arena.name site.var = site.name)
    (isBound : ∀ module ∈ modules, DeclaresBound module.statements)
    (apart : Site.AreApart (sites ++ modules.flatMap (Module.sites usage))) :
    ∃ after, FinalNames.preserveModules usage modules before = .ok () after := by
  induction modules generalizing sites claims before with
  | nil => exact ⟨before, rfl⟩
  | cons module rest ih =>
      rw [List.flatMap_cons] at named apart
      rw [← List.append_assoc] at apart
      obtain ⟨ownKeeps, restKeeps⟩ := List.forall_mem_cons.mp keepsAsDeclared
      obtain ⟨ownNamed, restNamed⟩ := List.forall_mem_append.mp named
      obtain ⟨ownBound, restBound⟩ := List.forall_mem_cons.mp isBound
      obtain ⟨middle, early⟩ := preserved.exists_preserveBlock ownKeeps ownNamed ownBound
        (apart.mono (List.subset_append_left _ _))
      obtain ⟨claims, preserved⟩ := preserved.preserveBlock ownKeeps ownNamed early
      obtain ⟨after, late⟩ := ih preserved restKeeps restNamed restBound apart
      exact ⟨after, bind_eq_ok.mpr ⟨(), middle, early, late⟩⟩

end

end Preserve

end FinalNames

namespace Bundle

theorem IsNameable.exists_uniqueNames_iff
    {bundle : Bundle}
    (nameable : bundle.IsNameable)
    (bound : ∀ module ∈ bundle.modules, FinalNames.EachBound arena module.statements) :
    (∃ unique, uniqueNames bundle = .ok () unique) ↔ Site.AreApart bundle.sites := by
  constructor
  · rintro ⟨unique, naming⟩
    obtain ⟨_, _, _, apart⟩ := nameable.inherits naming
    exact apart
  · intro apart
    obtain ⟨middle, early⟩ := bundle.preserved_namer.exists_preserveModules
      nameable.keepsAsDeclared nameable.named (fun module mem stmt isStmt ident declared => by
        obtain ⟨_, _, stmtBound⟩ := bound module mem stmt isStmt
        exact stmtBound.exists_var declared) apart
    obtain ⟨_, state, late⟩ := (FinalNames.avoids_assignModules bound).exists_ok middle
    have run : FinalNames.nameModules bundle.usage bundle.modules bundle.namer = .ok () state :=
      bind_eq_ok.mpr ⟨(), middle, early, late⟩
    refine ⟨{ bundle with arena := state.arena }, bind_eq_ok.mpr ⟨bundle, bundle, rfl, ?_⟩⟩
    rw [run]
    rfl

end Bundle
end ModularGlsl
