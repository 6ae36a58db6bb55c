import ModularGlsl.Proofs.Naming.Traversal

/-!
# Names that are kept

Before any name is chosen, the names that have to be kept are claimed at the
root.  This succeeds only if they differ, and leaves a tree with nothing but
these claims.  From there on the other declarations get their names.
-/

namespace ModularGlsl

/-! ## Declarations that keep their names -/

variable {functions : List VarId}

variable {stmt : Stmt} {keeps : Bool} {site : Site}

theorem Stmt.declared_of_mem_sites
    {usage : Usage}
    (mem : site ∈ stmt.sites usage functions keeps)
    (siteKeeps : site.keeps = true) :
    ∃ ident, stmt.declared? = some ident ∧ site ∈ ident.sites functions keeps := by
  refine (Stmt.declared_or_inside mem).resolve_right fun inside => ?_
  rw [inside.1] at siteKeeps
  cases siteKeeps

theorem Stmt.mem_sites_of_declared
    (usage : Usage)
    {ident : Ident}
    (declared : stmt.declared? = some ident)
    (mem : site ∈ ident.sites functions keeps) :
    site ∈ stmt.sites usage functions keeps := by
  match stmt with
  | .interface _ | .const _ | .var _ | .struct _ | .accessor _ =>
      cases declared
      exact mem
  | .function _ _ =>
      cases declared
      exact List.mem_append_left _ mem

/-- The variable that a statement declares keeps its name exactly if the
statement says so. -/
def Stmt.KeepsAsDeclared
    (arena : Arena)
    (main : Option VarId)
    (stmt : Stmt) : Prop :=
  ∀ ident ∈ stmt.declared?, ∀ var ∈ ident.var,
    FinalNames.keepsName arena main var = stmt.mustKeep main

/-! ## The first sweep -/

variable {arena : Arena} {var : VarId}

/-- A name is kept where its variable has a claim, and claimed where no variable
has one to it. -/
theorem NameTree.preserve_eq_ok
    {tree result : NameTree}
    {id : LevelId}
    (succeeded : tree.preserve arena id var = .ok result) :
    (∃ name, (var, name) ∈ tree.visibleClaims id) ∧ tree = result ∨
      (∀ claim ∈ tree.visibleClaims id, claim.2 ≠ arena.name var) ∧
        tree.claim id var (arena.name var) = result := by
  unfold preserve at succeeded
  split at succeeded
  next known =>
    cases succeeded
    exact .inl ⟨hasVar_iff.mp known, rfl⟩
  next unknown =>
    dsimp only at succeeded
    cases owner : tree.owner? id (arena.get var).name with
    | some other =>
        rw [owner] at succeeded
        cases succeeded
    | none =>
        rw [owner] at succeeded
        cases succeeded
        refine .inr ⟨fun claim held same => ?_, rfl⟩
        have isClaimed : tree.hasName id (arena.name var) = true :=
          hasName_iff.mpr ⟨claim.1, same ▸ held⟩
        rw [hasName, Arena.name, owner] at isClaimed
        cases isClaimed

namespace FinalNames

/-- What holds while the names that have to be kept are claimed. -/
structure Preserved
    (naming : Naming)
    (reserved : List String)
    (arena : Arena)
    (sites : List Site)
    (claims : List (VarId × String))
    (state : State) : Prop where
  /-- Only claims at the root are added. -/
  state_eq : state = { tree := .ofClaims naming reserved claims, arena := arena }
  /-- Names that are kept are claimed. -/
  kept : ∀ site ∈ sites, site.keeps = true -> (site.var, site.name) ∈ claims
  /-- Only names that are kept are claimed. -/
  origin : ∀ claim ∈ claims, ∃ site ∈ sites, site.keeps = true ∧ (site.var, site.name) = claim
  /-- A claim holds the name of its variable. -/
  name_eq : ∀ claim ∈ claims, arena.name claim.1 = claim.2
  /-- A name is claimed for one variable. -/
  unique : ∀ first ∈ claims, ∀ second ∈ claims, first.2 = second.2 -> first.1 = second.1

section Preserve

variable {naming : Naming} {reserved : List String} {sites : List Site}
variable {claims : List (VarId × String)} {usage : Usage} {main : Option VarId}
variable {state after : State} {others : List Site}

/-- Declarations whose names may change. -/
theorem Preserved.skip
    (preserved : Preserved naming reserved arena sites claims state)
    (change : ∀ site ∈ others, site.keeps = false) :
    Preserved naming reserved arena (sites ++ others) claims state := by
  refine { preserved with kept := ?_, origin := ?_ }
  · intro site mem keeps
    rcases List.mem_append.mp mem with earlier | isOther
    · exact preserved.kept site earlier keeps
    · rw [change site isOther] at keeps
      cases keeps
  · intro claim held
    obtain ⟨site, mem, keeps, claim_eq⟩ := preserved.origin claim held
    exact ⟨site, List.mem_append_left _ mem, keeps, claim_eq⟩

variable {before : State}

theorem preserveVar_eq_ok (run : preserveVar var before = .ok () after) :
    ∃ tree, before.tree.preserve before.arena NameTree.root var = .ok tree ∧
      after = { before with tree := tree } := by
  rw [preserveVar, bind_eq_ok] at run
  obtain ⟨state, middle, early, late⟩ := run
  cases early
  cases outcome : before.tree.preserve before.arena NameTree.root var with
  | error error =>
      rw [outcome] at late
      cases late
  | ok tree =>
      rw [outcome] at late
      cases late
      exact ⟨tree, rfl, rfl⟩

section

variable (preserved : Preserved naming reserved arena sites claims before)
include preserved

/-- The name of a variable is claimed. -/
theorem Preserved.preserveVar
    (run : preserveVar var before = .ok () after)
    (kept : ∀ site ∈ others, site.keeps = true -> (site.var, site.name) = (var, arena.name var))
    (origin : ∃ site ∈ others, site.keeps = true ∧ (site.var, site.name) = (var, arena.name var)) :
    ∃ claims, Preserved naming reserved arena (sites ++ others) claims after := by
  obtain ⟨tree, succeeded, rfl⟩ := preserveVar_eq_ok run
  rw [preserved.state_eq] at succeeded ⊢
  have keptIn {wider : List (VarId × String)} (own : (var, arena.name var) ∈ wider)
      (subset : ∀ claim ∈ claims, claim ∈ wider) :
      ∀ site ∈ sites ++ others, site.keeps = true -> (site.var, site.name) ∈ wider := by
    intro site mem keeps
    rcases List.mem_append.mp mem with earlier | isOther
    · exact subset _ (preserved.kept site earlier keeps)
    · rw [kept site isOther keeps]
      exact own
  have earlierOrigin (claim : VarId × String) (held : claim ∈ claims) :
      ∃ site ∈ sites ++ others, site.keeps = true ∧ (site.var, site.name) = claim := by
    obtain ⟨site, mem, keeps, claim_eq⟩ := preserved.origin claim held
    exact ⟨site, List.mem_append_left _ mem, keeps, claim_eq⟩
  rcases NameTree.preserve_eq_ok succeeded with ⟨⟨name, held⟩, rfl⟩ | ⟨unclaimed, rfl⟩
  · rw [NameTree.visibleClaims_ofClaims] at held
    have own : (var, arena.name var) ∈ claims := by
      rw [preserved.name_eq _ held]
      exact held
    exact ⟨claims, { preserved with
      state_eq := rfl, kept := keptIn own fun _ held => held, origin := earlierOrigin }⟩
  · rw [NameTree.visibleClaims_ofClaims] at unclaimed
    refine ⟨(var, arena.name var) :: claims, NameTree.claim_ofClaims .. ▸ rfl, ?_, ?_, ?_, ?_⟩
    · exact keptIn List.mem_cons_self fun _ held => List.mem_cons_of_mem _ held
    · intro claim held
      rcases List.mem_cons.mp held with rfl | earlier
      · obtain ⟨site, mem, keeps, claim_eq⟩ := origin
        exact ⟨site, List.mem_append_right _ mem, keeps, claim_eq⟩
      · exact earlierOrigin claim earlier
    · intro claim held
      rcases List.mem_cons.mp held with rfl | earlier
      · rfl
      · exact preserved.name_eq claim earlier
    · intro first isFirst second isSecond same
      rcases List.mem_cons.mp isFirst with rfl | firstEarlier <;>
        rcases List.mem_cons.mp isSecond with rfl | secondEarlier
      · rfl
      · exact absurd same.symm (unclaimed second secondEarlier)
      · exact absurd same (unclaimed first firstEarlier)
      · exact preserved.unique first firstEarlier second secondEarlier same

/-- A statement of a module claims the name it has to keep. -/
theorem Preserved.preserveStmt
    (keepsAsDeclared : stmt.KeepsAsDeclared arena main)
    (named : ∀ site ∈ stmt.sitesInModule usage main, arena.name site.var = site.name)
    (run : preserveStmt usage main stmt before = .ok () after) :
    ∃ claims, Preserved naming reserved arena (sites ++ stmt.sitesInModule usage main)
      claims after := by
  unfold FinalNames.preserveStmt at run
  rw [Stmt.sitesInModule] at named ⊢
  split at run
  next isKept =>
    rw [if_pos isKept] at named ⊢
    cases declared : stmt.declared? with
    | none =>
        rw [declared] at run
        obtain ⟨_, rfl⟩ := pure_eq_ok.mp run
        refine ⟨claims, preserved.skip fun site mem => ?_⟩
        rw [Bool.eq_false_iff]
        intro keeps
        obtain ⟨ident, isDeclared, _⟩ := Stmt.declared_of_mem_sites mem keeps
        rw [declared] at isDeclared
        cases isDeclared
    | some ident =>
        rw [declared] at run
        obtain ⟨var, _, early, run⟩ := bind_eq_ok.mp run
        obtain ⟨isBound, rfl⟩ := boundVar_eq_ok.mp early
        obtain ⟨state, _, early, run⟩ := bind_eq_ok.mp run
        cases early
        have arena_eq : before.arena = arena := by rw [preserved.state_eq]
        rw [arena_eq, keepsAsDeclared ident declared var isBound] at run
        have own_eq (keeps : Bool) :
            ident.sites [] keeps = [Site.mk var ident.name [] keeps] := by
          rw [Ident.sites, isBound]
          rfl
        split at run
        next keeps =>
          rw [keeps] at named ⊢
          have own : Site.mk var ident.name [] true ∈ stmt.sites usage [] true :=
            Stmt.mem_sites_of_declared usage declared (by rw [own_eq]; exact List.mem_cons_self)
          have name_eq : arena.name var = ident.name := named _ own
          refine preserved.preserveVar run (fun site mem siteKeeps => ?_) ⟨_, own, rfl, ?_⟩
          · obtain ⟨other, isDeclared, isOwn⟩ := Stmt.declared_of_mem_sites mem siteKeeps
            cases declared.symm.trans isDeclared
            rw [own_eq] at isOwn
            rw [List.mem_singleton.mp isOwn, name_eq]
          · rw [name_eq]
        next changes =>
          obtain ⟨_, rfl⟩ := pure_eq_ok.mp run
          refine ⟨claims, preserved.skip fun site mem => ?_⟩
          rw [Bool.eq_false_iff]
          intro keeps
          obtain ⟨other, _, isOwn⟩ := Stmt.declared_of_mem_sites mem keeps
          rw [(Ident.keeps_of_mem_sites isOwn).1] at keeps
          exact changes keeps
  next isDropped =>
    rw [if_neg isDropped]
    obtain ⟨_, rfl⟩ := pure_eq_ok.mp run
    exact ⟨claims, preserved.skip (by simp)⟩

theorem Preserved.preserveBlock
    {block : List Stmt}
    (keepsAsDeclared : ∀ stmt ∈ block, stmt.KeepsAsDeclared arena main)
    (named : ∀ site ∈ block.flatMap (Stmt.sitesInModule usage main),
      arena.name site.var = site.name)
    (run : preserveBlock usage main block before = .ok () after) :
    ∃ claims, Preserved naming reserved arena
      (sites ++ block.flatMap (Stmt.sitesInModule usage main)) claims after := by
  induction block generalizing sites claims before with
  | nil =>
      obtain ⟨_, rfl⟩ := pure_eq_ok.mp run
      exact ⟨claims, preserved.skip (by simp)⟩
  | cons stmt rest ih =>
      obtain ⟨_, middle, early, late⟩ := bind_eq_ok.mp run
      rw [List.flatMap_cons] at named ⊢
      obtain ⟨claims, preserved⟩ := preserved.preserveStmt
        (keepsAsDeclared stmt List.mem_cons_self)
        (fun site mem => named site (List.mem_append_left _ mem)) early
      rw [← List.append_assoc]
      exact ih preserved
        (fun other mem => keepsAsDeclared other (List.mem_cons_of_mem _ mem))
        (fun site mem => named site (List.mem_append_right _ mem)) late

end

variable {modules : List Module}

/-- The modules claim the names they have to keep. -/
theorem Preserved.preserveModules
    (preserved : Preserved naming reserved arena sites claims before)
    (keepsAsDeclared : ∀ module ∈ modules, ∀ stmt ∈ module.statements,
      stmt.KeepsAsDeclared arena module.main)
    (named : ∀ site ∈ modules.flatMap (Module.sites usage), arena.name site.var = site.name)
    (run : preserveModules usage modules before = .ok () after) :
    ∃ claims, Preserved naming reserved arena
      (sites ++ modules.flatMap (Module.sites usage)) claims after := by
  induction modules generalizing sites claims before with
  | nil =>
      obtain ⟨_, rfl⟩ := pure_eq_ok.mp run
      exact ⟨claims, preserved.skip (by simp)⟩
  | cons module rest ih =>
      obtain ⟨_, middle, early, late⟩ := bind_eq_ok.mp run
      rw [List.flatMap_cons] at named ⊢
      obtain ⟨claims, preserved⟩ := preserved.preserveBlock
        (keepsAsDeclared module List.mem_cons_self)
        (fun site mem => named site (List.mem_append_left _ mem)) early
      rw [← List.append_assoc]
      exact ih preserved
        (fun other mem => keepsAsDeclared other (List.mem_cons_of_mem _ mem))
        (fun site mem => named site (List.mem_append_right _ mem)) late

theorem Preserved.distinct (preserved : Preserved naming reserved arena sites claims state) :
    ∀ first ∈ sites, ∀ second ∈ sites, first.keeps = true -> second.keeps = true ->
      first.var ≠ second.var -> first.name ≠ second.name := by
  intro first isFirst second isSecond firstKeeps secondKeeps different same
  exact different (preserved.unique _ (preserved.kept first isFirst firstKeeps) _
    (preserved.kept second isSecond secondKeeps) same)

/-- Once the kept names are claimed, the others can be given. -/
theorem Preserved.settled
    (preserved : Preserved naming reserved arena sites claims state)
    (named : ∀ site ∈ sites, arena.name site.var = site.name) :
    Settled naming reserved arena.size sites [] [] NameTree.root state := by
  rw [preserved.state_eq]
  refine ⟨rfl, rfl, rfl, ?_, ?_⟩
  · exact ⟨fun site mem _ => named site mem, by simp, .nil, by simp⟩
  · refine ⟨NameTree.shaped_ofClaims, NameTree.shaped_ofClaims.root_lt, .inl rfl, ?_, ?_, ?_, ?_,
      ?_, ?_⟩
    · intro id claim held
      have atRoot : claim ∈ claims := by
        rcases Nat.eq_zero_or_pos id with rfl | later
        · exact held
        · rw [NameTree.level, NameTree.ofClaims, Array.getD_eq_getD_getElem?,
            Array.getElem?_eq_none later] at held
          cases held
      obtain ⟨site, mem, keeps, rfl⟩ := preserved.origin claim atRoot
      exact ⟨named site mem, site, mem, rfl, .inl keeps⟩
    · exact preserved.kept
    · simp
    · intro claim held
      rw [NameTree.visibleClaims_ofClaims] at held
      obtain ⟨site, mem, keeps, rfl⟩ := preserved.origin claim held
      exact ⟨site, mem, rfl, .inl keeps⟩
    · simp
    · simp

theorem names_of_nameModules
    (nodup : ((modules.flatMap (Module.sites usage)).map Site.var).Nodup)
    (inside : ∀ site ∈ modules.flatMap (Module.sites usage), site.var < arena.size)
    (named : ∀ site ∈ modules.flatMap (Module.sites usage), arena.name site.var = site.name)
    (keepsAsDeclared : ∀ module ∈ modules, ∀ stmt ∈ module.statements,
      stmt.KeepsAsDeclared arena module.main)
    (ends : Site.SearchesEnd naming (modules.flatMap (Module.sites usage)))
    (free : "gl" ∉ reserved)
    (run : nameModules usage modules
      { tree := .ofClaims naming reserved [], arena := arena } = .ok () after) :
    Names naming reserved (modules.flatMap (Module.sites usage))
      (modules.flatMap (Module.sites usage)) after.arena := by
  obtain ⟨_, middle, early, late⟩ := bind_eq_ok.mp run
  have start : Preserved naming reserved arena [] []
      { tree := .ofClaims naming reserved [], arena := arena } :=
    ⟨rfl, by simp, by simp, by simp, by simp⟩
  obtain ⟨claims, preserved⟩ := start.preserveModules keepsAsDeclared named early
  have plan : Plan naming reserved arena.size (modules.flatMap (Module.sites usage)) :=
    ⟨nodup, inside, ends, free, preserved.distinct⟩
  have settled := preserved.settled named
  obtain ⟨settled, _⟩ := (visits_assignModules modules).achieves plan late [] [] NameTree.root
    (by simp) settled settled.claims.home_lt (by rw [preserved.state_eq]; rfl)
  exact settled.names

end Preserve

end FinalNames

end ModularGlsl
