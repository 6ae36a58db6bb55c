import ModularGlsl.Proofs.Naming.Assignment
import ModularGlsl.Proofs.Run

/-!
# All declarations get their names

The traversal that gives names meets the declarations of the output in their
order.  What holds of the names and claims before a statement holds after it,
with the declarations of the statement among those that have their names.
-/

namespace ModularGlsl

/-! ## Functions around declarations -/

variable {ident : Ident}

variable {site : Site}

theorem Ident.keeps_of_mem_sites
    {functions : List VarId}
    {keeps : Bool}
    (mem : site ∈ ident.sites functions keeps) :
    site.keeps = keeps ∧ functions <+: site.functions := by
  obtain ⟨var, _, rfl⟩ := List.mem_map.mp mem
  exact ⟨rfl, List.prefix_rfl⟩

variable {usage : Usage}

mutual

/-- A declaration of a statement is the one that the statement itself makes, or stands
inside the statement and may change its name. -/
theorem Stmt.declared_or_inside
    {stmt : Stmt}
    {functions : List VarId}
    {keeps : Bool}
    (mem : site ∈ stmt.sites usage functions keeps) :
    (∃ ident, stmt.declared? = some ident ∧ site ∈ ident.sites functions keeps) ∨
      site.keeps = false ∧ functions <+: site.functions := by
  cases stmt with
  | interface decl | const decl | var decl | struct decl | accessor decl =>
      exact .inl ⟨decl.name, rfl, mem⟩
  | function header body =>
      rw [Stmt.sites, List.mem_append, List.mem_append] at mem
      have deeper : functions <+: header.inside functions := List.prefix_append _ _
      rcases mem with own | inParams | inBody
      · exact .inl ⟨header.name, rfl, own⟩
      · obtain ⟨param, _, own⟩ := List.mem_flatMap.mp inParams
        exact .inr ((Ident.keeps_of_mem_sites own).imp_right deeper.trans)
      · exact .inr ((Stmt.keeps_of_mem_sitesOfBlock inBody).imp_right deeper.trans)
  | cond branches _ =>
      have inBranches : site ∈ Stmt.sitesOfBranches usage branches functions := mem
      exact .inr (Stmt.keeps_of_mem_sitesOfBranches inBranches)
  | loop init _ _ body _ =>
      rw [Stmt.sites, List.mem_append] at mem
      rcases mem with inInit | inBody
      · rcases Stmt.declared_or_inside inInit with ⟨ident, _, own⟩ | inside
        · exact .inr (Ident.keeps_of_mem_sites own)
        · exact .inr inside
      · exact .inr (Stmt.keeps_of_mem_sitesOfBlock inBody)
  | _ => cases mem

theorem Stmt.keeps_of_mem_sitesOfBlock
    {block : List Stmt}
    {functions : List VarId}
    (mem : site ∈ Stmt.sitesOfBlock usage block functions) :
    site.keeps = false ∧ functions <+: site.functions := by
  match block with
  | [] => cases mem
  | stmt :: rest =>
      rw [Stmt.sitesOfBlock, List.mem_append] at mem
      rcases mem with inStmt | inRest
      · split at inStmt
        · rcases Stmt.declared_or_inside inStmt with ⟨ident, _, own⟩ | inside
          · exact Ident.keeps_of_mem_sites own
          · exact inside
        · cases inStmt
      · exact Stmt.keeps_of_mem_sitesOfBlock inRest

theorem Stmt.keeps_of_mem_sitesOfBranches
    {branches : List (Branch Stmt)}
    {functions : List VarId}
    (mem : site ∈ Stmt.sitesOfBranches usage branches functions) :
    site.keeps = false ∧ functions <+: site.functions := by
  match branches with
  | [] => cases mem
  | ⟨_, body, _⟩ :: rest =>
      rw [Stmt.sitesOfBranches, List.mem_append] at mem
      rcases mem with inBody | inRest
      · exact Stmt.keeps_of_mem_sitesOfBlock inBody
      · exact Stmt.keeps_of_mem_sitesOfBranches inRest

end

namespace NameTree

theorem Shaped.mem_visibleClaims_addLevel
    {tree : NameTree}
    (shaped : tree.Shaped)
    {parent : LevelId}
    (inside : parent < tree.levels.size)
    (isFunction : Bool)
    {claim : VarId × String} :
    claim ∈ (tree.addLevel parent isFunction).visibleClaims tree.levels.size ↔
      claim ∈ tree.visibleClaims parent := by
  rw [mem_visibleClaims, mem_visibleClaims, level_addLevel, if_pos rfl]
  have old {other : LevelId} (mem : other ∈ (tree.level parent).chain) :
      (tree.addLevel parent isFunction).level other = tree.level other := by
    rw [level_addLevel, if_neg (Nat.ne_of_lt (shaped.chain_lt parent inside other mem))]
  constructor
  · rintro ⟨other, mem, held⟩
    rcases List.mem_cons.mp mem with rfl | inParent
    · rw [level_addLevel, if_pos rfl] at held
      cases held
    · rw [old inParent] at held
      exact ⟨other, inParent, held⟩
  · rintro ⟨other, mem, held⟩
    refine ⟨other, List.mem_cons_of_mem _ mem, ?_⟩
    rw [old mem]
    exact held

theorem mem_visibleClaims_of_eq
    {before after : NameTree}
    {id : LevelId}
    (chain_eq : (after.level id).chain = (before.level id).chain)
    (claims_eq : ∀ other ∈ (before.level id).chain,
      (after.level other).claims = (before.level other).claims)
    {claim : VarId × String} :
    claim ∈ after.visibleClaims id ↔ claim ∈ before.visibleClaims id := by
  rw [mem_visibleClaims, mem_visibleClaims, chain_eq]
  constructor
  · rintro ⟨other, mem, held⟩
    exact ⟨other, mem, claims_eq other mem ▸ held⟩
  · rintro ⟨other, mem, held⟩
    exact ⟨other, mem, (claims_eq other mem).symm ▸ held⟩

end NameTree

namespace FinalNames

variable {naming : Naming} {reserved : List String} {size : Nat} {path : List VarId}
variable {level : LevelId}

section Levels

variable {all done later : List Site} {home : LevelId} {state inner : State}

section

variable (settled : Settled naming reserved size all done path home state)
include settled

theorem Settled.addLevel
    (inside : level < state.tree.levels.size)
    (isFunction : Bool) :
    Settled naming reserved size all done path home
      { state with tree := state.tree.addLevel level isFunction } := by
  have claims := settled.claims
  have grows := state.tree.grows_addLevel state.tree.levels.size level isFunction
  have level_eq (id : LevelId) (known : id < state.tree.levels.size) :
      (state.tree.addLevel level isFunction).level id = state.tree.level id := by
    rw [NameTree.level_addLevel, if_neg (Nat.ne_of_lt known)]
  have visible_iff {claim : VarId × String} :
      claim ∈ (state.tree.addLevel level isFunction).visibleClaims home ↔
        claim ∈ state.tree.visibleClaims home := by
    refine NameTree.mem_visibleClaims_of_eq (grows.chain_eq home claims.home_lt) ?_
    intro other mem
    have known := claims.shaped.chain_lt home claims.home_lt other mem
    exact grows.claims_eq other known (Nat.ne_of_lt known)
  refine { settled with claims := { claims with
    shaped := claims.shaped.addLevel inside isFunction
    home_lt := ?_, isHome := ?_, claimed := ?_, kept := ?_, visible := ?_, origin := ?_ } }
  · exact Nat.lt_of_lt_of_le claims.home_lt grows.size_le
  · rw [level_eq home claims.home_lt]
    exact claims.isHome
  · intro id claim held
    rw [NameTree.level_addLevel] at held
    split at held
    · cases held
    · exact claims.claimed id claim held
  · intro site isSite keeps
    rw [level_eq _ claims.shaped.root_lt]
    exact claims.kept site isSite keeps
  · intro site isDone seen
    obtain ⟨name, held⟩ := claims.visible site isDone seen
    exact ⟨name, visible_iff.mpr held⟩
  · intro claim held
    exact claims.origin claim (visible_iff.mp held)

/-- The body of a function that was just declared is opened. -/
theorem Settled.enter
    (inside : level < state.tree.levels.size)
    (home_eq : state.tree.functionLevel level = home)
    {function : VarId}
    (isDeclared : function ∈ done.map Site.var)
    (fresh : ∀ site ∈ done, function ∉ site.functions) :
    Settled naming reserved size all done (path ++ [function]) state.tree.levels.size
      { state with tree := state.tree.addLevel level true } := by
  have added := (settled.addLevel inside true).claims
  have claims := settled.claims
  have visible_iff {claim : VarId × String} :
      claim ∈ (state.tree.addLevel level true).visibleClaims state.tree.levels.size ↔
        claim ∈ state.tree.visibleClaims home := by
    rw [claims.shaped.mem_visibleClaims_addLevel inside,
      claims.shaped.mem_visibleClaims_functionLevel inside, home_eq]
  refine { settled with claims := { added with
    home_lt := ?_, isHome := ?_, visible := ?_, origin := ?_, declared := ?_ } }
  · rw [NameTree.size_addLevel]
    exact Nat.lt_succ_self _
  · rw [NameTree.level_addLevel, if_pos rfl]
    exact .inr rfl
  · intro site isDone seen
    rcases List.prefix_concat_iff.mp seen with same | outer
    · exact absurd (by rw [same]; simp) (fresh site isDone)
    · obtain ⟨name, held⟩ := claims.visible site isDone outer
      exact ⟨name, visible_iff.mpr held⟩
  · intro claim held
    obtain ⟨site, isSite, var_eq, cause⟩ := claims.origin claim (visible_iff.mp held)
    refine ⟨site, isSite, var_eq, cause.imp_right fun seen => ⟨seen.1, ?_⟩⟩
    exact seen.2.trans (List.prefix_append _ _)
  · intro other mem
    rcases List.mem_append.mp mem with outer | same
    · exact claims.declared other outer
    · rw [List.mem_singleton.mp same]
      exact isDeclared

/-- The body of a function is left. -/
theorem Settled.leave
    {function : VarId}
    {new : LevelId}
    (isNew : state.tree.levels.size ≤ new)
    (within : Settled naming reserved size all (done ++ later) (path ++ [function]) new inner)
    (grows : state.tree.Grows new inner.tree)
    (deeper : ∀ site ∈ later, path ++ [function] <+: site.functions) :
    Settled naming reserved size all (done ++ later) path home inner := by
  have outer := settled.claims
  have visible_iff {claim : VarId × String} :
      claim ∈ inner.tree.visibleClaims home ↔ claim ∈ state.tree.visibleClaims home := by
    refine NameTree.mem_visibleClaims_of_eq (grows.chain_eq home outer.home_lt) ?_
    intro other mem
    have known := outer.shaped.chain_lt home outer.home_lt other mem
    exact grows.claims_eq other known (Nat.ne_of_lt (Nat.lt_of_lt_of_le known isNew))
  refine { within with claims := { within.claims with
    home_lt := ?_, isHome := ?_, visible := ?_, origin := ?_, declared := ?_ } }
  · exact Nat.lt_of_lt_of_le outer.home_lt grows.size_le
  · rw [grows.isFunction_eq home outer.home_lt]
    exact outer.isHome
  · intro site mem seen
    rcases List.mem_append.mp mem with isDone | isLater
    · obtain ⟨name, held⟩ := outer.visible site isDone seen
      exact ⟨name, visible_iff.mpr held⟩
    · have tooLong := ((deeper site isLater).trans seen).length_le
      rw [List.length_append, List.length_singleton] at tooLong
      exact absurd tooLong (Nat.not_succ_le_self _)
  · intro claim held
    obtain ⟨site, isSite, var_eq, cause⟩ := outer.origin claim (visible_iff.mp held)
    refine ⟨site, isSite, var_eq, cause.imp_right fun seen => ⟨?_, seen.2⟩⟩
    exact List.mem_append_left _ seen.1
  · intro other mem
    exact within.claims.declared other (List.mem_append_left _ mem)

end

end Levels

/-! ## Statements -/

section Traversal

variable {all : List Site} {usage : Usage} {before after : State}

theorem boundVar_eq_ok {var : VarId} :
    boundVar ident before = .ok var after ↔ ident.var = some var ∧ before = after := by
  unfold boundVar Ident.bound
  cases ident.var with
  | none => exact ⟨by rintro ⟨⟩, by rintro ⟨⟨⟩, _⟩⟩
  | some id => simp

theorem assignIdent_eq_ok {before after : State} :
    assignIdent level ident before = .ok () after ↔
      ∃ var, ident.var = some var ∧
        after = { tree := (before.tree.assign before.arena level var).1
                  arena := (before.tree.assign before.arena level var).2 } := by
  rw [assignIdent, bind_eq_ok]
  constructor
  · rintro ⟨var, middle, early, late⟩
    obtain ⟨isBound, rfl⟩ := boundVar_eq_ok.mp early
    cases late
    exact ⟨var, isBound, rfl⟩
  · rintro ⟨var, isBound, rfl⟩
    exact ⟨var, before, boundVar_eq_ok.mpr ⟨isBound, rfl⟩, rfl⟩

theorem openLevel_eq_ok
    {parent inner : LevelId}
    {isFunction : Bool}
    {before after : State} :
    openLevel parent isFunction before = .ok inner after ↔
      inner = before.tree.levels.size ∧
        after = { before with tree := before.tree.addLevel parent isFunction } := by
  constructor
  · intro run
    cases run
    exact ⟨rfl, rfl⟩
  · rintro ⟨rfl, rfl⟩
    rfl

/-- What a step of naming at a level achieves: the given declarations get their
names. -/
def Achieves
    (naming : Naming)
    (reserved : List String)
    (size : Nat)
    (all : List Site)
    (sites : List Site)
    (path : List VarId)
    (level : LevelId)
    (before after : State) : Prop :=
  ∀ done rest home,
    all = done ++ (sites ++ rest) ->
      Settled naming reserved size all done path home before ->
        level < before.tree.levels.size ->
          before.tree.functionLevel level = home ->
            Settled naming reserved size all (done ++ sites) path home after ∧
              before.tree.Grows home after.tree

theorem Achieves.nil
    (path : List VarId)
    (level : LevelId)
    (state : State) :
    Achieves naming reserved size all [] path level state state := by
  intro done rest home _ settled _ _
  rw [List.append_nil]
  exact ⟨settled, .refl _⟩

variable {before middle after : State}

theorem Achieves.append
    {first second : List Site}
    (early : Achieves naming reserved size all first path level before middle)
    (late : Achieves naming reserved size all second path level middle after) :
    Achieves naming reserved size all (first ++ second) path level before after := by
  intro done rest home parts settled inside home_eq
  have shaped := settled.claims.shaped
  rw [List.append_assoc] at parts
  obtain ⟨settled, grown⟩ := early done (second ++ rest) home parts settled inside home_eq
  rw [← List.append_assoc] at parts
  have insideStill := Nat.lt_of_lt_of_le inside grown.size_le
  have home_still := (grown.functionLevel_eq shaped inside).trans home_eq
  obtain ⟨settled, grows⟩ := late (done ++ first) rest home parts settled insideStill home_still
  rw [List.append_assoc] at settled
  exact ⟨settled, grown.trans grows⟩

variable {sites : List Site}

/-- A step at the level of a new block. -/
theorem Achieves.block
    (within : Achieves naming reserved size all sites path before.tree.levels.size
      { before with tree := before.tree.addLevel level false } after) :
    Achieves naming reserved size all sites path level before after := by
  intro done rest home parts settled inside home_eq
  have added := before.tree.grows_addLevel home level false
  have newInside : before.tree.levels.size < (before.tree.addLevel level false).levels.size := by
    rw [NameTree.size_addLevel]
    exact Nat.lt_succ_self _
  have home_still :
      (before.tree.addLevel level false).functionLevel before.tree.levels.size = home := by
    rw [NameTree.functionLevel_addLevel_false (settled.claims.shaped.chain_lt level inside)]
    exact home_eq
  obtain ⟨settled, grows⟩ := within done rest home parts (settled.addLevel inside false)
    newInside home_still
  exact ⟨settled, added.trans grows⟩

section

variable (plan : Plan naming reserved size all)
include plan

theorem achieves_assignIdent
    (run : assignIdent level ident before = .ok () after)
    (path : List VarId)
    (keeps : Bool) :
    Achieves naming reserved size all (ident.sites path keeps) path level before after := by
  obtain ⟨var, isBound, rfl⟩ := assignIdent_eq_ok.mp run
  intro done rest home parts settled inside home_eq
  rw [Ident.sites, isBound] at parts ⊢
  exact settled.assign plan inside home_eq parts rfl

/-- A function gets its name, and then what it holds. -/
theorem Achieves.function
    {function : VarId}
    (isBound : ident.var = some function)
    {keeps : Bool}
    (own : Achieves naming reserved size all (ident.sites path keeps) path level before middle)
    (within : Achieves naming reserved size all sites (path ++ [function])
      middle.tree.levels.size { middle with tree := middle.tree.addLevel level true } after)
    (deeper : ∀ site ∈ sites, path ++ [function] <+: site.functions) :
    Achieves naming reserved size all (ident.sites path keeps ++ sites) path level
      before after := by
  intro done rest home parts settled inside home_eq
  have shaped := settled.claims.shaped
  have nested := settled.claims.nested
  have declared := settled.claims.declared
  have own_eq : ident.sites path keeps = [⟨function, ident.name, path, keeps⟩] := by
    rw [Ident.sites, isBound]
    rfl
  rw [own_eq] at own ⊢
  rw [own_eq, List.append_assoc] at parts
  have unseen : function ∉ done.map Site.var := plan.fresh parts
  obtain ⟨settled, grown⟩ := own done (sites ++ rest) home parts settled inside home_eq
  have insideStill := Nat.lt_of_lt_of_le inside grown.size_le
  have home_still := (grown.functionLevel_eq shaped inside).trans home_eq
  have isDeclared :
      function ∈ (done ++ [Site.mk function ident.name path keeps]).map Site.var := by
    rw [List.map_append]
    exact List.mem_append_right _ List.mem_cons_self
  have entered := settled.enter insideStill home_still isDeclared ?_
  · rw [← List.append_assoc] at parts ⊢
    have added := middle.tree.grows_addLevel middle.tree.levels.size level true
    have newInside : middle.tree.levels.size < (middle.tree.addLevel level true).levels.size := by
      rw [NameTree.size_addLevel]
      exact Nat.lt_succ_self _
    obtain ⟨inner, grows⟩ := within _ rest _ parts entered newInside
      (middle.tree.functionLevel_addLevel_true level)
    have left := settled.leave (Nat.le_refl _) inner (added.trans grows) deeper
    exact ⟨left, grown.trans (added.of_new grows (Nat.le_refl _))⟩
  · intro site mem isInside
    rcases List.mem_append.mp mem with isDone | same
    · exact unseen (nested site isDone function isInside)
    · rw [List.mem_singleton.mp same] at isInside
      exact unseen (declared function isInside)

end

/-- The steps of naming inside given functions at a level, with the declarations that they
meet. -/
inductive Visits : List Site -> List VarId -> LevelId -> Name Unit -> Prop
  /-- Nothing to do. -/
  | pure
      {path : List VarId}
      {level : LevelId} :
      Visits [] path level (return ())
  /-- A declaration. -/
  | ident
      (ident : Ident)
      (keeps : Bool)
      {path : List VarId}
      {level : LevelId} :
      Visits (ident.sites path keeps) path level (assignIdent level ident)
  /-- One step after the other. -/
  | bind
      {first second : List Site}
      {path : List VarId}
      {level : LevelId}
      {step next : Name Unit}
      (early : Visits first path level step)
      (late : Visits second path level next) :
      Visits (first ++ second) path level (step >>= fun _ => next)
  /-- A block. -/
  | block
      {sites : List Site}
      {path : List VarId}
      {level : LevelId}
      {next : LevelId -> Name Unit}
      (within : ∀ inner, Visits sites path inner (next inner)) :
      Visits sites path level (openLevel level false >>= next)
  /-- A function. -/
  | function
      {header : FunctionHeader}
      (keeps : Bool)
      {sites : List Site}
      {path : List VarId}
      {level : LevelId}
      {next : LevelId -> Name Unit}
      (within : ∀ inner, Visits sites (header.inside path) inner (next inner))
      (deeper : ∀ site ∈ sites, header.inside path <+: site.functions) :
      Visits (header.name.sites path keeps ++ sites) path level
        (assignIdent level header.name >>= fun _ => openLevel level true >>= next)

theorem visits_assignParams
    (level : LevelId)
    (params : List Param)
    (path : List VarId) :
    Visits (Param.sites path params) path level (assignParams level params) := by
  induction params with
  | nil => exact .pure
  | cons param rest ih => exact .bind (.ident param.name false) ih

mutual

/-- The traversal meets the declarations of a statement. -/
theorem visits_assignStmt
    (level : LevelId)
    (stmt : Stmt)
    (path : List VarId)
    (keeps : Bool) :
    Visits (stmt.sites usage path keeps) path level (assignStmt usage level stmt) := by
  cases stmt with
  | interface _ | const _ | var _ | struct _ | accessor _ => exact .ident _ keeps
  | function header body =>
      rw [Stmt.sites, assignStmt]
      refine .function keeps (fun inner => .bind (visits_assignParams inner header.params _)
        (visits_assignBlock inner body _)) fun site mem => ?_
      rcases List.mem_append.mp mem with isParam | isInBody
      · obtain ⟨param, _, own⟩ := List.mem_flatMap.mp isParam
        exact (Ident.keeps_of_mem_sites own).2
      · exact (Stmt.keeps_of_mem_sitesOfBlock isInBody).2
  | cond branches _ => exact visits_assignBranches level branches path
  | loop init _ _ body _ =>
      rw [Stmt.sites, assignStmt]
      exact .block fun inner =>
        .bind (visits_assignStmt inner init path false) (visits_assignBlock inner body path)
  | _ => exact .pure

theorem visits_assignBlock
    (level : LevelId)
    (block : List Stmt)
    (path : List VarId) :
    Visits (Stmt.sitesOfBlock usage block path) path level
      (assignBlock usage false level block) := by
  match block with
  | [] => exact .pure
  | stmt :: rest =>
      rw [Stmt.sitesOfBlock, assignBlock]
      split
      · exact .bind (visits_assignStmt level stmt path false) (visits_assignBlock level rest path)
      · exact visits_assignBlock level rest path

theorem visits_assignBranches
    (level : LevelId)
    (branches : List (Branch Stmt))
    (path : List VarId) :
    Visits (Stmt.sitesOfBranches usage branches path) path level
      (assignBranches usage level branches) := by
  match branches with
  | [] => exact .pure
  | ⟨_, body, _⟩ :: rest =>
      rw [Stmt.sitesOfBranches, assignBranches]
      exact .bind (.block fun inner => visits_assignBlock inner body path)
        (visits_assignBranches level rest path)

end

/-- The traversal meets the declarations of the statements of a module. -/
theorem visits_assignBlock_true
    (main : Option VarId)
    (block : List Stmt) :
    Visits (block.flatMap (Stmt.sitesInModule usage main)) [] NameTree.root
      (assignBlock usage true NameTree.root block) := by
  induction block with
  | nil => exact .pure
  | cons stmt rest ih =>
      rw [List.flatMap_cons, Stmt.sitesInModule, assignBlock]
      split
      · exact .bind (visits_assignStmt _ stmt [] _) ih
      · exact ih

/-- The traversal meets the declarations of all modules. -/
theorem visits_assignModules (modules : List Module) :
    Visits (modules.flatMap (Module.sites usage)) [] NameTree.root
      (assignModules usage modules) := by
  induction modules with
  | nil => exact .pure
  | cons module rest ih => exact .bind (visits_assignBlock_true module.main _) ih

/-- The declarations that are met get their names. -/
theorem Visits.achieves
    (plan : Plan naming reserved size all)
    {step : Name Unit}
    (visits : Visits sites path level step)
    (run : step before = .ok () after) :
    Achieves naming reserved size all sites path level before after := by
  induction visits generalizing before after with
  | pure =>
      obtain ⟨_, rfl⟩ := pure_eq_ok.mp run
      exact .nil _ _ _
  | ident ident keeps => exact achieves_assignIdent plan run _ keeps
  | bind _ _ inEarly inLate =>
      obtain ⟨_, _, early, late⟩ := bind_eq_ok.mp run
      exact (inEarly early).append (inLate late)
  | block _ inside =>
      obtain ⟨_, _, opening, run⟩ := bind_eq_ok.mp run
      obtain ⟨rfl, rfl⟩ := openLevel_eq_ok.mp opening
      exact .block (inside _ run)
  | @function header keeps _ path _ _ _ deeper inside =>
      obtain ⟨_, _, early, run⟩ := bind_eq_ok.mp run
      obtain ⟨_, _, opening, run⟩ := bind_eq_ok.mp run
      obtain ⟨rfl, rfl⟩ := openLevel_eq_ok.mp opening
      obtain ⟨function, isBound, _⟩ := assignIdent_eq_ok.mp early
      have inside_eq : header.inside path = path ++ [function] := by
        rw [FunctionHeader.inside, isBound]
        rfl
      have within := inside _ run
      rw [inside_eq] at within deeper
      exact .function plan isBound (achieves_assignIdent plan early path keeps) within deeper

end Traversal

end FinalNames
end ModularGlsl
