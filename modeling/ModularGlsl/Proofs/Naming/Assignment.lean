import ModularGlsl.Proofs.Naming.Sites
import ModularGlsl.Proofs.Naming.Tree

/-!
# Final names of declarations

Names are given to the declarations of the output in their order.  What holds of
those that have a name already is stated once, for a function that is open: all
of them that the open functions can see have a visible claim, names that are
given differ from all visible ones, and names that are kept are claimed at the
root from the start.
-/

namespace ModularGlsl

/-! ## Growing trees -/

variable {claim : VarId × String} {home : LevelId}

variable {var : VarId} {name : String}

namespace NameTree

/-- A tree grows: levels and claims are added, claims to old levels only at one
of them. -/
structure Grows
    (home : LevelId)
    (before after : NameTree) : Prop where
  /-- No level is lost. -/
  size_le : before.levels.size ≤ after.levels.size
  /-- Chains stay. -/
  chain_eq : ∀ id, id < before.levels.size -> (after.level id).chain = (before.level id).chain
  /-- Functions stay functions, and blocks stay blocks. -/
  isFunction_eq : ∀ id, id < before.levels.size ->
    (after.level id).isFunction = (before.level id).isFunction
  /-- Claims are added at one old level only. -/
  claims_eq : ∀ id, id < before.levels.size -> id ≠ home ->
    (after.level id).claims = (before.level id).claims
  /-- Claims stay. -/
  claims_subset : ∀ id, id < before.levels.size ->
    ∀ claim ∈ (before.level id).claims, claim ∈ (after.level id).claims

variable {id : LevelId}

namespace Grows

variable {before middle after : NameTree}

theorem refl (tree : NameTree) : Grows home tree tree :=
  ⟨Nat.le_refl _, fun _ _ => rfl, fun _ _ => rfl, fun _ _ _ => rfl, fun _ _ _ held => held⟩

theorem trans
    (early : Grows home before middle)
    (late : Grows home middle after) :
    Grows home before after where
  size_le := Nat.le_trans early.size_le late.size_le
  chain_eq id inside :=
    (late.chain_eq id (Nat.lt_of_lt_of_le inside early.size_le)).trans (early.chain_eq id inside)
  isFunction_eq id inside :=
    (late.isFunction_eq id (Nat.lt_of_lt_of_le inside early.size_le)).trans
      (early.isFunction_eq id inside)
  claims_eq id inside different :=
    (late.claims_eq id (Nat.lt_of_lt_of_le inside early.size_le) different).trans
      (early.claims_eq id inside different)
  claims_subset id inside claim held :=
    late.claims_subset id (Nat.lt_of_lt_of_le inside early.size_le) claim
      (early.claims_subset id inside claim held)

/-- Growth at a new level adds no claim at an old one. -/
theorem of_new
    {new : LevelId}
    (early : Grows new before middle)
    (late : Grows new middle after)
    (isNew : before.levels.size ≤ new) :
    Grows home before after := by
  have grows := early.trans late
  refine ⟨grows.size_le, grows.chain_eq, grows.isFunction_eq, fun id inside _ => ?_,
    grows.claims_subset⟩
  exact grows.claims_eq id inside (Nat.ne_of_lt (Nat.lt_of_lt_of_le inside isNew))

theorem functionLevel_eq
    (grows : Grows home before after)
    (shaped : before.Shaped)
    (inside : id < before.levels.size) :
    after.functionLevel id = before.functionLevel id := by
  refine functionLevel_eq_of_forall (grows.chain_eq id inside) fun other mem => ?_
  exact grows.isFunction_eq other (shaped.chain_lt id inside other mem)

theorem visibleClaims_subset
    (grows : Grows home before after)
    (shaped : before.Shaped)
    (inside : id < before.levels.size)
    (held : claim ∈ before.visibleClaims id) :
    claim ∈ after.visibleClaims id := by
  obtain ⟨other, mem, held⟩ := mem_visibleClaims.mp held
  refine mem_visibleClaims.mpr ⟨other, ?_, ?_⟩
  · rw [grows.chain_eq id inside]
    exact mem
  · exact grows.claims_subset other (shaped.chain_lt id inside other mem) claim held

end Grows

theorem grows_addLevel
    (tree : NameTree)
    (home parent : LevelId)
    (isFunction : Bool) :
    Grows home tree (tree.addLevel parent isFunction) := by
  have old (id : LevelId) (inside : id < tree.levels.size) :
      (tree.addLevel parent isFunction).level id = tree.level id := by
    rw [level_addLevel, if_neg (Nat.ne_of_lt inside)]
  refine ⟨by rw [size_addLevel]; exact Nat.le_succ _, ?_, ?_, ?_, ?_⟩
  · intro id inside
    rw [old id inside]
  · intro id inside
    rw [old id inside]
  · intro id inside _
    rw [old id inside]
  · intro id inside claim held
    rw [old id inside]
    exact held

theorem grows_claim
    (tree : NameTree)
    (inside : home < tree.levels.size)
    (var : VarId)
    (name : String) :
    Grows home tree (tree.claim home var name) := by
  refine ⟨by rw [size_claim], ?_, ?_, ?_, ?_⟩
  · intro id _
    rw [level_claim tree var name inside]
    split <;> rfl
  · intro id _
    rw [level_claim tree var name inside]
    split <;> rfl
  · intro id _ different
    rw [level_claim tree var name inside, if_neg different]
  · intro id _ claim held
    rw [level_claim tree var name inside]
    split
    · exact List.mem_cons_of_mem _ held
    · exact held

theorem mem_visibleClaims_claim
    {tree : NameTree}
    (inside : home < tree.levels.size)
    (held : claim ∈ (tree.claim home var name).visibleClaims id) :
    claim = (var, name) ∨ claim ∈ tree.visibleClaims id := by
  obtain ⟨other, mem, held⟩ := mem_visibleClaims.mp held
  have chain_eq : ((tree.claim home var name).level id).chain = (tree.level id).chain := by
    rw [level_claim tree var name inside]
    split <;> rfl
  rw [chain_eq] at mem
  rw [level_claim tree var name inside] at held
  split at held
  · rcases List.mem_cons.mp held with same | earlier
    · exact .inl same
    · exact .inr (mem_visibleClaims.mpr ⟨other, mem, earlier⟩)
  · exact .inr (mem_visibleClaims.mpr ⟨other, mem, held⟩)

end NameTree

/-! ## Renamed variables -/

variable {arena : Arena}

namespace Arena

theorem name_rename_self
    (inside : var < arena.size)
    (name : String) :
    (arena.rename var name).name var = name := by
  rw [Arena.name, rename, get_modify, if_pos ⟨rfl, inside⟩]

theorem name_rename_of_ne
    {var other : VarId}
    (different : other ≠ var)
    (name : String) :
    (arena.rename var name).name other = arena.name other := by
  rw [Arena.name, rename, get_modify, if_neg fun same => different same.1.symm, Arena.name]

@[simp] theorem size_rename
    (arena : Arena)
    (var : VarId)
    (name : String) :
    (arena.rename var name).size = arena.size := by
  simp [rename]

end Arena

/-! ## Names of declarations -/

/-- Every search for a name ends: with numbers, no name that may change begins
like those of the stages, and the word before the underscore names at most one
of two declarations that see each other. -/
def Site.SearchesEnd
    (naming : Naming)
    (sites : List Site) : Prop :=
  naming = .readable ->
    (∀ site ∈ sites, site.keeps = false -> isStageName site.name = false) ∧
      sites.Pairwise fun first second =>
        first.name = "gl" -> second.name = "gl" ->
          first.keeps = false ∧ second.keeps = false ∧ ¬first.functions <+: second.functions

instance (naming : Naming) (sites : List Site) : Decidable (Site.SearchesEnd naming sites) :=
  inferInstanceAs (Decidable (_ -> _))

namespace FinalNames

/-- What has to hold of the declarations before they get their names. -/
structure Plan
    (naming : Naming)
    (reserved : List String)
    (size : Nat)
    (all : List Site) : Prop where
  /-- No variable is declared twice. -/
  nodup : (all.map Site.var).Nodup
  /-- The variables exist. -/
  inside : ∀ site ∈ all, site.var < size
  /-- The searches for names end. -/
  ends : Site.SearchesEnd naming all
  /-- The word before the underscore is not reserved. -/
  free : "gl" ∉ reserved
  /-- Names that are kept differ. -/
  kept : ∀ first ∈ all, ∀ second ∈ all, first.keeps = true -> second.keeps = true ->
    first.var ≠ second.var -> first.name ≠ second.name

/-- What holds of the names of declarations once some of them have their final
ones. -/
structure Names
    (naming : Naming)
    (reserved : List String)
    (all done : List Site)
    (arena : Arena) : Prop where
  /-- Other names are those of the source. -/
  untouched : ∀ site ∈ all, site.keeps = true ∨ site.var ∉ done.map Site.var ->
    arena.name site.var = site.name
  /-- A chosen name is a candidate and may be chosen. -/
  chosen : ∀ site ∈ done, site.keeps = false ->
    (∃ index, arena.name site.var = candidate naming site.name index) ∧
      arena.name site.var ∉ reserved ∧ isStageName (arena.name site.var) = false
  /-- Names of declarations that see each other differ. -/
  distinct : done.Pairwise fun first second =>
    first.functions <+: second.functions -> arena.name first.var ≠ arena.name second.var
  /-- Names differ from those that are kept. -/
  distinctKept : ∀ first ∈ all, first.keeps = true -> ∀ second ∈ done,
    first.var ≠ second.var -> arena.name first.var ≠ arena.name second.var

variable {naming : Naming} {reserved : List String} {size : Nat} {all done rest : List Site}
variable {site : Site}

section

variable (plan : Plan naming reserved size all)
include plan

theorem Plan.fresh (parts : all = done ++ site :: rest) :
    site.var ∉ done.map Site.var := by
  have nodup := plan.nodup
  rw [parts, List.map_append, List.map_cons] at nodup
  intro mem
  exact (List.nodup_append.mp nodup).2.2 _ mem _ List.mem_cons_self rfl

theorem Plan.eq_of_var_eq
    {first second : Site}
    (isFirst : first ∈ all)
    (isSecond : second ∈ all)
    (same : first.var = second.var) :
    first = second :=
  List.inj_on_of_nodup_map plan.nodup isFirst isSecond same

theorem Names.keep
    (names : Names naming reserved all done arena)
    (parts : all = done ++ site :: rest)
    (keeps : site.keeps = true) :
    Names naming reserved all (done ++ [site]) arena := by
  have fresh := plan.fresh parts
  have isSite : site ∈ all := by simp [parts]
  refine ⟨?_, ?_, ?_, ?_⟩
  · intro other isOther untouched
    refine names.untouched other isOther (untouched.imp_right fun absent mem => absent ?_)
    rw [List.map_append]
    exact List.mem_append_left _ mem
  · intro other mem changes
    rcases List.mem_append.mp mem with earlier | same
    · exact names.chosen other earlier changes
    · rw [List.mem_singleton.mp same, keeps] at changes
      cases changes
  · refine List.pairwise_append.mpr ⟨names.distinct, List.pairwise_singleton _ _, ?_⟩
    intro first isFirst second isSecond _
    rw [List.mem_singleton.mp isSecond]
    refine (names.distinctKept site isSite keeps first isFirst fun same => fresh ?_).symm
    exact List.mem_map.mpr ⟨first, isFirst, same.symm⟩
  · intro first isFirst firstKeeps second mem different
    rcases List.mem_append.mp mem with earlier | same
    · exact names.distinctKept first isFirst firstKeeps second earlier different
    · rw [List.mem_singleton.mp same] at different ⊢
      rw [names.untouched first isFirst (.inl firstKeeps),
        names.untouched site isSite (.inl keeps)]
      exact plan.kept first isFirst site isSite firstKeeps keeps different

/-- A declaration that gets a new name. -/
theorem Names.rename
    (inArena : site.var < arena.size)
    (names : Names naming reserved all done arena)
    (parts : all = done ++ site :: rest)
    (changes : site.keeps = false)
    (isCandidate : ∃ index, name = candidate naming site.name index)
    (unreserved : name ∉ reserved)
    (noStageName : isStageName name = false)
    (unseen : ∀ other ∈ done, other.functions <+: site.functions -> arena.name other.var ≠ name)
    (unkept : ∀ other ∈ all, other.keeps = true -> arena.name other.var ≠ name) :
    Names naming reserved all (done ++ [site]) (arena.rename site.var name) := by
  have fresh := plan.fresh parts
  have isSite : site ∈ all := by simp [parts]
  have renamed : (arena.rename site.var name).name site.var = name :=
    Arena.name_rename_self inArena name
  have other_eq {other : Site} (mem : other ∈ done) :
      (arena.rename site.var name).name other.var = arena.name other.var := by
    refine Arena.name_rename_of_ne (fun same => fresh ?_) name
    rw [← same]
    exact List.mem_map_of_mem mem
  have kept_eq {other : Site} (isOther : other ∈ all) (keeps : other.keeps = true) :
      (arena.rename site.var name).name other.var = arena.name other.var := by
    refine Arena.name_rename_of_ne (fun same => ?_) name
    rw [plan.eq_of_var_eq isOther isSite same, changes] at keeps
    cases keeps
  refine ⟨?_, ?_, ?_, ?_⟩
  · intro other isOther untouched
    rcases untouched with keeps | absent
    · rw [kept_eq isOther keeps]
      exact names.untouched other isOther (.inl keeps)
    · rw [List.map_append, List.mem_append, not_or] at absent
      have different : other.var ≠ site.var := fun same => absent.2 (by simp [same])
      rw [Arena.name_rename_of_ne different]
      exact names.untouched other isOther (.inr absent.1)
  · intro other mem otherChanges
    rcases List.mem_append.mp mem with earlier | same
    · rw [other_eq earlier]
      exact names.chosen other earlier otherChanges
    · rw [List.mem_singleton.mp same, renamed]
      exact ⟨isCandidate, unreserved, noStageName⟩
  · refine List.pairwise_append.mpr ⟨?_, List.pairwise_singleton _ _, ?_⟩
    · refine names.distinct.imp_of_mem fun isFirst isSecond differ seen => ?_
      rw [other_eq isFirst, other_eq isSecond]
      exact differ seen
    · intro first isFirst second isSecond seen
      rw [List.mem_singleton.mp isSecond] at seen ⊢
      rw [other_eq isFirst, renamed]
      exact unseen first isFirst seen
  · intro first isFirst firstKeeps second mem different
    rw [kept_eq isFirst firstKeeps]
    rcases List.mem_append.mp mem with earlier | same
    · rw [other_eq earlier]
      exact names.distinctKept first isFirst firstKeeps second earlier different
    · rw [List.mem_singleton.mp same, renamed]
      exact unkept first isFirst firstKeeps

end

/-! ## Claims of declarations -/

/-- What holds of the claims while a function is open at a level of the tree. -/
structure Claims
    (all done : List Site)
    (path : List VarId)
    (home : LevelId)
    (state : State) : Prop where
  /-- The levels hang together. -/
  shaped : state.tree.Shaped
  /-- The function has a level. -/
  home_lt : home < state.tree.levels.size
  /-- The level is the root or that of a function. -/
  isHome : home = NameTree.root ∨ (state.tree.level home).isFunction = true
  /-- A claim holds the current name of a declaration. -/
  claimed : ∀ id, ∀ claim ∈ (state.tree.level id).claims,
    state.arena.name claim.1 = claim.2 ∧
      ∃ site ∈ all, site.var = claim.1 ∧ (site.keeps = true ∨ site ∈ done)
  /-- Names that are kept are claimed at the root. -/
  kept : ∀ site ∈ all, site.keeps = true ->
    (site.var, site.name) ∈ (state.tree.level NameTree.root).claims
  /-- Declarations that the function sees have a visible claim. -/
  visible : ∀ site ∈ done, site.functions <+: path ->
    ∃ name, (site.var, name) ∈ state.tree.visibleClaims home
  /-- Visible claims are those of declarations that the function sees, and of
  names that are kept. -/
  origin : ∀ claim ∈ state.tree.visibleClaims home,
    ∃ site ∈ all, site.var = claim.1 ∧
      (site.keeps = true ∨ site ∈ done ∧ site.functions <+: path)
  /-- The functions around a declaration come before it. -/
  nested : ∀ site ∈ done, ∀ function ∈ site.functions, function ∈ done.map Site.var
  /-- The open functions are declared. -/
  declared : ∀ function ∈ path, function ∈ done.map Site.var

/-- What holds while names are given. -/
structure Settled
    (naming : Naming)
    (reserved : List String)
    (size : Nat)
    (all done : List Site)
    (path : List VarId)
    (home : LevelId)
    (state : State) : Prop where
  /-- The way of choosing names stays. -/
  naming_eq : state.tree.naming = naming
  /-- The reserved names stay. -/
  reserved_eq : state.tree.reserved = reserved
  /-- The number of variables stays. -/
  size_eq : state.arena.size = size
  /-- The names are as they should be. -/
  names : Names naming reserved all done state.arena
  /-- The claims are as they should be. -/
  claims : Claims all done path home state

variable {path : List VarId} {state : State}

section Claims

variable {level : LevelId}

section

variable (claims : Claims all done path home state)
include claims

/-- Claims at the root are visible everywhere. -/
theorem Claims.kept_visible
    (isSite : site ∈ all)
    (keeps : site.keeps = true)
    (inside : level < state.tree.levels.size) :
    (site.var, site.name) ∈ state.tree.visibleClaims level :=
  NameTree.mem_visibleClaims.mpr
    ⟨_, claims.shaped.root_mem level inside, claims.kept site isSite keeps⟩

/-- A visible claim holds the current name. -/
theorem Claims.name_of_visible (held : claim ∈ state.tree.visibleClaims home) :
    state.arena.name claim.1 = claim.2 := by
  obtain ⟨id, _, held⟩ := NameTree.mem_visibleClaims.mp held
  exact (claims.claimed id claim held).1

/-- A declaration that keeps its name is visible from the start. -/
theorem Claims.keep
    (isSite : site ∈ all)
    (keeps : site.keeps = true)
    (path_eq : site.functions = path) :
    Claims all (done ++ [site]) path home state := by
  have earlier {other : Site} (mem : other ∈ done) : other ∈ done ++ [site] :=
    List.mem_append_left _ mem
  have earlierVar {var : VarId} (mem : var ∈ done.map Site.var) :
      var ∈ (done ++ [site]).map Site.var := by
    rw [List.map_append]
    exact List.mem_append_left _ mem
  refine { claims with
    claimed := ?_, visible := ?_, origin := ?_, nested := ?_, declared := ?_ }
  · intro id claim held
    obtain ⟨name_eq, other, isOther, var_eq, cause⟩ := claims.claimed id claim held
    exact ⟨name_eq, other, isOther, var_eq, cause.imp_right earlier⟩
  · intro other mem seen
    rcases List.mem_append.mp mem with isDone | same
    · exact claims.visible other isDone seen
    · rw [List.mem_singleton.mp same]
      exact ⟨_, claims.kept_visible isSite keeps claims.home_lt⟩
  · intro claim held
    obtain ⟨other, isOther, var_eq, cause⟩ := claims.origin claim held
    exact ⟨other, isOther, var_eq, cause.imp_right fun seen => ⟨earlier seen.1, seen.2⟩⟩
  · intro other mem function inside
    rcases List.mem_append.mp mem with isDone | same
    · exact earlierVar (claims.nested other isDone function inside)
    · rw [List.mem_singleton.mp same, path_eq] at inside
      exact earlierVar (claims.declared function inside)
  · intro function inside
    exact earlierVar (claims.declared function inside)

/-- A declaration that claims a new name at the level of its function. -/
theorem Claims.rename
    (isSite : site ∈ all)
    (fresh : site.var ∉ done.map Site.var)
    (changes : ∀ other ∈ all, other.var = site.var -> other.keeps = false)
    (inArena : site.var < state.arena.size)
    (path_eq : site.functions = path)
    (name : String) :
    Claims all (done ++ [site]) path home
      { tree := state.tree.claim home site.var name
        arena := state.arena.rename site.var name } := by
  have grows := state.tree.grows_claim claims.home_lt site.var name
  have earlier {other : Site} (mem : other ∈ done) : other ∈ done ++ [site] :=
    List.mem_append_left _ mem
  have earlierVar {var : VarId} (mem : var ∈ done.map Site.var) :
      var ∈ (done ++ [site]).map Site.var := by
    rw [List.map_append]
    exact List.mem_append_left _ mem
  have own : (site.var, name) ∈ (state.tree.claim home site.var name).visibleClaims home := by
    refine NameTree.mem_visibleClaims.mpr ⟨home, ?_, ?_⟩
    · rw [grows.chain_eq home claims.home_lt]
      exact claims.shaped.self_mem home claims.home_lt
    · rw [NameTree.level_claim _ _ _ claims.home_lt, if_pos rfl]
      exact List.mem_cons_self
  refine ⟨claims.shaped.claim claims.home_lt claims.isHome _ _, ?_, ?_, ?_, ?_, ?_, ?_, ?_, ?_⟩
  · rw [NameTree.size_claim]
    exact claims.home_lt
  · rw [grows.isFunction_eq home claims.home_lt]
    exact claims.isHome
  · intro id claim held
    have old : claim ∈ (state.tree.level id).claims ->
        (state.arena.rename site.var name).name claim.1 = claim.2 ∧
          ∃ other ∈ all, other.var = claim.1 ∧ (other.keeps = true ∨ other ∈ done ++ [site]) := by
      intro held
      obtain ⟨name_eq, other, isOther, var_eq, cause⟩ := claims.claimed id claim held
      have different : claim.1 ≠ site.var := by
        intro same
        rcases cause with keeps | isDone
        · rw [changes other isOther (var_eq.trans same)] at keeps
          cases keeps
        · exact fresh (List.mem_map.mpr ⟨other, isDone, var_eq.trans same⟩)
      rw [Arena.name_rename_of_ne different]
      exact ⟨name_eq, other, isOther, var_eq, cause.imp_right earlier⟩
    rw [NameTree.level_claim _ _ _ claims.home_lt] at held
    split at held
    · rcases List.mem_cons.mp held with rfl | held
      · exact ⟨Arena.name_rename_self inArena name, site, isSite, rfl,
          .inr (List.mem_append_right _ (List.mem_singleton_self site))⟩
      · exact old held
    · exact old held
  · intro other isOther keeps
    exact grows.claims_subset _ claims.shaped.root_lt _ (claims.kept other isOther keeps)
  · intro other mem seen
    rcases List.mem_append.mp mem with isDone | same
    · obtain ⟨held, isVisible⟩ := claims.visible other isDone seen
      exact ⟨held, grows.visibleClaims_subset claims.shaped claims.home_lt isVisible⟩
    · rw [List.mem_singleton.mp same]
      exact ⟨name, own⟩
  · intro claim held
    rcases NameTree.mem_visibleClaims_claim claims.home_lt held with rfl | held
    · refine ⟨site, isSite, rfl, .inr ⟨?_, ?_⟩⟩
      · exact List.mem_append_right _ (List.mem_singleton_self site)
      · exact path_eq ▸ List.prefix_rfl
    · obtain ⟨other, isOther, var_eq, cause⟩ := claims.origin claim held
      exact ⟨other, isOther, var_eq, cause.imp_right fun seen => ⟨earlier seen.1, seen.2⟩⟩
  · intro other mem function inside
    rcases List.mem_append.mp mem with isDone | same
    · exact earlierVar (claims.nested other isDone function inside)
    · rw [List.mem_singleton.mp same, path_eq] at inside
      exact earlierVar (claims.declared function inside)
  · intro function inside
    exact earlierVar (claims.declared function inside)

end

end Claims

/-! ## A single declaration -/

section Assign

variable {level : LevelId}

/-- The word before the underscore is not claimed where a declaration of that
name looks for its own. -/
theorem Settled.gl_unclaimed
    (plan : Plan .readable reserved size all)
    (settled : Settled .readable reserved size all done path home state)
    (parts : all = done ++ site :: rest)
    (path_eq : site.functions = path)
    (changes : site.keeps = false)
    (name_eq : site.name = "gl") :
    ∀ var, (var, "gl") ∉ state.tree.visibleClaims home := by
  intro var held
  have current := settled.claims.name_of_visible held
  obtain ⟨other, isOther, rfl, cause⟩ := settled.claims.origin _ held
  have apart := (plan.ends rfl).2
  have different : other.keeps = true -> other ≠ site := by
    rintro keeps rfl
    rw [changes] at keeps
    cases keeps
  have notKept : other.keeps = true -> False := by
    intro keeps
    have other_gl : other.name = "gl" := by
      rw [← settled.names.untouched other isOther (.inl keeps)]
      exact current
    rw [parts] at isOther apart
    obtain ⟨_, later, early⟩ := List.pairwise_append.mp apart
    rcases List.mem_append.mp isOther with isDone | isRest
    · rw [(early other isDone site List.mem_cons_self other_gl name_eq).1] at keeps
      cases keeps
    · rcases List.mem_cons.mp isRest with same | isLater
      · exact different keeps same
      · rw [((List.pairwise_cons.mp later).1 other isLater name_eq other_gl).2.1] at keeps
        cases keeps
  rcases cause with keeps | ⟨isDone, seen⟩
  · exact notKept keeps
  · cases keeps : other.keeps with
    | true => exact notKept keeps
    | false =>
        obtain ⟨⟨index, chosen⟩, _, _⟩ := settled.names.chosen other isDone keeps
        rw [current] at chosen
        have other_gl : other.name = "gl" := by
          cases index with
          | zero => exact chosen.symm
          | succ index =>
              have letters := congrArg String.toList chosen
              rw [candidate_readable_succ, String.toList_append, String.toList_append] at letters
              have mem : '_' ∈ "gl".toList := by
                rw [letters]
                simp
              exact absurd mem (by decide)
        rw [parts] at apart
        have early := (List.pairwise_append.mp apart).2.2
        refine (early other isDone site List.mem_cons_self other_gl name_eq).2.2 ?_
        rw [path_eq]
        exact seen

section

variable (plan : Plan naming reserved size all)
variable (settled : Settled naming reserved size all done path home state)
variable (inside : level < state.tree.levels.size) (home_eq : state.tree.functionLevel level = home)
variable (parts : all = done ++ site :: rest) (path_eq : site.functions = path)
include plan settled inside home_eq parts path_eq

/-- The search for the name of a declaration ends. -/
theorem Settled.freeName?_ne_none (changes : site.keeps = false) :
    state.tree.freeName? level site.name ≠ none := by
  have isSite : site ∈ all := by simp [parts]
  by_cases isGl : naming = .readable ∧ site.name = "gl"
  · obtain ⟨rfl, name_eq⟩ := isGl
    intro failed
    have refused := NameTree.freeName?_eq_none failed 0 (Nat.zero_le _)
    rw [settled.naming_eq, name_eq, Bool.eq_false_iff, Ne,
      settled.claims.shaped.isFree_iff inside, home_eq, settled.reserved_eq] at refused
    exact refused ⟨plan.free, by decide,
      settled.gl_unclaimed plan parts path_eq changes name_eq⟩
  · refine settled.claims.shaped.freeName?_ne_none inside fun index => ?_
    rw [settled.naming_eq]
    refine isStageName_candidate fun isReadable => ⟨?_, fun same => isGl ⟨isReadable, same⟩⟩
    exact (plan.ends isReadable).1 site isSite changes

theorem Settled.assign :
    Settled naming reserved size all (done ++ [site]) path home
        { tree := (state.tree.assign state.arena level site.var).1
          arena := (state.tree.assign state.arena level site.var).2 } ∧
      state.tree.Grows home (state.tree.assign state.arena level site.var).1 := by
  have isSite : site ∈ all := by simp [parts]
  have claims := settled.claims
  cases keeps : site.keeps with
  | true =>
      have known : state.tree.hasVar level site.var = true :=
        NameTree.hasVar_iff.mpr ⟨_, claims.kept_visible isSite keeps inside⟩
      rw [NameTree.assign, if_pos known]
      refine ⟨{ settled with names := ?_, claims := ?_ }, .refl _⟩
      · exact settled.names.keep plan parts keeps
      · exact claims.keep isSite keeps path_eq
  | false =>
      have fresh := plan.fresh parts
      have changes : ∀ other ∈ all, other.var = site.var -> other.keeps = false := by
        intro other isOther same
        rw [plan.eq_of_var_eq isOther isSite same, keeps]
      have unknown : state.tree.hasVar level site.var = false := by
        rw [Bool.eq_false_iff, Ne, NameTree.hasVar_iff]
        rintro ⟨name, held⟩
        obtain ⟨id, _, held⟩ := NameTree.mem_visibleClaims.mp held
        obtain ⟨_, other, isOther, var_eq, cause⟩ := claims.claimed id _ held
        rcases cause with otherKeeps | isDone
        · rw [changes other isOther var_eq] at otherKeeps
          cases otherKeeps
        · exact fresh (List.mem_map.mpr ⟨other, isDone, var_eq⟩)
      have name_eq : state.arena.name site.var = site.name :=
        settled.names.untouched site isSite (.inr fresh)
      obtain ⟨name, found⟩ := Option.ne_none_iff_exists'.mp
        (settled.freeName?_ne_none plan inside home_eq parts path_eq keeps)
      obtain ⟨isFree, isCandidate⟩ := NameTree.freeName?_eq_some found
      rw [claims.shaped.isFree_iff inside, home_eq, settled.reserved_eq] at isFree
      obtain ⟨unreserved, noStageName, unclaimed⟩ := isFree
      rw [settled.naming_eq] at isCandidate
      have inArena : site.var < state.arena.size := by
        rw [settled.size_eq]
        exact plan.inside site isSite
      rw [NameTree.assign, if_neg (by simp [unknown]), name_eq, found, home_eq]
      refine ⟨⟨settled.naming_eq, settled.reserved_eq, ?_, ?_, ?_⟩,
        state.tree.grows_claim claims.home_lt _ _⟩
      · rw [Arena.size_rename]
        exact settled.size_eq
      · refine settled.names.rename plan inArena parts keeps isCandidate unreserved
          noStageName ?_ ?_
        · intro other isDone seen same
          rw [path_eq] at seen
          obtain ⟨held, isVisible⟩ := claims.visible other isDone seen
          have current := claims.name_of_visible isVisible
          exact unclaimed other.var ((current.symm.trans same) ▸ isVisible)
        · intro other isOther otherKeeps same
          have isVisible := claims.kept_visible isOther otherKeeps claims.home_lt
          rw [settled.names.untouched other isOther (.inl otherKeeps)] at same
          exact unclaimed other.var (same ▸ isVisible)
      · exact claims.rename isSite fresh changes inArena path_eq name

end

end Assign

end FinalNames

end ModularGlsl
