import Mathlib.Data.List.Find
import Mathlib.Data.List.Perm.Subperm
import ModularGlsl.Proofs.Naming.Candidate

/-!
# Levels and claims

The chain of a level lists the levels from it to the root, so that all claims
that are visible at a level of the chain are visible at the level itself.  Names
are claimed at the root and at levels of functions only.  A search for a name
ends with one that no visible claim holds.
-/

namespace ModularGlsl
namespace NameTree

/-! ## Levels -/

theorem level_addLevel
    (tree : NameTree)
    (parent id : LevelId)
    (isFunction : Bool) :
    (tree.addLevel parent isFunction).level id =
      if id = tree.levels.size then
        { isFunction := isFunction, chain := tree.levels.size :: (tree.level parent).chain }
      else tree.level id := by
  simp only [level, addLevel, Array.getD_eq_getD_getElem?, Array.getElem?_push]
  split
  · rfl
  · rfl

variable {home id parent : LevelId}

theorem level_claim
    (tree : NameTree)
    (var : VarId)
    (name : String)
    (inside : home < tree.levels.size) :
    (tree.claim home var name).level id =
      if id = home then
        { tree.level id with claims := (var, name) :: (tree.level id).claims }
      else tree.level id := by
  simp only [level, claim, Array.getD_eq_getD_getElem?, Array.getElem?_modify]
  by_cases same : home = id
  · subst same
    simp [inside]
  · simp [same, Ne.symm same]

/-! ## Functions -/

variable {tree : NameTree}

/-- Levels of the tree keep their function while the levels on their chain stay
functions and blocks. -/
theorem functionLevel_eq_of_forall
    {tree after : NameTree}
    (chain_eq : (after.level id).chain = (tree.level id).chain)
    (same : ∀ other ∈ (tree.level id).chain,
      (after.level other).isFunction = (tree.level other).isFunction) :
    after.functionLevel id = tree.functionLevel id := by
  unfold functionLevel
  rw [chain_eq]
  congr 1
  exact List.find?_congr same

theorem functionLevel_addLevel_true
    (tree : NameTree)
    (parent : LevelId) :
    (tree.addLevel parent true).functionLevel tree.levels.size = tree.levels.size := by
  unfold functionLevel
  simp only [List.find?_cons, level_addLevel, if_pos]
  rfl

/-- A new block belongs to the function around it. -/
theorem functionLevel_addLevel_false
    (inside : ∀ other ∈ (tree.level parent).chain, other < tree.levels.size) :
    (tree.addLevel parent false).functionLevel tree.levels.size = tree.functionLevel parent := by
  unfold functionLevel
  simp only [List.find?_cons, level_addLevel, if_pos]
  congr 1
  apply List.find?_congr
  intro other mem
  rw [if_neg (Nat.ne_of_lt (inside other mem))]

/-! ## Shape -/

/-- The chains of a tree lead from its levels to the root. -/
structure Linked (tree : NameTree) : Prop where
  /-- There is a root. -/
  root_lt : root < tree.levels.size
  /-- Every chain ends at the root. -/
  root_mem : ∀ id, id < tree.levels.size -> root ∈ (tree.level id).chain
  /-- Every chain starts at its level. -/
  self_mem : ∀ id, id < tree.levels.size -> id ∈ (tree.level id).chain
  /-- Chains list levels of the tree. -/
  chain_lt : ∀ id, id < tree.levels.size -> ∀ other ∈ (tree.level id).chain,
    other < tree.levels.size
  /-- The chain of a level holds the chains of its levels. -/
  chain_subset : ∀ id, id < tree.levels.size -> ∀ other ∈ (tree.level id).chain,
    ∀ further ∈ (tree.level other).chain, further ∈ (tree.level id).chain

/-- How the levels of a tree hang together if names are only claimed at the root and for
functions. -/
structure Shaped (tree : NameTree) : Prop extends tree.Linked where
  /-- Between a level and its function there are only blocks. -/
  chain_function : ∀ id, id < tree.levels.size -> ∀ other ∈ (tree.level id).chain,
    other ∈ (tree.level (tree.functionLevel id)).chain ∨
      (tree.level other).isFunction = false ∧ other ≠ root
  /-- Blocks hold no claims. -/
  claims_eq_nil : ∀ id, id < tree.levels.size -> (tree.level id).isFunction = false ->
    id ≠ root -> (tree.level id).claims = []

/-- The function of a level is the root or a function, on the chain of the
level. -/
theorem Linked.functionLevel_spec
    (linked : tree.Linked)
    (inside : id < tree.levels.size) :
    tree.functionLevel id ∈ (tree.level id).chain ∧
      (tree.functionLevel id = root ∨ (tree.level (tree.functionLevel id)).isFunction = true) := by
  unfold functionLevel
  cases found : (tree.level id).chain.find? fun other => (tree.level other).isFunction with
  | none => exact ⟨linked.root_mem id inside, .inl rfl⟩
  | some other =>
      have isFunction := List.find?_some found
      exact ⟨List.mem_of_find?_eq_some found, .inr isFunction⟩

theorem Linked.functionLevel_lt
    (linked : tree.Linked)
    (inside : id < tree.levels.size) :
    tree.functionLevel id < tree.levels.size :=
  linked.chain_lt id inside _ (linked.functionLevel_spec inside).1

/-- A tree with only a root, and claims there. -/
def ofClaims
    (naming : Naming)
    (reserved : List String)
    (claims : List (VarId × String)) : NameTree :=
  { naming := naming, reserved := reserved, levels := #[{ chain := [root], claims := claims }] }

section OfClaims

variable {naming : Naming} {reserved : List String} {claims : List (VarId × String)}

@[simp] theorem visibleClaims_ofClaims :
    (ofClaims naming reserved claims).visibleClaims root = claims := by
  simp [visibleClaims, chain, ofClaims, level, root]

theorem claim_ofClaims
    (var : VarId)
    (name : String) :
    (ofClaims naming reserved claims).claim root var name =
      ofClaims naming reserved ((var, name) :: claims) := by
  rfl

/-- A tree with only a root has the right shape. -/
theorem shaped_ofClaims : (ofClaims naming reserved claims).Shaped := by
  have only (id : LevelId) (inside : id < (ofClaims naming reserved claims).levels.size) :
      id = root := by
    simp [ofClaims] at inside
    exact inside
  have chain_eq : ((ofClaims naming reserved claims).level root).chain = [root] := rfl
  refine ⟨⟨by simp [ofClaims, root], ?_, ?_, ?_, ?_⟩, ?_, ?_⟩
  · intro id inside
    rw [only id inside, chain_eq]
    simp
  · intro id inside
    rw [only id inside, chain_eq]
    simp
  · intro id inside other mem
    rw [only id inside, chain_eq] at mem
    rw [List.mem_singleton.mp mem]
    simp [ofClaims, root]
  · intro id inside other mem further later
    rw [only id inside, chain_eq] at mem ⊢
    rw [List.mem_singleton.mp mem, chain_eq] at later
    exact later
  · intro id inside other mem
    rw [only id inside, chain_eq] at mem
    have function_eq : (ofClaims naming reserved claims).functionLevel root = root := rfl
    rw [only id inside, List.mem_singleton.mp mem, function_eq, chain_eq]
    exact .inl List.mem_cons_self
  · intro id inside _ different
    exact absurd (only id inside) different

end OfClaims

section AddLevel

variable {isFunction : Bool}

theorem level_addLevel_of_lt (known : id < tree.levels.size) :
    (tree.addLevel parent isFunction).level id = tree.level id := by
  rw [level_addLevel, if_neg (Nat.ne_of_lt known)]

theorem level_addLevel_size :
    (tree.addLevel parent isFunction).level tree.levels.size =
      { isFunction := isFunction, chain := tree.levels.size :: (tree.level parent).chain } := by
  rw [level_addLevel, if_pos rfl]

theorem lt_or_eq_of_lt_addLevel (known : id < (tree.addLevel parent isFunction).levels.size) :
    id < tree.levels.size ∨ id = tree.levels.size := by
  rw [size_addLevel] at known
  exact Nat.lt_succ_iff_lt_or_eq.mp known

theorem Linked.addLevel
    (linked : tree.Linked)
    (inside : parent < tree.levels.size) :
    (tree.addLevel parent isFunction).Linked := by
  refine ⟨?_, ?_, ?_, ?_, ?_⟩
  · rw [size_addLevel]
    exact Nat.lt_succ_of_lt linked.root_lt
  · intro id known
    rcases lt_or_eq_of_lt_addLevel known with earlier | rfl
    · rw [level_addLevel_of_lt earlier]
      exact linked.root_mem id earlier
    · rw [level_addLevel_size]
      exact List.mem_cons_of_mem _ (linked.root_mem parent inside)
  · intro id known
    rcases lt_or_eq_of_lt_addLevel known with earlier | rfl
    · rw [level_addLevel_of_lt earlier]
      exact linked.self_mem id earlier
    · rw [level_addLevel_size]
      exact List.mem_cons_self
  · intro id known other mem
    rw [size_addLevel]
    rcases lt_or_eq_of_lt_addLevel known with earlier | rfl
    · rw [level_addLevel_of_lt earlier] at mem
      exact Nat.lt_succ_of_lt (linked.chain_lt id earlier other mem)
    · rw [level_addLevel_size] at mem
      rcases List.mem_cons.mp mem with rfl | later
      · exact Nat.lt_succ_self _
      · exact Nat.lt_succ_of_lt (linked.chain_lt parent inside other later)
  · intro id known other mem further later
    rcases lt_or_eq_of_lt_addLevel known with earlier | rfl
    · rw [level_addLevel_of_lt earlier] at mem ⊢
      rw [level_addLevel_of_lt (linked.chain_lt id earlier other mem)] at later
      exact linked.chain_subset id earlier other mem further later
    · rw [level_addLevel_size] at mem ⊢
      rcases List.mem_cons.mp mem with rfl | inParent
      · rw [level_addLevel_size] at later
        exact later
      · rw [level_addLevel_of_lt (linked.chain_lt parent inside other inParent)] at later
        exact List.mem_cons_of_mem _ (linked.chain_subset parent inside other inParent _ later)

theorem Shaped.addLevel
    (shaped : tree.Shaped)
    (inside : parent < tree.levels.size)
    (isFunction : Bool) :
    (tree.addLevel parent isFunction).Shaped := by
  refine ⟨shaped.toLinked.addLevel inside, fun id known other mem => ?_,
    fun id known isBlock different => ?_⟩
  · rcases lt_or_eq_of_lt_addLevel known with earlier | rfl
    · have function_eq : (tree.addLevel parent isFunction).functionLevel id =
          tree.functionLevel id := by
        refine functionLevel_eq_of_forall (by rw [level_addLevel_of_lt earlier])
          fun further later => ?_
        rw [level_addLevel_of_lt (shaped.chain_lt id earlier further later)]
      rw [level_addLevel_of_lt earlier] at mem
      rw [function_eq, level_addLevel_of_lt (shaped.functionLevel_lt earlier),
        level_addLevel_of_lt (shaped.chain_lt id earlier other mem)]
      exact shaped.chain_function id earlier other mem
    · cases isFunction with
      | true =>
          rw [functionLevel_addLevel_true]
          exact .inl mem
      | false =>
          rw [functionLevel_addLevel_false (shaped.chain_lt parent inside),
            level_addLevel_of_lt (shaped.functionLevel_lt inside)]
          rw [level_addLevel_size] at mem
          rcases List.mem_cons.mp mem with rfl | inParent
          · rw [level_addLevel_size]
            exact .inr ⟨rfl, Nat.ne_of_gt shaped.root_lt⟩
          · rw [level_addLevel_of_lt (shaped.chain_lt parent inside other inParent)]
            exact shaped.chain_function parent inside other inParent
  · rcases lt_or_eq_of_lt_addLevel known with earlier | rfl
    · rw [level_addLevel_of_lt earlier] at isBlock ⊢
      exact shaped.claims_eq_nil id earlier isBlock different
    · rw [level_addLevel_size]

end AddLevel

theorem chain_level_claim
    (inside : home < tree.levels.size)
    (var : VarId)
    (name : String) :
    ((tree.claim home var name).level id).chain = (tree.level id).chain := by
  rw [level_claim tree var name inside]
  split <;> rfl

theorem Linked.claim
    (linked : tree.Linked)
    (inside : home < tree.levels.size)
    (var : VarId)
    (name : String) :
    (tree.claim home var name).Linked := by
  refine ⟨?_, ?_, ?_, ?_, ?_⟩
  all_goals simp only [size_claim, chain_level_claim inside]
  · exact linked.root_lt
  · exact linked.root_mem
  · exact linked.self_mem
  · exact linked.chain_lt
  · exact linked.chain_subset

theorem Shaped.claim
    (shaped : tree.Shaped)
    (inside : home < tree.levels.size)
    (isHome : home = root ∨ (tree.level home).isFunction = true)
    (var : VarId)
    (name : String) :
    (tree.claim home var name).Shaped := by
  have isFunction_eq (id : LevelId) :
      ((tree.claim home var name).level id).isFunction = (tree.level id).isFunction := by
    rw [level_claim tree var name inside]
    split <;> rfl
  refine ⟨shaped.toLinked.claim inside var name, fun id known other mem => ?_,
    fun id known isBlock different => ?_⟩
  · rw [size_claim] at known
    rw [chain_level_claim inside] at mem
    rw [functionLevel_eq_of_forall (chain_level_claim inside var name)
      fun further _ => isFunction_eq further, chain_level_claim inside, isFunction_eq]
    exact shaped.chain_function id known other mem
  · rw [size_claim] at known
    rw [level_claim tree var name inside] at isBlock ⊢
    split at isBlock
    · next same =>
        subst same
        rcases isHome with isRoot | isFunction
        · exact absurd isRoot different
        · rw [isFunction] at isBlock
          cases isBlock
    · next other =>
        rw [if_neg other]
        exact shaped.claims_eq_nil id known isBlock different

/-! ## Visible claims -/

theorem mem_visibleClaims {claim : VarId × String} :
    claim ∈ tree.visibleClaims id ↔
      ∃ other ∈ (tree.level id).chain, claim ∈ (tree.level other).claims := by
  simp only [visibleClaims, chain, List.mem_flatMap, List.mem_map]
  constructor
  · rintro ⟨_, ⟨other, mem, rfl⟩, held⟩
    exact ⟨other, mem, held⟩
  · rintro ⟨other, mem, held⟩
    exact ⟨_, ⟨other, mem, rfl⟩, held⟩

theorem hasVar_iff {var : VarId} :
    tree.hasVar id var = true ↔ ∃ name, (var, name) ∈ tree.visibleClaims id := by
  simp only [hasVar, List.any_eq_true, beq_iff_eq]
  constructor
  · rintro ⟨⟨_, name⟩, mem, rfl⟩
    exact ⟨name, mem⟩
  · rintro ⟨name, mem⟩
    exact ⟨_, mem, rfl⟩

variable {name base : String}

theorem mem_of_owner?
    {var : VarId}
    (found : tree.owner? id name = some var) :
    (var, name) ∈ tree.visibleClaims id := by
  obtain ⟨⟨other, claimed⟩, held, rfl⟩ := Option.map_eq_some_iff.mp found
  have same : claimed = name := by simpa using List.find?_some held
  rw [← same]
  exact List.mem_of_find?_eq_some held

theorem hasName_iff {name : String} :
    tree.hasName id name = true ↔ ∃ var, (var, name) ∈ tree.visibleClaims id := by
  unfold hasName
  constructor
  · intro taken
    obtain ⟨var, found⟩ := Option.isSome_iff_exists.mp taken
    exact ⟨var, mem_of_owner? found⟩
  · rintro ⟨var, mem⟩
    simp only [owner?, Option.isSome_map, List.find?_isSome, beq_iff_eq]
    exact ⟨_, mem, rfl⟩

theorem Shaped.mem_visibleClaims_functionLevel
    (shaped : tree.Shaped)
    (inside : id < tree.levels.size)
    {claim : VarId × String} :
    claim ∈ tree.visibleClaims id ↔ claim ∈ tree.visibleClaims (tree.functionLevel id) := by
  rw [mem_visibleClaims, mem_visibleClaims]
  constructor
  · rintro ⟨other, mem, held⟩
    rcases shaped.chain_function id inside other mem with further | ⟨isBlock, different⟩
    · exact ⟨other, further, held⟩
    · have known := shaped.chain_lt id inside other mem
      rw [shaped.claims_eq_nil other known isBlock different] at held
      cases held
  · rintro ⟨other, mem, held⟩
    have onChain := (shaped.functionLevel_spec inside).1
    exact ⟨other, shaped.chain_subset id inside _ onChain other mem, held⟩

/-! ## Free names -/

/-- A name is free if it is neither reserved nor visibly claimed, and does not
begin like those of the stages. -/
theorem Linked.isFree_iff
    (linked : tree.Linked)
    (inside : id < tree.levels.size)
    {name : String} :
    tree.isFree id name = true ↔
      name ∉ tree.reserved ∧ isStageName name = false ∧
        ∀ var, (var, name) ∉ tree.visibleClaims id := by
  have untaken_iff (level : LevelId) : tree.hasName level name = false ↔
      ∀ var, (var, name) ∉ tree.visibleClaims level := by
    rw [← Bool.not_eq_true, hasName_iff, not_exists]
  have aboveToo : (∀ var, (var, name) ∉ tree.visibleClaims id) ->
      ∀ var, (var, name) ∉ tree.visibleClaims (tree.functionLevel id) := by
    intro untaken var held
    obtain ⟨other, mem, held⟩ := mem_visibleClaims.mp held
    have onChain := (linked.functionLevel_spec inside).1
    exact untaken var (mem_visibleClaims.mpr
      ⟨other, linked.chain_subset id inside _ onChain other mem, held⟩)
  unfold isFree
  simp only [Bool.and_eq_true, Bool.not_eq_true', List.contains_eq_mem, decide_eq_false_iff_not,
    untaken_iff, and_assoc, and_iff_right_of_imp aboveToo]

theorem Shaped.isFree_iff
    (shaped : tree.Shaped)
    (inside : id < tree.levels.size)
    {name : String} :
    tree.isFree id name = true ↔
      name ∉ tree.reserved ∧ isStageName name = false ∧
        ∀ var, (var, name) ∉ tree.visibleClaims (tree.functionLevel id) := by
  simp only [shaped.toLinked.isFree_iff inside, shaped.mem_visibleClaims_functionLevel inside]

/-- A search finds the first candidate that is free. -/
theorem first_of_freeName? (found : tree.freeName? id base = some name) :
    ∃ index, index ≤ tree.reserved.length + (tree.visibleClaims id).length ∧
      name = candidate tree.naming base index ∧ tree.isFree id name = true ∧
        ∀ earlier < index, tree.isFree id (candidate tree.naming base earlier) = false := by
  rw [freeName?, List.range_eq_range'] at found
  obtain ⟨before, index, after, range_eq, chosen, refused⟩ := List.findSome?_eq_some_iff.mp found
  obtain ⟨count, count_le, rfl, rest_eq⟩ := List.range'_eq_append_iff.mp range_eq
  obtain ⟨rfl, isRest, _⟩ := List.range'_eq_cons_iff.mp rest_eq.symm
  obtain ⟨isFree, name_eq⟩ := Option.ite_none_right_eq_some.mp chosen
  obtain rfl := Option.some.inj name_eq
  refine ⟨_, by omega, rfl, isFree, fun earlier isEarlier => ?_⟩
  simpa using refused earlier (by simpa using isEarlier)

theorem freeName?_eq_some (found : tree.freeName? id base = some name) :
    tree.isFree id name = true ∧ ∃ index, name = candidate tree.naming base index := by
  obtain ⟨index, _, name_eq, isFree, _⟩ := first_of_freeName? found
  exact ⟨isFree, index, name_eq⟩

theorem freeName?_eq_none (failed : tree.freeName? id base = none) :
    ∀ index, index ≤ tree.reserved.length + (tree.visibleClaims id).length ->
      tree.isFree id (candidate tree.naming base index) = false := by
  intro index small
  have refused := List.findSome?_eq_none_iff.mp failed index
    (List.mem_range.mpr (Nat.lt_succ_of_le small))
  simpa using refused

/-- A search ends with a name if no candidate begins like the names of the
stages: there are more candidates than refused names. -/
theorem Linked.freeName?_ne_none
    (linked : tree.Linked)
    (inside : id < tree.levels.size)
    (plain : ∀ index, isStageName (candidate tree.naming base index) = false) :
    tree.freeName? id base ≠ none := by
  intro failed
  let refused := tree.reserved ++ (tree.visibleClaims id).map Prod.snd
  let tried := (List.range (refused.length + 1)).map (candidate tree.naming base)
  have distinct : tried.Nodup :=
    List.nodup_range.map (candidate_injective tree.naming base)
  have allRefused : tried ⊆ refused := by
    intro name mem
    obtain ⟨index, small, rfl⟩ := List.mem_map.mp mem
    have bound : index ≤ tree.reserved.length + (tree.visibleClaims id).length := by
      have below := List.mem_range.mp small
      simp only [refused, List.length_append, List.length_map] at below
      exact Nat.le_of_lt_succ below
    by_contra fresh
    have notFree := freeName?_eq_none failed index bound
    rw [Bool.eq_false_iff, Ne, linked.isFree_iff inside] at notFree
    refine notFree ⟨fun reserved => fresh (List.mem_append_left _ reserved), plain index, ?_⟩
    intro var visible
    exact fresh (List.mem_append_right _ (List.mem_map.mpr ⟨_, visible, rfl⟩))
  have short := (distinct.subperm allRefused).length_le
  simp only [tried, List.length_map, List.length_range] at short
  exact Nat.not_succ_le_self _ short

end NameTree
end ModularGlsl
