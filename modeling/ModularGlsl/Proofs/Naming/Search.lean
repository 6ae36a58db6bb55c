import Mathlib.Data.Finset.Card
import Mathlib.Data.Nat.Find
import ModularGlsl.Proofs.Naming.Claims

/-!
# The search for a name

The candidates for the name of a variable are tried one after the other without a bound.  The
search ends exactly if some candidate is free, and only names that begin like those of the
stages can have none.  It ends before it has met more names than are refused.
-/

namespace ModularGlsl
namespace NameTree

variable {tree : NameTree} {id : LevelId} {base : String}

/-- Candidates are tried from one index on up to another, which is the first that is free. -/
inductive Tries
    (tree : NameTree)
    (id : LevelId)
    (base : String) : Nat -> Nat -> Prop
  | found
      {index : Nat}
      (isFree : tree.isFree id (candidate tree.naming base index) = true) :
      Tries tree id base index index
  | next
      {index result : Nat}
      (taken : tree.isFree id (candidate tree.naming base index) = false)
      (onward : Tries tree id base (index + 1) result) :
      Tries tree id base index result

theorem tries_iff {start result : Nat} :
    tree.Tries id base start result ↔
      start ≤ result ∧ tree.isFree id (candidate tree.naming base result) = true ∧
        ∀ index, start ≤ index -> index < result ->
          tree.isFree id (candidate tree.naming base index) = false := by
  constructor
  · intro run
    induction run with
    | found isFree =>
        exact ⟨Nat.le_refl _, isFree, fun index low high => absurd low (Nat.not_le.mpr high)⟩
    | @next start result taken _ ih =>
        obtain ⟨low, isFree, refused⟩ := ih
        refine ⟨by omega, isFree, fun index notLess high => ?_⟩
        rcases Nat.eq_or_lt_of_le notLess with rfl | later
        · exact taken
        · exact refused index later high
  · rintro ⟨low, isFree, refused⟩
    induction low using Nat.decreasingInduction with
    | self => exact .found isFree
    | of_succ index high ih =>
        exact .next (refused index (Nat.le_refl _) high)
          (ih fun later notLess => refused later (by omega))

/-- The search ends if some candidate is free. -/
theorem exists_tries_iff :
    (∃ result, tree.Tries id base 0 result) ↔
      ∃ index, tree.isFree id (candidate tree.naming base index) = true := by
  constructor
  · rintro ⟨result, run⟩
    exact ⟨result, (tries_iff.mp run).2.1⟩
  · intro some
    refine ⟨Nat.find some, tries_iff.mpr ⟨Nat.zero_le _, Nat.find_spec some, ?_⟩⟩
    intro index _ earlier
    rw [← Bool.not_eq_true]
    exact Nat.find_min some earlier

theorem Linked.exists_isFree
    (linked : tree.Linked)
    (inside : id < tree.levels.size)
    (plain : ∀ index, isStageName (candidate tree.naming base index) = false) :
    ∃ index, tree.isFree id (candidate tree.naming base index) = true := by
  obtain ⟨name, found⟩ :=
    Option.ne_none_iff_exists'.mp (linked.freeName?_ne_none inside plain)
  obtain ⟨isFree, index, rfl⟩ := freeName?_eq_some found
  exact ⟨index, isFree⟩

/-- The names that are claimed from a level to the root. -/
def claimedNames
    (tree : NameTree)
    (id : LevelId) : Finset String :=
  ((tree.visibleClaims id).map Prod.snd).toFinset

theorem mem_claimedNames {name : String} :
    name ∈ tree.claimedNames id ↔ ∃ var, (var, name) ∈ tree.visibleClaims id := by
  simp [claimedNames]

/-- The search passes over refused names only, and over each of them once. -/
theorem Linked.le_card_of_tries
    (linked : tree.Linked)
    (inside : id < tree.levels.size)
    {result : Nat}
    (run : tree.Tries id base 0 result) :
    result ≤ tree.reserved.toFinset.card + (tree.claimedNames id).card := by
  obtain ⟨_, isFree, refused⟩ := tries_iff.mp run
  rcases linked.plain_or_eq_zero inside isFree with plain | rfl
  · have passed : (Finset.range result).image (candidate tree.naming base) ⊆
        tree.reserved.toFinset ∪ tree.claimedNames id := by
      intro name mem
      obtain ⟨index, earlier, rfl⟩ := Finset.mem_image.mp mem
      have taken := refused index (Nat.zero_le _) (Finset.mem_range.mp earlier)
      rw [Bool.eq_false_iff, Ne, linked.isFree_iff inside] at taken
      by_contra fresh
      simp only [mem_claimedNames, Finset.mem_union, List.mem_toFinset, not_or] at fresh
      exact taken ⟨fresh.1, plain index, fun var visible => fresh.2 ⟨var, visible⟩⟩
    calc result = ((Finset.range result).image (candidate tree.naming base)).card := by
          rw [Finset.card_image_of_injective _ (candidate_injective tree.naming base),
            Finset.card_range]
      _ ≤ (tree.reserved.toFinset ∪ tree.claimedNames id).card := Finset.card_le_card passed
      _ ≤ _ := Finset.card_union_le _ _
  · exact Nat.zero_le _

/-- With numbers a search ends unless every candidate begins like the names of the stages, or
is refused. -/
theorem Linked.exists_tries_readable_iff
    (linked : tree.Linked)
    (inside : id < tree.levels.size)
    (naming_eq : tree.naming = .readable) :
    (∃ result, tree.Tries id base 0 result) ↔
      isStageName base = false ∧
        ¬(base = "gl" ∧ ("gl" ∈ tree.reserved ∨ "gl" ∈ tree.claimedNames id)) := by
  have first : candidate tree.naming base 0 = base := by
    rw [naming_eq]
    rfl
  rw [exists_tries_iff]
  constructor
  · rintro ⟨index, isFree⟩
    rcases linked.plain_or_eq_zero inside isFree with plain | rfl
    · rw [naming_eq] at plain
      refine ⟨plain 0, fun stuck => ?_⟩
      have begins := isStageName_candidate_succ (.inr stuck.1) 0
      rw [plain 1] at begins
      cases begins
    · rw [first, linked.isFree_iff inside] at isFree
      obtain ⟨notReserved, noStage, unclaimed⟩ := isFree
      refine ⟨noStage, ?_⟩
      rintro ⟨rfl, reserved | claimed⟩
      · exact notReserved reserved
      · obtain ⟨var, visible⟩ := mem_claimedNames.mp claimed
        exact unclaimed var visible
  · rintro ⟨noStage, notStuck⟩
    by_cases same : base = "gl"
    · subst same
      refine ⟨0, ?_⟩
      rw [first, linked.isFree_iff inside]
      exact ⟨fun reserved => notStuck ⟨rfl, .inl reserved⟩, noStage, fun var visible =>
        notStuck ⟨rfl, .inr (mem_claimedNames.mpr ⟨var, visible⟩)⟩⟩
    · exact linked.exists_isFree inside fun _ => isStageName_candidate fun _ => ⟨noStage, same⟩

/-- When the search for the name of a variable ends, and with what. -/
structure EndsExactly
    (tree : NameTree)
    (arena : Arena)
    (id : LevelId)
    (var : VarId) : Prop where
  /-- Short names never run out. -/
  minify : tree.naming = .minify -> ∃ result, tree.Tries id (arena.name var) 0 result
  /-- Names with numbers run out where all of them begin like those of the stages. -/
  readable : tree.naming = .readable ->
    ((∃ result, tree.Tries id (arena.name var) 0 result) ↔
      isStageName (arena.name var) = false ∧
        ¬(arena.name var = "gl" ∧ ("gl" ∈ tree.reserved ∨ "gl" ∈ tree.claimedNames id)))
  /-- The candidate where a search ends may be chosen, and the variable gets it. -/
  chosen : ∀ result, tree.Tries id (arena.name var) 0 result ->
    tree.IsOpen id (candidate tree.naming (arena.name var) result) ∧
      tree.assign arena id var =
        (tree.claim (tree.functionLevel id) var (candidate tree.naming (arena.name var) result),
          arena.rename var (candidate tree.naming (arena.name var) result))
  /-- No more candidates are passed over than there are refused names. -/
  bounded : ∀ result, tree.Tries id (arena.name var) 0 result ->
    result ≤ tree.reserved.toFinset.card + (tree.claimedNames id).card

end NameTree

namespace NameOp

open FinalNames (State)

/-- After any run of operations the search for the name of a variable ends exactly if it
can. -/
theorem run_endsExactly
    {naming : Naming}
    {builtins : List String}
    {arena : Arena}
    {state : State}
    (run : Relation.ReflTransGen Step ⟨NameTree.ofBuiltins naming builtins, arena⟩ state)
    {id : LevelId}
    (inside : id < state.tree.levels.size)
    {var : VarId}
    (lacks : state.tree.Lacks id var) :
    state.tree.EndsExactly state.arena id var := by
  have sound := sound_of_run run
  have linked := sound.toLinked
  constructor
  case minify =>
    intro naming_eq
    refine NameTree.exists_tries_iff.mpr (linked.exists_isFree inside fun index => ?_)
    exact isStageName_candidate fun isReadable => by simp [naming_eq] at isReadable
  case readable => exact linked.exists_tries_readable_iff inside
  case chosen =>
    intro result tries
    obtain ⟨_, isFree, refused⟩ := NameTree.tries_iff.mp tries
    have isOpen := (sound.isFree_iff_isOpen inside).mp isFree
    obtain ⟨index, _, rfl, firstOpen, before, assigned⟩ :=
      sound.assign_of_lacks inside state.arena lacks ⟨result, isOpen⟩
    obtain rfl : index = result := by
      rcases Nat.lt_trichotomy index result with earlier | same | later
      · rw [← sound.isFree_iff_isOpen inside, refused index (Nat.zero_le _) earlier] at firstOpen
        cases firstOpen
      · exact same
      · exact absurd isOpen (before result later)
    exact ⟨isOpen, assigned⟩
  case bounded => exact fun result => linked.le_card_of_tries inside

/-- Two variables that have the word before the underscore as their name. -/
def sameWord : State :=
  ⟨.ofBuiltins .readable [], ⟨#[{ name := "gl" }, { name := "gl" }]⟩⟩

/-- Where one of the variables keeps the word, no name is found for the other one. -/
theorem run_sameWord_endsExactly :
    Relation.ReflTransGen Step sameWord ((preserve 0 0).run sameWord) ∧
      ((preserve 0 0).run sameWord).tree.EndsExactly ((preserve 0 0).run sameWord).arena 0 1 ∧
      ¬∃ result, ((preserve 0 0).run sameWord).tree.Tries 0 "gl" 0 result := by
  have run : Relation.ReflTransGen Step sameWord ((preserve 0 0).run sameWord) :=
    .single ⟨preserve 0 0, by unfold Applies; decide +kernel, rfl⟩
  have lacks : ((preserve 0 0).run sameWord).tree.Lacks 0 1 := by
    unfold NameTree.Lacks
    decide +kernel
  have ends := run_endsExactly run (by decide +kernel) lacks
  refine ⟨run, ends, fun some => ?_⟩
  exact ((ends.readable rfl).mp some).2 ⟨by decide +kernel, .inr (by decide +kernel)⟩

end NameOp
end ModularGlsl
