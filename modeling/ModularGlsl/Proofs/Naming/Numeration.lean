import Mathlib.Data.List.Shortlex
import Mathlib.Data.Set.Function
import ModularGlsl.Proofs.Naming.Candidate

/-!
# Counting by short names

Letters stand for the digits from one to 52, so that no digit is a zero and every word is the
name of exactly one index.  Longer words stand for larger numbers, and words of one length are
in the order of their letters.
-/

namespace ModularGlsl

/-! ## Values of words -/

/-- The places of the letters of a word in the order of letters. -/
def places (letters : List Char) : List Nat :=
  letters.map shortLetters.idxOf

theorem shortValue_cons
    (start : Nat)
    (letter : Char)
    (rest : List Char) :
    shortValue start (letter :: rest) =
      shortValue (start * 52 + shortLetters.idxOf letter + 1) rest := by
  rfl

section Order

variable {start later : Nat} {left right : List Char}

theorem idxOf_lt_of_subset
    (known : left ⊆ shortLetters)
    {letter : Char}
    (mem : letter ∈ left) :
    shortLetters.idxOf letter < 52 :=
  List.idxOf_lt_length_of_mem (known mem)

theorem map_shortLetter_places (known : left ⊆ shortLetters) :
    (places left).map shortLetter = left := by
  rw [places, List.map_map]
  conv_rhs => rw [← List.map_id left]
  refine List.map_congr_left fun letter mem => ?_
  have small := idxOf_lt_of_subset known mem
  rw [Function.comp_apply, shortLetter, Nat.mod_eq_of_lt small, List.getD_eq_getElem?_getD,
    List.getElem?_idxOf (known mem)]
  rfl

/-- A word after a larger number is larger than one that is not longer. -/
theorem shortValue_lt_of_lt
    (isLess : start < later)
    (notLonger : left.length ≤ right.length)
    (known : left ⊆ shortLetters) :
    shortValue start left < shortValue later right := by
  induction right generalizing start later left with
  | nil =>
      obtain rfl : left = [] := List.eq_nil_of_length_eq_zero (Nat.le_zero.mp notLonger)
      exact isLess
  | cons second right ih =>
      rw [shortValue_cons]
      by_cases shorter : left.length ≤ right.length
      · exact ih (by omega) shorter known
      · match left with
        | [] => exact absurd (Nat.zero_le _) shorter
        | first :: left =>
            have small := idxOf_lt_of_subset known List.mem_cons_self
            rw [shortValue_cons]
            exact ih (by omega) (Nat.le_of_succ_le_succ notLonger)
              (List.subset_of_cons_subset known)

theorem shortValue_lt_of_lex
    (before : List.Lex (· < ·) (places left) (places right))
    (length_eq : left.length = right.length)
    (known : left ⊆ shortLetters) :
    shortValue start left < shortValue start right := by
  induction left generalizing start right with
  | nil =>
      obtain rfl : right = [] := List.eq_nil_of_length_eq_zero length_eq.symm
      cases before
  | cons first left ih =>
      match right with
      | second :: right =>
          have rest_eq : left.length = right.length := Nat.succ.inj length_eq
          have rest_known := List.subset_of_cons_subset known
          rw [shortValue_cons, shortValue_cons]
          rw [places, places, List.map_cons, List.map_cons] at before
          generalize shortLetters.idxOf first = low, shortLetters.idxOf second = high at before ⊢
          cases before with
          | rel isLess =>
              exact shortValue_lt_of_lt (by omega) (Nat.le_of_eq rest_eq) rest_known
          | cons further => exact ih further rest_eq rest_known

/-- Words have values in the order by length and then by letters. -/
theorem shortValue_lt_of_shortlex
    (before : List.Shortlex (· < ·) (places left) (places right))
    (known : left ⊆ shortLetters) :
    shortValue 0 left < shortValue 0 right := by
  rw [List.shortlex_def, places, places, List.length_map, List.length_map] at before
  rcases before with shorter | ⟨length_eq, further⟩
  · match right with
    | second :: right =>
        rw [shortValue_cons]
        exact shortValue_lt_of_lt (Nat.succ_pos _) (Nat.le_of_lt_succ shorter) known
  · exact shortValue_lt_of_lex further length_eq known

theorem shortValue_lt_iff
    (knownLeft : left ⊆ shortLetters)
    (knownRight : right ⊆ shortLetters) :
    shortValue 0 left < shortValue 0 right ↔
      List.Shortlex (· < ·) (places left) (places right) := by
  refine ⟨fun isLess => ?_, fun before => shortValue_lt_of_shortlex before knownLeft⟩
  rcases trichotomous_of (List.Shortlex (· < ·)) (places left) (places right) with
    before | same | after
  · exact before
  · -- Words of the same places have the same value.
    have values (letters : List Char) : shortValue 0 letters =
        (places letters).foldl (fun value place => value * 52 + place + 1) 0 := by
      rw [places, List.foldl_map, shortValue]
    rw [values, values, same] at isLess
    exact absurd isLess (Nat.lt_irrefl _)
  · exact absurd isLess (Nat.lt_asymm (shortValue_lt_of_shortlex after knownRight))

/-- Different words have different values. -/
theorem eq_of_shortValue_eq
    (knownLeft : left ⊆ shortLetters)
    (knownRight : right ⊆ shortLetters)
    (same : shortValue 0 left = shortValue 0 right) :
    left = right := by
  have notBefore := (shortValue_lt_iff knownLeft knownRight).not.mp (Nat.not_lt.mpr same.ge)
  have notAfter := (shortValue_lt_iff knownRight knownLeft).not.mp (Nat.not_lt.mpr same.le)
  have places_eq : places left = places right :=
    (trichotomous_of (List.Shortlex (· < ·)) (places left) (places right)).resolve_left notBefore
      |>.resolve_right notAfter
  rw [← map_shortLetter_places knownLeft, places_eq, map_shortLetter_places knownRight]

end Order

/-! ## Letters and words -/

theorem mem_shortLetters_iff {letter : Char} :
    letter ∈ shortLetters ↔ letter.isAlpha = true := by
  constructor
  · have all : shortLetters.all Char.isAlpha = true := by decide
    exact List.all_eq_true.mp all letter
  · intro isLetter
    have table : ∀ code : Fin 128, (Char.ofNat code).isAlpha = true ->
        Char.ofNat code ∈ shortLetters := by decide
    have small : letter.toNat < 128 := by
      rcases (Bool.or_eq_true _ _).mp isLetter with isUpper | isLower
      · have upper := (of_decide_eq_true isUpper).2
        exact Nat.lt_of_le_of_lt (UInt32.le_iff_toNat_le.mp upper) (by decide)
      · have lower := of_decide_eq_true ((Bool.and_eq_true _ _).mp isLower).2
        exact Nat.lt_of_le_of_lt (UInt32.le_iff_toNat_le.mp lower) (by decide)
    have mem := table ⟨letter.toNat, small⟩
    rw [Char.ofNat_toNat] at mem
    exact mem isLetter

/-- The words of letters from `a` to `z` and from `A` to `Z`. -/
def shortWords : Set String :=
  {word | word ≠ "" ∧ ∀ letter ∈ word.toList, letter.isAlpha = true}

/-- A run of the loop that writes a short name from its last letter to its first.  It goes on
with the number before the quotient, so that there has to be one. -/
inductive WritesLetters : Nat -> List Char -> List Char -> Prop
  | last
      {index : Nat}
      {written : List Char}
      (small : index < 52) :
      WritesLetters index written (shortLetter index :: written)
  | next
      {index rest : Nat}
      {written letters : List Char}
      (large : 52 ≤ index)
      (isNext : rest + 1 = index / 52)
      (onward : WritesLetters rest (shortLetter index :: written) letters) :
      WritesLetters index written letters

theorem writesLetters_shortNameFrom
    {steps index : Nat}
    (written : List Char)
    (enough : index ≤ steps) :
    WritesLetters index written (shortNameFrom steps index written) := by
  induction steps generalizing index written with
  | zero => exact .last (by omega)
  | succ steps ih =>
      unfold shortNameFrom
      split
      · next small => exact .last small
      · next large => exact .next (by omega) (by omega) (ih _ (by omega))

/-- Short names are the words in their order: each word is the name of one index, a later
index has a longer name or one of later letters, and the loop that writes a name ends without
going below zero. -/
theorem shortName_isNumeration :
    Set.BijOn shortName Set.univ shortWords ∧
      (∀ first second, first < second ↔
        List.Shortlex (· < ·) (places (shortName first).toList)
          (places (shortName second).toList)) ∧
      ∀ index, WritesLetters index [] (shortName index).toList := by
  refine ⟨⟨fun index _ => ?_, shortName_injective.injOn, fun word isWord => ?_⟩,
    fun first second => ?_, fun index => ?_⟩
  · refine ⟨fun empty => ?_, fun letter mem =>
      mem_shortLetters_iff.mp (shortName_subset index mem)⟩
    have value := shortValue_shortName index
    rw [empty] at value
    cases value
  · obtain ⟨notEmpty, letters⟩ := isWord
    have known : word.toList ⊆ shortLetters := fun letter mem =>
      mem_shortLetters_iff.mpr (letters letter mem)
    have longer : ([] : List Char).length < word.toList.length :=
      List.length_pos_iff.mpr fun empty => notEmpty (String.toList_eq_nil_iff.mp empty)
    have positive : shortValue 0 [] < shortValue 0 word.toList :=
      shortValue_lt_of_shortlex (.of_length_lt (by simpa [places] using longer)) (by simp)
    refine ⟨shortValue 0 word.toList - 1, trivial, String.toList_inj.mp ?_⟩
    refine eq_of_shortValue_eq (shortName_subset _) known ?_
    rw [shortValue_shortName]
    exact Nat.sub_add_cancel positive
  · rw [← shortValue_lt_iff (shortName_subset first) (shortName_subset second)]
    simp
  · rw [shortName, String.toList_ofList]
    exact writesLetters_shortNameFrom [] (Nat.le_refl _)

end ModularGlsl
