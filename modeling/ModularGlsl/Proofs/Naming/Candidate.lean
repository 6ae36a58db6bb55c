import Mathlib.Data.List.Nodup
import ModularGlsl.NameTree.Basic

/-!
# Candidates are enough

The candidates of a variable differ from each other, in either way of choosing
names.  Among one more candidate than there are refused names there is therefore
one that is not refused.  Short names never begin like those of the stages; names
with numbers do so only if the name without a number does, or if it is the word
before the underscore.
-/

namespace ModularGlsl

/-! ## Short names -/

/-- The letter of a remainder has the place of the remainder. -/
theorem idxOf_shortLetter (index : Nat) :
    shortLetters.idxOf (shortLetter index) = index % 52 := by
  have table : ∀ remainder : Fin 52,
      shortLetters.idxOf (shortLetters.getD remainder 'a') = remainder := by decide
  exact table ⟨index % 52, Nat.mod_lt index (by decide)⟩

/-- The number that letters stand for after those of a given number. -/
def shortValue
    (start : Nat)
    (letters : List Char) : Nat :=
  letters.foldl (fun value letter => value * 52 + shortLetters.idxOf letter + 1) start

/-- A short name stands for its index, counted from one. -/
theorem shortValue_shortNameFrom
    {steps index : Nat}
    (written : List Char)
    (enough : index ≤ steps) :
    shortValue 0 (shortNameFrom steps index written) = shortValue (index + 1) written := by
  induction steps generalizing index written with
  | zero =>
      obtain rfl : index = 0 := Nat.le_zero.mp enough
      simp [shortNameFrom, shortValue, idxOf_shortLetter]
  | succ steps ih =>
      unfold shortNameFrom
      split
      · next small =>
          simp [shortValue, idxOf_shortLetter, Nat.mod_eq_of_lt small]
      · next large =>
          rw [ih _ (by omega)]
          simp only [shortValue, List.foldl_cons, idxOf_shortLetter]
          congr 1
          omega

@[simp] theorem shortValue_shortName (index : Nat) :
    shortValue 0 (shortName index).toList = index + 1 := by
  rw [shortName, String.toList_ofList, shortValue_shortNameFrom _ (Nat.le_refl _)]
  rfl

theorem shortName_injective : Function.Injective shortName := by
  intro first second same
  have values := congrArg (fun name => shortValue 0 name.toList) same
  simpa using values

theorem mem_shortLetters_of_mem_shortNameFrom
    {steps index : Nat}
    {written : List Char}
    (known : ∀ letter ∈ written, letter ∈ shortLetters)
    {letter : Char}
    (mem : letter ∈ shortNameFrom steps index written) :
    letter ∈ shortLetters := by
  have table : ∀ remainder : Fin 52, shortLetters.getD remainder 'a' ∈ shortLetters := by decide
  have own (index : Nat) : shortLetter index ∈ shortLetters :=
    table ⟨index % 52, Nat.mod_lt index (by decide)⟩
  induction steps generalizing index written with
  | zero => exact List.forall_mem_cons.mpr ⟨own index, known⟩ letter mem
  | succ steps ih =>
      unfold shortNameFrom at mem
      split at mem
      · exact List.forall_mem_cons.mpr ⟨own index, known⟩ letter mem
      · exact ih (List.forall_mem_cons.mpr ⟨own index, known⟩) mem

theorem shortName_subset (index : Nat) :
    (shortName index).toList ⊆ shortLetters := by
  intro letter mem
  rw [shortName, String.toList_ofList] at mem
  exact mem_shortLetters_of_mem_shortNameFrom (by simp) mem

/-- Short names do not begin like those of the stages. -/
theorem isStageName_shortName (index : Nat) :
    isStageName (shortName index) = false := by
  rw [Bool.eq_false_iff]
  intro begins
  have isPrefix : "gl_".toList <+: (shortName index).toList := List.isPrefixOf_iff_prefix.mp begins
  have letter : '_' ∈ shortLetters := shortName_subset index (isPrefix.subset (by decide))
  revert letter
  decide

/-! ## All candidates -/

/-- Numbers are written in different ways. -/
theorem toString_injective : Function.Injective (toString : Nat -> String) := by
  intro first second same
  have digits : Nat.toDigits 10 first = Nat.toDigits 10 second := by
    apply String.ofList_injective
    exact same
  have values := congrArg (Nat.ofDigitChars 10 · 0) digits
  simpa [Nat.ofDigitChars_toDigits] using values

theorem candidate_readable_succ
    (base : String)
    (index : Nat) :
    candidate .readable base (index + 1) = base ++ "_" ++ toString (index + 1) := by
  rfl

/-- The candidates of a variable differ. -/
theorem candidate_injective
    (naming : Naming)
    (base : String) :
    Function.Injective (candidate naming base) := by
  cases naming with
  | minify => exact shortName_injective
  | readable =>
      have numbered (index : Nat) : candidate .readable base (index + 1) ≠ base := by
        intro same
        have lengths := congrArg String.length same
        simp only [candidate_readable_succ, String.length_append] at lengths
        have one : "_".length = 1 := by decide
        omega
      intro first second same
      match first, second with
      | 0, 0 => rfl
      | 0, second + 1 => exact absurd same.symm (numbered second)
      | first + 1, 0 => exact absurd same (numbered first)
      | first + 1, second + 1 =>
          rw [candidate_readable_succ, candidate_readable_succ] at same
          have numbers : toString (first + 1) = toString (second + 1) := by
            simpa [String.append_assoc] using same
          exact toString_injective numbers

/-- A name with a number begins like those of the stages only if the name itself
does or is the word before the underscore. -/
theorem isStageName_candidate
    {naming : Naming}
    {base : String}
    {index : Nat}
    (plain : naming = .readable -> isStageName base = false ∧ base ≠ "gl") :
    isStageName (candidate naming base index) = false := by
  cases naming with
  | minify => exact isStageName_shortName index
  | readable =>
      obtain ⟨noStageName, different⟩ := plain rfl
      cases index with
      | zero => exact noStageName
      | succ index =>
          rw [candidate_readable_succ]
          unfold isStageName at noStageName ⊢
          have word : "gl_".toList = ['g', 'l', '_'] := by decide
          have letters : base.toList ≠ ['g', 'l'] := fun same =>
            different (String.toList_inj.mp same)
          rw [String.toList_append, String.toList_append]
          match spelled : base.toList with
          | [] | [_] => simp [List.isPrefixOf]
          | [first, second] =>
              rw [spelled] at letters
              rw [word, Bool.eq_false_iff]
              intro begins
              have isPrefix := List.isPrefixOf_iff_prefix.mp begins
              simp only [List.cons_append, List.cons_prefix_cons] at isPrefix
              exact letters (by rw [isPrefix.1, isPrefix.2.1])
          | first :: second :: third :: rest =>
              rw [spelled] at noStageName
              simpa [List.isPrefixOf] using noStageName

end ModularGlsl
