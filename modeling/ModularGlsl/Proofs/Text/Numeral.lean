import Mathlib.Data.List.TakeWhile
import ModularGlsl.Proofs.Text.Operand

/-!
# Tokens of literals

The text of a literal is one token after a sign.  The shortest decimal of a number other than
zero has a digit that is not zero, so its text begins with a digit in every format, and the
sign of an exponent belongs to the number.
-/

namespace ModularGlsl

/-! ## Digits of decimals -/

namespace Decimal

/-- What lies in an interval above zero is positive. -/
theorem Interval.pos_of_nearest?
    {interval : Interval}
    {value : Nat}
    (positive : 0 < interval.low)
    (found : interval.nearest? = some value) :
    0 < value := by
  have isIn : interval.contains value = true := by
    unfold nearest? at found
    dsimp only at found
    split at found <;> cases found
    · split <;> assumption
    · assumption
    · assumption
  rcases Nat.eq_zero_or_pos value with rfl | isPositive
  · unfold contains at isIn
    split at isIn <;> simp at isIn
    omega
  · exact isPositive

/-- The interval around a number other than zero lies above zero. -/
theorem Interval.low_pos
    {number : Binary64}
    (nonzero : number.isZero = false)
    (unit : Int) :
    0 < ((ofBinary number).scaled unit).low := by
  have significand : 1 ≤ number.significand := by
    unfold Binary64.significand
    simp only [Binary64.isZero, Bool.and_eq_false_iff, beq_eq_false_iff_ne] at nonzero
    split
    · omega
    · exact Nat.le_add_right_of_le (Nat.pow_pos (by decide))
  refine Nat.mul_pos (Nat.mul_pos ?_ (Nat.pow_pos (by decide))) (Nat.pow_pos (by decide))
  split <;> omega

/-- The digits of a positive integer are not all zeros. -/
theorem Digits.ofScaled_ne_nil
    {value : Nat}
    (positive : 0 < value)
    (unit : Int) :
    (ofScaled value unit).digits ≠ [] := by
  intro empty
  have zeros (digit : Char) (mem : digit ∈ Nat.toDigits 10 value) : digit = '0' := by
    simp only [ofScaled, List.reverse_eq_nil_iff, List.dropWhile_eq_nil_iff] at empty
    simpa using empty digit (List.mem_reverse.mpr mem)
  have isZero : value = 0 := by
    rw [← Nat.ofDigitChars_ten_toDigits (n := value), List.eq_replicate_of_mem zeros,
      Nat.ofDigitChars_replicate_zero, Nat.mul_zero]
  omega

/-- The shortest decimal of a number other than zero is made of digits. -/
theorem shortest_digits
    {number : Binary64}
    (nonzero : number.isZero = false) :
    (shortest number).digits ≠ [] ∧
      ∀ digit ∈ (shortest number).digits, digit.isDigit = true := by
  unfold shortest
  dsimp only
  cases found : (List.range 17).findSome? (withDigits? (Interval.ofBinary number)) with
  | none => exact ⟨List.cons_ne_nil _ _, List.forall_mem_singleton.mpr rfl⟩
  | some decimal =>
      obtain ⟨count, _, found⟩ := List.exists_of_findSome?_eq_some found
      obtain ⟨value, nearest, rfl⟩ := Option.map_eq_some_iff.mp found
      have positive := Interval.pos_of_nearest? (Interval.low_pos nonzero _) nearest
      refine ⟨Digits.ofScaled_ne_nil positive _, fun digit mem => ?_⟩
      rw [Option.getD_some, Digits.ofScaled, List.mem_reverse] at mem
      have isDigit := List.mem_reverse.mp ((List.dropWhile_sublist _).subset mem)
      exact Nat.isDigit_of_mem_toDigits (by decide) (by decide) isDigit

end Decimal

/-! ## Numerals -/

namespace Token

/-- A text is one number, after which a sign is no part of an exponent. -/
structure IsNumeral (text : List Char) : Prop where
  /-- The text is one number. -/
  reads : Reads none text [] (some (number text))
  /-- The text begins with a digit. -/
  begins : ∀ digit ∈ text.head?, digit.isDigit = true
  /-- The text does not end in the mark of an exponent. -/
  ends : ∀ digit ∈ text.getLast?, digit ≠ 'e' ∧ digit ≠ 'E'
  /-- The text has no mark of a directive. -/
  noHash : '#' ∉ text

variable {digits : List Char}

/-- The text of a number. -/
theorem IsNumeral.operand (numeral : IsNumeral digits) :
    Operand true digits [number digits] := by
  refine ⟨⟨[], _, rfl, numeral.reads⟩, fun digit isHead => ?_, ?_⟩
  · simp [isFirst, isWordPart, numeral.begins digit isHead]
  · rintro _ ⟨⟩ char notPart notPoint
    have noSign : isExponentSign digits char = false := by
      unfold isExponentSign
      cases last : digits.getLast? with
      | none => simp
      | some digit => simp [numeral.ends digit last]
    have isOther : char ≠ '.' := by
      intro isPoint
      cases notPoint isPoint
    simp [extend?, notPart, isOther, noSign]

/-- Digits and points. -/
def isDigitOrPoint (char : Char) : Bool :=
  char.isDigit || char == '.'

section Numerals

variable {digit : Char}

theorem isPart_of_isDigitOrPoint
    (areParts : ∀ char ∈ digits, isDigitOrPoint char = true) :
    ∀ char ∈ digits, isWordPart char = true ∨ char = '.' := by
  intro char mem
  have isPart := areParts char mem
  simp only [isDigitOrPoint, Bool.or_eq_true, beq_iff_eq] at isPart
  exact isPart.imp_left fun isDigit => by simp [isWordPart, isDigit]

theorem noMark_of_isDigitOrPoint (isPart : isDigitOrPoint digit = true) :
    digit ≠ 'e' ∧ digit ≠ 'E' := by
  constructor <;>
  · rintro rfl
    cases isPart

/-- Digits with points among them. -/
theorem isNumeral_of_digits
    (isDigit : digit.isDigit = true)
    (areParts : ∀ char ∈ digits, isDigitOrPoint char = true) :
    IsNumeral (digit :: digits) := by
  refine ⟨reads_digits isDigit (isPart_of_isDigitOrPoint areParts), ?_, fun last isLast => ?_, ?_⟩
  · rintro _ ⟨⟩
    exact isDigit
  · have mem := List.mem_of_getLast? isLast
    rcases List.mem_cons.mp mem with rfl | mem
    · exact noMark_of_isDigitOrPoint (by simp [isDigitOrPoint, isDigit])
    · exact noMark_of_isDigitOrPoint (areParts last mem)
  · rintro (_ | ⟨_, mem⟩)
    · cases isDigit
    · cases areParts _ mem

theorem isNumeral_toDigits (value : Nat) : IsNumeral (Nat.toDigits 10 value) := by
  have areDigits : ∀ digit ∈ Nat.toDigits 10 value, digit.isDigit = true :=
    fun digit mem => Nat.isDigit_of_mem_toDigits (by decide) (by decide) mem
  cases digits_eq : Nat.toDigits 10 value with
  | nil => exact (Nat.toDigits_ne_nil digits_eq).elim
  | cons digit digits =>
      rw [digits_eq] at areDigits
      obtain ⟨isDigit, others⟩ := List.forall_mem_cons.mp areDigits
      exact isNumeral_of_digits isDigit fun digit mem => by
        simp [isDigitOrPoint, others digit mem]

theorem isExponentSign_stem (areParts : ∀ char ∈ digits, isDigitOrPoint char = true) :
    isExponentSign (digit :: (digits ++ ['e'])) '-' = true := by
  have last : (digit :: (digits ++ ['e'])).getLast? = some 'e' := by
    rw [← List.cons_append, List.getLast?_concat]
  rw [isExponentSign, last]
  cases digits with
  | nil => simp
  | cons next rest =>
      have isNext := areParts next List.mem_cons_self
      have noMark : next ≠ 'x' ∧ next ≠ 'X' := by
        constructor <;>
        · rintro rfl
          cases isNext
      simp [noMark]

/-- The sign of an exponent goes on with a number. -/
theorem reads_exponentSign
    {stem : List Char}
    (isSign : isExponentSign stem '-' = true) :
    Reads (some (number stem)) ['-'] [] (some (number (stem ++ ['-']))) := by
  intro rest
  have longer : (number stem).extend? '-' = some (number (stem ++ ['-'])) := by
    simp [extend?, isSign]
  rw [List.singleton_append, lexFrom, Option.bind_some, longer]
  rfl

theorem toList_intText (value : Int) :
    (toString value).toList =
      if value < 0 then
        '-' :: Nat.toDigits 10 value.natAbs
      else
        Nat.toDigits 10 value.natAbs := by
  cases value with
  | ofNat value => simp [toString, Int.repr]
  | negSucc value => simp [toString, Int.repr, Int.negSucc_lt_zero]

theorem isNumeral_of_exponent
    (isDigit : digit.isDigit = true)
    (areParts : ∀ char ∈ digits, isDigitOrPoint char = true)
    (exponent : Int) :
    IsNumeral (digit :: (digits ++ 'e' :: (toString exponent).toList)) := by
  have places := isNumeral_toDigits exponent.natAbs
  have areDigits (stem : List Char) : Reads (some (number stem))
      (Nat.toDigits 10 exponent.natAbs) [] (some (number (stem ++ _))) :=
    reads_number (fun place mem => .inl (by
      have isDigit := Nat.isDigit_of_mem_toDigits (by decide) (by decide) mem
      simp [isWordPart, isDigit])) stem
  have stem : Reads none (digit :: (digits ++ ['e'])) []
      (some (number (digit :: (digits ++ ['e'])))) := by
    refine reads_digits isDigit fun char mem => ?_
    rcases List.mem_append.mp mem with mem | mem
    · exact isPart_of_isDigitOrPoint areParts char mem
    · exact .inl (List.mem_singleton.mp mem ▸ rfl)
  rw [List.append_cons, ← List.cons_append, toList_intText]
  refine ⟨?_, ?_, ?_, ?_⟩
  · split
    · rw [List.append_cons]
      exact (stem.append (reads_exponentSign (isExponentSign_stem areParts))).append (areDigits _)
    · exact stem.append (areDigits _)
  · rintro _ ⟨⟩
    exact isDigit
  · rw [List.getLast?_append_of_ne_nil _ (by split <;> simp [Nat.toDigits_ne_nil])]
    split
    · rw [← List.singleton_append, List.getLast?_append_of_ne_nil _ Nat.toDigits_ne_nil]
      exact places.ends
    · exact places.ends
  · have stemNoHash := (isNumeral_of_digits isDigit areParts).noHash
    split <;> simp_all [places.noHash]

section

variable (areDigits : ∀ char ∈ digit :: digits, char.isDigit = true) (point : Int)
include areDigits point

/-- A positional text of digits. -/
theorem isNumeral_positional :
    IsNumeral (Decimal.positional ⟨digit :: digits, point⟩).toList := by
  have areParts (char : Char) (mem : char ∈ digit :: digits) :
      isDigitOrPoint char = true := by
    simp [isDigitOrPoint, areDigits char mem]
  obtain ⟨isDigit, _⟩ := List.forall_mem_cons.mp areDigits
  obtain ⟨_, others⟩ := List.forall_mem_cons.mp areParts
  have zeros (count : Nat) (zero : Char) (mem : zero ∈ List.replicate count '0') :
      isDigitOrPoint zero = true := (List.mem_replicate.mp mem).2 ▸ rfl
  unfold Decimal.positional
  dsimp only
  split
  · simp only [String.toList_append, String.toList_ofList]
    change IsNumeral ('0' :: '.' :: (List.replicate _ '0' ++ digit :: digits))
    refine isNumeral_of_digits rfl (List.forall_mem_cons.mpr ⟨rfl, ?_⟩)
    exact List.forall_mem_append.mpr ⟨zeros _, areParts⟩
  · split
    · rw [String.toList_append, String.toList_ofList, List.cons_append]
      refine isNumeral_of_digits isDigit ?_
      exact List.forall_mem_append.mpr
        ⟨List.forall_mem_append.mpr ⟨others, zeros _⟩, List.all_eq_true.mp rfl⟩
    · obtain ⟨place, point_eq⟩ : ∃ place, point.toNat = place + 1 :=
        Nat.exists_eq_succ_of_ne_zero (by omega)
      rw [point_eq]
      simp only [String.toList_append, String.toList_ofList, List.take_succ_cons, List.cons_append]
      refine isNumeral_of_digits isDigit (List.forall_mem_append.mpr ⟨?_, ?_⟩)
      · exact List.forall_mem_append.mpr
          ⟨fun char mem => others char (List.mem_of_mem_take mem),
            List.all_eq_true.mp rfl⟩
      · exact fun char mem => areParts char (List.mem_of_mem_drop mem)

/-- A text of digits with an exponent. -/
theorem isNumeral_scientific :
    IsNumeral (Decimal.scientific "e" ⟨digit :: digits, point⟩).toList := by
  obtain ⟨isDigit, others⟩ := List.forall_mem_cons.mp areDigits
  cases digits with
  | nil =>
      have numeral := isNumeral_of_exponent isDigit (List.forall_mem_nil _) (point - 1)
      simpa [Decimal.scientific] using numeral
  | cons next rest =>
      have areParts : ∀ char ∈ '.' :: next :: rest, isDigitOrPoint char = true :=
        List.forall_mem_cons.mpr ⟨rfl, fun char mem => by
          simp [isDigitOrPoint, others char mem]⟩
      simpa [Decimal.scientific] using isNumeral_of_exponent isDigit areParts (point - 1)

end

/-- The text of a positive number. -/
theorem isNumeral_magnitude
    {value : Decimal.Binary64}
    (nonzero : value.isZero = false) :
    IsNumeral (floatFormat.magnitude value).toList := by
  have isDecimal := Decimal.shortest_digits nonzero
  unfold Decimal.Format.magnitude
  generalize Decimal.shortest value = decimal at isDecimal
  obtain ⟨digits, point⟩ := decimal
  obtain ⟨nonempty, areDigits⟩ := isDecimal
  cases digits with
  | nil => exact (nonempty rfl).elim
  | cons digit digits =>
      dsimp only
      split
      · exact isNumeral_positional areDigits point
      · exact isNumeral_scientific areDigits point

end Numerals

/-! ## Literals -/

/-- A token after the sign of its value. -/
def signed
    (isNegative : Bool)
    (token : Token) : List Token :=
  if isNegative then [symbol ['-'], token] else [token]

/-- The tokens of an integer: its sign and its digits. -/
def ofInt (value : Int) : List Token :=
  signed (value < 0) (number (Nat.toDigits 10 value.natAbs))

/-- The tokens of a float: its sign and its magnitude.  Infinities and what is no number are
words. -/
def ofFloat (value : Decimal.Binary64) : List Token :=
  if value.isSpecial then
    if value.fraction = 0 then
      signed value.isNegative (word floatFormat.infinity.toList)
    else
      [word floatFormat.notANumber.toList]
  else if value.isZero then
    signed value.isNegative (number ['0', '.', '0'])
  else
    signed value.isNegative (number (floatFormat.magnitude value).toList)

/-- A sign before a word or a number. -/
theorem Operand.signed
    {isNumber : Bool}
    {text : List Char}
    {token : Token}
    (operand : Operand isNumber text [token])
    (begins : ∀ char ∈ text.head?, isWordPart char = true)
    (isNegative : Bool) :
    Operand isNumber (if isNegative then '-' :: text else text) (signed isNegative token) := by
  cases isNegative with
  | false => exact operand
  | true =>
      have isOperator := UnaryOp.isOperator .neg
      refine ⟨isOperator.spells.append operand.spells fun last isLast char isHead => ?_,
        ?_, operand.ends⟩
      · cases isLast
        refine isOperator.extend?_eq_none (operand.begins char isHead) fun single => ?_
        cases single
        cases begins '-' isHead
      · rintro _ ⟨⟩
        rfl

theorem IsNumeral.signed
    (numeral : IsNumeral digits)
    (isNegative : Bool) :
    Operand true (if isNegative then '-' :: digits else digits)
      (Token.signed isNegative (number digits)) :=
  numeral.operand.signed (fun digit isHead => by simp [isWordPart, numeral.begins digit isHead])
    isNegative

theorem operand_int (value : Int) :
    Operand true (toString value).toList (ofInt value) := by
  rw [toList_intText]
  simpa [ofInt] using (isNumeral_toDigits value.natAbs).signed (value < 0)

theorem operand_float (value : Decimal.Binary64) :
    Operand true (floatFormat.text value).toList (ofFloat value) := by
  have sign_eq (text : String) : ((if value.isNegative then "-" else "") ++ text).toList =
      if value.isNegative then '-' :: text.toList else text.toList := by
    split <;> simp
  unfold Decimal.Format.text ofFloat
  dsimp only
  split
  · split
    · rw [sign_eq]
      exact ((operand_word (by decide)).weaken nofun).signed (by rintro _ ⟨⟩; rfl) _
    · exact (operand_word (by decide)).weaken nofun
  · split
    · rw [sign_eq]
      exact (isNumeral_of_digits rfl (List.all_eq_true.mp rfl)).signed _
    next nonzero =>
      rw [sign_eq]
      exact (isNumeral_magnitude (Bool.of_not_eq_true nonzero)).signed _

end Token
end ModularGlsl
