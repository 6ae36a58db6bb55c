import ModularGlsl.Proofs.Naming.Words
import ModularGlsl.Proofs.Text.Token

/-!
# Operands

Two texts that are written one after the other keep their tokens as long as the last token of
the first one does not go on with the first character of the second one.  Operators, signs and
brackets never go on after an operand, and a space stands between equal signs.
-/

namespace ModularGlsl

namespace Token

/-! ## Texts that keep their tokens -/

/-- A text stands for tokens, the last of which may still go on. -/
def Spells
    (text : List Char)
    (tokens : List Token) : Prop :=
  ∃ early last, tokens = early ++ [last] ∧ Reads none text early (some last)

section Spelling

variable {first second : List Char} {early late : List Token} {last : Token}

theorem Spells.ne_nil (spells : Spells first early) :
    first ≠ [] := by
  rintro rfl
  obtain ⟨tokens, last, _, reads⟩ := spells
  have nothing := reads []
  simp [lexFrom] at nothing

theorem Spells.append
    (spells : Spells first early)
    (others : Spells second late)
    (apart : ∀ last ∈ early.getLast?, ∀ char ∈ second.head?,
      last.extend? char = none) :
    Spells (first ++ second) (early ++ late) := by
  obtain ⟨tokens, last, rfl, reads⟩ := spells
  cases second with
  | nil => exact (others.ne_nil rfl).elim
  | cons char second =>
      obtain ⟨others, final, rfl, next⟩ := others
      refine ⟨tokens ++ last :: others, final, by simp, reads.append (next.next ?_)⟩
      exact apart last (by simp) char rfl

/-- A space keeps any two texts apart. -/
theorem Spells.append_space
    (spells : Spells first early)
    (others : Spells second late)
    (ends : ∀ last ∈ early.getLast?, last.extend? ' ' = none) :
    Spells (first ++ ' ' :: second) (early ++ late) := by
  obtain ⟨tokens, last, rfl, reads⟩ := spells
  obtain ⟨others, final, rfl, next⟩ := others
  have spaced : Reads none (' ' :: second) others (some final) := fun rest => next rest
  exact ⟨tokens ++ last :: others, final, by simp,
    reads.append (spaced.next (ends last (by simp)))⟩

/-- The tokens that a text stands for are those of the text alone. -/
theorem Spells.lex_eq
    {text : String}
    (spells : Spells text.toList early) :
    lex text = early := by
  obtain ⟨tokens, last, rfl, reads⟩ := spells
  simpa [lex, lexFrom] using reads []

end Spelling

/-! ## Operands -/

/-- A token goes on with letters, digits and points only; a point counts if what ends in it
may be a number. -/
def Ends
    (isNumber : Bool)
    (last : Token) : Prop :=
  ∀ char, isWordPart char = false -> (char = '.' -> isNumber = false) ->
    last.extend? char = none

/-- Characters that the text of an expression begins with. -/
def isFirst (char : Char) : Bool :=
  isWordPart char || "(+-!".toList.contains char

/-- A text stands for tokens, and brackets and operators may follow it. -/
structure Operand
    (isNumber : Bool)
    (text : List Char)
    (tokens : List Token) : Prop where
  /-- The tokens are those of the text. -/
  spells : Spells text tokens
  /-- The text begins like an expression. -/
  begins : ∀ char ∈ text.head?, isFirst char = true
  /-- The last token ends where an operator follows. -/
  ends : ∀ last ∈ tokens.getLast?, last.Ends isNumber

section Operands

variable {isNumber other : Bool} {text follower : List Char} {tokens others : List Token}

theorem Operand.weaken
    (operand : Operand isNumber text tokens)
    (weaker : isNumber = true -> other = true) :
    Operand other text tokens := by
  refine ⟨operand.spells, operand.begins, fun last isLast char notPart notPoint => ?_⟩
  refine operand.ends last isLast char notPart fun isPoint => ?_
  have noNumber := notPoint isPoint
  cases isNumber with
  | false => rfl
  | true =>
      rw [weaker rfl] at noNumber
      exact noNumber

variable {mark : Char}

/-- Brackets and commas do not go on. -/
theorem extend?_bracket
    (isBracket : mark ∈ "()[],".toList)
    (char : Char) :
    (symbol [mark]).extend? char = none := by
  simp only [String.reduceToList, List.mem_cons, List.not_mem_nil, or_false] at isBracket
  rcases isBracket with rfl | rfl | rfl | rfl | rfl <;>
    exact extend?_mark (by decide) (by decide) char

theorem spells_bracket (isBracket : mark ∈ "()[],".toList) :
    Spells [mark] [symbol [mark]] ∧ isWordPart mark = false ∧ mark ≠ '.' := by
  simp only [String.reduceToList, List.mem_cons, List.not_mem_nil, or_false] at isBracket
  rcases isBracket with rfl | rfl | rfl | rfl | rfl <;>
    exact ⟨⟨[], _, rfl, fun _ => rfl⟩, by decide⟩

section

variable (operand : Operand isNumber text tokens)
include operand

/-- A bracket or a comma after an operand. -/
theorem Operand.close (isBracket : mark ∈ "()[],".toList) :
    Operand false (text ++ [mark]) (tokens ++ [symbol [mark]]) := by
  obtain ⟨spells, notPart, notPoint⟩ := spells_bracket isBracket
  refine ⟨operand.spells.append spells fun last isLast char isFirst => ?_, ?_, ?_⟩
  · cases isFirst
    exact operand.ends last isLast mark notPart (absurd · notPoint)
  · rw [List.head?_append_of_ne_nil _ operand.spells.ne_nil]
    exact operand.begins
  · simp only [List.getLast?_concat, Option.mem_some_iff]
    rintro _ rfl char _ _
    exact extend?_bracket isBracket char

/-- An operand after another one and a mark between them. -/
theorem Operand.join
    (next : Operand other follower others)
    (spells : Spells [mark] [symbol [mark]])
    (notPart : isWordPart mark = false)
    (isPoint : mark = '.' -> isNumber = false)
    (ends : ∀ char ∈ follower.head?, (symbol [mark]).extend? char = none) :
    Operand other (text ++ mark :: follower) (tokens ++ symbol [mark] :: others) := by
  have rest : Spells (mark :: follower) (symbol [mark] :: others) :=
    spells.append next.spells fun last isLast => by
      cases isLast
      exact ends
  refine ⟨operand.spells.append rest fun last isLast char isHead => ?_, ?_, ?_⟩
  · cases isHead
    exact operand.ends last isLast mark notPart isPoint
  · rw [List.head?_append_of_ne_nil _ operand.spells.ne_nil]
    exact operand.begins
  · obtain ⟨_, _, others_eq, _⟩ := next.spells
    rw [List.append_cons, List.getLast?_append_of_ne_nil _ (by simp [others_eq])]
    exact next.ends

/-- An operand after another one and a bracket or a comma. -/
theorem Operand.then
    (isBracket : mark ∈ "()[],".toList)
    (next : Operand other follower others) :
    Operand other (text ++ mark :: follower) (tokens ++ symbol [mark] :: others) := by
  obtain ⟨spells, notPart, notPoint⟩ := spells_bracket isBracket
  exact operand.join next spells notPart (absurd · notPoint) fun char _ =>
    extend?_bracket isBracket char

theorem Operand.comma (next : Operand other follower others) :
    Operand other (text ++ ',' :: follower) (tokens ++ symbol [','] :: others) :=
  operand.then (by decide) next

theorem Operand.index (position : Operand other follower others) :
    Operand false (text ++ '[' :: (follower ++ [']']))
      (tokens ++ symbol ['['] :: (others ++ [symbol [']']])) :=
  operand.then (by decide) (position.close (by decide))

theorem Operand.call (list : Operand other follower others) :
    Operand false (text ++ '(' :: (follower ++ [')']))
      (tokens ++ symbol ['('] :: (others ++ [symbol [')']])) :=
  operand.then (by decide) (list.close (by decide))

theorem Operand.emptyCall :
    Operand false (text ++ ['('] ++ [')']) (tokens ++ [symbol ['(']] ++ [symbol [')']]) := by
  have opened : Operand false (text ++ ['(']) (tokens ++ [symbol ['(']]) :=
    operand.close (by decide)
  exact opened.close (by decide)

theorem Operand.paren :
    Operand false ('(' :: (text ++ [')'])) (symbol ['('] :: (tokens ++ [symbol [')']])) := by
  have opening : Spells ['('] [symbol ['(']] := ⟨[], _, rfl, fun _ => rfl⟩
  have closed : Operand false (text ++ [')']) (tokens ++ [symbol [')']]) :=
    operand.close (by decide)
  refine ⟨opening.append closed.spells fun last isLast char _ => ?_, ?_, ?_⟩
  · cases isLast
    exact extend?_bracket (by decide) char
  · rintro _ ⟨⟩
    rfl
  · rw [← List.cons_append, List.getLast?_concat]
    rintro _ ⟨⟩ char _ _
    exact extend?_bracket (by decide) char

end

/-! ## Operators -/

/-- Characters stand for one symbol that may follow an operand. -/
structure IsOperator (marks : List Char) : Prop where
  /-- The symbol is that of the characters. -/
  spells : Spells marks [symbol marks]
  /-- The first character does not go on with a word or a number. -/
  plain : ∀ char ∈ marks.head?, isWordPart char = false ∧ char ≠ '.'

theorem BinaryOp.isOperator (op : BinaryOp) : IsOperator op.spelling.toList := by
  cases op <;> exact ⟨⟨[], _, rfl, fun _ => rfl⟩, by rintro _ ⟨⟩; decide⟩

theorem UnaryOp.isOperator (op : UnaryOp) : IsOperator op.spelling.toList := by
  cases op <;> exact ⟨⟨[], _, rfl, fun _ => rfl⟩, by rintro _ ⟨⟩; decide⟩

/-- Only equal signs fuse with the beginning of an operand. -/
theorem IsOperator.extend?_eq_none
    {marks : List Char}
    (isOperator : IsOperator marks)
    {char : Char}
    (isFirst : isFirst char = true)
    (apart : marks = [char] -> char ≠ '+' ∧ char ≠ '-') :
    (symbol marks).extend? char = none := by
  have signs : longSymbols.all (fun long => !long.getLast?.any Token.isFirst ||
      long.dropLast == long.getLast?.toList &&
        long.getLast?.any (fun sign => sign == '+' || sign == '-')) = true := by decide
  refine extend?_symbol (fun isLong => ?_) ?_
  · have isSign := List.all_eq_true.mp signs _ isLong
    simp only [List.getLast?_concat, Option.any_some, isFirst, List.dropLast_concat, Bool.not_true,
      Bool.false_or, Option.toList_some, Bool.and_eq_true, Bool.or_eq_true, beq_iff_eq] at isSign
    exact isSign.2.elim (apart isSign.1).1 (apart isSign.1).2
  · rintro rfl
    exact ((isOperator.plain '.' rfl).2 rfl).elim

variable {operand op : String}

theorem Operand.spells_operatorThen
    (isOperand : Operand isNumber operand.toList tokens)
    (isOperator : IsOperator op.toList) :
    Spells (operatorThen op operand).toList (symbol op.toList :: tokens) := by
  unfold operatorThen
  split
  · have noSpace : longSymbols.all (fun long => long.getLast? != some ' ') = true := by decide
    have text_eq : (s!"{op} {operand}").toList = op.toList ++ ' ' :: operand.toList := by
      simp [toString]
    rw [text_eq]
    refine isOperator.spells.append_space isOperand.spells fun last isLast => ?_
    obtain rfl := Option.some.inj isLast
    refine extend?_symbol (fun isLong => ?_) fun _ => rfl
    simpa using List.all_eq_true.mp noSpace _ isLong
  next apart =>
    rw [String.toList_append]
    refine isOperator.spells.append isOperand.spells fun last isLast char isHead => ?_
    cases isLast
    refine isOperator.extend?_eq_none (isOperand.begins char isHead) fun single => ?_
    obtain ⟨rest, operand_eq⟩ : ∃ rest, operand.toList = char :: rest :=
      List.head?_eq_some_iff.mp isHead
    constructor <;>
    · rintro rfl
      refine apart ?_
      simp [fuses, single, operand_eq, ← String.toList_inj]

theorem IsOperator.head?_operatorThen
    (isOperator : IsOperator op.toList)
    (operand : String) :
    (operatorThen op operand).toList.head? = op.toList.head? := by
  have nonempty := isOperator.spells.ne_nil
  unfold operatorThen
  split <;> simp [toString, List.head?_append_of_ne_nil _ nonempty]

theorem Operand.binary
    {left right : String}
    (isLeft : Operand isNumber left.toList tokens)
    (isOperator : IsOperator op.toList)
    (isRight : Operand other right.toList others) :
    Operand other (left ++ operatorThen op right).toList
      (tokens ++ symbol op.toList :: others) := by
  rw [String.toList_append]
  refine ⟨isLeft.spells.append (isRight.spells_operatorThen isOperator)
    fun last isLast char isHead => ?_, ?_, ?_⟩
  · rw [isOperator.head?_operatorThen] at isHead
    have plain := isOperator.plain char isHead
    exact isLeft.ends last isLast char plain.1 (absurd · plain.2)
  · rw [List.head?_append_of_ne_nil _ isLeft.spells.ne_nil]
    exact isLeft.begins
  · obtain ⟨_, _, others_eq, _⟩ := isRight.spells
    rw [List.append_cons, List.getLast?_append_of_ne_nil _ (by simp [others_eq])]
    exact isRight.ends

theorem Operand.unary
    (isOperand : Operand isNumber operand.toList tokens)
    (isOperator : IsOperator op.toList)
    (isSign : ∀ char ∈ op.toList.head?, isFirst char = true) :
    Operand isNumber (operatorThen op operand).toList (symbol op.toList :: tokens) := by
  refine ⟨isOperand.spells_operatorThen isOperator, ?_, ?_⟩
  · rw [isOperator.head?_operatorThen]
    exact isSign
  · obtain ⟨_, _, tokens_eq, _⟩ := isOperand.spells
    rw [← List.singleton_append, List.getLast?_append_of_ne_nil _ (by simp [tokens_eq])]
    exact isOperand.ends

/-! ## Names -/

section Names

variable {name : String}

theorem startsWord_of_isIdentifier (isName : isIdentifier name = true) :
    ∃ letter rest, name.toList = letter :: rest ∧ isLetter letter = true := by
  have starts := ((Bool.and_eq_true _ _).mp isName).1
  rw [startsWord] at starts
  cases name_eq : name.toList with
  | nil => simp [name_eq] at starts
  | cons letter rest => exact ⟨letter, rest, rfl, by simpa [isLetter, name_eq] using starts⟩

/-- The text of a name. -/
theorem operand_word (isName : isIdentifier name = true) :
    Operand false name.toList [word name.toList] := by
  have areParts (letter : Char) (mem : letter ∈ name.toList) : isWordPart letter = true := by
    have isPart := List.all_eq_true.mp ((Bool.and_eq_true _ _).mp isName).2 letter mem
    simp only [Char.isAlphanum, Bool.or_eq_true, isWordPart, isLetter] at isPart ⊢
    tauto
  obtain ⟨letter, rest, name_eq, isLetter⟩ := startsWord_of_isIdentifier isName
  rw [name_eq] at areParts ⊢
  refine ⟨⟨[], _, rfl, ?_⟩, ?_, ?_⟩
  · refine Reads.begin ?_ (areParts letter List.mem_cons_self)
    rw [start_letter isLetter]
    refine reads_longer word (fun char mem known => ?_) [letter]
    simp [extend?, areParts char (List.mem_cons_of_mem _ mem)]
  · rintro _ ⟨⟩
    simp [isFirst, areParts letter List.mem_cons_self]
  · rintro _ ⟨⟩ char notPart _
    simp [extend?, notPart]

theorem Operand.member
    (operand : Operand false text tokens)
    (isName : isIdentifier name = true) :
    Operand false (text ++ '.' :: name.toList) (tokens ++ [symbol ['.'], word name.toList]) := by
  refine operand.join (operand_word isName) ⟨[], _, rfl, fun _ => rfl⟩ rfl (fun _ => rfl) ?_
  obtain ⟨letter, rest, name_eq, isLetter⟩ := startsWord_of_isIdentifier isName
  rw [name_eq]
  rintro _ ⟨⟩
  refine extend?_symbol (fun isLong => ?_) fun _ => isDigit_eq_false isLetter
  have noPoint : longSymbols.all (fun long => long.head? != some '.') = true := by decide
  simpa using List.all_eq_true.mp noPoint _ isLong

end Names

end Operands

end Token

end ModularGlsl
