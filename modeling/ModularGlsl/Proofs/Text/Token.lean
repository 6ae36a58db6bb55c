import ModularGlsl.Text.Piece

/-!
# Tokens

A text of the output language stands for a sequence of tokens: words, numbers and symbols.
Every token is as long as it can be, and blanks between tokens are of no interest.  A text
whose last token cannot grow stands for the same tokens whatever comes after it, so such
texts are read one after the other.
-/

namespace ModularGlsl

/-- A token of the output language. -/
inductive Token
  /-- A name or a keyword. -/
  | word (letters : List Char)
  /-- A number. -/
  | number (digits : List Char)
  /-- A symbol of one or more characters. -/
  | symbol (marks : List Char)
  /-- A directive, up to the end of its line. -/
  | directive (line : List Char)
  deriving DecidableEq, Repr, Inhabited

variable {tokens : List Token}

namespace Token

/-- Characters that only separate tokens. -/
def isBlank (char : Char) : Bool :=
  char ∈ [' ', '\t', '\n', '\r', '\x0b', '\x0c']

/-- Characters that a word may begin with. -/
def isLetter (char : Char) : Bool :=
  char.isAlpha || char == '_'

/-- Characters that a word may go on with. -/
def isWordPart (char : Char) : Bool :=
  isLetter char || char.isDigit

/-- The symbols of more than one character, each of which begins with a shorter one.
Those that begin a comment are among them. -/
def longSymbols : List (List Char) :=
  [['+', '+'], ['-', '-'], ['+', '='], ['-', '='], ['*', '='], ['/', '='], ['%', '='],
    ['&', '='], ['|', '='], ['^', '='], ['=', '='], ['!', '='], ['<', '='], ['>', '='],
    ['<', '<'], ['>', '>'], ['<', '<', '='], ['>', '>', '='], ['&', '&'], ['|', '|'],
    ['^', '^'], ['/', '/'], ['/', '*']]

/-- The token that a character begins. -/
def start (char : Char) : Token :=
  if char.isDigit then
    number [char]
  else if isLetter char then
    word [char]
  else if char = '#' then
    directive [char]
  else
    symbol [char]

/-- Whether a character is a sign after the mark of an exponent.  Hexadecimal numbers have
no exponents. -/
def isExponentSign
    (digits : List Char)
    (char : Char) : Bool :=
  (char == '+' || char == '-') &&
    (digits.getLast? == some 'e' || digits.getLast? == some 'E') &&
    digits[1]? != some 'x' && digits[1]? != some 'X'

/-- The longer token that a character makes of one. -/
def extend?
    (token : Token)
    (char : Char) : Option Token :=
  match token with
  | word letters =>
      if isWordPart char then some (word (letters ++ [char])) else none
  | number digits =>
      if isWordPart char || char == '.' || isExponentSign digits char then
        some (number (digits ++ [char]))
      else
        none
  | symbol marks =>
      if marks ++ [char] ∈ longSymbols then
        some (symbol (marks ++ [char]))
      else if marks = ['.'] ∧ char.isDigit then
        some (number (marks ++ [char]))
      else
        none
  | directive line => if char = '\n' then none else some (directive (line ++ [char]))

/-- The tokens of a text after the beginning of a token. -/
def lexFrom : Option Token -> List Char -> List Token
  | current, [] => current.toList
  | current, char :: rest =>
      match current.bind (·.extend? char) with
      | some longer => lexFrom (some longer) rest
      | none =>
          current.toList ++
            lexFrom (if isBlank char then none else some (start char)) rest

/-- The tokens of a text. -/
def lex (text : String) : List Token :=
  lexFrom none text.toList

example : lex "x[12]+=.5e-3;" =
    [.word ['x'], .symbol ['['], .number ['1', '2'], .symbol [']'], .symbol ['+', '='],
      .number ['.', '5', 'e', '-', '3'], .symbol [';']] := by
  decide

/-! ## Texts one after the other -/

/-- After the beginning of a token, a text completes tokens and leaves the beginning of
another one, whatever comes after it. -/
def Reads
    (before : Option Token)
    (text : List Char)
    (tokens : List Token)
    (after : Option Token) : Prop :=
  ∀ rest, lexFrom before (text ++ rest) = tokens ++ lexFrom after rest

variable {after : Option Token} {early late : List Token}

theorem Reads.append
    {before between : Option Token}
    {first second : List Char}
    (firstReads : Reads before first early between)
    (secondReads : Reads between second late after) :
    Reads before (first ++ second) (early ++ late) after := by
  intro rest
  rw [List.append_assoc, firstReads, secondReads, List.append_assoc]

theorem Reads.lex_eq
    {text : String}
    (reads : Reads none text.toList tokens none) :
    lex text = tokens := by
  have whole := reads []
  rwa [List.append_nil, lexFrom, Option.toList_none, List.append_nil] at whole

variable {text characters : List Char}

theorem reads_blanks (blank : ∀ char ∈ text, isBlank char = true) :
    Reads none text [] none := by
  intro rest
  induction text with
  | nil => rfl
  | cons char text ih =>
      obtain ⟨isBlank, others⟩ := List.forall_mem_cons.mp blank
      rw [List.cons_append, lexFrom, Option.bind_none, if_pos isBlank]
      exact ih others

theorem reads_nil
    {token : Token}
    (closed : ∀ char, token.extend? char = none) :
    Reads (some token) [] [token] none := by
  intro rest
  cases rest with
  | nil => rfl
  | cons char rest =>
      rw [List.nil_append, lexFrom, lexFrom, Option.bind_some, closed, Option.bind_none]
      rfl

variable {char mark : Char}

/-- A symbol ends where it makes no longer one and begins no number. -/
theorem extend?_symbol
    {marks : List Char}
    (isLast : marks ++ [char] ∉ longSymbols)
    (notPoint : marks = ['.'] -> char.isDigit = false) :
    (symbol marks).extend? char = none := by
  unfold extend?
  dsimp only
  rw [if_neg isLast, if_neg]
  rintro ⟨isPoint, isDigit⟩
  rw [notPoint isPoint] at isDigit
  cases isDigit

/-- A symbol that begins no longer one cannot grow. -/
theorem extend?_mark
    (notPoint : mark ≠ '.')
    (isLast : ∀ symbol ∈ longSymbols, symbol.head? ≠ some mark)
    (char : Char) :
    (symbol [mark]).extend? char = none :=
  extend?_symbol (fun isLong => isLast _ isLong rfl) (by simp [notPoint])

/-- Characters that make a token longer one by one. -/
theorem reads_longer
    (token : List Char -> Token)
    (grows : ∀ char ∈ characters, ∀ known,
      (token known).extend? char = some (token (known ++ [char])))
    (known : List Char) :
    Reads (some (token known)) characters [] (some (token (known ++ characters))) := by
  intro rest
  induction characters generalizing known with
  | nil => rw [List.append_nil, List.nil_append, List.nil_append]
  | cons char characters ih =>
      obtain ⟨longer, others⟩ := List.forall_mem_cons.mp grows
      rw [List.cons_append, lexFrom, Option.bind_some, longer]
      dsimp only
      rw [ih others, List.append_assoc, List.singleton_append]

/-- A number goes on with letters, digits and points. -/
theorem reads_number
    (areParts : ∀ char ∈ characters, isWordPart char = true ∨ char = '.')
    (known : List Char) :
    Reads (some (number known)) characters [] (some (number (known ++ characters))) := by
  refine reads_longer number (fun char mem known => ?_) known
  rcases areParts char mem with isPart | rfl
  · simp [extend?, isPart]
  · simp [extend?]

theorem isDigit_eq_false_of_mem_longSymbols :
    ∀ symbol ∈ longSymbols, ∀ mark ∈ symbol, mark.isDigit = false := by
  have noDigits : longSymbols.all (·.all (!·.isDigit)) = true := by decide
  intro symbol isLong mark mem
  have noDigit := List.all_eq_true.mp noDigits symbol isLong
  exact Bool.not_eq_eq_eq_not.mp (List.all_eq_true.mp noDigit mark mem)

theorem isBlank_eq_false (isPart : isWordPart char = true) :
    isBlank char = false := by
  rw [isBlank, decide_eq_false_iff_not]
  intro blank
  simp only [List.mem_cons, List.not_mem_nil, or_false] at blank
  rcases blank with rfl | rfl | rfl | rfl | rfl | rfl <;> cases isPart

theorem isDigit_eq_false (isLetter : isLetter char = true) :
    char.isDigit = false := by
  rcases (Bool.or_eq_true _ _).mp isLetter with isAlpha | isLine
  · rw [Bool.eq_false_iff]
    intro isDigit
    have below := of_decide_eq_true ((Bool.and_eq_true _ _).mp isDigit).2
    rcases (Bool.or_eq_true _ _).mp isAlpha with isUpper | isLower
    · exact absurd (UInt32.le_trans (of_decide_eq_true isUpper).1 below) (by decide)
    · have above := of_decide_eq_true ((Bool.and_eq_true _ _).mp isLower).1
      exact absurd (UInt32.le_trans above below) (by decide)
  · rw [beq_iff_eq.mp isLine]
    rfl

theorem start_letter (isLetter : isLetter char = true) :
    start char = word [char] := by
  rw [start, isDigit_eq_false isLetter, if_neg Bool.false_ne_true, if_pos isLetter]

/-- A character that is not blank begins a token. -/
theorem Reads.begin
    (reads : Reads (some (start char)) text tokens after)
    (isPart : isWordPart char = true) :
    Reads none (char :: text) tokens after := by
  intro rest
  rw [List.cons_append, lexFrom, Option.bind_none, isBlank_eq_false isPart]
  exact reads rest

/-- A text after a token that does not go on with it. -/
theorem Reads.next
    {last : Token}
    (reads : Reads none (char :: text) tokens after)
    (apart : last.extend? char = none) :
    Reads (some last) (char :: text) (last :: tokens) after := by
  intro rest
  have fromStart := reads rest
  rw [List.cons_append, lexFrom, Option.bind_some, apart]
  exact congrArg (last :: ·) fromStart

/-- Digits and points after a digit are a number. -/
theorem reads_digits
    {digit : Char}
    {digits : List Char}
    (isDigit : digit.isDigit = true)
    (areParts : ∀ char ∈ digits, isWordPart char = true ∨ char = '.') :
    Reads none (digit :: digits) [] (some (number (digit :: digits))) := by
  refine Reads.begin ?_ (by simp [isWordPart, isDigit])
  rw [start, if_pos isDigit]
  exact reads_number areParts [digit]

/-- The digits of a number after a symbol. -/
theorem reads_toDigits
    (notPoint : mark ≠ '.')
    (value : Nat) :
    Reads (some (symbol [mark])) (Nat.toDigits 10 value) [symbol [mark]]
      (some (number (Nat.toDigits 10 value))) := by
  have areDigits : ∀ digit ∈ Nat.toDigits 10 value, digit.isDigit = true :=
    fun digit mem => Nat.isDigit_of_mem_toDigits (by decide) (by decide) mem
  cases digits_eq : Nat.toDigits 10 value with
  | nil => exact (Nat.toDigits_ne_nil digits_eq).elim
  | cons digit digits =>
      rw [digits_eq] at areDigits
      obtain ⟨isDigit, others⟩ := List.forall_mem_cons.mp areDigits
      have areParts (digit : Char) (mem : digit ∈ digits) :
          isWordPart digit = true ∨ digit = '.' := by simp [isWordPart, others digit mem]
      refine (reads_digits isDigit areParts).next ?_
      refine extend?_symbol (fun isLong => ?_) (by simp [notPoint])
      have isMark := isDigit_eq_false_of_mem_longSymbols _ isLong digit (by simp)
      rw [isDigit] at isMark
      cases isMark

/-- A text with a number between two fixed parts. -/
theorem reads_numeral
    (notPoint : mark ≠ '.')
    {left right : String}
    {value : Nat}
    (leftReads : Reads none left.toList early (some (symbol [mark])))
    (rightReads : Reads (some (number (Nat.toDigits 10 value))) right.toList late none) :
    Reads none (left ++ toString value ++ right).toList (early ++ symbol [mark] :: late) none := by
  have text_eq : (left ++ toString value ++ right).toList =
      left.toList ++ (Nat.toDigits 10 value ++ right.toList) := by
    simp
  rw [text_eq]
  exact leftReads.append ((reads_toDigits notPoint value).append rightReads)

end Token

/-- Spacing that separates tokens and stands for none. -/
structure Spacing.IsBlank (spacing : Spacing) : Prop where
  /-- Line breaks are blank. -/
  newline : spacing.newline.toList.all Token.isBlank = true
  /-- Indentation is blank. -/
  tab : spacing.tab.toList.all Token.isBlank = true

/-- Line breaks and indentation are blank. -/
theorem Spacing.IsBlank.isBlank
    {spacing : Spacing}
    (blank : spacing.IsBlank)
    (piece : Piece)
    (noText : ∀ content, piece ≠ .text content) :
    ∀ char ∈ (piece.render spacing).toList, Token.isBlank char = true := by
  cases piece with
  | text content => exact (noText content rfl).elim
  | newline => exact List.all_eq_true.mp blank.newline
  | indent depth =>
      simp only [Piece.render, String.toList_join, List.mem_flatMap, List.mem_replicate]
      rintro char ⟨_, ⟨_, rfl⟩, mem⟩
      exact List.all_eq_true.mp blank.tab char mem

theorem Token.reads_line
    {spacing : Spacing}
    (blank : spacing.IsBlank)
    {text : String}
    (reads : Reads none text.toList tokens none)
    (nesting : Nat) :
    Reads none (render spacing [.indent nesting, .text text, .newline]).toList tokens none := by
  have line_eq : (render spacing [.indent nesting, .text text, .newline]).toList =
      ((Piece.indent nesting).render spacing).toList ++
        (text.toList ++ (Piece.newline.render spacing).toList) := by
    simp [render, Piece.render]
  have whole := (reads_blanks (blank.isBlank (.indent nesting) (by simp))).append
    (reads.append (reads_blanks (blank.isBlank .newline (by simp))))
  rwa [← line_eq, List.nil_append, List.append_nil] at whole

end ModularGlsl
