import ModularGlsl.Proofs.Text.Token

/-!
# Bodies of accessors

The body of an accessor is a block of simple statements and of tests of the index.  A block is
read from its tokens and runs for an index: every test takes the way that the index asks for,
and nothing runs after a statement that returns.
-/

namespace ModularGlsl

/-- The statements of a block, as far as bodies of accessors need them. -/
inductive Block
  /-- The end of the block. -/
  | done
  /-- A simple statement, which ends at its semicolon. -/
  | simple (statement : List Token) (next : Block)
  /-- Two blocks of which one runs, depending on whether the index is below a bound. -/
  | test (bound : Nat) (below above next : Block)
  deriving DecidableEq, Repr, Inhabited

namespace Block

/-- Whether a statement returns. -/
def returns (statement : List Token) : Bool :=
  statement.head? == some (.word ['r', 'e', 't', 'u', 'r', 'n'])

/-- The statements that run for an index, and whether the last one returns. -/
def run (index : Int) : Block -> List (List Token) × Bool
  | done => ([], false)
  | simple statement next =>
      if returns statement then
        ([statement], true)
      else
        let (later, returned) := next.run index
        (statement :: later, returned)
  | test bound below above next =>
      let (inside, returned) := if index < bound then below.run index else above.run index
      if returned then
        (inside, true)
      else
        let (later, returned) := next.run index
        (inside ++ later, returned)

/-- The simple statements in the order of the text. -/
def statements : Block -> List (List Token)
  | done => []
  | simple statement next => statement :: next.statements
  | test _ below above next => below.statements ++ (above.statements ++ next.statements)

/-- The largest number of tests around a statement. -/
def depth : Block -> Nat
  | done => 0
  | simple _ next => next.depth
  | test _ below above next => max (max below.depth above.depth + 1) next.depth

/-! ## Reading -/

/-- The word that begins a test. -/
def ifWord : Token := .word ['i', 'f']

/-- The word between the arms of a test. -/
def elseWord : Token := .word ['e', 'l', 's', 'e']

/-- What begins a block. -/
def opening : Token := .symbol ['\x7b']

/-- What ends a block. -/
def closing : Token := .symbol ['\x7d']

/-- What ends a simple statement. -/
def semicolon : Token := .symbol [';']

/-- What comes after given tokens. -/
def skip : List Token -> List Token -> Option (List Token)
  | [], tokens => some tokens
  | expected :: others, token :: tokens => if token = expected then skip others tokens else none
  | _ :: _, [] => none

/-- The bound of a test of the index, and what comes after it. -/
def readBound (tokens : List Token) : Option (Nat × List Token) := do
  match ← skip [.symbol ['('], .word ['i'], .symbol ['<']] tokens with
  | .number digits :: rest =>
      if digits.all Char.isDigit then
        let rest ← skip [.symbol [')'], opening] rest
        return (Nat.ofDigitChars 10 digits 0, rest)
      else
        none
  | _ => none

/-- Whether a token may stand in a simple statement. -/
def isPlain (token : Token) : Bool :=
  token ∉ [ifWord, elseWord, opening, closing]

/-- A simple statement, and what comes after its semicolon. -/
def readSimple (tokens : List Token) : Option (List Token × List Token) :=
  let statement := tokens.takeWhile (· ≠ semicolon)
  match tokens.dropWhile (· ≠ semicolon) with
  | _ :: rest => if statement.all isPlain then some (statement, rest) else none
  | [] => none

/-- A block up to its end, with at most a given number of statements and of blocks inside
of each other, and what comes after it. -/
def readWithin : Nat -> List Token -> Option (Block × List Token)
  | 0, _ => none
  | _ + 1, [] => some (.done, [])
  | steps + 1, token :: tokens =>
      if token = closing then
        some (.done, token :: tokens)
      else if token = ifWord then do
        let (bound, tokens) ← readBound tokens
        let (below, tokens) ← readWithin steps tokens
        let tokens ← skip [closing, elseWord, opening] tokens
        let (above, tokens) ← readWithin steps tokens
        let tokens ← skip [closing] tokens
        let (next, tokens) ← readWithin steps tokens
        return (.test bound below above next, tokens)
      else do
        let (statement, tokens) ← readSimple (token :: tokens)
        let (next, tokens) ← readWithin steps tokens
        return (.simple statement next, tokens)

/-- The block that a text consists of. -/
def read? (text : String) : Option Block :=
  let tokens := Token.lex text
  match readWithin (tokens.length + 1) tokens with
  | some (block, []) => some block
  | _ => none

example : read? "if(i<1)\x7bx[0]=a;\x7delse\x7bx[1]=a;\x7d" =
    some (.test 1
      (.simple [.word ['x'], .symbol ['['], .number ['0'], .symbol [']'], .symbol ['='],
        .word ['a']] .done)
      (.simple [.word ['x'], .symbol ['['], .number ['1'], .symbol [']'], .symbol ['='],
        .word ['a']] .done)
      .done) := by
  decide +kernel

theorem skip_append (expected rest : List Token) :
    skip expected (expected ++ rest) = some rest := by
  induction expected with
  | nil => rfl
  | cons token expected ih =>
      rw [List.cons_append, skip, if_pos rfl, ih]

/-- At the end of a block there are no statements. -/
theorem readWithin_of_head?
    {rest : List Token}
    (ends : ∀ token ∈ rest.head?, token = closing)
    (steps : Nat) :
    readWithin (steps + 1) rest = some (.done, rest) := by
  cases rest with
  | nil => rfl
  | cons token rest => rw [readWithin, if_pos (ends token rfl)]

/-- Nothing goes on after a semicolon. -/
theorem reads_semicolon : Token.Reads (some semicolon) [] [semicolon] none :=
  Token.reads_nil (Token.extend?_mark (by decide) (by decide))

/-- Nothing goes on after the beginning of a block. -/
theorem reads_opening : Token.Reads (some opening) [] [opening] none :=
  Token.reads_nil (Token.extend?_mark (by decide) (by decide))

/-- Nothing goes on after the end of a block. -/
theorem reads_closing : Token.Reads (some closing) [] [closing] none :=
  Token.reads_nil (Token.extend?_mark (by decide) (by decide))

end Block

end ModularGlsl
