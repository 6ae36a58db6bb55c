import Mathlib.Data.Nat.Log
import ModularGlsl.Accessor.Bisection
import ModularGlsl.Proofs.Accessor.Block

/-!
# Bisections reach the requested element

The text of a bisection is read back: its tokens form nested tests of the index around
simple statements, and a run of them takes one way through the tests.  The way ends at the
element with the index, or at the nearest one if there is none.  All elements stand in the
text in order, and no way has more tests than it takes to tell them apart.
-/

namespace ModularGlsl

/-! ## Trees -/

/-- The recursion that halves a range until single indices are left, without a bound on its
steps. -/
inductive Bisection.Halves : Nat -> Nat -> Bisection -> Prop
  | single
      {first last : Nat}
      (isSingle : last ≤ first + 1) :
      Halves first last (.leaf first)
  | halve
      {first last : Nat}
      {below above : Bisection}
      (isWide : first + 1 < last)
      (isBelow : Halves first ((first + last + 1) / 2) below)
      (isAbove : Halves ((first + last + 1) / 2) last above) :
      Halves first last (.test ((first + last + 1) / 2) below above)

namespace Bisection

variable {steps first last : Nat}

/-- With as many steps as there are indices, the recursion comes to an end. -/
theorem halves_halve (enough : last ≤ first + steps) :
    Halves first last (halve steps first last) := by
  induction steps generalizing first last with
  | zero => exact .single (by omega)
  | succ steps ih =>
      rw [halve]
      split
      next isSingle => exact .single isSingle
      next isWide =>
        exact .halve (by omega) (ih (by omega)) (ih (by omega))

section Halved

variable {tree other : Bisection}

section

variable (halves : Halves first last tree)
include halves

theorem Halves.unique (otherHalves : Halves first last other) :
    tree = other := by
  induction halves generalizing other with
  | single isSingle =>
      cases otherHalves with
      | single => rfl
      | halve isWide => omega
  | halve isWide _ _ inBelow inAbove =>
      cases otherHalves with
      | single isSingle => omega
      | halve _ isBelow isAbove => rw [inBelow isBelow, inAbove isAbove]

theorem Halves.select_eq
    (nonempty : first < last)
    (index : Int) :
    (tree.select index : Int) = max (first : Int) (min index (last - 1)) := by
  induction halves with
  | single isSingle =>
      rw [select]
      omega
  | @halve first last below above isWide _ _ inBelow inAbove =>
      rw [select]
      split <;> omega

theorem Halves.leaves_eq (nonempty : first < last) :
    tree.leaves = List.range' first (last - first) := by
  induction halves with
  | @single first last isSingle =>
      have length_eq : last - first = 1 := by omega
      rw [leaves, length_eq]
      rfl
  | @halve first last below above isWide _ _ inBelow inAbove =>
      have start_eq : (first + last + 1) / 2 = first + ((first + last + 1) / 2 - first) := by omega
      have length_eq : last - first =
          ((first + last + 1) / 2 - first) + (last - (first + last + 1) / 2) := by omega
      rw [leaves, inBelow (by omega), inAbove (by omega), length_eq, ← List.range'_append_1,
        ← start_eq]

theorem Halves.depth_eq (nonempty : first < last) :
    tree.depth = Nat.clog 2 (last - first) := by
  induction halves with
  | @single first last isSingle =>
      rw [depth, Nat.clog_of_right_le_one (by omega)]
  | @halve first last below above isWide _ _ inBelow inAbove =>
      -- The middle is rounded up, so the longest way goes through the lower half.
      have below_eq : (first + last + 1) / 2 - first = (last - first + 2 - 1) / 2 := by omega
      have above_le : last - (first + last + 1) / 2 ≤ (last - first + 2 - 1) / 2 := by omega
      rw [depth, inBelow (by omega), inAbove (by omega), below_eq,
        max_eq_left (Nat.clog_mono_right 2 above_le),
        ← Nat.clog_of_two_le Nat.one_lt_two (by omega)]

end

end Halved

/-! ## Tokens and blocks -/

/-- The tokens of the statement for a single element, without its semicolon. -/
def statement
    (kind : AccessorKind)
    (element : Nat) : List Token :=
  let target : List Token :=
    [.word ['x'], .symbol ['['], .number (Nat.toDigits 10 element), .symbol [']']]
  match kind with
  | .get => .word ['r', 'e', 't', 'u', 'r', 'n'] :: target
  | .set => target ++ [.symbol ['='], .word ['a']]

/-- The tokens of the test of a bound. -/
def testTokens (bound : Nat) : List Token :=
  [Block.ifWord, .symbol ['('], .word ['i'], .symbol ['<'], .number (Nat.toDigits 10 bound),
    .symbol [')'], Block.opening]

/-- The tokens of nested tests. -/
def tokens (kind : AccessorKind) : Bisection -> List Token
  | leaf element => statement kind element ++ [Block.semicolon]
  | test bound below above =>
      testTokens bound ++ (below.tokens kind ++
        ([Block.closing, Block.elseWord, Block.opening] ++ (above.tokens kind ++ [Block.closing])))

/-- Nested tests as a block. -/
def toBlock (kind : AccessorKind) : Bisection -> Block
  | leaf element => .simple (statement kind element) .done
  | test bound below above => .test bound (below.toBlock kind) (above.toBlock kind) .done

section

variable (kind : AccessorKind) (tree : Bisection)
include kind tree

theorem run_toBlock
    (index : Int) :
    (tree.toBlock kind).run index = ([statement kind (tree.select index)], kind == .get) := by
  induction tree with
  | leaf element => cases kind <;> rfl
  | test bound below above inBelow inAbove =>
      rw [toBlock, Block.run, select]
      by_cases isBelow : index < bound
      · rw [if_pos isBelow, if_pos isBelow, inBelow]
        cases kind <;> rfl
      · rw [if_neg isBelow, if_neg isBelow, inAbove]
        cases kind <;> rfl

theorem statements_toBlock :
    (tree.toBlock kind).statements = tree.leaves.map (statement kind) := by
  induction tree with
  | leaf element => rfl
  | test bound below above inBelow inAbove =>
      rw [toBlock, Block.statements, leaves, List.map_append, inBelow, inAbove, Block.statements,
        List.append_nil]

theorem depth_toBlock :
    (tree.toBlock kind).depth = tree.depth := by
  induction tree with
  | leaf element => rfl
  | test bound below above inBelow inAbove =>
      rw [toBlock, Block.depth, depth, inBelow, inAbove, Block.depth, Nat.max_zero]

end

/-! ## The tokens are read as the block -/

theorem readBound_testTokens
    (bound : Nat)
    (rest : List Token) :
    Block.readBound ((testTokens bound).tail ++ rest) = some (bound, rest) := by
  have areDigits : (Nat.toDigits 10 bound).all Char.isDigit = true :=
    List.all_eq_true.mpr fun digit mem =>
      Nat.isDigit_of_mem_toDigits (by decide) (by decide) mem
  have early : Block.skip [.symbol ['('], .word ['i'], .symbol ['<']]
      ((testTokens bound).tail ++ rest) =
        some (.number (Nat.toDigits 10 bound) :: ([.symbol [')'], Block.opening] ++ rest)) :=
    Block.skip_append _ _
  have late := Block.skip_append [.symbol [')'], Block.opening] rest
  rw [Block.readBound, early]
  simp only [Option.bind_eq_bind, Option.bind_some, areDigits, if_true]
  rw [late, Nat.ofDigitChars_ten_toDigits]
  rfl

section

variable (kind : AccessorKind)

theorem readSimple_statement
    (element : Nat)
    (rest : List Token) :
    Block.readSimple (statement kind element ++ Block.semicolon :: rest) =
      some (statement kind element, rest) := by
  have inside : ∀ token ∈ statement kind element, decide (token ≠ Block.semicolon) = true := by
    cases kind <;> simp [statement, Block.semicolon]
  have isPlain : (statement kind element).all Block.isPlain = true := by
    cases kind <;> rfl
  have ends : decide (Block.semicolon ≠ Block.semicolon) = false := by decide
  have statement_eq : (statement kind element ++ Block.semicolon :: rest).takeWhile
      (· ≠ Block.semicolon) = statement kind element := by
    rw [List.takeWhile_append_of_pos inside, List.takeWhile_cons, ends]
    exact List.append_nil _
  have rest_eq : (statement kind element ++ Block.semicolon :: rest).dropWhile
      (· ≠ Block.semicolon) = Block.semicolon :: rest := by
    rw [List.dropWhile_append_of_pos inside, List.dropWhile_cons, ends]
    rfl
  rw [Block.readSimple, statement_eq, rest_eq]
  dsimp only
  rw [isPlain, if_pos rfl]

theorem exists_statement_eq (element : Nat) :
    ∃ token others, statement kind element = token :: others ∧ token ≠ Block.closing ∧
      token ≠ Block.ifWord := by
  cases kind with
  | get | set => exact ⟨_, _, rfl, by decide, by decide⟩

/-- The tokens of a tree are read as its block, up to the end of a block. -/
theorem readWithin_tokens
    (tree : Bisection)
    {rest : List Token}
    (ends : ∀ token ∈ rest.head?, token = Block.closing)
    (enough : tree.depth + 2 ≤ steps) :
    Block.readWithin steps (tree.tokens kind ++ rest) = some (tree.toBlock kind, rest) := by
  induction tree generalizing rest steps with
  | leaf element =>
      -- One step is for the statement, the other for the end of the block.
      obtain ⟨steps, rfl⟩ : ∃ fewer, steps = fewer + 2 := ⟨steps - 2, by omega⟩
      obtain ⟨token, others, statement_eq, notClosing, notTest⟩ := exists_statement_eq kind element
      have read := readSimple_statement kind element rest
      rw [tokens, toBlock, List.append_assoc, List.singleton_append]
      rw [statement_eq, List.cons_append] at read ⊢
      rw [Block.readWithin, if_neg notClosing, if_neg notTest, read]
      simp only [Option.bind_eq_bind, Option.bind_some]
      rw [Block.readWithin_of_head? ends]
      rfl
  | test bound below above inBelow inAbove =>
      rw [depth] at enough
      obtain ⟨steps, rfl⟩ : ∃ fewer, steps = fewer + 2 := ⟨steps - 2, by omega⟩
      have tokens_eq : tokens kind (test bound below above) ++ rest =
          Block.ifWord :: ((testTokens bound).tail ++ (below.tokens kind ++
            ([Block.closing, Block.elseWord, Block.opening] ++
              (above.tokens kind ++ ([Block.closing] ++ rest))))) := by
        simp [tokens, testTokens]
      have belowRead (others rest : List Token) :
          Block.readWithin (steps + 1) (below.tokens kind ++ (Block.closing :: others ++ rest)) =
            some (below.toBlock kind, Block.closing :: others ++ rest) :=
        inBelow (by simp) (by omega)
      have aboveRead (others rest : List Token) :
          Block.readWithin (steps + 1) (above.tokens kind ++ (Block.closing :: others ++ rest)) =
            some (above.toBlock kind, Block.closing :: others ++ rest) :=
        inAbove (by simp) (by omega)
      rw [tokens_eq, toBlock, Block.readWithin, if_neg (by decide), if_pos rfl,
        readBound_testTokens]
      simp only [Option.bind_eq_bind, Option.bind_some]
      rw [belowRead]
      simp only [Option.bind_some]
      rw [Block.skip_append]
      simp only [Option.bind_some]
      rw [aboveRead]
      simp only [Option.bind_some]
      rw [Block.skip_append]
      simp only [Option.bind_some]
      rw [Block.readWithin_of_head? ends]
      rfl

/-! ## The text has these tokens -/

/-- The text of the statement for an element. -/
theorem reads_leafText (element : Nat) :
    Token.Reads none (leafText kind element).toList (statement kind element ++ [Block.semicolon])
      none := by
  have notPoint : '[' ≠ '.' := by decide
  cases kind with
  | get =>
      have left : Token.Reads none "return x[".toList
          [.word ['r', 'e', 't', 'u', 'r', 'n'], .word ['x']] (some (.symbol ['['])) :=
        fun _ => rfl
      have right : Token.Reads (some (.number (Nat.toDigits 10 element))) "];".toList
          [.number (Nat.toDigits 10 element), .symbol [']']] (some Block.semicolon) :=
        fun _ => rfl
      exact Token.reads_numeral notPoint left (right.append Block.reads_semicolon)
  | set =>
      have left : Token.Reads none "x[".toList [.word ['x']] (some (.symbol ['['])) :=
        fun _ => rfl
      have right : Token.Reads (some (.number (Nat.toDigits 10 element))) "]=a;".toList
          [.number (Nat.toDigits 10 element), .symbol [']'], .symbol ['='], .word ['a']]
          (some Block.semicolon) :=
        fun _ => rfl
      exact Token.reads_numeral notPoint left (right.append Block.reads_semicolon)

theorem reads_testText (bound : Nat) :
    Token.Reads none s!"if(i<{bound})\x7b".toList (testTokens bound) none := by
  have left : Token.Reads none "if(i<".toList [Block.ifWord, .symbol ['('], .word ['i']]
      (some (.symbol ['<'])) :=
    fun _ => rfl
  have right : Token.Reads (some (.number (Nat.toDigits 10 bound))) ")\x7b".toList
      [.number (Nat.toDigits 10 bound), .symbol [')']] (some Block.opening) :=
    fun _ => rfl
  exact Token.reads_numeral (by decide) left (right.append Block.reads_opening)

/-- The text between the arms of a test. -/
theorem reads_elseText :
    Token.Reads none "\x7delse\x7b".toList [Block.closing, Block.elseWord, Block.opening] none := by
  have before : Token.Reads none "\x7delse\x7b".toList [Block.closing, Block.elseWord]
      (some Block.opening) :=
    fun _ => rfl
  exact before.append Block.reads_opening

/-- The text after the arms of a test. -/
theorem reads_endText : Token.Reads none "\x7d".toList [Block.closing] none := by
  have before : Token.Reads none "\x7d".toList [] (some Block.closing) := fun _ => rfl
  exact before.append Block.reads_closing

/-- The text of nested tests has their tokens. -/
theorem reads_pieces
    {spacing : Spacing}
    (blank : spacing.IsBlank)
    (tree : Bisection)
    (nesting : Nat) :
    Token.Reads none (render spacing (tree.pieces kind nesting)).toList (tree.tokens kind)
      none := by
  induction tree generalizing nesting with
  | leaf element => exact Token.reads_line blank (reads_leafText kind element) nesting
  | test bound below above inBelow inAbove =>
      have testLine := Token.reads_line blank (reads_testText bound) nesting
      have elseLine := Token.reads_line blank reads_elseText nesting
      have endLine := Token.reads_line blank reads_endText nesting
      rw [pieces, tokens]
      simp only [render_append, String.toList_append, List.append_assoc]
      exact testLine.append ((inBelow (nesting + 1)).append
        (elseLine.append ((inAbove (nesting + 1)).append endLine)))

/-! ## The text selects elements -/

/-- There are more tokens than tests on the longest way. -/
theorem depth_lt_length_tokens (tree : Bisection) :
    tree.depth < (tree.tokens kind).length := by
  induction tree with
  | leaf element =>
      rw [depth, tokens, List.length_append]
      exact Nat.lt_add_left _ Nat.one_pos
  | test bound below above inBelow inAbove =>
      simp only [depth, tokens, testTokens, List.length_append, List.length_cons, List.length_nil]
      omega

/-- The text of a tree is read as its block. -/
theorem read?_render
    {spacing : Spacing}
    (blank : spacing.IsBlank)
    (tree : Bisection)
    (nesting : Nat) :
    Block.read? (render spacing (tree.pieces kind nesting)) = some (tree.toBlock kind) := by
  have enough : tree.depth + 2 ≤ (tree.tokens kind).length + 1 :=
    Nat.succ_le_succ (depth_lt_length_tokens kind tree)
  have read := readWithin_tokens kind tree (show ∀ token ∈ [].head?, token = Block.closing by simp)
    enough
  rw [List.append_nil] at read
  rw [Block.read?, (reads_pieces kind blank tree nesting).lex_eq, read]

end

/-- A block runs one statement for every index: the one for the element with the index, or
for the first or last of the elements if the index is too small or too large. -/
structure IsSelection
    (kind : AccessorKind)
    (length : Nat)
    (block : Block) : Prop where
  /-- An index of an element leads to the element. -/
  run_element : ∀ element < length,
    block.run element = ([statement kind element], kind == .get)
  /-- An index before the first element leads to the first one. -/
  run_before : ∀ index < 0, block.run index = ([statement kind 0], kind == .get)
  /-- An index after the last element leads to the last one. -/
  run_after : ∀ index ≥ (length : Int),
    block.run index = ([statement kind (length - 1)], kind == .get)
  /-- All elements have their statements, in order. -/
  statements_eq : block.statements = (List.range length).map (statement kind)
  /-- The deepest statement stands in as many tests as it takes to halve the length to one. -/
  depth_eq : block.depth = Nat.clog 2 length

/-- A halved range selects its elements. -/
theorem Halves.isSelection
    {length : Nat}
    {tree : Bisection}
    (halves : Halves 0 length tree)
    (nonempty : 0 < length)
    (kind : AccessorKind) :
    IsSelection kind length (tree.toBlock kind) where
  run_element := by
    intro element isElement
    have selected := halves.select_eq nonempty element
    rw [run_toBlock, show tree.select element = element by omega]
  run_before := by
    intro index isBefore
    have selected := halves.select_eq nonempty index
    rw [run_toBlock, show tree.select index = 0 by omega]
  run_after := by
    intro index isAfter
    have selected := halves.select_eq nonempty index
    rw [run_toBlock, show tree.select index = length - 1 by omega]
  statements_eq := by
    rw [statements_toBlock, halves.leaves_eq nonempty, Nat.sub_zero, List.range_eq_range']
  depth_eq := by
    rw [depth_toBlock, halves.depth_eq nonempty, Nat.sub_zero]

/-- The recursion that writes the body of an accessor comes to an end, and whatever blanks
the body is written with, its text is a block that selects the requested element. -/
theorem read?_ofLength_isSelection
    (kind : AccessorKind)
    {length : Nat}
    (nonempty : 0 < length)
    {spacing : Spacing}
    (blank : spacing.IsBlank)
    (nesting : Nat) :
    (∀ tree, Halves 0 length tree ↔ tree = ofLength length) ∧
      ∃ block,
        Block.read? (render spacing ((ofLength length).pieces kind nesting)) = some block ∧
          IsSelection kind length block := by
  have halves : Halves 0 length (ofLength length) := halves_halve (by omega)
  refine ⟨fun tree => ⟨fun treeHalves => treeHalves.unique halves, ?_⟩,
    (ofLength length).toBlock kind, read?_render kind blank _ nesting,
    halves.isSelection nonempty kind⟩
  rintro rfl
  exact halves

/-- Five elements, on lines of their own. -/
theorem read?_ofLength_five_isSelection :
    0 < 5 ∧ (Spacing.mk "\n" "\t").IsBlank ∧
      (∀ tree, Halves 0 5 tree ↔ tree = ofLength 5) ∧
      ∃ block, Block.read? (render ⟨"\n", "\t"⟩ ((ofLength 5).pieces .get 1)) = some block ∧
        IsSelection .get 5 block := by
  have blank : (Spacing.mk "\n" "\t").IsBlank := ⟨by decide, by decide⟩
  exact ⟨by decide, blank, read?_ofLength_isSelection .get (by decide) blank 1⟩

end Bisection

end ModularGlsl
