import ModularGlsl.Tree.Decl
import ModularGlsl.Text.Piece

/-!
# Bisections

The body of an accessor finds an element by halving the range of indices until
a single one is left.  The tests compare the index with the middle of the
range, rounded up; an index below the range reaches its first element and one
above it the last.
-/

namespace ModularGlsl

/-- A tree of tests that ends in single indices. -/
inductive Bisection
  /-- A single index. -/
  | leaf (index : Nat)
  /-- A test whether the index lies below a bound. -/
  | test (bound : Nat) (below above : Bisection)
  deriving DecidableEq, Repr, Inhabited

namespace Bisection

/-- Halve the range from the first index to before the last one, at most a
given number of times. -/
def halve :
    Nat -> Nat -> Nat -> Bisection
  | 0, first, _ => leaf first
  | steps + 1, first, last =>
      if last ≤ first + 1 then
        leaf first
      else
        let middle := (first + last + 1) / 2
        test middle (halve steps first middle) (halve steps middle last)

/-- The tree for a number of elements, which is never halved more often than it
has elements. -/
def ofLength (length : Nat) : Bisection :=
  halve length 0 length

/-- The element that an index leads to. -/
def select (index : Int) : Bisection -> Nat
  | leaf element => element
  | test bound below above =>
      if index < bound then below.select index else above.select index

/-- The elements from left to right. -/
def leaves : Bisection -> List Nat
  | leaf element => [element]
  | test _ below above => below.leaves ++ above.leaves

/-- The number of tests on the longest way. -/
def depth : Bisection -> Nat
  | leaf _ => 0
  | test _ below above => max below.depth above.depth + 1

/-- The statement that reads or writes a single element. -/
def leafText
    (kind : AccessorKind)
    (element : Nat) : String :=
  match kind with
  | .get => s!"return x[{element}];"
  | .set => s!"x[{element}]=a;"

/-- The nested tests at a depth of nesting. -/
def pieces (kind : AccessorKind) : Nat -> Bisection -> List Piece
  | nesting, leaf element =>
      [.indent nesting, .text (leafText kind element), .newline]
  | nesting, test bound below above =>
      [.indent nesting, .text s!"if(i<{bound})\x7b", .newline] ++
        below.pieces kind (nesting + 1) ++
        [.indent nesting, .text "\x7delse\x7b", .newline] ++
        above.pieces kind (nesting + 1) ++
        [.indent nesting, .text "\x7d", .newline]

end Bisection
end ModularGlsl
