/-!
# Candidate names

Every variable that may be renamed has an endless list of candidates for its
final name: its own name with growing numbers, or short names that do not
depend on it.  Short names count in base 52 without a zero: after the single
letters come the words of two letters, and so on.
-/

namespace ModularGlsl

/-- How final names are chosen. -/
inductive Naming
  /-- The source name, with a number where it is taken. -/
  | readable
  /-- The shortest name that is free. -/
  | minify
  deriving DecidableEq, Repr, Inhabited

/-- The letters of short names in their order. -/
def shortLetters : List Char :=
  ['a', 'b', 'c', 'd', 'e', 'f', 'g', 'h', 'i', 'j', 'k', 'l', 'm',
    'n', 'o', 'p', 'q', 'r', 's', 't', 'u', 'v', 'w', 'x', 'y', 'z',
    'A', 'B', 'C', 'D', 'E', 'F', 'G', 'H', 'I', 'J', 'K', 'L', 'M',
    'N', 'O', 'P', 'Q', 'R', 'S', 'T', 'U', 'V', 'W', 'X', 'Y', 'Z']

/-- The letter that stands for a remainder. -/
def shortLetter (index : Nat) : Char :=
  shortLetters.getD (index % 52) 'a'

/-- The letters of a short name before those already written.  The number of
steps is bounded by the first argument. -/
def shortNameFrom :
    Nat -> Nat -> List Char -> List Char
  | 0, index, written => shortLetter index :: written
  | steps + 1, index, written =>
      if index < 52 then
        shortLetter index :: written
      else
        shortNameFrom steps (index / 52 - 1) (shortLetter index :: written)

/-- The short name with a given index.  An index loses more than half of its
value with every letter, so that it bounds the number of letters. -/
def shortName (index : Nat) : String :=
  String.ofList (shortNameFrom index index [])

/-- The candidate with a given index for a variable of a given name. -/
def candidate
    (naming : Naming)
    (base : String)
    (index : Nat) : String :=
  match naming with
  | .readable => if index = 0 then base else s!"{base}_{index}"
  | .minify => shortName index

end ModularGlsl
