/-!
# Operators

The operators of expressions and statements with their spellings.  Binary
operators fall into four families that are typed by different rules.
-/

namespace ModularGlsl

/-- Operators between two expressions. -/
inductive BinaryOp
  | or
  | xor
  | and
  | equal
  | notEqual
  | less
  | lessEqual
  | greater
  | greaterEqual
  | add
  | sub
  | mul
  | div
  deriving DecidableEq, Repr, Inhabited

namespace BinaryOp

/-- All binary operators, by family. -/
def all : List BinaryOp :=
  [or, xor, and, equal, notEqual, less, lessEqual, greater, greaterEqual,
    add, sub, mul, div]

/-- The text of an operator. -/
def spelling : BinaryOp -> String
  | or => "||"
  | xor => "^^"
  | and => "&&"
  | equal => "=="
  | notEqual => "!="
  | less => "<"
  | lessEqual => "<="
  | greater => ">"
  | greaterEqual => ">="
  | add => "+"
  | sub => "-"
  | mul => "*"
  | div => "/"

/-- The operator with a given text. -/
def ofSpelling? (text : String) : Option BinaryOp :=
  all.find? fun op => op.spelling == text

/-- Connectives between truth values. -/
def isLogical : BinaryOp -> Bool
  | or | xor | and => true
  | _ => false

/-- Comparisons of any two values of one type. -/
def isEquality : BinaryOp -> Bool
  | equal | notEqual => true
  | _ => false

/-- Comparisons of ordered scalars. -/
def isRelational : BinaryOp -> Bool
  | less | lessEqual | greater | greaterEqual => true
  | _ => false

/-- Sums, differences, products and quotients. -/
def isArithmetic : BinaryOp -> Bool
  | add | sub | mul | div => true
  | _ => false

end BinaryOp

/-- Operators in front of an expression. -/
inductive UnaryOp
  | neg
  | pos
  | not
  deriving DecidableEq, Repr, Inhabited

namespace UnaryOp

/-- The text of an operator. -/
def spelling : UnaryOp -> String
  | neg => "-"
  | pos => "+"
  | not => "!"

/-- The operator with a given text. -/
def ofSpelling? (text : String) : Option UnaryOp :=
  [neg, pos, not].find? fun op => op.spelling == text

end UnaryOp

/-- Plain and compound assignment. -/
inductive AssignOp
  | assign
  | add
  | sub
  | mul
  | div
  deriving DecidableEq, Repr, Inhabited

namespace AssignOp

/-- The text of an operator. -/
def spelling : AssignOp -> String
  | assign => "="
  | add => "+="
  | sub => "-="
  | mul => "*="
  | div => "/="

/-- The operator with a given text. -/
def ofSpelling? (text : String) : Option AssignOp :=
  [assign, add, sub, mul, div].find? fun op => op.spelling == text

/-- The operation a compound assignment performs before it stores. -/
def binary? : AssignOp -> Option BinaryOp
  | assign => none
  | add => some .add
  | sub => some .sub
  | mul => some .mul
  | div => some .div

end AssignOp

/-- Increment and decrement. -/
inductive UpdateOp
  | increment
  | decrement
  deriving DecidableEq, Repr, Inhabited

namespace UpdateOp

/-- The text of an operator. -/
def spelling : UpdateOp -> String
  | increment => "++"
  | decrement => "--"

/-- The operator with a given text. -/
def ofSpelling? (text : String) : Option UpdateOp :=
  [increment, decrement].find? fun op => op.spelling == text

end UpdateOp

end ModularGlsl
