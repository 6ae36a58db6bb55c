import ModularGlsl.Operator
import ModularGlsl.Ty.Compatibility

/-!
# Typing of operators

Connectives take truth values, equality any two compatible types, comparisons
two numbers of one kind.  Arithmetic takes operands of one numeric kind with
equally many components, and quotients are for floats only.  Sums, differences
and products of known integers stay known while they fit into 64 bits.
-/

namespace ModularGlsl

/-- The integers that a signed word of 64 bits holds. -/
def FitsWord (value : Int) : Prop :=
  -(Int.pow 2 63) ≤ value ∧ value < Int.pow 2 63

instance (value : Int) : Decidable (FitsWord value) :=
  inferInstanceAs (Decidable (_ ∧ _))

namespace Ty

/-- The value of an arithmetic operation on two known integers, if it fits. -/
def fold?
    (op : BinaryOp)
    (left right : Int) : Option Int :=
  let value? :=
    match op with
    | .add => some (left + right)
    | .sub => some (left - right)
    | .mul => some (left * right)
    | _ => none
  value?.filter fun value => FitsWord value

/-- The type of an arithmetic operation by the shapes of its operands. -/
def ofShapes?
    (kind : ScalarKind)
    (leftArity rightArity : Nat) : Option Ty :=
  if leftArity = rightArity then
    some (if leftArity = 1 then scalar kind else vector kind leftArity)
  else
    none

/-- The type of an arithmetic operation. -/
def arithmetic?
    (op : BinaryOp)
    (left right : Ty) : Option Ty := do
  let (kind, leftArity) ← left.shape?
  let (rightKind, rightArity) ← right.shape?
  if kind ≠ rightKind ∨ kind = .bool ∨ (op = .div ∧ kind ≠ .float) then
    none
  else
    match left.literal?, right.literal? with
    | some leftValue, some rightValue =>
        match fold? op leftValue rightValue with
        | some value => some (literal value)
        | none => ofShapes? kind leftArity rightArity
    | _, _ => ofShapes? kind leftArity rightArity

/-- Two numbers of one kind can be compared. -/
def isOrdered (left right : Ty) : Bool :=
  match left.scalarKind?, right.scalarKind? with
  | some leftKind, some rightKind => leftKind == rightKind && leftKind != .bool
  | _, _ => false

/-- The type of a binary operation. -/
def binary
    (op : BinaryOp)
    (left right : Ty)
    (span : Span) : Except TypingError Ty :=
  let invalid : Except TypingError Ty :=
    .error (.invalidOperands op.spelling left.name right.name span)
  match op with
  | .and | .or | .xor =>
      if left.isBool && right.isBool then .ok bool else invalid
  | .equal | .notEqual => do
      left.check right span
      return bool
  | .less | .lessEqual | .greater | .greaterEqual =>
      if left.isOrdered right then .ok bool else invalid
  | .add | .sub | .mul | .div =>
      match arithmetic? op left right with
      | some ty => .ok ty
      | none => invalid

/-- The type of a sign in front of a number: a known integer stays known while
it fits. -/
def signed
    (op : UnaryOp)
    (operand : Ty) : Ty :=
  match op, operand.literal? with
  | .neg, some value => if FitsWord (-value) then literal (-value) else int
  | _, _ => operand.bare

/-- The type of a unary operation. -/
def unary
    (op : UnaryOp)
    (operand : Ty)
    (span : Span) : Except TypingError Ty :=
  let invalid : Except TypingError Ty :=
    .error (.invalidOperand op.spelling operand.name span)
  match op with
  | .not => if operand.isBool then .ok bool else invalid
  | .neg | .pos =>
      match operand.shape? with
      | some (kind, _) => if kind = .bool then invalid else .ok (operand.signed op)
      | none => invalid

/-- Increment and decrement apply to integers only. -/
def update
    (op : UpdateOp)
    (target : Ty)
    (span : Span) : Except TypingError Unit :=
  if target.isInt then
    .ok ()
  else
    .error (.invalidOperand op.spelling target.name span)

end Ty
end ModularGlsl
