import ModularGlsl.Ty.Basic

/-!
# Structural equality of types

Two types are structurally equal when they are written alike, spans and
attributions included.  The numbers of functions are not compared: functions
are equal when their names, origins and signatures are.
-/

namespace ModularGlsl
namespace Ty

mutual

/-- Structural equality of two types. -/
def same : Ty -> Ty -> Bool
  | scalar left, scalar right => left == right
  | literal left, literal right => left == right
  | vector left leftArity, vector right rightArity =>
      left == right && leftArity == rightArity
  | array left leftLength, array right rightLength =>
      left.same right && leftLength == rightLength
  | struct left, struct right => sameLayout left right
  | function left, function right => sameFunction left right
  | sampler left, sampler right => left == right
  | descriptor left, descriptor right => left.same right
  | located left leftSpan, located right rightSpan =>
      left.same right && leftSpan == rightSpan
  | _, _ => false
  termination_by structural left => left

/-- Structural equality of two struct layouts. -/
def sameLayout : Layout Ty -> Layout Ty -> Bool
  | ⟨leftOwner, leftName, left⟩, ⟨rightOwner, rightName, right⟩ =>
      leftOwner == rightOwner && leftName == rightName && sameFields left right
  termination_by structural left => left

/-- Structural equality of two lists of fields. -/
def sameFields : List (Field Ty) -> List (Field Ty) -> Bool
  | [], [] => true
  | ⟨leftName, left, leftSpan⟩ :: lefts, ⟨rightName, right, rightSpan⟩ :: rights =>
      leftName == rightName && left.same right && leftSpan == rightSpan &&
        sameFields lefts rights
  | _, _ => false
  termination_by structural left => left

/-- Structural equality of two functions. -/
def sameFunction : FunctionType Ty -> FunctionType Ty -> Bool
  | ⟨_, leftName, leftOrigin, left⟩, ⟨_, rightName, rightOrigin, right⟩ =>
      leftName == rightName && leftOrigin == rightOrigin &&
        sameSignatures left right
  termination_by structural left => left

/-- Structural equality of two lists of signatures. -/
def sameSignatures : List (Signature Ty) -> List (Signature Ty) -> Bool
  | [], [] => true
  | ⟨left, leftResult⟩ :: lefts, ⟨right, rightResult⟩ :: rights =>
      sameList left right && sameResult leftResult rightResult &&
        sameSignatures lefts rights
  | _, _ => false
  termination_by structural left => left

/-- Structural equality of two lists of types. -/
def sameList : List Ty -> List Ty -> Bool
  | [], [] => true
  | left :: lefts, right :: rights => left.same right && sameList lefts rights
  | _, _ => false
  termination_by structural left => left

/-- Structural equality of two results. -/
def sameResult : Option Ty -> Option Ty -> Bool
  | none, none => true
  | some left, some right => left.same right
  | _, _ => false
  termination_by structural left => left

end

end Ty
end ModularGlsl
