import ModularGlsl.Diagnostic
import ModularGlsl.Ty.Basic

/-!
# Compatibility of types

A type is compatible with another when a value of the one may stand where the
other is expected.  Attributions play no role, an integer fits whether its
value is known or not, structs are compared by the variable that declares them
and functions by identity.
-/

namespace ModularGlsl

/-- Two functions are the same when they were made under one number or are
declared by one variable. -/
def FunctionType.isSame {τ : Type} (left right : FunctionType τ) : Bool :=
  left.identity == right.identity ||
    (left.origin.isSome && left.origin == right.origin)

namespace Ty

/-- A value of the second type may stand where the first is expected. -/
def accepts : Ty -> Ty -> Bool
  | located expected _, got => expected.accepts got
  | scalar expected, got =>
      match got.bare with
      | scalar kind => expected == kind
      | literal _ => expected == .int
      | _ => false
  | literal _, got =>
      match got.bare with
      | scalar kind => kind == .int
      | literal _ => true
      | _ => false
  | vector expected arity, got =>
      match got.bare with
      | vector kind gotArity => expected == kind && arity == gotArity
      | _ => false
  | array expected length, got =>
      match got.bare with
      | array element gotLength => length == gotLength && expected.accepts element
      | _ => false
  | struct expected, got =>
      match got.bare with
      | struct layout => expected.owner == layout.owner
      | _ => false
  | function expected, got =>
      match got.bare with
      | function other => expected.isSame other
      | _ => false
  | sampler expected, got =>
      match got.bare with
      | sampler kind => expected == kind
      | _ => false
  | descriptor expected, got =>
      match got.bare with
      | descriptor other => expected.accepts other
      | _ => false

/-- Demand that a value of the second type may stand where the first is
expected.  A mismatch is reported where the value was read. -/
def check
    (expected got : Ty)
    (span : Span) : Except TypingError Unit :=
  if expected.accepts got then
    .ok ()
  else
    .error (.mismatch expected.name got.name (got.span?.getD span))

/-- Every value of a list may stand where its counterpart is expected; the
first mismatch is reported. -/
def checkAll (span : Span) : List Ty -> List Ty -> Except TypingError Unit
  | expected :: expecteds, got :: gots => do
      expected.check got span
      checkAll span expecteds gots
  | _, _ => .ok ()

/-- A check succeeds exactly on accepted types. -/
theorem check_eq_ok_iff
    {expected got : Ty}
    {span : Span} :
    expected.check got span = .ok () ↔ expected.accepts got = true := by
  unfold check
  split <;> simp_all

end Ty
end ModularGlsl
