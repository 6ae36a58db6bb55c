import ModularGlsl.Ty.Access

/-!
# Calls and constructors

A call picks the first signature of a function that accepts the arguments, or
builds a value of a type.  A function with a single signature says what is
wrong with the arguments; with several signatures, or none, only that nothing
matches.
-/

namespace ModularGlsl
namespace Ty

/-- The instance of a descriptor that a type position names. -/
def instantiate
    (ty : Ty)
    (name : String)
    (span : Span) : Except TypingError Ty :=
  match ty.bare with
  | descriptor proto => .ok proto
  | _ => .error (.notAType name span)

/-- The kind and number of components of an argument that has to be a scalar
or a vector. -/
def expectShape
    (argument : Ty)
    (span : Span) : Except TypingError (ScalarKind × Nat) :=
  match argument.shape? with
  | some shape => .ok shape
  | none =>
      .error (.mismatch "scalar or vector" argument.name (argument.span?.getD span))

/-- The number of components of all arguments together. -/
def componentCount (span : Span) : List Ty -> Except TypingError Nat
  | [] => .ok 0
  | argument :: args => do
      let (_, count) ← argument.expectShape span
      let rest ← componentCount span args
      return count + rest

/-- Build a value of a type: a scalar from one simple value, a vector from its
components or from one scalar, a struct from its fields. -/
def construct
    (proto : Ty)
    (args : List Ty)
    (span : Span) : Except TypingError Ty :=
  match proto with
  | scalar kind =>
      match args with
      | [argument] => do
          let _ ← argument.expectShape span
          return scalar kind
      | _ => .error (.argCount 1 args.length span)
  | vector kind arity => do
      let components ← componentCount span args
      let fills := args.length = 1 ∧ components = 1
      if ¬ fills ∧ components ≠ arity then
        .error (.argCount arity components span)
      else
        return vector kind arity
  | struct layout =>
      if args.length ≠ layout.fields.length then
        .error (.argCount layout.fields.length args.length span)
      else do
        checkAll span (layout.fields.map (·.ty)) args
        return struct layout
  | other => .error (.notConstructible other.name span)

/-- Why a signature does not take the arguments, or its result if it does. -/
def applySignature
    (signature : Signature Ty)
    (args : List Ty)
    (span : Span) : Except TypingError (Option Ty) :=
  if signature.params.length ≠ args.length then
    .error (.argCount signature.params.length args.length span)
  else do
    checkAll span signature.params args
    return signature.result

/-- The result of the first signature that takes the arguments. -/
def firstResult?
    (args : List Ty)
    (span : Span) : List (Signature Ty) -> Option (Option Ty)
  | [] => none
  | signature :: rest =>
      match applySignature signature args span with
      | .ok result => some result
      | .error _ => firstResult? args span rest

/-- The result of a function call; without one it is void. -/
def applyFunction
    (callable : FunctionType Ty)
    (args : List Ty)
    (span : Span) : Except TypingError (Option Ty) :=
  match callable.overloads with
  | [signature] => applySignature signature args span
  | signatures =>
      match firstResult? args span signatures with
      | some result => .ok result
      | none => .error (.noMatchingOverload callable.name span)

/-- The result of calling a function or a type; without one it is void. -/
def call
    (callee : Ty)
    (args : List Ty)
    (span : Span) : Except TypingError (Option Ty) :=
  match callee.bare with
  | function callable => applyFunction callable args span
  | descriptor proto => do
      let built ← construct proto args span
      return some built
  | other => .error (.notCallable other.name span)

end Ty
end ModularGlsl
