import ModularGlsl.Span

/-!
# Diagnostics

Every way a build can fail, sorted into five classes: binding of names, typing,
flow of control and liveness, assembly of modules, and states that a
well-formed program does not reach.  A diagnostic says what is wrong; its
message, its span and the span of an earlier conflicting declaration are read
off it.
-/

namespace ModularGlsl

/-- Failures of binding identifiers and of keeping names. -/
inductive BindingError
  /-- No enclosing scope binds the name. -/
  | undefined (name : String) (span : Span)
  /-- A function takes a name that an enclosing scope already binds. -/
  | alreadyDefined (name : String) (span previous : Span)
  /-- A scope binds the name to a constant already. -/
  | constRedeclaration (name : String) (span previous : Span)
  /-- A module exports the name already. -/
  | duplicateExport (name : String) (span previous : Span)
  /-- The imported module does not export the name. -/
  | notExported (name path : String) (span : Span)
  /-- A name that has to be kept is taken. -/
  | notUnique (name : String) (span previous : Span)
  /-- A package has no such member. -/
  | unknownPackageMember (package name : String) (span : Span)
  /-- A package stands where a value is expected. -/
  | packageAsValue (name : String) (span : Span)
  /-- A member of a package is stored to. -/
  | packageMemberAssignment (span : Span)
  /-- A return statement stands outside every function. -/
  | returnOutsideFunction (span : Span)
  /-- An entry module has no main function. -/
  | missingMain (path : String) (span : Span)
  deriving DecidableEq, Repr

/-- Failures of typing. -/
inductive TypingError
  /-- A value has another type than expected. -/
  | mismatch (expected got : String) (span : Span)
  /-- A callable with one signature gets another number of arguments. -/
  | argCount (expected got : Nat) (span : Span)
  /-- No signature accepts the arguments. -/
  | noMatchingOverload (name : String) (span : Span)
  /-- The callee is neither a function nor a type. -/
  | notCallable (ty : String) (span : Span)
  /-- A type position names something else. -/
  | notAType (name : String) (span : Span)
  /-- The type has no constructor. -/
  | notConstructible (ty : String) (span : Span)
  /-- The type has no such member. -/
  | unknownMember (ty key : String) (span : Span)
  /-- The swizzle does not fit the vector. -/
  | invalidSwizzle (key ty : String) (span : Span)
  /-- The type is neither an array nor a vector. -/
  | notIndexable (ty : String) (span : Span)
  /-- A constant index lies outside its container. -/
  | indexOutOfRange (index : Int) (length : Nat) (span : Span)
  /-- The index is not known at compile time. -/
  | nonConstantIndex (hint : String) (span : Span)
  /-- An array has fewer than two elements. -/
  | invalidArrayLength (length : Nat) (span : Span)
  /-- Two fields of a struct share a name. -/
  | duplicateField (name : String) (span previous : Span)
  /-- A binary operator does not apply to its operands. -/
  | invalidOperands (op left right : String) (span : Span)
  /-- A unary operator does not apply to its operand. -/
  | invalidOperand (op ty : String) (span : Span)
  /-- A constant is stored to. -/
  | assignToConst (name : String) (span : Span)
  /-- The target of a store is no storage location. -/
  | notAssignable (span : Span)
  /-- A call without a result is used as a value. -/
  | voidValue (span : Span)
  /-- The result of a call statement is dropped. -/
  | discardedValue (span : Span)
  /-- A return statement does not fit its function. -/
  | returnMismatch (expected got : String) (span : Span)
  /-- A sampler is declared as something else than a uniform or a parameter. -/
  | samplerNotUniform (ty : String) (span : Span)
  /-- A scalar or a vector is required. -/
  | expectedSimple (ty : String) (span : Span)
  /-- The entry point takes parameters or returns a value. -/
  | invalidMain (span : Span)
  /-- A late constant does not fit its declaration. -/
  | constInjection (name value ty : String) (span : Span)
  deriving DecidableEq, Repr

/-- Failures of return analysis and of liveness. -/
inductive FlowError
  /-- A function with a result has an empty body. -/
  | expectedReturn (name : String) (span : Span)
  /-- A chain of conditions without a final alternative ends the body. -/
  | branchWithoutReturn (span : Span)
  /-- A path through the body does not end in a return statement. -/
  | missingReturn (span : Span)
  /-- A statement follows a return statement in its block. -/
  | unreachable (span : Span)
  /-- A declaration is never read. -/
  | unusedDeclaration (name : String) (span : Span)
  deriving DecidableEq, Repr

/-- Failures of assembling modules into a program. -/
inductive AssemblyError
  /-- Modules import each other in a circle, listed with the first one again
  at the end. -/
  | circularDependency (cycle : List String) (span : Span)
  /-- An imported module is not available. -/
  | notFound (path origin : String) (span : Span)
  /-- Two modules ask for different language versions. -/
  | versionMismatch (found expected : String) (span previous : Span)
  /-- A varying is not declared by the other stage. -/
  | varyingMissing (name stage : String)
  /-- A varying has another type in the other stage. -/
  | varyingType (name stage : String)
  /-- The stages declare different numbers of varyings. -/
  | varyingsDiffer (vertex fragment : Nat)
  /-- No module exports the constant. -/
  | constNotFound (name : String)
  deriving DecidableEq, Repr

/-- States that a well-formed program does not reach. -/
inductive InternalError
  /-- An accessor was not placed into a module. -/
  | unconsumedAccessor (name : String) (span : Span)
  /-- A variable is read before it has a type. -/
  | valueNotSet (name : String) (span : Span)
  /-- An identifier is read before it is bound. -/
  | unresolved (name : String) (span : Span)
  deriving DecidableEq, Repr

/-- A failure of a build. -/
inductive Diagnostic
  | binding (error : BindingError)
  | typing (error : TypingError)
  | flow (error : FlowError)
  | assembly (error : AssemblyError)
  | internal (error : InternalError)
  deriving DecidableEq, Repr

instance : Coe BindingError Diagnostic := ⟨.binding⟩
instance : Coe TypingError Diagnostic := ⟨.typing⟩
instance : Coe FlowError Diagnostic := ⟨.flow⟩
instance : Coe AssemblyError Diagnostic := ⟨.assembly⟩
instance : Coe InternalError Diagnostic := ⟨.internal⟩

/-! ## Messages -/

namespace BindingError

/-- The text of a binding error. -/
def message : BindingError -> String
  | undefined name span =>
      s!"'{name}' undefined at {span.position}"
  | alreadyDefined name span previous =>
      s!"\"{name}\" already defined at {span.position} (previous definition at {previous.position})"
  | constRedeclaration name span previous =>
      s!"'{name}' previously set as const at {span.position} (defined at {previous.position})"
  | duplicateExport name span previous =>
      s!"name '{name}' already exported at {span.position} (first export at {previous.position})"
  | notExported name path span =>
      s!"'{name}' not exported by '{path}' at {span.position}"
  | notUnique name span previous =>
      s!"name '{name}' must be unique at {span.position} (previous usage at {previous.position})"
  | unknownPackageMember package name span =>
      s!"'{package}.{name}' undefined at {span.position}"
  | packageAsValue name span =>
      s!"package '{name}' can't be used as a value at {span.position}"
  | packageMemberAssignment span =>
      s!"can't set package member at {span.position}"
  | returnOutsideFunction span =>
      s!"return not inside function at {span.position}"
  | missingMain path _ =>
      s!"no main function found in '{path}'"

/-- Where a binding error arises. -/
def span : BindingError -> Span
  | undefined _ span
  | alreadyDefined _ span _
  | constRedeclaration _ span _
  | duplicateExport _ span _
  | notExported _ _ span
  | notUnique _ span _
  | unknownPackageMember _ _ span
  | packageAsValue _ span
  | packageMemberAssignment span
  | returnOutsideFunction span
  | missingMain _ span => span

/-- Where the conflicting earlier declaration stands. -/
def previous? : BindingError -> Option Span
  | alreadyDefined _ _ previous
  | constRedeclaration _ _ previous
  | duplicateExport _ _ previous
  | notUnique _ _ previous => some previous
  | _ => none

end BindingError

namespace TypingError

/-- The text of a typing error. -/
def message : TypingError -> String
  | mismatch expected got span =>
      s!"expected {expected}, got {got} at {span.position}"
  | argCount expected got span =>
      s!"expected {expected} args, got {got} args at {span.position}"
  | noMatchingOverload name span =>
      s!"expected other arg types for '{name}' at {span.position}"
  | notCallable ty span =>
      s!"{ty} is not callable at {span.position}"
  | notAType name span =>
      s!"'{name}' is not a type at {span.position}"
  | notConstructible ty span =>
      s!"{ty} can't be constructed at {span.position}"
  | unknownMember ty key span =>
      s!"{ty}.{key} not found at {span.position}"
  | invalidSwizzle key ty span =>
      s!"invalid swizzle '{key}' on {ty} at {span.position}"
  | notIndexable ty span =>
      s!"{ty} can't be indexed at {span.position}"
  | indexOutOfRange index length span =>
      s!"index {index} out of range for length {length} at {span.position}"
  | nonConstantIndex hint span =>
      s!"expected literal int index at {span.position} (hint: use {hint})"
  | invalidArrayLength length span =>
      s!"invalid array length {length} at {span.position}"
  | duplicateField name span previous =>
      s!"duplicate struct entry name '{name}' at {span.position} (first declared at {previous.position})"
  | invalidOperands op left right span =>
      s!"invalid operands for '{op}': {left} and {right} at {span.position}"
  | invalidOperand op ty span =>
      s!"invalid operand for '{op}': {ty} at {span.position}"
  | assignToConst name span =>
      s!"can't assign to const '{name}' at {span.position}"
  | notAssignable span =>
      s!"lhs not assignable at {span.position}"
  | voidValue span =>
      s!"function returns void at {span.position}"
  | discardedValue span =>
      s!"function doesn't return void at {span.position}"
  | returnMismatch expected got span =>
      s!"function expects {expected} return, got {got} at {span.position}"
  | samplerNotUniform ty span =>
      s!"{ty} only available as uniform at {span.position}"
  | expectedSimple ty span =>
      s!"expected simple type, got {ty} at {span.position}"
  | invalidMain span =>
      s!"main must be declared as 'void main()' at {span.position}"
  | constInjection name value ty span =>
      s!"can't inject {value} into const '{name}' of type {ty} at {span.position}"

/-- Where a typing error arises. -/
def span : TypingError -> Span
  | mismatch _ _ span
  | argCount _ _ span
  | noMatchingOverload _ span
  | notCallable _ span
  | notAType _ span
  | notConstructible _ span
  | unknownMember _ _ span
  | invalidSwizzle _ _ span
  | notIndexable _ span
  | indexOutOfRange _ _ span
  | nonConstantIndex _ span
  | invalidArrayLength _ span
  | duplicateField _ span _
  | invalidOperands _ _ _ span
  | invalidOperand _ _ span
  | assignToConst _ span
  | notAssignable span
  | voidValue span
  | discardedValue span
  | returnMismatch _ _ span
  | samplerNotUniform _ span
  | expectedSimple _ span
  | invalidMain span
  | constInjection _ _ _ span => span

/-- Where the conflicting earlier declaration stands. -/
def previous? : TypingError -> Option Span
  | duplicateField _ _ previous => some previous
  | _ => none

end TypingError

namespace FlowError

/-- The text of a flow error. -/
def message : FlowError -> String
  | expectedReturn name span =>
      s!"expected return statement in '{name}' at {span.position}"
  | branchWithoutReturn span =>
      s!"not every branch returns a value at {span.position}"
  | missingReturn span =>
      s!"missing return statement at {span.position} " ++
        "(hint: return statement must come last in every branch)"
  | unreachable span =>
      s!"unreachable statement after return statement at {span.position}"
  | unusedDeclaration name span =>
      s!"'{name}' declared but not used at {span.position}"

/-- Where a flow error arises. -/
def span : FlowError -> Span
  | expectedReturn _ span
  | branchWithoutReturn span
  | missingReturn span
  | unreachable span
  | unusedDeclaration _ span => span

end FlowError

namespace AssemblyError

/-- The text of a cycle: one arrow for each module on it. -/
def cycleText (cycle : List String) : String :=
  String.join (cycle.map fun path => s!"\n -> {path}")

/-- The text of an assembly error. -/
def message : AssemblyError -> String
  | circularDependency cycle _ =>
      s!"circular dependency found:{cycleText cycle}"
  | notFound path origin span =>
      s!"'{path}' not found (from '{origin}') at {span.position}"
  | versionMismatch found expected span previous =>
      s!"version mismatch: {found} vs {expected} at {span.position} " ++
        s!"(version declared at {previous.position})"
  | varyingMissing name stage =>
      s!"varying {name} not found in {stage} shader"
  | varyingType name stage =>
      s!"varying {name} has different type in {stage} shader"
  | varyingsDiffer vertex fragment =>
      s!"varyings differ: vertex declares {vertex}, fragment declares {fragment}"
  | constNotFound name =>
      s!"exported const '{name}' not found"

/-- Where an assembly error arises, if it is tied to a position. -/
def span? : AssemblyError -> Option Span
  | circularDependency _ span
  | notFound _ _ span
  | versionMismatch _ _ span _ => some span
  | _ => none

/-- Where the conflicting earlier declaration stands. -/
def previous? : AssemblyError -> Option Span
  | versionMismatch _ _ _ previous => some previous
  | _ => none

end AssemblyError

namespace InternalError

/-- The text of an internal error. -/
def message : InternalError -> String
  | unconsumedAccessor name span =>
      s!"internal error: unused injected statement '{name}' at {span.position}"
  | valueNotSet name span =>
      s!"internal error: value of '{name}' not set at {span.position}"
  | unresolved name span =>
      s!"internal error: '{name}' not resolved at {span.position}"

/-- Where an internal error arises. -/
def span : InternalError -> Span
  | unconsumedAccessor _ span
  | valueNotSet _ span
  | unresolved _ span => span

end InternalError

namespace Diagnostic

/-- The text of a diagnostic. -/
def message : Diagnostic -> String
  | binding error => error.message
  | typing error => error.message
  | flow error => error.message
  | assembly error => error.message
  | internal error => error.message

/-- Where a diagnostic arises, if it is tied to a position. -/
def span? : Diagnostic -> Option Span
  | binding error => some error.span
  | typing error => some error.span
  | flow error => some error.span
  | assembly error => error.span?
  | internal error => some error.span

/-- Where the conflicting earlier declaration stands. -/
def previous? : Diagnostic -> Option Span
  | binding error => error.previous?
  | typing error => error.previous?
  | flow _ => none
  | assembly error => error.previous?
  | internal _ => none

end Diagnostic

end ModularGlsl
