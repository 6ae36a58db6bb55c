import ModularGlsl.Returns
import ModularGlsl.Typing.Target

/-!
# Typing of statements

Every declaration gives its variable a type: an instance of the declared type,
a known integer for a constant whose initial value is known, a descriptor for a
struct, a function for a function.  All other statements are only checked.  The
types given before a failure stay.
-/

namespace ModularGlsl
namespace Typing

/-- A step of typing, which keeps the arena when it fails. -/
abbrev Check := EStateM Diagnostic Arena

/-- Use a result that does not change the arena. -/
def use
    {α : Type}
    (result : Arena -> Except Diagnostic α) : Check α := do
  match result (← get) with
  | .ok value => return value
  | .error error => throw error

/-- The type that a declaration of a variable asks for. -/
def declaredType
    (arena : Arena)
    (ty : Ident)
    (length : Option Nat)
    (allowSampler : Bool)
    (span : Span) : Except Diagnostic Ty := do
  let id ← ty.bound
  let descriptor ← arena.ty id ty.span
  let proto ← typing (descriptor.instantiate ty.name ty.span)
  if proto.isSampler && !allowSampler then
    .error (.typing (.samplerNotUniform proto.name span))
  else
    match length with
    | some length => typing (proto.arrayOf length span)
    | none => return proto

/-- Give the variable of an identifier its type. -/
def setType
    (ident : Ident)
    (ty : Ty) : Check Unit := do
  let id ← use fun _ => ident.bound
  modify fun arena => arena.setTy id ty

/-- Type a variable of the interface: uniforms may be anything, the others are
scalars or vectors. -/
def checkInterface (decl : InterfaceDecl) : Check Unit := do
  let isUniform := decl.kind == .uniform
  let ty ← use fun arena =>
    declaredType arena decl.ty decl.length isUniform decl.span
  if !isUniform && !ty.isSimple then
    throw (.typing (.expectedSimple ty.name decl.span))
  setType decl.name ty

/-- The type of an initial value, which has to fit the declared type. -/
def initialType
    (arena : Arena)
    (declared : Ty)
    (init : Expr) : Except Diagnostic Ty := do
  let ty ← init.typeOf arena
  typing (declared.check ty init.span)
  return ty

/-- The type of a constant: an integer keeps the value of its initial value. -/
def constType (declared init : Ty) : Ty :=
  match declared.isInt, init.literal? with
  | true, some value => .literal value
  | _, _ => declared

/-- Type a constant. -/
def checkConst (decl : ConstDecl) : Check Unit := do
  let declared ← use fun arena =>
    declaredType arena decl.ty decl.length false decl.span
  match decl.init with
  | some init =>
      let ty ← use fun arena => initialType arena declared init
      setType decl.name (constType declared ty)
  | none => setType decl.name declared

/-- Type a variable. -/
def checkVar (decl : VarDecl) : Check Unit := do
  let declared ← use fun arena =>
    declaredType arena decl.ty decl.length false decl.span
  match decl.init with
  | some init =>
      let _ ← use fun arena => initialType arena declared init
      setType decl.name declared
  | none => setType decl.name declared

/-- The fields of a struct. -/
def fieldsOf (arena : Arena) : List StructMember -> Except Diagnostic (List (Field Ty))
  | [] => .ok []
  | member :: rest => do
      let ty ← declaredType arena member.ty member.length false member.span
      let fields ← fieldsOf arena rest
      return ⟨member.name, ty, member.span⟩ :: fields

/-- The layout of a struct. -/
def layoutOf
    (arena : Arena)
    (decl : StructDecl) : Except Diagnostic (Layout Ty) := do
  let fields ← fieldsOf arena decl.members
  let id ← decl.name.bound
  typing (Layout.ofFields id decl.name.name fields)

/-- Type a struct. -/
def checkStruct (decl : StructDecl) : Check Unit := do
  let layout ← use fun arena => layoutOf arena decl
  setType decl.name (.descriptor (.struct layout))

/-- Type the parameters of a function. -/
def checkParams : List Param -> Check (List Ty)
  | [] => return []
  | param :: rest => do
      let ty ← use fun arena =>
        declaredType arena param.ty param.length true param.span
      setType param.name ty
      let tys ← checkParams rest
      return ty :: tys

/-- The result type of a function. -/
def resultType
    (arena : Arena)
    (header : FunctionHeader) : Except Diagnostic (Option Ty) :=
  match header.result with
  | some ty => do
      let ty ← declaredType arena ty none false header.span
      return some ty
  | none => .ok none

/-- Type the header of a function and yield its result type. -/
def checkHeader (header : FunctionHeader) : Check (Option Ty) := do
  let result ← use fun arena => resultType arena header
  let params ← checkParams header.params
  let id ← use fun _ => header.name.bound
  setType header.name (.function ⟨id, header.name.name, some id, [⟨params, result⟩]⟩)
  return result

/-- Demand that every path through a function with a result returns. -/
def checkCoverage
    (result : Option Ty)
    (header : FunctionHeader)
    (body : List Stmt) : Except Diagnostic Unit :=
  match result with
  | some _ => (header.checkReturns body).mapError Diagnostic.flow
  | none => .ok ()

/-- Check a default precision, which is for numbers and samplers. -/
def checkPrecision
    (arena : Arena)
    (ty : Ident)
    (span : Span) : Except Diagnostic Unit := do
  let declared ← declaredType arena ty none true span
  if (declared.isSimple && !declared.isBool) || declared.isSampler then
    return ()
  else
    .error (.typing (.expectedSimple declared.name span))

/-- Check a plain or compound assignment. -/
def checkAssign
    (arena : Arena)
    (target : Expr)
    (op : AssignOp)
    (value : Expr)
    (span : Span) : Except Diagnostic Unit := do
  let value ← value.typeOf arena
  match op.binary? with
  | some op =>
      let current ← target.targetType arena
      let result ← typing (Ty.binary op current value span)
      typing (current.check result span)
  | none => target.checkStore arena value span

/-- Check a condition. -/
def checkCondition
    (arena : Arena)
    (cond : Expr) : Except Diagnostic Unit := do
  let ty ← cond.typeOf arena
  typing (Ty.bool.check ty cond.span)

/-- Check the condition of an arm if there is one. -/
def checkOptionalCondition (arena : Arena) : Option Expr -> Except Diagnostic Unit
  | some cond => checkCondition arena cond
  | none => .ok ()

/-- The text of a result type. -/
def resultName : Option Ty -> String
  | some ty => ty.name
  | none => "void"

/-- Whether a returned value fits the result type. -/
def fitsResult : Option Ty -> Option Ty -> Bool
  | some expected, some got => expected.accepts got
  | none, none => true
  | _, _ => false

/-- The type of a returned value. -/
def returnedType (arena : Arena) : Option Expr -> Except Diagnostic (Option Ty)
  | some value => do
      let ty ← value.typeOf arena
      return some ty
  | none => .ok none

/-- Check a return statement of a function with a given result type. -/
def checkReturn
    (arena : Arena)
    (expected : Option Ty)
    (value : Option Expr)
    (span : Span) : Except Diagnostic Unit := do
  let got ← returnedType arena value
  if fitsResult expected got then
    return ()
  else
    .error (.typing (.returnMismatch (resultName expected) (resultName got) span))

/-- Check a call statement, whose result has to be void. -/
def checkCall
    (arena : Arena)
    (callee : Expr)
    (args : List Expr)
    (span : Span) : Except Diagnostic Unit := do
  match ← callResult arena callee args span with
  | none => return ()
  | some _ => .error (.typing (.discardedValue span))

/-- Check an increment or decrement. -/
def checkUpdate
    (arena : Arena)
    (target : Expr)
    (op : UpdateOp)
    (span : Span) : Except Diagnostic Unit := do
  let ty ← target.targetType arena
  typing (Ty.update op ty span)

/-- Check a store to an element at a dynamic index. -/
def checkSetIndex
    (arena : Arena)
    (container position value : Expr)
    (span : Span) : Except Diagnostic Unit := do
  let container ← container.targetType arena
  position.checkDynamicIndex arena
  let value ← value.typeOf arena
  typing (container.setIndex 0 value span)

mutual

/-- Type a statement inside a function with a given result type. -/
def checkStmt (result : Option Ty) : Stmt -> Check Unit
  | .version _ _ _
  | .extension _ _ _
  | .importName _ _ _ _
  | .importAll _ _ _
  | .reexport _ _ _ _
  | .exportName _ _ _
  | .accessor _ => return ()
  | .precision _ ty span => use fun arena => checkPrecision arena ty span
  | .interface decl => checkInterface decl
  | .const decl => checkConst decl
  | .var decl => checkVar decl
  | .struct decl => checkStruct decl
  | .function header body => do
      let own ← checkHeader header
      checkBlock own body
      use fun _ => checkCoverage own header body
  | .assign target op value span => use fun arena => checkAssign arena target op value span
  | .cond branches _ => checkBranches result branches
  | .loop init cond step body _ => do
      checkStmt result init
      use fun arena => checkCondition arena cond
      checkStmt result step
      checkBlock result body
  | .ret value span => use fun arena => checkReturn arena result value span
  | .call callee args span => use fun arena => checkCall arena callee args span
  | .update target op span => use fun arena => checkUpdate arena target op span
  | .setIndex container position value _ span =>
      use fun arena => checkSetIndex arena container position value span

/-- Type a list of statements. -/
def checkBlock (result : Option Ty) : List Stmt -> Check Unit
  | [] => return ()
  | stmt :: rest => do
      checkStmt result stmt
      checkBlock result rest

/-- Type the arms of a chain of conditions. -/
def checkBranches (result : Option Ty) : List (Branch Stmt) -> Check Unit
  | [] => return ()
  | ⟨cond, body, _⟩ :: rest => do
      use fun arena => checkOptionalCondition arena cond
      checkBlock result body
      checkBranches result rest

end

/-- A signature without parameters and result. -/
def isEntrySignature (signature : Signature Ty) : Bool :=
  signature.params.isEmpty && signature.result.isNone

/-- A function that neither takes nor yields values. -/
def isEntryPoint (record : Variable) : Bool :=
  record.decl == .function &&
    match record.ty.map Ty.bare with
    | some (.function callable) =>
        match callable.overloads with
        | [signature] => isEntrySignature signature
        | _ => false
    | _ => false

/-- Demand that the main function neither takes nor yields values. -/
def checkMain
    (arena : Arena)
    (main : VarId) : Except Diagnostic Unit :=
  let record := arena.get main
  if isEntryPoint record then
    .ok ()
  else
    .error (.typing (.invalidMain record.span))

end Typing
end ModularGlsl
