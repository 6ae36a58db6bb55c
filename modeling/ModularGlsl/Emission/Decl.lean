import ModularGlsl.Emission.Expr
import ModularGlsl.Text.Piece

/-!
# Text of declarations

Declarations that stand on one line.  Names of types are written as they are
currently named, and left out where they are not bound.
-/

namespace ModularGlsl
namespace Emission

/-- The current name of a type. -/
def typeText
    (arena : Arena)
    (ident : Ident) : String :=
  match ident.var with
  | some id => arena.name id
  | none => ""

/-- The length of an array in brackets. -/
def lengthText : Option Nat -> String
  | some length => s!"[{length}]"
  | none => ""

/-- A precision with a blank after it. -/
def precisionText : Option Precision -> String
  | some precision => precision.spelling ++ " "
  | none => ""

/-- A type, a name and the length of an array. -/
def typedName
    (arena : Arena)
    (ty name : Ident)
    (length : Option Nat) : Except Diagnostic String := do
  let text ← name.text arena
  return typeText arena ty ++ " " ++ text ++ lengthText length

/-- An initial value after its equals sign. -/
def initText (arena : Arena) : Option Expr -> Except Diagnostic String
  | some init => do
      let text ← init.text arena
      return "=" ++ text
  | none => .ok ""

/-- A variable of the interface. -/
def interfaceText
    (arena : Arena)
    (decl : InterfaceDecl) : Except Diagnostic String := do
  let typed ← typedName arena decl.ty decl.name decl.length
  return decl.kind.spelling ++ " " ++ precisionText decl.precision ++ typed ++ ";"

/-- The initial value of a constant, or the text injected in its place. -/
def constInitText
    (arena : Arena)
    (decl : ConstDecl) : Except Diagnostic String :=
  match decl.injected with
  | some text => .ok ("=" ++ text)
  | none => initText arena decl.init

/-- A constant. -/
def constText
    (arena : Arena)
    (decl : ConstDecl) : Except Diagnostic String := do
  let typed ← typedName arena decl.ty decl.name decl.length
  let init ← constInitText arena decl
  return "const " ++ typed ++ init ++ ";"

/-- A parameter. -/
def paramText
    (arena : Arena)
    (param : Param) : Except Diagnostic String := do
  let typed ← typedName arena param.ty param.name param.length
  return param.direction.spelling ++ typed

/-- The parameters of a function. -/
def paramTexts (arena : Arena) : List Param -> Except Diagnostic (List String)
  | [] => .ok []
  | param :: rest => do
      let text ← paramText arena param
      let texts ← paramTexts arena rest
      return text :: texts

/-- The result, the name and the parameters of a function. -/
def headerText
    (arena : Arena)
    (header : FunctionHeader) : Except Diagnostic String := do
  let params ← paramTexts arena header.params
  let name ← header.name.text arena
  let result :=
    match header.result with
    | some ty => typeText arena ty
    | none => "void"
  let list := ",".intercalate params
  return s!"{result} {name}({list})"

/-- A statement that may stand in the head of a loop, without a semicolon. -/
def clauseText (arena : Arena) : Stmt -> Except Diagnostic String
  | .var decl => do
      let typed ← typedName arena decl.ty decl.name decl.length
      let init ← initText arena decl.init
      return typed ++ init
  | .assign target op value _ => do
      let target ← target.text arena
      let value ← value.text arena
      return target ++ op.spelling ++ value
  | .update target op _ => do
      let target ← target.text arena
      return target ++ op.spelling
  | other => .error (.internal (.unresolved "for-loop clause" other.span))

/-- The member of a struct on a line of its own. -/
def memberPieces
    (arena : Arena)
    (nesting : Nat)
    (member : StructMember) : List Piece :=
  [.indent nesting,
    .text (typeText arena member.ty ++ " " ++ member.name ++ lengthText member.length ++ ";"),
    .newline]

/-- A struct. -/
def structPieces
    (arena : Arena)
    (nesting : Nat)
    (decl : StructDecl) : Except Diagnostic (List Piece) := do
  let name ← decl.name.text arena
  return [.text s!"struct {name}\x7b", .newline] ++
    decl.members.flatMap (memberPieces arena (nesting + 1)) ++
    [.text "\x7d;"]

end Emission
end ModularGlsl
