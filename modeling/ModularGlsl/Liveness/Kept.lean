import ModularGlsl.Usage

/-!
# What is kept

Declarations that nothing reads are left out of the output.  Varyings, structs,
accessors and local variables are always kept, and so are exported constants.
Imports, exports and version pragmas leave no trace.
-/

namespace ModularGlsl

/-- Whether an identifier is bound to a variable that is read. -/
def Usage.reads
    (usage : Usage)
    (ident : Ident) : Bool :=
  match ident.var with
  | some id => usage.isUsed id
  | none => false

/-- Whether a statement is written.  Variables of a module have to be read,
those of a function do not. -/
def Stmt.isKept
    (usage : Usage)
    (atTop : Bool) : Stmt -> Bool
  | .interface decl => decl.kind == .varying || usage.reads decl.name
  | .const decl => decl.exported || usage.reads decl.name
  | .function header _ => usage.reads header.name
  | .var decl => !atTop || usage.reads decl.name
  | .importName _ _ _ _
  | .importAll _ _ _
  | .reexport _ _ _ _
  | .exportName _ _ _
  | .version _ _ _ => false
  | _ => true

end ModularGlsl
