/-!
# Source positions and variable numbers

A span points into the module it was read from.  Modules are told apart by a
source number, variables by their index in the arena of one build.
-/

namespace ModularGlsl

/-- The number of a variable in the arena of one build. -/
abbrev VarId := Nat

/-- A range of source text: the source it stands in, its line, its column and
its length. -/
structure Span where
  /-- The number of the source. -/
  source : Nat := 0
  /-- The line. -/
  line : Nat := 0
  /-- The column. -/
  column : Nat := 0
  /-- The number of characters. -/
  length : Nat := 0
  deriving DecidableEq, Repr, Inhabited

namespace Span

/-- The place shown to a reader of a message: line and column. -/
def position (span : Span) : String :=
  s!"{span.line}:{span.column}"

/-- The name of a source number. -/
def sourceName (source : Nat) : String :=
  s!"src_{source}"

/-- The place together with the source it belongs to. -/
def qualified (span : Span) : String :=
  s!"{sourceName span.source}:{span.position}"

end Span

end ModularGlsl
