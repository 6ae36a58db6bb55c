/-!
# Pieces of text

What is written is first laid out as pieces: fixed text, line breaks, and the
indentation of a line.  The characters used for breaks and indentation are
chosen when the pieces are rendered, so the fixed text does not depend on them.
-/

namespace ModularGlsl

/-- A piece of text. -/
inductive Piece
  /-- Fixed text. -/
  | text (content : String)
  /-- A line break. -/
  | newline
  /-- The indentation of a line at a depth of nesting. -/
  | indent (depth : Nat)
  deriving DecidableEq, Repr, Inhabited

/-- The characters for line breaks and for one step of indentation. -/
structure Spacing where
  /-- A line break. -/
  newline : String
  /-- One step of indentation. -/
  tab : String
  deriving DecidableEq, Repr, Inhabited

/-- The text of a piece. -/
def Piece.render (spacing : Spacing) : Piece -> String
  | text content => content
  | newline => spacing.newline
  | indent depth => String.join (List.replicate depth spacing.tab)

/-- The text of a list of pieces. -/
def render
    (spacing : Spacing)
    (pieces : List Piece) : String :=
  String.join (pieces.map (Piece.render spacing))

/-- Pieces are rendered one after the other. -/
@[simp] theorem render_append
    (spacing : Spacing)
    (left right : List Piece) :
    render spacing (left ++ right) = render spacing left ++ render spacing right := by
  simp [render, String.join_append]

end ModularGlsl
