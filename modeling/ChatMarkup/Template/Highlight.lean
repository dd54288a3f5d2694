import ChatMarkup.Template.Placeholder

/-! # Highlighting

A template is cut into variables, which are its loose placeholders with their braces, and the text
between them.
-/
namespace ChatMarkup.Template

inductive Part where
  | text (content : String)
  | variable (content : String)
  deriving DecidableEq, Repr

def piecePart : Text.Piece (List Char) → Part
  | .plain cs => .text (String.ofList cs)
  | .found content => .variable (String.ofList (braced content))

def highlight (text : String) : List Part := (loose.scan text.toList).map piecePart

end ChatMarkup.Template
