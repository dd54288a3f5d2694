import ChatMarkup.Template.Placeholder

/-! # Previews of templates and the variables they use

The preview of a template shows `[name]` where the strict placeholder of that name stands. Its
variables are the names in the order in which they first occur. A template is consistent with a list
of declared names if it uses all of them and no other.
-/
namespace ChatMarkup.Template

def pieceChars : Text.Piece (List Char) → List Char
  | .plain cs => cs
  | .found name => '[' :: (name ++ [']'])

def previewChars (s : List Char) : List Char := (strict.scan s).flatMap pieceChars

def preview (text : String) : String := String.ofList (previewChars text.toList)

def pieceName? : Text.Piece (List Char) → Option String
  | .plain _ => none
  | .found name => some (String.ofList name)

def names (s : List Char) : List String := (strict.scan s).filterMap pieceName?

def variableNames (text : String) : List String := (names text.toList).eraseDups

structure VariableReport where
  missing : List String
  unused : List String
  deriving DecidableEq, Repr

def VariableReport.isConsistent (r : VariableReport) : Bool :=
  r.missing.isEmpty && r.unused.isEmpty

def checkVariables (text : String) (declared : List String) : VariableReport :=
  let used := variableNames text
  ⟨used.filter (· ∉ declared), (declared.filter (· ∉ used)).eraseDups⟩

end ChatMarkup.Template
