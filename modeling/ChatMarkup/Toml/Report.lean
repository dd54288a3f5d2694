import ChatMarkup.Text.Bytes
import ChatMarkup.Text.Split
import ChatMarkup.Toml.Value

/-! # Reports about a place in a document

A report names the line and the column, shows the line and underlines the range in it. Lines and columns
are counted from one, columns in characters. The underline has one caret for each byte of the range,
but stops at the line's end and is never empty.
-/
namespace ChatMarkup.Toml

/-- A line of a document, numbered from zero, and a column in it. -/
structure Place where
  line : Nat
  column : Nat
  content : List Char

/-- The number of characters in front of a byte position. -/
def columnAt (offset : Nat) : List Char → Nat
  | [] => 0
  | c :: s => if offset < c.utf8Size then 0 else columnAt (offset - c.utf8Size) s + 1

def placeIn (offset : Nat) (line : Nat) : List (List Char) → Place
  | [] => ⟨line, 0, []⟩
  | l :: ls =>
    if offset ≤ Text.byteLength l || ls.isEmpty then ⟨line, columnAt offset l, l⟩
    else placeIn (offset - (Text.byteLength l + 1)) (line + 1) ls

def placeAt (text : List Char) (offset : Nat) : Place := placeIn offset 0 (Text.lines text)

/-- The byte position at which a range of a text starts. -/
def Range.startIn (range : Range) (text : List Char) : Nat :=
  Text.byteLength text - Text.byteLength range.onward

def Range.byteLength (range : Range) : Nat :=
  Text.byteLength range.onward - Text.byteLength range.behind

def caretCount (p : Place) (range : Range) : Nat :=
  max 1 (min range.byteLength (Text.byteLength p.content - p.column))

def report (text : String) (range : Range) (message : String) : String :=
  let p := placeAt text.toList (range.startIn text.toList)
  let number := (toString (p.line + 1)).toList
  let margin := List.replicate (number.length + 1) ' ' ++ ['|']
  let lines : List (List Char) := [
    "TOML parse error at line ".toList ++ number ++ ", column ".toList
      ++ (toString (p.column + 1)).toList,
    margin,
    number ++ " | ".toList ++ p.content,
    margin ++ List.replicate (p.column + 1) ' ' ++ List.replicate (caretCount p range) '^',
    message.toList,
    []]
  String.ofList (['\n'].intercalate lines)

end ChatMarkup.Toml
