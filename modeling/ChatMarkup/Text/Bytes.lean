/-! # Byte positions in a text

A text is counted in characters, but some positions are given in bytes of its UTF-8 encoding. Such a
position need not fall between two characters; then nothing can be cut there.
-/
namespace ChatMarkup.Text

def byteLength : List Char → Nat
  | [] => 0
  | c :: s => c.utf8Size + byteLength s

/-- The text before a byte position and the text from there on. -/
def splitAtByte? (position : Nat) : List Char → Option (List Char × List Char)
  | [] => if position = 0 then some ([], []) else none
  | c :: s =>
    if position = 0 then some ([], c :: s)
    else if c.utf8Size ≤ position then
      (splitAtByte? (position - c.utf8Size) s).map fun (before, behind) => (c :: before, behind)
    else none

theorem splitAtByte?_append (s t : List Char) :
    splitAtByte? (byteLength s) (s ++ t) = some (s, t) := by
  induction s with
  | nil => cases t <;> rfl
  | cons c s ih =>
    have hpos : c.utf8Size ≠ 0 := Nat.pos_iff_ne_zero.1 c.utf8Size_pos
    simp [byteLength, splitAtByte?, hpos, ih]

/-- The text between two byte positions. -/
def slice? (start stop : Nat) (s : List Char) : Option (List Char) := do
  let (_, behind) ← splitAtByte? start s
  let (part, _) ← splitAtByte? (stop - start) behind
  return part

end ChatMarkup.Text
