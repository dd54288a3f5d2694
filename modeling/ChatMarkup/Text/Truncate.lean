import ChatMarkup.Text.Bytes

/-! # Cutting a text after a number of characters

A text with more characters than the limit is cut where the first character too many starts, and ends in
three dots; any other text stays as it is. Characters are counted, but the cut is made at a byte position.
-/
namespace ChatMarkup.Text

def ellipsis : List Char := ['.', '.', '.']

/-- The byte position at which the character of that index starts. -/
def charPosition? : Nat → List Char → Option Nat
  | _, [] => none
  | 0, _ :: _ => some 0
  | n + 1, c :: s => (charPosition? n s).map (c.utf8Size + ·)

/-- What is left of a text that is cut, if it is. -/
def cut? (limit : Nat) (s : List Char) : Option (List Char) := do
  let stop ← charPosition? limit s
  let (kept, _) ← splitAtByte? stop s
  return kept ++ ellipsis

def truncate (text : String) (limit : Nat) : String :=
  ((cut? limit text.toList).map String.ofList).getD text

theorem charPosition?_of_lt {n : Nat} {s : List Char} (h : n < s.length) :
    charPosition? n s = some (byteLength (s.take n)) := by
  induction s generalizing n with
  | nil => cases h
  | cons c s ih =>
    cases n with
    | zero => rfl
    | succ n =>
      rw [charPosition?, ih (Nat.lt_of_succ_lt_succ h)]
      rfl

theorem charPosition?_of_le {n : Nat} {s : List Char} (h : s.length ≤ n) :
    charPosition? n s = none := by
  induction s generalizing n with
  | nil => cases n <;> rfl
  | cons c s ih =>
    cases n with
    | zero => cases h
    | succ n =>
      rw [charPosition?, ih (Nat.le_of_succ_le_succ h)]
      rfl

/-- The position is one between two characters, so the cut can always be made. -/
theorem splitAtByte?_charPosition {n stop : Nat} {s : List Char}
    (h : charPosition? n s = some stop) :
    splitAtByte? stop s = some (s.take n, s.drop n) := by
  have hn : n < s.length := by
    refine Nat.lt_of_not_le fun hle => ?_
    rw [charPosition?_of_le hle] at h
    cases h
  rw [charPosition?_of_lt hn] at h
  cases h
  have hsplit := splitAtByte?_append (s.take n) (s.drop n)
  rwa [List.take_append_drop] at hsplit

theorem cut?_eq (n : Nat) (s : List Char) :
    cut? n s = if n < s.length then some (s.take n ++ ellipsis) else none := by
  split
  · rename_i h
    have hstop := charPosition?_of_lt h
    simp [cut?, hstop, splitAtByte?_charPosition hstop]
  · rename_i h
    simp [cut?, charPosition?_of_le (Nat.le_of_not_lt h)]

theorem truncate_of_lt {text : String} {limit : Nat} (h : limit < text.length) :
    truncate text limit = String.ofList (text.toList.take limit ++ ellipsis) := by
  rw [← String.length_toList] at h
  rw [truncate, cut?_eq, if_pos h]
  rfl

theorem truncate_of_le {text : String} {limit : Nat} (h : text.length ≤ limit) :
    truncate text limit = text := by
  rw [← String.length_toList] at h
  rw [truncate, cut?_eq, if_neg (Nat.not_lt.2 h)]
  rfl

end ChatMarkup.Text
