import ChatMarkup.Inline

/-! # Whole messages

A message is rendered line by line, with a line break between two lines. A line that starts with the
quote mark is quoted whole, without the mark.
-/
namespace ChatMarkup

def unquote? : List Char → Option (List Char)
  | '>' :: ' ' :: s => some s
  | _ => none

theorem unquote?_eq_some_iff {s rest : List Char} :
    unquote? s = some rest ↔ s = quoteMark ++ rest := by
  constructor
  · intro h
    unfold unquote? at h
    split at h
    · cases h; rfl
    · cases h
  · rintro rfl
    rfl

def lineTokens (line : List Char) : List Token :=
  match unquote? line with
  | some quoted => [.quote (inlineTokens quoted)]
  | none => inlineTokens line

def messageTokens (s : List Char) : List Token :=
  [Token.lineBreak].intercalate ((Text.lines s).map lineTokens)

def render (text : String) : List Token := messageTokens text.toList

end ChatMarkup
