import ChatMarkup.Text.Scan
import ChatMarkup.Text.Split
import ChatMarkup.Token

/-! # Styled spans inside a line

A span is opened by a style's delimiter or by a fence. Delimited content is not empty and reaches to
the next delimiter of the same style. Fenced content is not empty, holds no line terminator and
reaches to the nearest fence behind its first character, so that character may be a backtick.
Spans are looked for from left to right and do not nest: all content is plain text.
-/
namespace ChatMarkup

inductive Span where
  | delimited (style : Style) (content : List Char)
  | fenced (content : List Char)
  deriving DecidableEq

def Span.source : Span → List Char
  | .delimited style content => style.delimiter :: (content ++ [style.delimiter])
  | .fenced content => fence ++ (content ++ fence)

def Span.token : Span → Token
  | .delimited style content => .styled style [.text (String.ofList content)]
  | .fenced content => .monospace (String.ofList content)

/-- The characters that monospace content cannot hold. -/
def isLineTerminator (c : Char) : Bool :=
  c = '\n' || c = '\r' || c = '\u2028' || c = '\u2029'

def skipFence? : List Char → Option (List Char)
  | '`' :: '`' :: '`' :: s => some s
  | _ => none

/-- Splits a text at its first fence, if no line terminator stands before it. -/
def closeFence? : List Char → Option (List Char × List Char)
  | [] => none
  | c :: s =>
    match skipFence? (c :: s) with
    | some rest => some ([], rest)
    | none =>
      if isLineTerminator c then none
      else (closeFence? s).map fun (content, rest) => (c :: content, rest)

def fenced? : List Char → Option (Span × List Char)
  | [] => none
  | c :: s =>
    if isLineTerminator c then none
    else (closeFence? s).map fun (content, rest) => (.fenced (c :: content), rest)

def delimited? (style : Style) (s : List Char) : Option (Span × List Char) :=
  match Text.splitAt? style.delimiter s with
  | some (c :: content, rest) => some (.delimited style (c :: content), rest)
  | _ => none

def span? (s : List Char) : Option (Span × List Char) :=
  match skipFence? s with
  | some s' => fenced? s'
  | none =>
    match s with
    | [] => none
    | c :: s' => (Style.ofDelimiter? c).bind (delimited? · s')

theorem skipFence?_eq_some_iff {s rest : List Char} :
    skipFence? s = some rest ↔ s = fence ++ rest := by
  constructor
  · intro h
    unfold skipFence? at h
    split at h
    · cases h; rfl
    · cases h
  · rintro rfl
    rfl

theorem eq_append_of_closeFence? {s content rest : List Char}
    (h : closeFence? s = some (content, rest)) : s = content ++ (fence ++ rest) := by
  induction s generalizing content with
  | nil => simp [closeFence?] at h
  | cons c s ih =>
    unfold closeFence? at h
    split at h
    · rename_i hf
      cases h
      exact skipFence?_eq_some_iff.1 hf
    · split at h
      · cases h
      · obtain ⟨⟨content', rest'⟩, hc, he⟩ := Option.map_eq_some_iff.1 h
        cases he
        rw [ih hc]
        rfl

theorem eq_append_of_delimited? {style : Style} {s rest : List Char} {a : Span}
    (h : delimited? style s = some (a, rest)) : style.delimiter :: s = a.source ++ rest := by
  unfold delimited? at h
  split at h
  · rename_i hs
    cases h
    rw [(Text.splitAt?_eq_some_iff.1 hs).1]
    simp [Span.source]
  · cases h

theorem eq_append_of_span? {s rest : List Char} {a : Span} (h : span? s = some (a, rest)) :
    s = a.source ++ rest := by
  unfold span? at h
  split at h
  · rename_i s' hf
    unfold fenced? at h
    split at h
    · cases h
    · split at h
      · cases h
      · obtain ⟨⟨content, rest'⟩, hc, he⟩ := Option.map_eq_some_iff.1 h
        cases he
        rw [skipFence?_eq_some_iff.1 hf, eq_append_of_closeFence? hc]
        simp [Span.source]
  · split at h
    · cases h
    · rename_i c s'
      obtain ⟨style, hc, hd⟩ := Option.bind_eq_some_iff.1 h
      rw [Style.ofDelimiter?_eq_some_iff.1 hc]
      exact eq_append_of_delimited? hd

def spanRecogniser : Text.Recogniser Span where
  source := Span.source
  find? := span?
  source_ne_nil := by rintro (_ | _) <;> simp [Span.source, fence]
  eq_append := eq_append_of_span?

def pieceToken : Text.Piece Span → Token
  | .plain cs => .text (String.ofList cs)
  | .found a => a.token

/-- The tokens of one stretch of text; line feeds are ordinary characters here. -/
def inlineTokens (s : List Char) : List Token := (spanRecogniser.scan s).map pieceToken

def parseInline (text : String) : List Token := inlineTokens text.toList

end ChatMarkup
