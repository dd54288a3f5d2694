import ChatMarkup.Proofs.Message.Source
import ChatMarkup.Proofs.Text.Mapping
import Mathlib.Logic.Equiv.Defs

/-! # Messages with other characters

Reading a message looks only at the special characters: the delimiters of the styles, the backtick, the
line terminators and the two characters of the quote mark. A map of characters that permutes the
delimiters, keeps the other special characters and sends no ordinary character to a special one can be
applied before or after rendering. So no style has precedence over another, and the ordinary characters
have no influence on where the tokens begin and end, even if the map sends many of them to one.
-/
namespace ChatMarkup

/-- The special characters that are no delimiters. -/
def fixedChars : List Char := ['`', '\n', '\r', '\u2028', '\u2029', '>', ' ']

def IsSpecial (c : Char) : Prop := c ∈ fixedChars ∨ ∃ s : Style, c = s.delimiter

structure Relabelling where
  char : Char → Char
  style : Equiv.Perm Style
  char_delimiter : ∀ s : Style, char s.delimiter = (style s).delimiter
  char_fixed : ∀ c ∈ fixedChars, char c = c
  not_isSpecial_char : ∀ c, ¬ IsSpecial c → ¬ IsSpecial (char c)

mutual
def Token.relabel (ρ : Relabelling) : Token → Token
  | .text s => .text (s.map ρ.char)
  | .styled style ts => .styled (ρ.style style) (relabelTokens ρ ts)
  | .monospace s => .monospace (s.map ρ.char)
  | .quote ts => .quote (relabelTokens ρ ts)
  | .lineBreak => .lineBreak
def relabelTokens (ρ : Relabelling) : List Token → List Token
  | [] => []
  | t :: ts => t.relabel ρ :: relabelTokens ρ ts
end

variable (ρ : Relabelling)

theorem relabelTokens_eq_map (ts : List Token) : relabelTokens ρ ts = ts.map (Token.relabel ρ) := by
  induction ts with
  | nil => rfl
  | cons t ts ih => rw [relabelTokens, ih, List.map_cons]

def Span.relabel : Span → Span
  | .delimited style content => .delimited (ρ.style style) (content.map ρ.char)
  | .fenced content => .fenced (content.map ρ.char)

theorem Style.delimiter_not_mem_fixedChars (s : Style) : s.delimiter ∉ fixedChars := by
  cases s <;> decide

namespace Relabelling

/-- A fixed character is sent to itself, and nothing else is. -/
theorem char_eq_iff {d : Char} (hd : d ∈ fixedChars) (c : Char) : ρ.char c = d ↔ c = d := by
  constructor
  · intro h
    by_cases hc : IsSpecial c
    · rcases hc with hfixed | ⟨s, rfl⟩
      · rw [← h, ρ.char_fixed c hfixed]
      · rw [ρ.char_delimiter] at h
        exact absurd (h ▸ hd) (ρ.style s).delimiter_not_mem_fixedChars
    · exact absurd (Or.inl (h ▸ hd)) (ρ.not_isSpecial_char c hc)
  · rintro rfl
    exact ρ.char_fixed c hd

theorem char_eq_iff_of_subset {mark : List Char} (hmark : mark ⊆ fixedChars) :
    ∀ d ∈ mark, ∀ c, ρ.char c = d ↔ c = d :=
  fun _ hd => ρ.char_eq_iff (hmark hd)

theorem char_eq_delimiter_iff (s : Style) (c : Char) :
    ρ.char c = (ρ.style s).delimiter ↔ c = s.delimiter := by
  constructor
  · intro h
    by_cases hc : IsSpecial c
    · rcases hc with hfixed | ⟨t, rfl⟩
      · rw [ρ.char_fixed c hfixed] at h
        exact absurd (h ▸ hfixed) (ρ.style s).delimiter_not_mem_fixedChars
      · rw [ρ.char_delimiter] at h
        rw [ρ.style.injective (Style.delimiter_injective h)]
    · exact absurd (Or.inr ⟨_, h⟩) (ρ.not_isSpecial_char c hc)
  · rintro rfl
    exact ρ.char_delimiter s

theorem isLineTerminator_char (c : Char) : isLineTerminator (ρ.char c) = isLineTerminator c := by
  have hmark : ['\n', '\r', '\u2028', '\u2029'] ⊆ fixedChars := by decide
  have hterminator := ρ.char_eq_iff_of_subset hmark
  simp only [List.forall_mem_cons] at hterminator
  obtain ⟨hfeed, hreturn, hline, hparagraph, -⟩ := hterminator
  simp only [isLineTerminator, hfeed, hreturn, hline, hparagraph]

theorem ofDelimiter?_char (c : Char) :
    Style.ofDelimiter? (ρ.char c) = (Style.ofDelimiter? c).map ρ.style := by
  apply Option.ext
  intro s
  rw [Style.ofDelimiter?_eq_some_iff, Option.map_eq_some_iff]
  constructor
  · intro h
    have hs : ρ.char c = (ρ.style (ρ.style.symm s)).delimiter := by
      rw [ρ.style.apply_symm_apply, h]
    have hc := (ρ.char_eq_delimiter_iff _ c).1 hs
    exact ⟨ρ.style.symm s, Style.ofDelimiter?_eq_some_iff.2 hc, ρ.style.apply_symm_apply s⟩
  · rintro ⟨t, ht, rfl⟩
    exact (ρ.char_eq_delimiter_iff t c).2 (Style.ofDelimiter?_eq_some_iff.1 ht)

theorem skipFence?_map (s : List Char) :
    skipFence? (s.map ρ.char) = (skipFence? s).map (List.map ρ.char) :=
  Text.skip_map skipFence?_eq_some_iff (ρ.char_eq_iff_of_subset (by decide)) s

theorem unquote?_map (s : List Char) :
    unquote? (s.map ρ.char) = (unquote? s).map (List.map ρ.char) :=
  Text.skip_map unquote?_eq_some_iff (ρ.char_eq_iff_of_subset (by decide)) s

theorem lines_map (s : List Char) :
    Text.lines (s.map ρ.char) = (Text.lines s).map (List.map ρ.char) :=
  Text.splitOn_map (ρ.char_eq_iff (by decide)) s

theorem closeFence?_map (s : List Char) : closeFence? (s.map ρ.char) =
    (closeFence? s).map fun (content, rest) => (content.map ρ.char, rest.map ρ.char) := by
  induction s with
  | nil => rfl
  | cons c s ih =>
    have hskip := ρ.skipFence?_map (c :: s)
    rw [List.map_cons] at hskip ⊢
    rw [closeFence?, closeFence?, hskip, ρ.isLineTerminator_char, ih]
    cases skipFence? (c :: s) with
    | some rest => rfl
    | none =>
      cases isLineTerminator c with
      | true => rfl
      | false => cases closeFence? s <;> rfl

theorem fenced?_map (s : List Char) :
    fenced? (s.map ρ.char) = (fenced? s).map fun (a, rest) => (a.relabel ρ, rest.map ρ.char) := by
  cases s with
  | nil => rfl
  | cons c s =>
    rw [List.map_cons, fenced?, fenced?, ρ.isLineTerminator_char, ρ.closeFence?_map]
    cases isLineTerminator c with
    | true => rfl
    | false => cases closeFence? s <;> rfl

theorem delimited?_map (style : Style) (s : List Char) :
    delimited? (ρ.style style) (s.map ρ.char) =
      (delimited? style s).map fun (a, rest) => (a.relabel ρ, rest.map ρ.char) := by
  rw [delimited?, delimited?, Text.splitAt?_map (ρ.char_eq_delimiter_iff style)]
  cases Text.splitAt? style.delimiter s with
  | none => rfl
  | some p =>
    obtain ⟨content, rest⟩ := p
    cases content <;> rfl

theorem span?_map (s : List Char) :
    span? (s.map ρ.char) = (span? s).map fun (a, rest) => (a.relabel ρ, rest.map ρ.char) := by
  unfold span?
  rw [ρ.skipFence?_map]
  cases skipFence? s with
  | some s' => exact ρ.fenced?_map s'
  | none =>
    cases s with
    | nil => rfl
    | cons c s' =>
      simp only [Option.map_none, List.map_cons, ρ.ofDelimiter?_char]
      cases Style.ofDelimiter? c with
      | none => rfl
      | some style => exact ρ.delimited?_map style s'

theorem follows_spanRecogniser : spanRecogniser.Follows ρ.char (Span.relabel ρ) := ρ.span?_map

theorem ofList_map (cs : List Char) :
    String.ofList (cs.map ρ.char) = (String.ofList cs).map ρ.char := by
  rw [← String.ofList_toList (s := (String.ofList cs).map ρ.char), String.toList_map,
    String.toList_ofList]

theorem pieceToken_map (p : Text.Piece Span) :
    pieceToken (p.map ρ.char (Span.relabel ρ)) = (pieceToken p).relabel ρ := by
  cases p with
  | plain cs => exact congrArg Token.text (ρ.ofList_map cs)
  | found a =>
    cases a with
    | delimited style content =>
      exact congrArg (fun s => Token.styled (ρ.style style) [.text s]) (ρ.ofList_map content)
    | fenced content => exact congrArg Token.monospace (ρ.ofList_map content)

theorem inlineTokens_map (s : List Char) :
    inlineTokens (s.map ρ.char) = relabelTokens ρ (inlineTokens s) := by
  rw [inlineTokens, ρ.follows_spanRecogniser.scan_map, inlineTokens, relabelTokens_eq_map,
    List.map_map, List.map_map]
  exact List.map_congr_left fun p _ => ρ.pieceToken_map p

theorem lineTokens_map (line : List Char) :
    lineTokens (line.map ρ.char) = relabelTokens ρ (lineTokens line) := by
  rw [lineTokens, lineTokens, ρ.unquote?_map]
  cases unquote? line with
  | none => exact ρ.inlineTokens_map line
  | some quoted => exact congrArg (fun ts => [Token.quote ts]) (ρ.inlineTokens_map quoted)

theorem relabelTokens_joinLines (parts : List (List Token)) :
    relabelTokens ρ (joinLines parts) = joinLines (parts.map (relabelTokens ρ)) := by
  induction parts with
  | nil => rfl
  | cons part parts ih =>
    cases parts with
    | nil => simp
    | cons next parts =>
      rw [joinLines_cons_cons, List.map_cons, List.map_cons, joinLines_cons_cons, ← List.map_cons,
        ← ih, relabelTokens_eq_map, List.map_append, ← relabelTokens_eq_map,
        ← relabelTokens_eq_map]
      rfl

theorem messageTokens_map (s : List Char) :
    messageTokens (s.map ρ.char) = relabelTokens ρ (messageTokens s) := by
  rw [messageTokens_eq_joinLines, messageTokens_eq_joinLines, ρ.lines_map,
    ρ.relabelTokens_joinLines, List.map_map, List.map_map]
  congr 1
  exact List.map_congr_left fun line _ => ρ.lineTokens_map line

end Relabelling

/-- Rendering and relabelling commute. -/
theorem render_relabel (text : String) :
    render (text.map ρ.char) = relabelTokens ρ (render text) := by
  rw [render, String.toList_map, ρ.messageTokens_map]
  rfl

def Style.turn : Equiv.Perm Style where
  toFun
    | .bold => .italic
    | .italic => .strikethrough
    | .strikethrough => .bold
  invFun
    | .italic => .bold
    | .strikethrough => .italic
    | .bold => .strikethrough
  left_inv s := by cases s <;> rfl
  right_inv s := by cases s <;> rfl

theorem Style.ofDelimiter?_eq_none {c : Char} (h : ∀ s : Style, c ≠ s.delimiter) :
    Style.ofDelimiter? c = none := by
  rw [Option.eq_none_iff_forall_ne_some]
  intro s hs
  exact h s (Style.ofDelimiter?_eq_some_iff.1 hs)

/-- Every style becomes the next one, and all ordinary characters become one. -/
def Relabelling.masking : Relabelling where
  char c :=
    match Style.ofDelimiter? c with
    | some s => s.turn.delimiter
    | none => if c ∈ fixedChars then c else 'x'
  style := Style.turn
  char_delimiter s := by rw [Style.ofDelimiter?_delimiter]
  char_fixed c hc := by
    have hnone : Style.ofDelimiter? c = none :=
      Style.ofDelimiter?_eq_none fun s h => s.delimiter_not_mem_fixedChars (h ▸ hc)
    simp only [hnone, if_pos hc]
  not_isSpecial_char c hc := by
    have hnone : Style.ofDelimiter? c = none :=
      Style.ofDelimiter?_eq_none fun s h => hc (Or.inr ⟨s, h⟩)
    have hfixed : c ∉ fixedChars := fun h => hc (Or.inl h)
    simp only [hnone, if_neg hfixed]
    rintro (h | ⟨s, h⟩)
    · exact absurd h (by decide)
    · cases s <;> cases h

/-- A quoted line with a span, an open delimiter and a fence that a line terminator keeps open. -/
theorem render_relabel_masking :
    "> *ab*_ ```c\r```".map Relabelling.masking.char = "> _xx_~ ```x\r```" ∧
    render "> _xx_~ ```x\r```" = relabelTokens .masking (render "> *ab*_ ```c\r```") := by
  have hmap : "> *ab*_ ```c\r```".map Relabelling.masking.char = "> _xx_~ ```x\r```" := by
    rw [← String.toList_inj, String.toList_map]
    decide
  refine ⟨hmap, ?_⟩
  rw [← hmap]
  exact render_relabel .masking _

end ChatMarkup
