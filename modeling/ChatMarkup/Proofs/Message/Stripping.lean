import ChatMarkup.Proofs.Message.Source
import ChatMarkup.Proofs.Token.Subtokens
import Mathlib.Data.List.Basic
import Mathlib.Logic.Function.Iterate

/-! # Stripping the markup of a message

Stripping a message leaves its literal text. No character is moved or added, and the ones that are taken
out are counted by the tokens. What is left can be markup again, as the delimiters inside a style become
visible, but each further step takes out two characters at least.
-/
namespace ChatMarkup

def strip (text : String) : String := literalText (render text)

/-- A token that is written as its literal text. -/
def Token.IsPlain (t : Token) : Prop := (∃ s, t = .text s) ∨ t = .lineBreak

theorem Token.isPlain_iff (t : Token) :
    t.IsPlain ↔ t.isStyledOrQuote = false ∧ t.isMonospace = false := by
  cases t <;> simp [IsPlain, isStyledOrQuote, isMonospace]

theorem Token.IsPlain.literal_eq_source {t : Token} (h : t.IsPlain) : t.literal = t.source := by
  rcases h with ⟨s, rfl⟩ | rfl
  · rfl
  · rfl

theorem isPlain_of_markLength_eq_zero {ts : List Token} (h : markLength ts = 0) :
    ∀ t ∈ ts, t.IsPlain := by
  intro t ht
  have hmem : t ∈ subtokens ts := mem_subtokens_of_mem ht
  obtain ⟨hstyled, hmono⟩ : (subtokens ts).countP Token.isStyledOrQuote = 0 ∧
      (subtokens ts).countP Token.isMonospace = 0 := by
    rw [markLength] at h
    omega
  rw [List.countP_eq_zero] at hstyled hmono
  exact t.isPlain_iff.2 ⟨by simpa using hstyled t hmem, by simpa using hmono t hmem⟩

/-- The markup of a list is its literal text exactly when it holds texts and line breaks only. -/
theorem literals_eq_sources_iff {ts : List Token} :
    literals ts = sources ts ↔ ∀ t ∈ ts, t.IsPlain := by
  constructor
  · intro h
    have hlen := length_sources ts
    rw [h] at hlen
    exact isPlain_of_markLength_eq_zero (by omega)
  · intro h
    rw [literals_eq_flatMap, sources_eq_flatMap]
    exact List.flatMap_congr fun t ht => (h t ht).literal_eq_source

theorem toList_strip (text : String) : (strip text).toList = literals (render text) := by
  rw [strip, literalText, String.toList_ofList]

theorem sources_render (text : String) : sources (render text) = text.toList :=
  sources_messageTokens text.toList

theorem length_strip (text : String) :
    text.length = (strip text).length + markLength (render text) := by
  rw [← String.length_toList, ← String.length_toList, toList_strip, ← length_sources, sources_render]

theorem strip_eq_self_iff {text : String} : strip text = text ↔ ∀ t ∈ render text, t.IsPlain := by
  rw [← literals_eq_sources_iff, sources_render, ← toList_strip, String.toList_inj]

/-- A strip that changes a message makes it shorter by two characters at least. -/
theorem strip_eq_self_or_shorter (text : String) :
    strip text = text ∨ (strip text).length + 2 ≤ text.length := by
  have hlen := length_strip text
  rcases Nat.eq_zero_or_pos (markLength (render text)) with hzero | hpos
  · exact Or.inl (strip_eq_self_iff.2 (isPlain_of_markLength_eq_zero hzero))
  · refine Or.inr ?_
    rw [markLength] at hpos hlen
    omega

/-- A function that leaves a value as it is or lowers its size by two gets to a fixed point in so many
steps. -/
theorem exists_iterate_fixed {α : Type} {f : α → α} {size : α → Nat}
    (h : ∀ x, f x = x ∨ size (f x) + 2 ≤ size x) (x : α) :
    ∃ n, n ≤ size x / 2 ∧ f (f^[n] x) = f^[n] x := by
  induction hx : size x using Nat.strongRecOn generalizing x with
  | ind m ih =>
    rcases h x with hfix | hless
    · exact ⟨0, Nat.zero_le _, hfix⟩
    · obtain ⟨n, hn, hfix⟩ := ih (size (f x)) (by omega) (f x) rfl
      exact ⟨n + 1, by omega, hfix⟩

/-- Stripping takes the marks out and nothing else: two characters for each style and quote and six for each
monospace token. It changes every message that has one, and ends after at most half as many steps as the
message has characters. -/
theorem strip_accounts (text : String) :
    (strip text).toList.Sublist text.toList ∧
    text.length = (strip text).length + (2 * (subtokens (render text)).countP Token.isStyledOrQuote +
      6 * (subtokens (render text)).countP Token.isMonospace) ∧
    (strip text = text ↔ ∀ t ∈ render text, (∃ s, t = .text s) ∨ t = .lineBreak) ∧
    ∃ n, n ≤ text.length / 2 ∧ strip (strip^[n] text) = strip^[n] text := by
  have hsublist : (literals (render text)).Sublist (sources (render text)) :=
    literals_sublist_sources (render text)
  rw [sources_render, ← toList_strip] at hsublist
  exact ⟨hsublist, length_strip text, strip_eq_self_iff,
    exists_iterate_fixed strip_eq_self_or_shorter text⟩

-- The quote inside the bold span is seen when the delimiters around it are gone.
example : strip "*> x*" = "> x" ∧ strip "> x" = "x" := by
  cbv

end ChatMarkup
