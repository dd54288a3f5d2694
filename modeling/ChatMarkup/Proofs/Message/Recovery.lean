import ChatMarkup.Proofs.Html.Decoding
import ChatMarkup.Proofs.Message.Canonical

/-! # Getting a message back from its HTML

Rendering makes no empty text and no two texts that meet, so the tokens of a message are in normal form
and can be read from the HTML without loss. Their markup is the message.
-/
namespace ChatMarkup

theorem InlineCanonical.normal {ts : List Token} (h : InlineCanonical ts) : Normal ts := by
  induction ts with
  | nil => exact .nil
  | cons t ts ih =>
    have hts : Normal ts := ih h.tail
    rcases h.tokens t List.mem_cons_self with hne | ⟨hne, _⟩ | _
    · rename_i content
      apply Normal.text hne _ hts
      rintro s us rfl
      exact h.apart [] us content s rfl
    · exact .styled (.text hne startsApart_nil .nil) hts
    · exact .monospace hts

theorem LineCanonical.normal {ts : List Token} (h : LineCanonical ts) : Normal ts := by
  rcases h.quotedOrPlain with ⟨inner, rfl, hinner⟩ | ⟨hts, _⟩
  · exact .quote hinner.normal .nil
  · exact hts.normal

theorem normal_joinLines {parts : List (List Token)} (h : ∀ part ∈ parts, Normal part) :
    Normal (joinLines parts) := by
  induction parts with
  | nil => exact .nil
  | cons part parts ih =>
    have hpart : Normal part := h part List.mem_cons_self
    have hparts : Normal (joinLines parts) := ih fun p hp => h p (List.mem_cons_of_mem part hp)
    cases parts with
    | nil => rwa [joinLines_singleton]
    | cons next parts =>
      rw [joinLines_cons_cons]
      exact hpart.append_lineBreak hparts

theorem Canonical.normal {ts : List Token} (h : Canonical ts) : Normal ts := by
  rw [← joinLines_cutLines ts]
  exact normal_joinLines fun part hpart => (h part hpart).normal

theorem normal_render (text : String) : Normal (render text) :=
  (canonical_messageTokens text.toList).normal

/-- The HTML of a message gives back the message, so different messages have different HTML; the class
names can be any, and are not needed to read it. -/
theorem markup_readTokens_toHtml_render (classes : Html.ClassNames) :
    (∀ text, markup (Html.readTokens (toHtml (render text) classes)) = text) ∧
    Function.Injective fun text => toHtml (render text) classes := by
  have hread : ∀ text, markup (Html.readTokens (toHtml (render text) classes)) = text := by
    intro text
    have htokens : Html.readTokens (toHtml (render text) classes) = render text := by
      rw [Html.readTokens_toHtml, (normal_render text).normalize_eq]
    rw [htokens, markup, render, sources_messageTokens, String.ofList_toList]
  refine ⟨hread, ?_⟩
  intro s t h
  have hst := congrArg (fun html => markup (Html.readTokens html)) h
  exact (hread s).symm.trans (hst.trans (hread t))

end ChatMarkup
