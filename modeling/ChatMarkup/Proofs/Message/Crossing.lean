import ChatMarkup.Proofs.Inline.Resume
import ChatMarkup.Proofs.Message.Lines

/-! # Reading a text at once and line by line

When a text is read at once, a style can reach over line feeds; line by line it never does. That is the
whole difference: in a text without quoted lines, the tokens read at once, with line breaks in the place
of the line feeds in their texts, are the tokens of the message if and only if no style reaches over a
line feed. Delimiters that are left open before the end of a line do not matter.
-/
namespace ChatMarkup

/-- A text with a line break for each line feed in it. Nothing stands for an empty stretch. -/
def Token.broken : Token → List Token
  | .text s => joinLines ((Text.lines s.toList).map plainTokens)
  | t => [t]

def breakTexts (ts : List Token) : List Token := ts.flatMap Token.broken

/-- A token that is no text holds a line feed. -/
def SpansLines (ts : List Token) : Prop := ∃ t ∈ ts, (∀ s, t ≠ .text s) ∧ '\n' ∈ t.literal

theorem Token.broken_of_ne {t : Token} (h : ∀ s, t ≠ .text s) : t.broken = [t] := by
  cases t with
  | text s => exact absurd rfl (h s)
  | _ => rfl

theorem Token.broken_text_append_newline (s t : String) :
    (Token.text (s ++ "\n" ++ t)).broken =
      (Token.text s).broken ++ .lineBreak :: (Token.text t).broken := by
  rw [broken, toList_append_newline, joinLines_map_lines_append]
  rfl

theorem Token.broken_text_of_not_mem {s : String} (hne : s ≠ "") (h : '\n' ∉ s.toList) :
    (Token.text s).broken = [.text s] := by
  have hlist : s.toList ≠ [] := by simpa using hne
  rw [broken, Text.lines, List.splitOn_eq_singleton h, List.map_singleton, joinLines_singleton,
    plainTokens_of_ne_nil hlist, String.ofList_toList]

theorem breakTexts_cons (t : Token) (ts : List Token) :
    breakTexts (t :: ts) = t.broken ++ breakTexts ts := List.flatMap_cons

theorem InlineToken.newline_mem_literal_iff {t : Token} (h : InlineToken t) :
    '\n' ∈ t.literal ↔ '\n' ∈ t.source := by
  cases h with
  | text _ => rfl
  | @styled style content _ _ =>
    have hdelimiter : '\n' ≠ style.delimiter := by cases style <;> decide
    simp [Token.literal, Token.source, literals, sources, hdelimiter]
  | monospace _ _ => simp [Token.literal, Token.source, fence]

/-- Without line feeds there is nothing to break. -/
theorem breakTexts_eq_self {ts : List Token} (htokens : ∀ t ∈ ts, InlineToken t)
    (h : '\n' ∉ sources ts) : breakTexts ts = ts := by
  induction ts with
  | nil => rfl
  | cons t ts ih =>
    rw [sources, List.mem_append, not_or] at h
    have hts := ih (fun u hu => htokens u (List.mem_cons_of_mem t hu)) h.2
    have ht : t.broken = [t] := by
      cases htokens t List.mem_cons_self with
      | text hne => exact Token.broken_text_of_not_mem hne h.1
      | styled _ _ => rfl
      | monospace _ _ => rfl
    rw [breakTexts_cons, ht, hts]
    rfl

theorem inlineTokens_newline_cons (s : List Char) :
    inlineTokens ('\n' :: s) = joinTokens [.text "\n"] (inlineTokens s) := by
  have hnone : spanRecogniser.find? ('\n' :: s) = none := rfl
  have hprepend : ∀ ps : List (Text.Piece Span),
      Text.Piece.prepend '\n' ps = Text.joinPieces [.plain ['\n']] ps := by
    intro ps
    cases ps with
    | nil => rfl
    | cons p ps => cases p <;> rfl
  rw [inlineTokens, spanRecogniser.scan_of_none hnone, hprepend, map_pieceToken_joinPieces]
  rfl

/-- A line feed in front of tokens stands in a text, and this text is all that changes. -/
theorem exists_joinTokens_newline (us : List Token) :
    ∃ s vs, joinTokens [.text "\n"] us = .text ("\n" ++ s) :: vs ∧
      (Token.text s).broken ++ breakTexts vs = breakTexts us := by
  rcases startsText_or_startsApart us with ⟨s, vs, rfl⟩ | hapart
  · exact ⟨s, vs, rfl, (breakTexts_cons _ vs).symm⟩
  · refine ⟨"", us, ?_, rfl⟩
    cases us with
    | nil => rfl
    | cons u us =>
      cases u with
      | text s => exact absurd rfl (hapart s us)
      | _ => rfl

theorem breakTexts_joinTokens_text (ts : List Token) (s : String) (us : List Token) :
    breakTexts (joinTokens ts (.text ("\n" ++ s) :: us)) =
      breakTexts ts ++ .lineBreak :: ((Token.text s).broken ++ breakTexts us) := by
  induction ts with
  | nil =>
    have h := Token.broken_text_append_newline "" s
    rw [String.empty_append] at h
    rw [joinTokens, breakTexts_cons, h]
    rfl
  | cons t ts ih =>
    by_cases hlast : ts = [] ∧ ∃ a, t = .text a
    · obtain ⟨rfl, a, rfl⟩ := hlast
      have h := Token.broken_text_append_newline a s
      rw [String.append_assoc] at h
      have hsingle : breakTexts [.text a] = (Token.text a).broken := List.flatMap_singleton ..
      rw [joinTokens, breakTexts_cons, h, hsingle, List.append_assoc]
      rfl
    · rw [joinTokens, breakTexts_cons, ih, breakTexts_cons, List.append_assoc]
      rintro a b vs - rfl rfl
      exact hlast ⟨rfl, a, rfl⟩

theorem breakTexts_joinTokens_newline (ts us : List Token) :
    breakTexts (joinTokens ts (joinTokens [.text "\n"] us)) =
      breakTexts ts ++ .lineBreak :: breakTexts us := by
  obtain ⟨s, vs, hjoin, hbreak⟩ := exists_joinTokens_newline us
  rw [hjoin, breakTexts_joinTokens_text, hbreak]

theorem mem_joinTokens_right {t : Token} (h : ∀ s, t ≠ .text s) (ts : List Token)
    {us : List Token} (ht : t ∈ us) : t ∈ joinTokens ts us := by
  fun_induction joinTokens ts us with
  | case1 us => exact ht
  | case2 s u us =>
    rcases List.mem_cons.1 ht with rfl | hmem
    · exact absurd rfl (h u)
    · exact List.mem_cons_of_mem _ hmem
  | case3 v ts us _ ih => exact List.mem_cons_of_mem v (ih ht)

theorem SpansLines.joinTokens_right {us : List Token} (h : SpansLines us) (ts : List Token) :
    SpansLines (joinTokens ts us) := by
  obtain ⟨t, ht, hne, hmem⟩ := h
  exact ⟨t, mem_joinTokens_right hne ts ht, hne, hmem⟩

/-- A span that a line feed cuts in two holds the line feed. -/
theorem CutsSpan.newline_mem_source {ts : List Token} {k : Nat} (h : CutsSpan ts k)
    {rest : List Char} (hdrop : (sources ts).drop k = '\n' :: rest) :
    ∃ t ∈ ts, (∀ s, t ≠ .text s) ∧ '\n' ∈ t.source := by
  obtain ⟨before, t, after, rfl, hne, hlt, hgt⟩ := h
  refine ⟨t, by simp, hne, ?_⟩
  obtain ⟨j, rfl⟩ := Nat.exists_eq_add_of_le (Nat.le_of_lt hlt)
  have hj : j < t.source.length := by omega
  rw [sources_append, List.drop_length_add_append, sources,
    List.drop_append_of_le_length (Nat.le_of_lt hj), List.drop_eq_getElem_cons hj,
    List.cons_append] at hdrop
  rw [← (List.cons.inj hdrop).1]
  exact List.getElem_mem hj

theorem inlineToken_of_mem {t : Token} {s : List Char} (h : t ∈ inlineTokens s) : InlineToken t :=
  (inlineCanonical_inlineTokens s).tokens t h

/-- One line feed: if no span reaches over it, both sides are read on their own. -/
theorem inlineTokens_append_newline {s t : List Char}
    (h : ¬ SpansLines (inlineTokens (s ++ '\n' :: t))) : inlineTokens (s ++ '\n' :: t) =
      joinTokens (inlineTokens s) (joinTokens [.text "\n"] (inlineTokens t)) := by
  rw [← inlineTokens_newline_cons, inlineTokens_append_iff]
  intro hcut
  have hdrop : (sources (inlineTokens (s ++ '\n' :: t))).drop s.length = '\n' :: t := by
    rw [sources_inlineTokens, List.drop_left]
  obtain ⟨u, hu, hne, hmem⟩ := hcut.newline_mem_source hdrop
  exact h ⟨u, hu, hne, (inlineToken_of_mem hu).newline_mem_literal_iff.2 hmem⟩

/-- All line feeds, by induction on the lines. -/
theorem breakTexts_inlineTokens_intercalate {parts : List (List Char)} (hne : parts ≠ [])
    (hparts : ∀ part ∈ parts, '\n' ∉ part)
    (h : ¬ SpansLines (inlineTokens (['\n'].intercalate parts))) :
    breakTexts (inlineTokens (['\n'].intercalate parts)) = joinLines (parts.map inlineTokens) := by
  induction parts with
  | nil => exact absurd rfl hne
  | cons part parts ih =>
    have hpart : breakTexts (inlineTokens part) = inlineTokens part := by
      apply breakTexts_eq_self fun t ht => inlineToken_of_mem ht
      rw [sources_inlineTokens]
      exact hparts part List.mem_cons_self
    cases parts with
    | nil => simpa [List.intercalate_singleton] using hpart
    | cons next parts =>
      rw [Text.intercalate_singleton_cons_cons] at h ⊢
      have hsplit := inlineTokens_append_newline h
      have hrest : ¬ SpansLines (inlineTokens (['\n'].intercalate (next :: parts))) := by
        intro hspan
        rw [hsplit] at h
        exact h ((hspan.joinTokens_right _).joinTokens_right _)
      have hnext := ih (List.cons_ne_nil next parts)
        (fun p hp => hparts p (List.mem_cons_of_mem part hp)) hrest
      rw [hsplit, breakTexts_joinTokens_newline, hpart, hnext, List.map_cons, List.map_cons,
        List.map_cons, joinLines_cons_cons]

/-- A token of a line holds no line feed, so what is put together from lines cannot either. -/
theorem not_spansLines_of_breakTexts_eq {s : List Char} {parts : List (List Char)}
    (hparts : ∀ part ∈ parts, '\n' ∉ part)
    (h : breakTexts (inlineTokens s) = joinLines (parts.map inlineTokens)) :
    ¬ SpansLines (inlineTokens s) := by
  rintro ⟨t, ht, hne, hmem⟩
  have htoken := inlineToken_of_mem ht
  have hbroken : t ∈ breakTexts (inlineTokens s) :=
    List.mem_flatMap.2 ⟨t, ht, by rw [Token.broken_of_ne hne]; exact List.mem_singleton_self t⟩
  rw [h] at hbroken
  rcases mem_joinLines hbroken with rfl | ⟨part, hpart, htpart⟩
  · cases htoken
  · obtain ⟨line, hline, rfl⟩ := List.mem_map.1 hpart
    have hsource : '\n' ∈ sources (inlineTokens line) := by
      rw [sources_eq_flatMap, List.mem_flatMap]
      exact ⟨t, htpart, htoken.newline_mem_literal_iff.1 hmem⟩
    rw [sources_inlineTokens] at hsource
    exact hparts line hline hsource

theorem messageTokens_of_plain {s : List Char} (h : ∀ line ∈ Text.lines s, ¬ quoteMark <+: line) :
    messageTokens s = joinLines ((Text.lines s).map inlineTokens) := by
  have hmap : (Text.lines s).map lineTokens = (Text.lines s).map inlineTokens :=
    List.map_congr_left fun line hline => lineTokens_of_plain (h line hline)
  rw [messageTokens_eq_joinLines, hmap]

/-- A text without quoted lines can be read at once, and its texts broken at the line feeds, exactly
when no style reaches over a line feed. -/
theorem render_eq_breakTexts_iff (text : String)
    (h : ∀ line ∈ Text.lines text.toList, ¬ quoteMark <+: line) :
    render text = breakTexts (parseInline text) ↔ ¬ SpansLines (parseInline text) := by
  have hparts : ∀ line ∈ Text.lines text.toList, '\n' ∉ line :=
    Text.not_mem_of_mem_splitOn '\n' text.toList
  rw [render, messageTokens_of_plain h]
  constructor
  · intro heq
    exact not_spansLines_of_breakTexts_eq hparts heq.symm
  · intro hspan
    have hjoin : ['\n'].intercalate (Text.lines text.toList) = text.toList :=
      List.intercalate_splitOn '\n'
    have hbreak := breakTexts_inlineTokens_intercalate (List.splitOn_ne_nil '\n' text.toList) hparts
    rw [Text.lines] at hjoin ⊢
    rw [hjoin] at hbreak
    exact (hbreak hspan).symm

/-- A delimiter that is left open before a line feed, and a span behind it. -/
theorem render_eq_breakTexts_open_delimiter :
    (∀ line ∈ Text.lines "*a\n_b_".toList, ¬ quoteMark <+: line) ∧
    ¬ SpansLines (parseInline "*a\n_b_") ∧
    render "*a\n_b_" = breakTexts (parseInline "*a\n_b_") := by
  have hplain : ∀ line ∈ Text.lines "*a\n_b_".toList, ¬ quoteMark <+: line := by decide
  have htokens : parseInline "*a\n_b_" = [.text "*a\n", .styled .italic [.text "b"]] := by cbv
  have hspan : ¬ SpansLines (parseInline "*a\n_b_") := by
    rw [htokens]
    rintro ⟨t, ht, hne, hmem⟩
    simp only [List.mem_cons, List.not_mem_nil, or_false] at ht
    rcases ht with rfl | rfl
    · exact hne "*a\n" rfl
    · revert hmem
      decide
  exact ⟨hplain, hspan, (render_eq_breakTexts_iff _ hplain).2 hspan⟩

end ChatMarkup
