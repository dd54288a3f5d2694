import ChatMarkup.Proofs.Inline.Opening
import ChatMarkup.Proofs.Message.Source

/-! # Which token lists are rendered

Canonical token lists are described without the renderer: by the tokens a line may hold, by the texts
in them that open no span, and by the line breaks between the lines. They are exactly the token lists
that rendering yields, and rendering the markup of one gives it back.
-/
namespace ChatMarkup

/-- A token that can stand in a line, whatever stands around it. -/
inductive InlineToken : Token → Prop
  | text {content : String} : content ≠ "" → InlineToken (.text content)
  | styled {style : Style} {content : String} :
      content ≠ "" → style.delimiter ∉ content.toList → InlineToken (.styled style [.text content])
  | monospace {content : String} :
      Verbatim content.toList → ClosesFirst content.toList → InlineToken (.monospace content)

/-- The tokens of one line. The last two conditions look at the whole list: a text is not cut in two,
and no position of its markup that a text covers opens a span. -/
structure InlineCanonical (ts : List Token) : Prop where
  tokens : ∀ t ∈ ts, InlineToken t
  apart : ∀ before after s t, ts ≠ before ++ .text s :: .text t :: after
  closed : ∀ before after content, ts = before ++ .text content :: after →
    ∀ k < content.length, ¬ Opens ((sources ts).drop ((sources before).length + k))

structure LineCanonical (ts : List Token) : Prop where
  oneLine : '\n' ∉ sources ts
  quotedOrPlain : (∃ inner, ts = [.quote inner] ∧ InlineCanonical inner) ∨
    (InlineCanonical ts ∧ ¬ quoteMark <+: sources ts)

/-- The parts of a token list between its line breaks, one more than there are line breaks. -/
def cutLines : List Token → List (List Token)
  | [] => [[]]
  | .lineBreak :: ts => [] :: cutLines ts
  | t :: ts => (cutLines ts).modifyHead (t :: ·)

def Canonical (ts : List Token) : Prop := ∀ part ∈ cutLines ts, LineCanonical part

/-- The markup at a position that a text covers. -/
theorem drop_sources_text (before after : List Token) {content : String} {k : Nat}
    (hk : k ≤ content.length) :
    (sources (before ++ .text content :: after)).drop ((sources before).length + k) =
      content.toList.drop k ++ sources after := by
  rw [sources_append, List.drop_length_add_append, sources, Token.source,
    List.drop_append_of_le_length]
  rwa [String.length_toList]

theorem inlineCanonical_nil : InlineCanonical [] where
  tokens := by
    intro t ht
    cases ht
  apart := by
    intro before after s t h
    cases before <;> cases h
  closed := by
    intro before after content h
    cases before <;> cases h

theorem InlineCanonical.tail {t : Token} {ts : List Token} (h : InlineCanonical (t :: ts)) :
    InlineCanonical ts where
  tokens u hu := h.tokens u (List.mem_cons_of_mem t hu)
  apart := by
    intro before after s u hts
    exact h.apart (t :: before) after s u (by rw [hts]; rfl)
  closed := by
    rintro before after content rfl k hk
    have hopen := h.closed (t :: before) after content rfl k hk
    rw [← List.cons_append, drop_sources_text (t :: before) after (Nat.le_of_lt hk)] at hopen
    rwa [drop_sources_text before after (Nat.le_of_lt hk)]

theorem InlineCanonical.head_closed {content : String} {ts : List Token}
    (h : InlineCanonical (.text content :: ts)) :
    ∀ k < content.length, ¬ Opens (content.toList.drop k ++ sources ts) := by
  intro k hk
  have hopen := h.closed [] ts content rfl k hk
  have hdrop := drop_sources_text [] ts (Nat.le_of_lt hk)
  rw [List.nil_append] at hdrop
  rwa [hdrop] at hopen

/-- A token in front of a canonical list. Only a text has to fit to what comes after it. -/
theorem InlineCanonical.cons {t : Token} {ts : List Token} (h : InlineCanonical ts)
    (ht : InlineToken t) (hnext : ∀ content, t = .text content → ∀ s us, ts ≠ .text s :: us)
    (hopen : ∀ content, t = .text content →
      ∀ k < content.length, ¬ Opens (content.toList.drop k ++ sources ts)) :
    InlineCanonical (t :: ts) where
  tokens := by
    intro u hu
    rcases List.mem_cons.1 hu with rfl | hu
    · exact ht
    · exact h.tokens u hu
  apart := by
    intro before after s u hts
    cases before with
    | nil =>
      obtain ⟨rfl, rfl⟩ := List.cons.inj hts
      exact hnext s rfl u after rfl
    | cons v before => exact h.apart before after s u (List.cons.inj hts).2
  closed := by
    intro before after content hts k hk
    rw [hts, drop_sources_text before after (Nat.le_of_lt hk)]
    cases before with
    | nil =>
      obtain ⟨rfl, rfl⟩ := List.cons.inj hts
      exact hopen content rfl k hk
    | cons v before =>
      have htail : ts = before ++ .text content :: after := (List.cons.inj hts).2
      have hclosed := h.closed before after content htail k hk
      rwa [htail, drop_sources_text before after (Nat.le_of_lt hk)] at hclosed

theorem inlineToken_iff {t : Token} : InlineToken t ↔
    (∃ content, t = .text content ∧ content ≠ "") ∨ ∃ a : Span, t = a.token ∧ a.Closed := by
  constructor
  · rintro (h | ⟨h, hmem⟩ | ⟨hverb, hfirst⟩)
    · exact Or.inl ⟨_, rfl, h⟩
    · rename_i style content
      refine Or.inr ⟨.delimited style content.toList, by simp [Span.token], ?_, hmem⟩
      simpa using h
    · rename_i content
      exact Or.inr ⟨.fenced content.toList, by simp [Span.token], hverb, hfirst⟩
  · rintro (⟨content, rfl, h⟩ | ⟨a, rfl, ha⟩)
    · exact .text h
    · cases a with
      | delimited style content => exact .styled (by simpa using ha.1) (by simpa using ha.2)
      | fenced content => exact .monospace (by simpa using ha.1) (by simpa using ha.2)

theorem token_ne_text (a : Span) (content : String) : a.token ≠ .text content := by
  cases a <;> simp [Span.token]

theorem startsPlain_scan {s : List Char} {ts : List Token} (h : inlineTokens s = ts)
    (hts : ∀ content us, ts ≠ .text content :: us) :
    Text.Recogniser.startsPlain (spanRecogniser.scan s) = false := by
  rw [inlineTokens] at h
  cases hscan : spanRecogniser.scan s with
  | nil => rfl
  | cons p ps =>
    rw [hscan] at h
    cases p with
    | plain cs => exact absurd h.symm (hts _ _)
    | found a => rfl

/-- Reading the markup of a canonical line gives the line back. -/
theorem InlineCanonical.inlineTokens_sources {ts : List Token} (h : InlineCanonical ts) :
    inlineTokens (sources ts) = ts := by
  induction ts with
  | nil => rw [inlineTokens, sources, Text.Recogniser.scan_nil]; rfl
  | cons t ts ih =>
    have hrest := ih h.tail
    rcases inlineToken_iff.1 (h.tokens t List.mem_cons_self) with ⟨content, rfl, hne⟩ | ⟨a, rfl, ha⟩
    · have hsilent : spanRecogniser.Silent content.toList (sources ts) :=
        silent_iff_not_opens.2 (by rw [String.length_toList]; exact h.head_closed)
      have hstart : Text.Recogniser.startsPlain (spanRecogniser.scan (sources ts)) = false := by
        apply startsPlain_scan hrest
        rintro s us rfl
        exact h.apart [] us content s rfl
      have hcontent : content.toList ≠ [] := by simpa using hne
      rw [sources, Token.source, inlineTokens_append_of_silent hsilent hstart, hrest,
        plainTokens_of_ne_nil hcontent, String.ofList_toList]
      rfl
    · rw [sources, source_token, inlineTokens_source_append ha, hrest]

theorem inlineCanonical_map_pieceToken {ps : List (Text.Piece Span)}
    (h : spanRecogniser.Leftmost ps) : InlineCanonical (ps.map pieceToken) := by
  induction h with
  | nil => exact inlineCanonical_nil
  | @found a ps ha _ ih =>
    have hclosed : a.Closed := (span?_eq_some_iff.1 ha).1
    apply ih.cons (inlineToken_iff.2 (Or.inr ⟨a, rfl, hclosed⟩))
    · exact fun content hc => absurd hc (token_ne_text a content)
    · exact fun content hc => absurd hc (token_ne_text a content)
  | @plain cs ps hne hstart hsilent _ ih =>
    apply ih.cons (.text (by simpa using hne))
    · intro content _ s us hps
      cases ps with
      | nil => cases hps
      | cons p ps =>
        cases p with
        | plain ds => cases hstart
        | found a => exact token_ne_text a s (List.cons.inj hps).1
    · rintro content hc
      have hcs : content.toList = cs := by
        cases hc
        exact String.toList_ofList
      rw [sources_map_pieceToken, hcs, ← String.length_toList, hcs]
      exact silent_iff_not_opens.1 hsilent

theorem inlineCanonical_inlineTokens (s : List Char) : InlineCanonical (inlineTokens s) :=
  inlineCanonical_map_pieceToken (spanRecogniser.leftmost_scan s)

theorem unquote?_eq_none_iff {s : List Char} : unquote? s = none ↔ ¬ quoteMark <+: s := by
  constructor
  · rintro h ⟨rest, rfl⟩
    rw [unquote?_eq_some_iff.2 rfl] at h
    cases h
  · intro h
    cases hs : unquote? s with
    | none => rfl
    | some rest => exact absurd ⟨rest, (unquote?_eq_some_iff.1 hs).symm⟩ h

theorem lineTokens_of_quoted (s : List Char) :
    lineTokens (quoteMark ++ s) = [.quote (inlineTokens s)] := rfl

theorem lineTokens_of_plain {s : List Char} (h : ¬ quoteMark <+: s) :
    lineTokens s = inlineTokens s := by
  rw [lineTokens, unquote?_eq_none_iff.2 h]

theorem LineCanonical.lineTokens_sources {ts : List Token} (h : LineCanonical ts) :
    lineTokens (sources ts) = ts := by
  rcases h.quotedOrPlain with ⟨inner, rfl, hinner⟩ | ⟨hts, hquote⟩
  · have hsources : sources [.quote inner] = quoteMark ++ sources inner := by
      simp [sources, Token.source]
    rw [hsources, lineTokens_of_quoted, hinner.inlineTokens_sources]
  · rw [lineTokens_of_plain hquote, hts.inlineTokens_sources]

theorem lineCanonical_lineTokens {line : List Char} (h : '\n' ∉ line) :
    LineCanonical (lineTokens line) where
  oneLine := by rwa [sources_lineTokens]
  quotedOrPlain := by
    rw [sources_lineTokens]
    by_cases hquote : quoteMark <+: line
    · obtain ⟨quoted, rfl⟩ := hquote
      exact Or.inl ⟨inlineTokens quoted, rfl, inlineCanonical_inlineTokens quoted⟩
    · rw [lineTokens_of_plain hquote]
      exact Or.inr ⟨inlineCanonical_inlineTokens line, hquote⟩

theorem cutLines_cons {t : Token} (h : t ≠ .lineBreak) (ts : List Token) :
    cutLines (t :: ts) = (cutLines ts).modifyHead (t :: ·) := by
  cases t with
  | lineBreak => exact absurd rfl h
  | _ => rfl

theorem cutLines_ne_nil (ts : List Token) : cutLines ts ≠ [] := by
  fun_induction cutLines ts with
  | case1 => exact List.cons_ne_nil _ _
  | case2 ts _ => exact List.cons_ne_nil _ _
  | case3 t ts h ih =>
    obtain ⟨part, parts, hparts⟩ := List.exists_cons_of_ne_nil ih
    rw [hparts]
    exact List.cons_ne_nil _ _

theorem joinLines_cutLines (ts : List Token) : joinLines (cutLines ts) = ts := by
  fun_induction cutLines ts with
  | case1 => rfl
  | case2 ts ih =>
    obtain ⟨part, parts, hparts⟩ := List.exists_cons_of_ne_nil (cutLines_ne_nil ts)
    rw [hparts] at ih ⊢
    rw [joinLines_cons_cons, ih]
    rfl
  | case3 t ts h ih =>
    obtain ⟨part, parts, hparts⟩ := List.exists_cons_of_ne_nil (cutLines_ne_nil ts)
    rw [hparts] at ih ⊢
    cases parts with
    | nil =>
      rw [joinLines_singleton] at ih
      rw [List.modifyHead_cons, joinLines_singleton, ih]
    | cons next parts =>
      rw [joinLines_cons_cons] at ih
      rw [List.modifyHead_cons, joinLines_cons_cons, List.cons_append, ih]

theorem cutLines_append_lineBreak {part : List Token} (h : .lineBreak ∉ part) (ts : List Token) :
    cutLines (part ++ .lineBreak :: ts) = part :: cutLines ts := by
  induction part with
  | nil => rfl
  | cons t part ih =>
    have ht : t ≠ .lineBreak := fun he => h (he ▸ List.mem_cons_self)
    have hpart : .lineBreak ∉ part := fun hm => h (List.mem_cons_of_mem t hm)
    rw [List.cons_append, cutLines_cons ht, ih hpart]
    rfl

theorem cutLines_of_not_mem {part : List Token} (h : .lineBreak ∉ part) :
    cutLines part = [part] := by
  induction part with
  | nil => rfl
  | cons t part ih =>
    have ht : t ≠ .lineBreak := fun he => h (he ▸ List.mem_cons_self)
    have hpart : .lineBreak ∉ part := fun hm => h (List.mem_cons_of_mem t hm)
    rw [cutLines_cons ht, ih hpart]
    rfl

theorem cutLines_joinLines {parts : List (List Token)} (hne : parts ≠ [])
    (h : ∀ part ∈ parts, .lineBreak ∉ part) : cutLines (joinLines parts) = parts := by
  induction parts with
  | nil => exact absurd rfl hne
  | cons part parts ih =>
    have hpart := h part List.mem_cons_self
    cases parts with
    | nil => rw [joinLines_singleton, cutLines_of_not_mem hpart]
    | cons next parts =>
      rw [joinLines_cons_cons, cutLines_append_lineBreak hpart,
        ih (List.cons_ne_nil _ _) (fun p hp => h p (List.mem_cons_of_mem part hp))]

theorem InlineCanonical.lineBreak_not_mem {ts : List Token} (h : InlineCanonical ts) :
    .lineBreak ∉ ts := by
  intro hm
  cases h.tokens _ hm

theorem LineCanonical.lineBreak_not_mem {ts : List Token} (h : LineCanonical ts) :
    .lineBreak ∉ ts := by
  rcases h.quotedOrPlain with ⟨inner, rfl, -⟩ | ⟨hts, -⟩
  · simp
  · exact hts.lineBreak_not_mem

theorem canonical_messageTokens (s : List Char) : Canonical (messageTokens s) := by
  have hlines : ∀ line ∈ Text.lines s, LineCanonical (lineTokens line) :=
    fun line hline => lineCanonical_lineTokens (Text.not_mem_of_mem_splitOn '\n' s line hline)
  have hparts : ∀ part ∈ (Text.lines s).map lineTokens, LineCanonical part := by
    intro part hpart
    obtain ⟨line, hline, rfl⟩ := List.mem_map.1 hpart
    exact hlines line hline
  have hne : (Text.lines s).map lineTokens ≠ [] := by
    rw [Ne, List.map_eq_nil_iff]
    exact List.splitOn_ne_nil '\n' s
  rw [Canonical, messageTokens_eq_joinLines,
    cutLines_joinLines hne (fun part hpart => (hparts part hpart).lineBreak_not_mem)]
  exact hparts

/-- The lines of the markup of a canonical list are the markup of its parts. -/
theorem Canonical.lines_sources {ts : List Token} (h : Canonical ts) :
    Text.lines (sources ts) = (cutLines ts).map sources := by
  have hne : (cutLines ts).map sources ≠ [] := by
    rw [Ne, List.map_eq_nil_iff]
    exact cutLines_ne_nil ts
  have hparts : ∀ line ∈ (cutLines ts).map sources, '\n' ∉ line := by
    intro line hline
    obtain ⟨part, hpart, rfl⟩ := List.mem_map.1 hline
    exact (h part hpart).oneLine
  have hjoin : sources ts = ['\n'].intercalate ((cutLines ts).map sources) := by
    rw [← sources_joinLines, joinLines_cutLines]
  rw [hjoin]
  exact List.splitOn_intercalate '\n' hparts hne

theorem Canonical.messageTokens_sources {ts : List Token} (h : Canonical ts) :
    messageTokens (sources ts) = ts := by
  have hparts : ∀ part ∈ cutLines ts, lineTokens (sources part) = part :=
    fun part hpart => (h part hpart).lineTokens_sources
  rw [messageTokens_eq_joinLines, h.lines_sources, List.map_map]
  calc joinLines ((cutLines ts).map (lineTokens ∘ sources))
      = joinLines ((cutLines ts).map id) := congrArg joinLines (List.map_congr_left hparts)
    _ = ts := by rw [List.map_id, joinLines_cutLines]

theorem render_markup_of_canonical {ts : List Token} (h : Canonical ts) :
    render (markup ts) = ts := by
  rw [render, markup, String.toList_ofList, h.messageTokens_sources]

/-- The canonical token lists are those that rendering yields, and those that it yields from their own
markup. -/
theorem canonical_iff_rendered (ts : List Token) :
    (Canonical ts ↔ ∃ text, render text = ts) ∧ (Canonical ts ↔ render (markup ts) = ts) := by
  have hrender : ∀ text, Canonical (render text) := fun text => canonical_messageTokens text.toList
  refine ⟨⟨fun h => ⟨markup ts, render_markup_of_canonical h⟩, ?_⟩,
    ⟨render_markup_of_canonical, ?_⟩⟩
  · rintro ⟨text, rfl⟩
    exact hrender text
  · intro h
    rw [← h]
    exact hrender (markup ts)

end ChatMarkup
