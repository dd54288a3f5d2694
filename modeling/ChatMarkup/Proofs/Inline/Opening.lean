import ChatMarkup.Inline
import ChatMarkup.Proofs.Text.Leftmost

/-! # Where a span opens

`Opens` says of a text, without any search, that a span starts at its head, and `Span.Closed` says
which spans can be found at all. A span is found exactly at the head of a text that it is followed by
anything, so what stands behind a closed span never changes it.
-/
namespace ChatMarkup

/-- Text that can stand between two fences. -/
def Verbatim (content : List Char) : Prop :=
  content ≠ [] ∧ ∀ c ∈ content, isLineTerminator c = false

/-- The nearest fence behind the first character of the content is the closing one. -/
def ClosesFirst (content : List Char) : Prop :=
  ∀ k, 1 ≤ k → k < content.length → ¬ fence <+: (content ++ fence).drop k

def Span.Closed : Span → Prop
  | .delimited style content => content ≠ [] ∧ style.delimiter ∉ content
  | .fenced content => Verbatim content ∧ ClosesFirst content

def Opens (s : List Char) : Prop :=
  (∃ (style : Style) (c : Char) (rest : List Char),
    s = style.delimiter :: c :: rest ∧ c ≠ style.delimiter ∧ style.delimiter ∈ rest) ∨
  ∃ content rest, s = fence ++ (content ++ (fence ++ rest)) ∧ Verbatim content

theorem skipFence?_eq_none_iff {s : List Char} : skipFence? s = none ↔ ¬ fence <+: s := by
  constructor
  · rintro h ⟨rest, rfl⟩
    rw [skipFence?_eq_some_iff.2 rfl] at h
    cases h
  · intro h
    cases hs : skipFence? s with
    | none => rfl
    | some rest => exact absurd ⟨rest, (skipFence?_eq_some_iff.1 hs).symm⟩ h

/-- Whether a fence starts inside content or behind it does not depend on what follows the closing
fence. -/
theorem fence_prefix_drop {content : List Char} {k : Nat} (hk : k ≤ content.length)
    (rest : List Char) :
    fence <+: (content ++ (fence ++ rest)).drop k ↔ fence <+: (content ++ fence).drop k := by
  have hlen : fence.length ≤ ((content ++ fence).drop k).length := by
    rw [List.length_drop, List.length_append]
    omega
  have hdrop : (content ++ (fence ++ rest)).drop k = (content ++ fence).drop k ++ rest := by
    rw [← List.append_assoc, List.drop_append_of_le_length]
    rw [List.length_append]
    omega
  rw [hdrop]
  exact ⟨fun h => List.prefix_of_prefix_length_le h (List.prefix_append _ rest) hlen,
    fun h => h.trans (List.prefix_append _ rest)⟩

theorem fence_prefix_cons (c : Char) (content rest : List Char) :
    fence <+: c :: (content ++ (fence ++ rest)) ↔ fence <+: c :: (content ++ fence) :=
  fence_prefix_drop (Nat.zero_le (c :: content).length) rest

/-- No fence starts inside the content, the closing one not counted. -/
def FenceFree (content : List Char) : Prop :=
  ∀ k < content.length, ¬ fence <+: (content ++ fence).drop k

theorem fenceFree_nil : FenceFree [] := by
  intro k hk
  exact absurd hk (Nat.not_lt_zero k)

theorem fenceFree_cons {c : Char} {content : List Char} :
    FenceFree (c :: content) ↔ ¬ fence <+: c :: (content ++ fence) ∧ FenceFree content := by
  constructor
  · intro h
    refine ⟨h 0 (Nat.succ_pos _), ?_⟩
    intro k hk
    exact h (k + 1) (Nat.succ_lt_succ hk)
  · rintro ⟨h0, h⟩ k hk
    cases k with
    | zero => exact h0
    | succ k => exact h k (Nat.lt_of_succ_lt_succ hk)

theorem closesFirst_cons {c : Char} {content : List Char} :
    ClosesFirst (c :: content) ↔ FenceFree content := by
  constructor
  · intro h k hk
    exact h (k + 1) (Nat.succ_pos k) (Nat.succ_lt_succ hk)
  · intro h k hk hlt
    obtain ⟨j, rfl⟩ := Nat.exists_eq_add_of_le' hk
    exact h j (Nat.lt_of_succ_lt_succ hlt)

theorem closeFence?_append {content : List Char} (hterm : ∀ c ∈ content, isLineTerminator c = false)
    (hfree : FenceFree content) (rest : List Char) :
    closeFence? (content ++ (fence ++ rest)) = some (content, rest) := by
  induction content with
  | nil => rfl
  | cons c content ih =>
    obtain ⟨hc, hfree⟩ := fenceFree_cons.1 hfree
    have hskip : skipFence? (c :: (content ++ (fence ++ rest))) = none :=
      skipFence?_eq_none_iff.2 (mt (fence_prefix_cons c content rest).1 hc)
    have htail := ih (fun d hd => hterm d (List.mem_cons_of_mem c hd)) hfree
    rw [List.cons_append, closeFence?]
    simp only [hskip, hterm c List.mem_cons_self, htail]
    rfl

theorem closeFence?_sound {s content rest : List Char} (h : closeFence? s = some (content, rest)) :
    (∀ c ∈ content, isLineTerminator c = false) ∧ FenceFree content := by
  induction s generalizing content with
  | nil => simp [closeFence?] at h
  | cons c s ih =>
    unfold closeFence? at h
    split at h
    · cases h
      exact ⟨fun d hd => absurd hd List.not_mem_nil, fenceFree_nil⟩
    · rename_i hskip
      split at h
      · cases h
      · rename_i hc
        obtain ⟨⟨content', rest'⟩, hclose, he⟩ := Option.map_eq_some_iff.1 h
        cases he
        obtain ⟨hterm, hfree⟩ := ih hclose
        refine ⟨?_, fenceFree_cons.2 ⟨?_, hfree⟩⟩
        · intro d hd
          rcases List.mem_cons.1 hd with rfl | hd
          · simpa using hc
          · exact hterm d hd
        · rw [eq_append_of_closeFence? hclose] at hskip
          exact mt (fence_prefix_cons c content' rest).2 (skipFence?_eq_none_iff.1 hskip)

theorem closeFence?_eq_some_iff {s content rest : List Char} :
    closeFence? s = some (content, rest) ↔ s = content ++ (fence ++ rest) ∧
      (∀ c ∈ content, isLineTerminator c = false) ∧ FenceFree content := by
  constructor
  · intro h
    exact ⟨eq_append_of_closeFence? h, closeFence?_sound h⟩
  · rintro ⟨rfl, hterm, hfree⟩
    exact closeFence?_append hterm hfree rest

/-- A closing fence is found as soon as there is one that no line terminator stands before. -/
theorem closeFence?_complete {content : List Char}
    (hterm : ∀ c ∈ content, isLineTerminator c = false) (rest : List Char) :
    ∃ p, closeFence? (content ++ (fence ++ rest)) = some p := by
  induction content with
  | nil => exact ⟨([], rest), rfl⟩
  | cons c content ih =>
    obtain ⟨⟨near, behind⟩, hp⟩ := ih (fun d hd => hterm d (List.mem_cons_of_mem c hd))
    rw [List.cons_append, closeFence?]
    split
    · exact ⟨_, rfl⟩
    · simp only [hterm c List.mem_cons_self, hp]
      exact ⟨_, rfl⟩

theorem fenced?_eq_some_iff {s rest : List Char} {a : Span} :
    fenced? s = some (a, rest) ↔
      ∃ content, a = .fenced content ∧ s = content ++ (fence ++ rest) ∧ a.Closed := by
  cases s with
  | nil =>
    constructor
    · intro h
      cases h
    · rintro ⟨content, -, hs, -⟩
      simp [fence] at hs
  | cons c s =>
    rw [fenced?]
    constructor
    · intro h
      split at h
      · cases h
      · rename_i hc
        obtain ⟨⟨content, rest'⟩, hclose, he⟩ := Option.map_eq_some_iff.1 h
        cases he
        obtain ⟨rfl, hterm, hfree⟩ := closeFence?_eq_some_iff.1 hclose
        refine ⟨c :: content, rfl, rfl, ⟨List.cons_ne_nil c content, ?_⟩, closesFirst_cons.2 hfree⟩
        intro d hd
        rcases List.mem_cons.1 hd with rfl | hd
        · simpa using hc
        · exact hterm d hd
    · rintro ⟨content, rfl, hs, ⟨hne, hterm⟩, hfirst⟩
      cases content with
      | nil => exact absurd rfl hne
      | cons d content =>
        rw [List.cons_append, List.cons.injEq] at hs
        obtain ⟨rfl, rfl⟩ := hs
        have hclose := closeFence?_append (fun e he => hterm e (List.mem_cons_of_mem c he))
          (closesFirst_cons.1 hfirst) rest
        simp only [hterm c List.mem_cons_self, hclose]
        rfl

theorem fenced?_complete {content : List Char} (h : Verbatim content) (rest : List Char) :
    ∃ p, fenced? (content ++ (fence ++ rest)) = some p := by
  obtain ⟨hne, hterm⟩ := h
  cases content with
  | nil => exact absurd rfl hne
  | cons c content =>
    obtain ⟨p, hp⟩ := closeFence?_complete (fun d hd => hterm d (List.mem_cons_of_mem c hd)) rest
    rw [List.cons_append, fenced?]
    simp only [hterm c List.mem_cons_self, hp]
    exact ⟨_, rfl⟩

theorem delimited?_eq_some_iff {style : Style} {s rest : List Char} {a : Span} :
    delimited? style s = some (a, rest) ↔ ∃ content, a = .delimited style content ∧
      s = content ++ style.delimiter :: rest ∧ a.Closed := by
  constructor
  · intro h
    unfold delimited? at h
    split at h
    · rename_i c content rest' hs
      cases h
      obtain ⟨rfl, hmem⟩ := Text.splitAt?_eq_some_iff.1 hs
      exact ⟨c :: content, rfl, rfl, List.cons_ne_nil c content, hmem⟩
    · cases h
  · rintro ⟨content, rfl, rfl, hne, hmem⟩
    obtain ⟨c, content, rfl⟩ := List.exists_cons_of_ne_nil hne
    rw [delimited?, Text.splitAt?_append style.delimiter hmem rest]

theorem skipFence?_delimiter (style : Style) (s : List Char) :
    skipFence? (style.delimiter :: s) = none := by
  cases style <;> rfl

theorem span?_fence (s : List Char) : span? (fence ++ s) = fenced? s := rfl

theorem span?_delimiter (style : Style) (s : List Char) :
    span? (style.delimiter :: s) = delimited? style s := by
  rw [span?]
  simp only [skipFence?_delimiter, Style.ofDelimiter?_delimiter]
  rfl

theorem span?_head {s rest : List Char} {a : Span} (h : span? s = some (a, rest)) :
    (∃ s', s = fence ++ s') ∨ ∃ (style : Style) (s' : List Char), s = style.delimiter :: s' := by
  unfold span? at h
  split at h
  · rename_i s' hs
    exact Or.inl ⟨s', skipFence?_eq_some_iff.1 hs⟩
  · split at h
    · cases h
    · rename_i c s' _
      obtain ⟨style, hc, -⟩ := Option.bind_eq_some_iff.1 h
      exact Or.inr ⟨style, s', by rw [Style.ofDelimiter?_eq_some_iff.1 hc]⟩

theorem span?_eq_some_iff {s rest : List Char} {a : Span} :
    span? s = some (a, rest) ↔ a.Closed ∧ s = a.source ++ rest := by
  constructor
  · intro h
    refine ⟨?_, eq_append_of_span? h⟩
    rcases span?_head h with ⟨s', rfl⟩ | ⟨style, s', rfl⟩
    · obtain ⟨-, -, -, hclosed⟩ := fenced?_eq_some_iff.1 (span?_fence s' ▸ h)
      exact hclosed
    · obtain ⟨-, -, -, hclosed⟩ := delimited?_eq_some_iff.1 (span?_delimiter style s' ▸ h)
      exact hclosed
  · rintro ⟨hclosed, rfl⟩
    cases a with
    | delimited style content =>
      rw [Span.source, List.cons_append, span?_delimiter]
      exact delimited?_eq_some_iff.2 ⟨content, rfl, by simp, hclosed⟩
    | fenced content =>
      rw [Span.source, List.append_assoc, span?_fence]
      exact fenced?_eq_some_iff.2 ⟨content, rfl, by simp, hclosed⟩

theorem span?_source_append {a : Span} (h : a.Closed) (rest : List Char) :
    span? (a.source ++ rest) = some (a, rest) :=
  span?_eq_some_iff.2 ⟨h, rfl⟩

theorem opens_source_append {a : Span} (h : a.Closed) (rest : List Char) :
    Opens (a.source ++ rest) := by
  cases a with
  | delimited style content =>
    obtain ⟨hne, hmem⟩ := h
    obtain ⟨c, content, rfl⟩ := List.exists_cons_of_ne_nil hne
    refine Or.inl ⟨style, c, content ++ style.delimiter :: rest, by simp [Span.source], ?_, ?_⟩
    · rintro rfl
      exact hmem List.mem_cons_self
    · exact List.mem_append_right content List.mem_cons_self
  | fenced content => exact Or.inr ⟨content, rest, by simp [Span.source], h.1⟩

/-- A text opens a span exactly when one is found at its head. -/
theorem opens_iff {s : List Char} : Opens s ↔ ∃ a rest, span? s = some (a, rest) := by
  constructor
  · rintro (⟨style, c, rest, rfl, hc, hmem⟩ | ⟨content, rest, rfl, hverb⟩)
    · cases hsplit : Text.splitAt? style.delimiter (c :: rest) with
      | none => exact absurd (List.mem_cons_of_mem c hmem) (Text.splitAt?_eq_none_iff.1 hsplit)
      | some p =>
        obtain ⟨content, behind⟩ := p
        obtain ⟨hs, hfree⟩ := Text.splitAt?_eq_some_iff.1 hsplit
        have hne : content ≠ [] := by
          rintro rfl
          exact hc (List.cons.inj hs).1
        refine ⟨.delimited style content, behind, ?_⟩
        rw [span?_delimiter]
        exact delimited?_eq_some_iff.2 ⟨content, rfl, hs, hne, hfree⟩
    · obtain ⟨⟨a, behind⟩, hp⟩ := fenced?_complete hverb rest
      exact ⟨a, behind, by rw [span?_fence]; exact hp⟩
  · rintro ⟨a, rest, h⟩
    obtain ⟨hclosed, rfl⟩ := span?_eq_some_iff.1 h
    exact opens_source_append hclosed rest

theorem span?_eq_none_iff {s : List Char} : span? s = none ↔ ¬ Opens s := by
  rw [opens_iff, Option.eq_none_iff_forall_ne_some]
  constructor
  · rintro h ⟨a, rest, hs⟩
    exact h (a, rest) hs
  · intro h p hp
    exact h ⟨p.1, p.2, hp⟩

/-- A stretch is silent when none of its positions opens a span. -/
theorem silent_iff_not_opens {s behind : List Char} :
    spanRecogniser.Silent s behind ↔ ∀ k < s.length, ¬ Opens (s.drop k ++ behind) := by
  rw [spanRecogniser.silent_iff_drop]
  exact forall₂_congr fun k _ => span?_eq_none_iff

/-- The token of a stretch between two spans, if it is not empty. -/
def plainTokens (s : List Char) : List Token := if s = [] then [] else [.text (String.ofList s)]

theorem plainTokens_of_ne_nil {s : List Char} (h : s ≠ []) :
    plainTokens s = [.text (String.ofList s)] := if_neg h

theorem inlineTokens_append_of_silent {s behind : List Char} (h : spanRecogniser.Silent s behind)
    (hbehind : Text.Recogniser.startsPlain (spanRecogniser.scan behind) = false) :
    inlineTokens (s ++ behind) = plainTokens s ++ inlineTokens behind := by
  rw [inlineTokens, Text.Recogniser.scan_append_of_silent _ h,
    Text.Recogniser.foldr_prepend hbehind, List.map_append, inlineTokens]
  congr 1
  cases s <;> rfl

theorem inlineTokens_source_append {a : Span} (h : a.Closed) (rest : List Char) :
    inlineTokens (a.source ++ rest) = a.token :: inlineTokens rest := by
  have hfind : spanRecogniser.find? (a.source ++ rest) = some (a, rest) := span?_source_append h rest
  rw [inlineTokens, Text.Recogniser.scan_of_find _ hfind]
  rfl

end ChatMarkup
