import ChatMarkup.Proofs.Inline.Opening
import ChatMarkup.Proofs.Text.Pattern
import Mathlib.Data.Nat.Find

/-! # The pattern of a line and a scanner for it

The spans of a line are given a second and a third time: as one pattern with four alternatives that a
backtracking search matches, and as conditions on an offset of the text. Both find the same spans at
every offset, and reading a text with either, from each end of a span to the next least offset, gives
the tokens of the line.
-/
namespace ChatMarkup
open Text

def Style.groupIndex : Style → Nat
  | .bold => 2
  | .italic => 3
  | .strikethrough => 4

def delimitedPattern (style : Style) : Pattern :=
  .bracketed [style.delimiter] [style.delimiter] style.groupIndex .longest (· != style.delimiter)

def fencedPattern : Pattern := .bracketed fence fence 1 .shortest (!isLineTerminator ·)

/-- Fenced spans come before bold, bold before italic, italic before struck-through spans. -/
def inlinePattern : Pattern :=
  .orElse fencedPattern (.orElse (delimitedPattern .bold)
    (.orElse (delimitedPattern .italic) (delimitedPattern .strikethrough)))

def groupToken? (groups : List (Nat × List Char)) : Option Token :=
  ((groups.lookup 1).map fun code => Token.monospace (String.ofList code)).or <|
    [Style.bold, .italic, .strikethrough].findSome? fun style =>
      (groups.lookup style.groupIndex).map fun cs => .styled style [.text (String.ofList cs)]

def Span.groups : Span → List (Nat × List Char)
  | .delimited style content => [(style.groupIndex, content)]
  | .fenced content => [(1, content)]

theorem groupToken?_groups (a : Span) : groupToken? a.groups = some a.token := by
  cases a with
  | delimited style content => cases style <;> rfl
  | fenced content => rfl

theorem closedRun?_delimiter {d : Char} {content : List Char} (h : d ∉ content) (rest : List Char) :
    closedRun? [d] .longest (· != d) (content ++ d :: rest) =
      if content = [] then none else some (content, rest) := by
  induction content with
  | nil => simp [closedRun?, runs]
  | cons c content ih =>
    have hc : (c != d) = true := by
      rw [bne_iff_ne]
      rintro rfl
      exact h List.mem_cons_self
    have hcontent : d ∉ content := fun hm => h (List.mem_cons_of_mem c hm)
    rw [List.cons_append, closedRun?_cons, ih hcontent, if_pos hc, if_neg (List.cons_ne_nil c _)]
    cases content with
    | nil => simp
    | cons e content => simp

theorem closedRun?_delimiter_of_not_mem {d : Char} {s : List Char} (h : d ∉ s) :
    closedRun? [d] .longest (· != d) s = none := by
  induction s with
  | nil => rfl
  | cons c s ih =>
    have hs : d ∉ s := fun hm => h (List.mem_cons_of_mem c hm)
    have hstop : [d].isPrefixOf s = false := by
      rw [← Bool.not_eq_true, List.isPrefixOf_iff_prefix]
      rintro ⟨rest, rfl⟩
      exact hs List.mem_cons_self
    rw [closedRun?_cons, ih hs, hstop]
    split <;> rfl

/-- The longest run without the delimiter is the only one that a delimiter stands behind. -/
theorem delimited?_eq_closedRun? (style : Style) (s : List Char) :
    delimited? style s =
      (closedRun? [style.delimiter] .longest (· != style.delimiter) s).map
        fun (content, rest) => (.delimited style content, rest) := by
  rw [delimited?]
  cases hsplit : splitAt? style.delimiter s with
  | none => rw [closedRun?_delimiter_of_not_mem (splitAt?_eq_none_iff.1 hsplit)]; rfl
  | some p =>
    obtain ⟨content, rest⟩ := p
    obtain ⟨rfl, hmem⟩ := splitAt?_eq_some_iff.1 hsplit
    rw [closedRun?_delimiter hmem]
    cases content <;> rfl

theorem map_skipFence? {β : Type} (f : List Char → β) (s : List Char) :
    (skipFence? s).map f =
      if fence.isPrefixOf s then some (f (s.drop fence.length)) else none := by
  cases hs : skipFence? s with
  | none =>
    have hprefix : ¬ fence.isPrefixOf s = true :=
      fun h => skipFence?_eq_none_iff.1 hs (List.isPrefixOf_iff_prefix.1 h)
    rw [if_neg hprefix]
    rfl
  | some rest =>
    obtain rfl := skipFence?_eq_some_iff.1 hs
    rfl

/-- A run that grows by one character at a time stops in front of the first fence. -/
theorem closeFence?_eq_closedRun? (s : List Char) :
    closeFence? s = ((skipFence? s).map fun rest => ([], rest)).or
      (closedRun? fence .shortest (!isLineTerminator ·) s) := by
  induction s with
  | nil => rfl
  | cons c s ih =>
    rw [closeFence?, closedRun?_cons]
    cases hskip : skipFence? (c :: s) with
    | some rest => rfl
    | none =>
      cases hc : isLineTerminator c with
      | true => rfl
      | false =>
        rw [ih, ← map_skipFence? (fun rest => ([c], rest))]
        cases skipFence? s <;> rfl

theorem fenced?_eq_closedRun? (s : List Char) :
    fenced? s = (closedRun? fence .shortest (!isLineTerminator ·) s).map
      fun (content, rest) => (.fenced content, rest) := by
  cases s with
  | nil => rfl
  | cons c s =>
    rw [fenced?, closedRun?_cons]
    cases hc : isLineTerminator c with
    | true => rfl
    | false =>
      rw [closeFence?_eq_closedRun?, ← map_skipFence? (fun rest => ([c], rest))]
      cases skipFence? s with
      | some rest => rfl
      | none => cases closedRun? fence .shortest (!isLineTerminator ·) s <;> rfl

theorem match?_delimitedPattern (style : Style) (s : List Char) :
    (delimitedPattern style).match? (style.delimiter :: s) =
      (delimited? style s).map fun (a, rest) => ⟨a.source, a.groups, rest⟩ := by
  have h := Pattern.match?_bracketed [style.delimiter] [style.delimiter] style.groupIndex .longest
    (· != style.delimiter) s
  rw [delimitedPattern, delimited?_eq_closedRun?, Option.map_map]
  exact h

theorem match?_fencedPattern (s : List Char) :
    fencedPattern.match? (fence ++ s) =
      (fenced? s).map fun (a, rest) => ⟨a.source, a.groups, rest⟩ := by
  rw [fencedPattern, Pattern.match?_bracketed, fenced?_eq_closedRun?, Option.map_map]
  rfl

theorem match?_fencedPattern_of_none {s : List Char} (h : skipFence? s = none) :
    fencedPattern.match? s = none :=
  Pattern.match?_bracketed_of_not_prefix _ _ _ _ (skipFence?_eq_none_iff.1 h)

theorem match?_delimitedPattern_of_ne {style : Style} {s : List Char}
    (h : ∀ rest, s ≠ style.delimiter :: rest) : (delimitedPattern style).match? s = none := by
  apply Pattern.match?_bracketed_of_not_prefix
  rintro ⟨rest, hs⟩
  exact h rest hs.symm

theorem match?_delimitedPattern_fence (style : Style) (s : List Char) :
    (delimitedPattern style).match? (fence ++ s) = none := by
  apply match?_delimitedPattern_of_ne
  intro rest h
  cases style <;> cases h

theorem match?_delimitedPattern_other {style other : Style} (h : other ≠ style) (s : List Char) :
    (delimitedPattern other).match? (style.delimiter :: s) = none := by
  apply match?_delimitedPattern_of_ne
  intro rest hs
  exact h (Style.delimiter_injective (List.cons.inj hs).1.symm)

theorem match?_inlinePattern_fence (s : List Char) :
    inlinePattern.match? (fence ++ s) = fencedPattern.match? (fence ++ s) := by
  simp only [inlinePattern, Pattern.match?_orElse, match?_delimitedPattern_fence, Option.or_none]

theorem match?_inlinePattern_delimiter (style : Style) (s : List Char) :
    inlinePattern.match? (style.delimiter :: s) =
      (delimitedPattern style).match? (style.delimiter :: s) := by
  have hother := fun (other : Style) (h : other ≠ style) => match?_delimitedPattern_other h s
  have hfence := match?_fencedPattern_of_none (skipFence?_delimiter style s)
  simp only [inlinePattern, Pattern.match?_orElse, hfence, Option.none_or]
  cases style with
  | bold => simp [hother .italic, hother .strikethrough]
  | italic => simp [hother .bold, hother .strikethrough]
  | strikethrough => simp [hother .bold, hother .italic]

/-- At the head of every text the pattern matches what the scan of a line finds there. -/
theorem match?_inlinePattern (s : List Char) :
    inlinePattern.match? s = (span? s).map fun (a, rest) => ⟨a.source, a.groups, rest⟩ := by
  by_cases hfence : ∃ s', s = fence ++ s'
  · obtain ⟨s', rfl⟩ := hfence
    rw [match?_inlinePattern_fence, match?_fencedPattern, span?_fence]
  by_cases hstyle : ∃ (style : Style) (rest : List Char), s = style.delimiter :: rest
  · obtain ⟨style, rest, rfl⟩ := hstyle
    rw [match?_inlinePattern_delimiter, match?_delimitedPattern, span?_delimiter]
  have hspan : span? s = none := by
    cases hs : span? s with
    | none => rfl
    | some p => exact absurd (span?_head hs) (not_or.2 ⟨hfence, hstyle⟩)
  have hskip : skipFence? s = none :=
    skipFence?_eq_none_iff.2 (fun ⟨s', hs⟩ => hfence ⟨s', hs.symm⟩)
  have hother : ∀ style : Style, (delimitedPattern style).match? s = none :=
    fun style => match?_delimitedPattern_of_ne (fun rest h => hstyle ⟨style, rest, h⟩)
  rw [hspan]
  simp [inlinePattern, Pattern.match?_orElse, match?_fencedPattern_of_none hskip, hother]

-- The backtick behind the opening fence is content, although a fence starts there.
example : (inlinePattern.match? "```````".toList).map Match.groups = some [(1, ['`'])] := by
  decide

/-- A reading of a text from an offset on, where `At i t stop` says that a span with the token `t`
reaches from the offset `i` to `stop`: the next span is always one with the least offset. -/
inductive Reading (At : Nat → Token → Nat → Prop) (text : List Char) : Nat → List Token → Prop
  | rest {last : Nat} : (∀ i t stop, last ≤ i → ¬ At i t stop) →
      Reading At text last (plainTokens (text.drop last))
  | span {last i stop : Nat} {t : Token} {ts : List Token} :
      last ≤ i → (∀ k u stop', last ≤ k → k < i → ¬ At k u stop') → At i t stop →
      Reading At text stop ts →
      Reading At text last (plainTokens ((text.drop last).take (i - last)) ++ t :: ts)

def PatternAt (text : List Char) (i : Nat) (t : Token) (stop : Nat) : Prop :=
  ∃ m, inlinePattern.match? (text.drop i) = some m ∧ groupToken? m.groups = some t ∧
    stop = i + m.matched.length

/-- Delimited content is all up to the first later delimiter; fenced content is the shortest that a
fence stands behind. -/
inductive SpanAt (text : List Char) (i : Nat) : Token → Nat → Prop
  | delimited {style : Style} {content rest : List Char} :
      text.drop i = style.delimiter :: (content ++ style.delimiter :: rest) → content ≠ [] →
      style.delimiter ∉ content →
      SpanAt text i (.styled style [.text (String.ofList content)]) (i + content.length + 2)
  | fenced {content rest : List Char} :
      text.drop i = fence ++ (content ++ (fence ++ rest)) → Verbatim content →
      (∀ other rest', text.drop i = fence ++ (other ++ (fence ++ rest')) → Verbatim other →
        content.length ≤ other.length) →
      SpanAt text i (.monospace (String.ofList content)) (i + content.length + 6)

def FoundAt (text : List Char) (i : Nat) (t : Token) (stop : Nat) : Prop :=
  ∃ a : Span, a.Closed ∧ (∃ rest, text.drop i = a.source ++ rest) ∧ t = a.token ∧
    stop = i + a.source.length

theorem patternAt_iff_foundAt {text : List Char} {i stop : Nat} {t : Token} :
    PatternAt text i t stop ↔ FoundAt text i t stop := by
  constructor
  · rintro ⟨m, hm, ht, rfl⟩
    rw [match?_inlinePattern] at hm
    obtain ⟨⟨a, rest⟩, hspan, rfl⟩ := Option.map_eq_some_iff.1 hm
    obtain ⟨hclosed, hdrop⟩ := span?_eq_some_iff.1 hspan
    rw [groupToken?_groups] at ht
    exact ⟨a, hclosed, ⟨rest, hdrop⟩, (Option.some.inj ht).symm, rfl⟩
  · rintro ⟨a, hclosed, ⟨rest, hdrop⟩, rfl, rfl⟩
    refine ⟨⟨a.source, a.groups, rest⟩, ?_, groupToken?_groups a, rfl⟩
    rw [match?_inlinePattern, hdrop, span?_source_append hclosed]
    rfl

/-- Closing at the nearest fence is having the shortest content. -/
theorem closesFirst_iff_shortest {content : List Char} (hverb : Verbatim content)
    (rest : List Char) : ClosesFirst content ↔ ∀ other rest',
      content ++ (fence ++ rest) = other ++ (fence ++ rest') → Verbatim other →
        content.length ≤ other.length := by
  constructor
  · intro hfirst other rest' h hother
    by_contra hlong
    have hlt : other.length < content.length := Nat.lt_of_not_le hlong
    refine hfirst other.length (List.length_pos_iff.2 hother.1) hlt ?_
    rw [← fence_prefix_drop (Nat.le_of_lt hlt) rest, h, List.drop_left]
    exact List.prefix_append fence rest'
  · intro hshort k hk hlt hfence
    rw [← fence_prefix_drop (Nat.le_of_lt hlt) rest] at hfence
    obtain ⟨rest', hrest⟩ := hfence
    have hsplit : content ++ (fence ++ rest) = content.take k ++ (fence ++ rest') := by
      rw [hrest, ← List.take_append_of_le_length (Nat.le_of_lt hlt), List.take_append_drop]
    have hne : content.take k ≠ [] := by
      rw [Ne, List.take_eq_nil_iff]
      rintro (h | h)
      · omega
      · exact hverb.1 h
    have hlen := hshort (content.take k) rest' hsplit
      ⟨hne, fun c hc => hverb.2 c (List.mem_of_mem_take hc)⟩
    rw [List.length_take] at hlen
    omega

theorem length_source_delimited (style : Style) (content : List Char) :
    (Span.delimited style content).source.length = content.length + 2 := by
  simp [Span.source]

theorem length_source_fenced (content : List Char) :
    (Span.fenced content).source.length = content.length + 6 := by
  simp only [Span.source, fence, List.length_append, List.length_cons, List.length_nil]
  omega

theorem spanAt_iff_foundAt {text : List Char} {i stop : Nat} {t : Token} :
    SpanAt text i t stop ↔ FoundAt text i t stop := by
  constructor
  · rintro (⟨hdrop, hne, hmem⟩ | ⟨hdrop, hverb, hshort⟩)
    · rename_i style content rest
      refine ⟨.delimited style content, ⟨hne, hmem⟩, ⟨rest, ?_⟩, rfl, ?_⟩
      · simpa [Span.source] using hdrop
      · rw [length_source_delimited, Nat.add_assoc]
    · rename_i content rest
      have hfirst : ClosesFirst content := by
        rw [closesFirst_iff_shortest hverb rest]
        intro other rest' h hother
        exact hshort other rest' (by rw [hdrop, h]) hother
      refine ⟨.fenced content, ⟨hverb, hfirst⟩, ⟨rest, ?_⟩, rfl, ?_⟩
      · simpa [Span.source] using hdrop
      · rw [length_source_fenced, Nat.add_assoc]
  · rintro ⟨a, hclosed, ⟨rest, hdrop⟩, rfl, rfl⟩
    cases a with
    | delimited style content =>
      rw [length_source_delimited, ← Nat.add_assoc]
      exact .delimited (by simpa [Span.source] using hdrop) hclosed.1 hclosed.2
    | fenced content =>
      obtain ⟨hverb, hfirst⟩ := hclosed
      have hdrop : text.drop i = fence ++ (content ++ (fence ++ rest)) := by
        simpa [Span.source] using hdrop
      rw [length_source_fenced, ← Nat.add_assoc]
      apply SpanAt.fenced hdrop hverb
      intro other rest' h hother
      rw [hdrop, List.append_cancel_left_eq] at h
      exact (closesFirst_iff_shortest hverb rest).1 hfirst other rest' h hother

theorem opens_drop_iff {text : List Char} {i : Nat} :
    Opens (text.drop i) ↔ ∃ t stop, FoundAt text i t stop := by
  rw [opens_iff]
  constructor
  · rintro ⟨a, rest, h⟩
    obtain ⟨hclosed, hdrop⟩ := span?_eq_some_iff.1 h
    exact ⟨_, _, a, hclosed, ⟨rest, hdrop⟩, rfl, rfl⟩
  · rintro ⟨t, stop, a, hclosed, ⟨rest, hdrop⟩, -, -⟩
    exact ⟨a, rest, span?_eq_some_iff.2 ⟨hclosed, hdrop⟩⟩

/-- A stretch of the text at whose offsets no span is found is silent. -/
theorem silent_of_not_foundAt {text s behind : List Char} {last : Nat}
    (hdrop : text.drop last = s ++ behind)
    (h : ∀ i t stop, last ≤ i → i < last + s.length → ¬ FoundAt text i t stop) :
    spanRecogniser.Silent s behind := by
  rw [silent_iff_not_opens]
  intro k hk hopen
  have hk' : s.drop k ++ behind = text.drop (last + k) := by
    rw [← List.drop_append_of_le_length (Nat.le_of_lt hk), ← hdrop, List.drop_drop]
  rw [hk', opens_drop_iff] at hopen
  obtain ⟨t, stop, hfound⟩ := hopen
  exact h (last + k) t stop (Nat.le_add_right last k) (by omega) hfound

/-- Any reading of a text gives the tokens of the line. -/
theorem Reading.eq_inlineTokens {text : List Char} {last : Nat} {ts : List Token}
    (h : Reading (FoundAt text) text last ts) : ts = inlineTokens (text.drop last) := by
  induction h with
  | @rest last hnone =>
    have hsilent : spanRecogniser.Silent (text.drop last) [] :=
      silent_of_not_foundAt (List.append_nil _).symm (fun i t stop hi _ => hnone i t stop hi)
    have htokens := inlineTokens_append_of_silent hsilent
      (by rw [Recogniser.scan_nil]; rfl)
    rw [List.append_nil] at htokens
    rw [htokens, inlineTokens, Recogniser.scan_nil, List.map_nil, List.append_nil]
  | @span last i stop t ts hi hnone hat _ ih =>
    obtain ⟨a, hclosed, ⟨rest, hdrop⟩, rfl, rfl⟩ := hat
    have hgap : text.drop last = (text.drop last).take (i - last) ++ text.drop i := by
      have hdropdrop : (text.drop last).drop (i - last) = text.drop i := by
        rw [List.drop_drop, Nat.add_sub_cancel' hi]
      rw [← hdropdrop, List.take_append_drop]
    have hlen : ((text.drop last).take (i - last)).length ≤ i - last := List.length_take_le _ _
    have hsilent : spanRecogniser.Silent ((text.drop last).take (i - last)) (text.drop i) :=
      silent_of_not_foundAt hgap (fun k u stop hk hlt => hnone k u stop hk (by omega))
    have hfind : spanRecogniser.find? (text.drop i) = some (a, rest) :=
      span?_eq_some_iff.2 ⟨hclosed, hdrop⟩
    have hrest : text.drop (i + a.source.length) = rest := by
      rw [← List.drop_drop, hdrop, List.drop_left]
    rw [hgap, inlineTokens_append_of_silent hsilent (Recogniser.startsPlain_scan_of_find _ hfind),
      hdrop, inlineTokens_source_append hclosed, ih, hrest, ← hdrop, ← hgap]

theorem exists_reading (text : List Char) (last : Nat) :
    ∃ ts, Reading (FoundAt text) text last ts := by
  classical
  -- A span is not empty, so less of the text is left behind it.
  induction hn : text.length - last using Nat.strong_induction_on generalizing last with
  | _ n ih =>
    by_cases h : ∃ i, last ≤ i ∧ ∃ t stop, FoundAt text i t stop
    · obtain ⟨hi, t, stop, hat⟩ := Nat.find_spec h
      have hnone : ∀ k u stop', last ≤ k → k < Nat.find h → ¬ FoundAt text k u stop' :=
        fun k u stop' hk hlt hfound => Nat.find_min h hlt ⟨hk, u, stop', hfound⟩
      have hstop : Nat.find h < stop ∧ Nat.find h < text.length := by
        obtain ⟨a, -, ⟨rest, hdrop⟩, -, rfl⟩ := hat
        have hpos := List.length_pos_iff.2 (spanRecogniser.source_ne_nil a)
        have hlen := congrArg List.length hdrop
        rw [List.length_drop, List.length_append] at hlen
        have hsource : spanRecogniser.source a = a.source := rfl
        rw [hsource] at hpos
        omega
      obtain ⟨ts, hts⟩ := ih (text.length - stop) (by omega) stop rfl
      exact ⟨_, .span hi hnone hat hts⟩
    · refine ⟨_, .rest ?_⟩
      intro i t stop hi hat
      exact h ⟨i, hi, t, stop, hat⟩

theorem reading_iff {text : List Char} {ts : List Token} :
    Reading (FoundAt text) text 0 ts ↔ ts = inlineTokens text := by
  constructor
  · intro h
    exact h.eq_inlineTokens
  · rintro rfl
    obtain ⟨ts, hts⟩ := exists_reading text 0
    have h : ts = inlineTokens text := hts.eq_inlineTokens
    exact h ▸ hts

/-- The pattern matches at an offset exactly the span that the scanner finds there, the scanner finds
one exactly where the text opens one, and both readings of a text are the tokens of the line and no
others. -/
theorem parseInline_reading (text : String) :
    (∀ i t stop, PatternAt text.toList i t stop ↔ SpanAt text.toList i t stop) ∧
    (∀ i, (∃ t stop, SpanAt text.toList i t stop) ↔ Opens (text.toList.drop i)) ∧
    ∀ ts, (Reading (PatternAt text.toList) text.toList 0 ts ↔ ts = parseInline text) ∧
      (Reading (SpanAt text.toList) text.toList 0 ts ↔ ts = parseInline text) := by
  have hpattern : PatternAt text.toList = FoundAt text.toList := by
    funext i t stop
    exact propext patternAt_iff_foundAt
  have hspan : SpanAt text.toList = FoundAt text.toList := by
    funext i t stop
    exact propext spanAt_iff_foundAt
  rw [hpattern, hspan]
  exact ⟨fun i t stop => Iff.rfl, fun i => opens_drop_iff.symm, fun ts => ⟨reading_iff, reading_iff⟩⟩

end ChatMarkup
