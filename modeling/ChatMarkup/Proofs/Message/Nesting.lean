import ChatMarkup.Proofs.Message.Canonical
import ChatMarkup.Proofs.Token.Subtokens

/-! # Marks inside what they mark

No style holds its own delimiter. A fence can stand inside monospace content in one place only, at its
start: the first character is taken into the content whatever it is, and only from the second one on the
content is closed by the next fence. This needs two fences in a row.
-/
namespace ChatMarkup

/-- What stands on both sides of the content of a token. -/
def Token.mark? : Token → Option (List Char)
  | .styled style _ => some [style.delimiter]
  | .monospace _ => some fence
  | .text _ | .quote _ | .lineBreak => none

/-- The content of a token holds the token's own mark at that offset. -/
def Token.NestsAt (t : Token) (k : Nat) : Prop :=
  ∃ mark, t.mark? = some mark ∧ mark <+: t.literal.drop k

theorem mem_messageTokens {t : Token} {s : List Char} (h : t ∈ messageTokens s) :
    t = .lineBreak ∨ (∃ quoted, t = .quote (inlineTokens quoted)) ∨ InlineToken t := by
  rw [messageTokens_eq_joinLines] at h
  rcases mem_joinLines h with hbreak | ⟨part, hpart, ht⟩
  · exact Or.inl hbreak
  · obtain ⟨line, -, rfl⟩ := List.mem_map.1 hpart
    by_cases hquote : quoteMark <+: line
    · obtain ⟨quoted, rfl⟩ := hquote
      rw [lineTokens_of_quoted] at ht
      exact Or.inr (Or.inl ⟨quoted, List.mem_singleton.1 ht⟩)
    · rw [lineTokens_of_plain hquote] at ht
      exact Or.inr (Or.inr ((inlineCanonical_inlineTokens line).tokens t ht))

theorem InlineToken.of_mem_inner {t u : Token} (hu : InlineToken u) (h : t ∈ subtokens u.inner) :
    InlineToken t := by
  cases hu with
  | text _ => cases h
  | styled hne _ =>
    obtain ⟨v, hv, ht | ht⟩ := mem_subtokens_iff.1 h
    · rw [ht, List.mem_singleton.1 hv]
      exact .text hne
    · rw [List.mem_singleton.1 hv] at ht
      cases ht
  | monospace _ _ => cases h

theorem mem_subtokens_messageTokens {t : Token} {s : List Char}
    (h : t ∈ subtokens (messageTokens s)) :
    t = .lineBreak ∨ (∃ inner, t = .quote inner) ∨ InlineToken t := by
  -- A token of a stretch of text, or inside of one.
  have hinline : ∀ {u}, InlineToken u → t = u ∨ t ∈ subtokens u.inner → InlineToken t := by
    rintro u hu (rfl | ht)
    · exact hu
    · exact hu.of_mem_inner ht
  obtain ⟨u, hu, ht⟩ := mem_subtokens_iff.1 h
  rcases mem_messageTokens hu with rfl | ⟨quoted, rfl⟩ | hu
  · rcases ht with rfl | ht
    · exact Or.inl rfl
    · cases ht
  · rcases ht with rfl | ht
    · exact Or.inr (Or.inl ⟨_, rfl⟩)
    · obtain ⟨v, hv, ht⟩ := mem_subtokens_iff.1 ht
      exact Or.inr (Or.inr (hinline ((inlineCanonical_inlineTokens quoted).tokens v hv) ht))
  · exact Or.inr (Or.inr (hinline hu ht))

/-- A fence inside content that closes first stands at the start of it. -/
theorem ClosesFirst.fence_prefix_drop_iff {content : List Char} (h : ClosesFirst content) {k : Nat} :
    fence <+: content.drop k ↔ k = 0 ∧ fence <+: content := by
  constructor
  · intro hfence
    rcases Nat.eq_zero_or_pos k with rfl | hpos
    · exact ⟨rfl, hfence⟩
    · have hlt : k < content.length := by
        have hlen : 3 ≤ (content.drop k).length := hfence.length_le
        rw [List.length_drop] at hlen
        omega
      have hdrop : content.drop k <+: (content ++ fence).drop k := by
        rw [List.drop_append_of_le_length (Nat.le_of_lt hlt)]
        exact List.prefix_append _ _
      exact absurd (hfence.trans hdrop) (h k hpos hlt)
  · rintro ⟨rfl, hfence⟩
    exact hfence

theorem InlineToken.nestsAt_iff {t : Token} (h : InlineToken t) {k : Nat} :
    t.NestsAt k ↔ k = 0 ∧ ∃ content, t = .monospace content ∧ fence <+: content.toList := by
  cases h with
  | text _ => simp [Token.NestsAt, Token.mark?]
  | @styled style content _ hfree =>
    have hnone : ¬ [style.delimiter] <+: content.toList.drop k := by
      intro hstart
      exact hfree (List.mem_of_mem_drop (hstart.subset List.mem_cons_self))
    simp [Token.NestsAt, Token.mark?, Token.literal, literals, hnone]
  | @monospace content _ hfirst =>
    simp [Token.NestsAt, Token.mark?, Token.literal, hfirst.fence_prefix_drop_iff]

/-- Of the tokens of a message only monospace ones can hold their own mark, only at the start of their
content, and only where the message has two fences in a row. -/
theorem nestsAt_of_rendered (text : String) :
    (∀ t ∈ subtokens (render text), ∀ k,
      t.NestsAt k ↔ k = 0 ∧ ∃ content, t = .monospace content ∧ fence <+: content.toList) ∧
    (¬ fence ++ fence <:+: text.toList → ∀ t ∈ subtokens (render text), ∀ k, ¬ t.NestsAt k) := by
  have hnests : ∀ t ∈ subtokens (render text), ∀ k,
      t.NestsAt k ↔ k = 0 ∧ ∃ content, t = .monospace content ∧ fence <+: content.toList := by
    intro t ht k
    rcases mem_subtokens_messageTokens ht with rfl | ⟨inner, rfl⟩ | hinline
    · simp [Token.NestsAt, Token.mark?]
    · simp [Token.NestsAt, Token.mark?]
    · exact hinline.nestsAt_iff
  refine ⟨hnests, ?_⟩
  intro hfree t ht k hk
  obtain ⟨-, content, rfl, rest, hrest⟩ := (hnests t ht k).1 hk
  have hsource : (Token.monospace content).source = fence ++ fence ++ (rest ++ fence) := by
    simp [Token.source, ← hrest]
  have hdouble : fence ++ fence <:+: (Token.monospace content).source := by
    rw [hsource]
    exact (List.prefix_append _ _).isInfix
  have hmessage : (Token.monospace content).source <:+: sources (messageTokens text.toList) :=
    source_infix_of_mem_subtokens ht
  rw [sources_messageTokens] at hmessage
  exact hfree (hdouble.trans hmessage)

/-- Behind two fences the second one is content. -/
theorem nestsAt_two_fences :
    render "``````x```" = [.monospace "```x"] ∧
    ¬ ∀ t ∈ subtokens (render "``````x```"), ∀ k, ¬ t.NestsAt k := by
  have hrender : render "``````x```" = [.monospace "```x"] := by cbv
  refine ⟨hrender, fun h => h (.monospace "```x") ?_ 0 ⟨fence, rfl, ['x'], rfl⟩⟩
  rw [hrender]
  exact mem_subtokens_of_mem List.mem_cons_self

end ChatMarkup
