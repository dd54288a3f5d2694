import ChatMarkup.Token

/-! # All tokens of a list, at any depth

A token is written into the markup of the whole list, wherever it stands. Markup holds the literal text in
its order, and besides it two characters for each style and each quote and six for each monospace token, at
any depth.
-/
namespace ChatMarkup

/-- The tokens directly inside a token. -/
def Token.inner : Token → List Token
  | .styled _ ts | .quote ts => ts
  | .text _ | .monospace _ | .lineBreak => []

mutual
def Token.withInner : Token → List Token
  | .text s => [.text s]
  | .styled style ts => .styled style ts :: subtokens ts
  | .monospace s => [.monospace s]
  | .quote ts => .quote ts :: subtokens ts
  | .lineBreak => [.lineBreak]
/-- The tokens of a list and all tokens inside them. -/
def subtokens : List Token → List Token
  | [] => []
  | t :: ts => t.withInner ++ subtokens ts
end

def Token.isStyledOrQuote : Token → Bool
  | .styled _ _ | .quote _ => true
  | .text _ | .monospace _ | .lineBreak => false

def Token.isMonospace : Token → Bool
  | .monospace _ => true
  | _ => false

/-- Induction over a token list that does not tell the kinds of tokens apart. -/
@[elab_as_elim]
theorem innerInduction {P : List Token → Prop} (nil : P [])
    (cons : ∀ t ts, P t.inner → P ts → P (t :: ts)) (ts : List Token) : P ts := by
  induction ts using tokensInduction with
  | nil => exact nil
  | text s ts ih => exact cons _ ts nil ih
  | styled style inner ts hinner ih => exact cons _ ts hinner ih
  | monospace s ts ih => exact cons _ ts nil ih
  | quote inner ts hinner ih => exact cons _ ts hinner ih
  | lineBreak ts ih => exact cons _ ts nil ih

theorem subtokens_cons (t : Token) (ts : List Token) :
    subtokens (t :: ts) = t :: (subtokens t.inner ++ subtokens ts) := by
  rw [subtokens]
  cases t <;> rfl

theorem mem_subtokens_cons {t u : Token} {us : List Token} :
    t ∈ subtokens (u :: us) ↔ t = u ∨ t ∈ subtokens u.inner ∨ t ∈ subtokens us := by
  rw [subtokens_cons, List.mem_cons, List.mem_append]

theorem mem_subtokens_iff {t : Token} {ts : List Token} :
    t ∈ subtokens ts ↔ ∃ u ∈ ts, t = u ∨ t ∈ subtokens u.inner := by
  induction ts with
  | nil => simp [subtokens]
  | cons u us ih => simp [mem_subtokens_cons, ih, or_assoc]

theorem mem_subtokens_of_mem {t : Token} {ts : List Token} (h : t ∈ ts) : t ∈ subtokens ts :=
  mem_subtokens_iff.2 ⟨t, h, Or.inl rfl⟩

theorem Token.sources_inner_infix (t : Token) : sources t.inner <:+: t.source := by
  cases t with
  | styled style ts => exact ⟨[style.delimiter], [style.delimiter], rfl⟩
  | quote ts => exact (List.suffix_append quoteMark (sources ts)).isInfix
  | text s => exact List.nil_infix
  | monospace s => exact List.nil_infix
  | lineBreak => exact List.nil_infix

/-- A token is written in one piece, at whatever depth it stands. -/
theorem source_infix_of_mem_subtokens {t : Token} {ts : List Token} (h : t ∈ subtokens ts) :
    t.source <:+: sources ts := by
  induction ts using innerInduction with
  | nil => cases h
  | cons u us hinner ih =>
    have hhead : u.source <:+: sources (u :: us) := (List.prefix_append _ _).isInfix
    have htail : sources us <:+: sources (u :: us) := (List.suffix_append _ _).isInfix
    rcases mem_subtokens_cons.1 h with rfl | h | h
    · exact hhead
    · exact ((hinner h).trans u.sources_inner_infix).trans hhead
    · exact (ih h).trans htail

/-- The literal text is what is left of the markup when some characters are taken out. -/
theorem literals_sublist_sources (ts : List Token) : (literals ts).Sublist (sources ts) := by
  induction ts using tokensInduction with
  | nil => exact List.Sublist.refl []
  | text s ts ih => exact (List.Sublist.refl s.toList).append ih
  | styled style inner ts hinner ih =>
    have hstyled : (literals inner).Sublist (style.delimiter :: (sources inner ++ [style.delimiter])) :=
      (hinner.trans (List.sublist_append_left _ _)).cons _
    exact hstyled.append ih
  | monospace s ts ih =>
    have hfenced : s.toList.Sublist (fence ++ s.toList ++ fence) :=
      (List.sublist_append_right _ _).trans (List.sublist_append_left _ _)
    exact hfenced.append ih
  | quote inner ts hinner ih =>
    exact (hinner.trans (List.sublist_append_right _ _)).append ih
  | lineBreak ts ih => exact (List.Sublist.refl ['\n']).append ih

/-- The characters that the markup of a list has besides its literal text. -/
def markLength (ts : List Token) : Nat :=
  2 * (subtokens ts).countP Token.isStyledOrQuote + 6 * (subtokens ts).countP Token.isMonospace

theorem markLength_cons (t : Token) (ts : List Token) : markLength (t :: ts) =
    (if t.isStyledOrQuote then 2 else 0) + (if t.isMonospace then 6 else 0) +
      markLength t.inner + markLength ts := by
  simp only [markLength, subtokens_cons, List.countP_cons, List.countP_append]
  split <;> split <;> omega

theorem Token.length_source (t : Token) : t.source.length + (literals t.inner).length =
    t.literal.length + (sources t.inner).length +
      ((if t.isStyledOrQuote then 2 else 0) + if t.isMonospace then 6 else 0) := by
  cases t with
  | text s => rfl
  | lineBreak => rfl
  | monospace s => simp [source, literal, inner, isStyledOrQuote, isMonospace, fence, sources, literals]
  | styled style ts =>
    simp [source, literal, inner, isStyledOrQuote, isMonospace]
    omega
  | quote ts =>
    simp [source, literal, inner, isStyledOrQuote, isMonospace, quoteMark]
    omega

theorem length_sources (ts : List Token) :
    (sources ts).length = (literals ts).length + markLength ts := by
  induction ts using innerInduction with
  | nil => rfl
  | cons t ts hinner ih =>
    have hhead := t.length_source
    have hmark := markLength_cons t ts
    simp only [sources, literals, List.length_append]
    omega

end ChatMarkup
