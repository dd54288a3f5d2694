import ChatMarkup.Proofs.Message.Canonical
import ChatMarkup.Proofs.Text.Resume

/-! # Cutting a line and resuming it

A line can be read in two parts. If the cut goes through no span, the tokens of the parts, with the texts
that meet at the cut put together, are the tokens of the line. If it goes through a span, they never
are: the span is a token that reaches over the cut, and only a text does that in what is put together.
-/
namespace ChatMarkup

/-- The tokens of two parts of a line. Texts that meet are one text. -/
def joinTokens : List Token → List Token → List Token
  | [], us => us
  | [.text s], .text t :: us => .text (s ++ t) :: us
  | t :: ts, us => t :: joinTokens ts us

/-- The offset is strictly inside the markup of a token that is no text. -/
def CutsSpan (ts : List Token) (k : Nat) : Prop :=
  ∃ before t after, ts = before ++ t :: after ∧ (∀ content, t ≠ .text content) ∧
    (sources before).length < k ∧ k < (sources before).length + t.source.length

theorem local_spanRecogniser : spanRecogniser.Local := by
  intro a rest other h
  have hclosed : a.Closed := (span?_eq_some_iff.1 h).1
  exact span?_source_append hclosed other

theorem joinTokens_of_ne {t : Token} (h : ∀ content, t ≠ .text content) (ts us : List Token) :
    joinTokens (t :: ts) us = t :: joinTokens ts us := by
  rw [joinTokens]
  intro s _ _ _ ht
  exact absurd ht (h s)

theorem map_pieceToken_joinPieces (ps qs : List (Text.Piece Span)) :
    (Text.joinPieces ps qs).map pieceToken =
      joinTokens (ps.map pieceToken) (qs.map pieceToken) := by
  fun_induction Text.joinPieces ps qs with
  | case1 qs => rfl
  | case2 cs ds qs =>
    rw [List.map_cons, pieceToken, String.ofList_append]
    rfl
  | case3 p ps qs hne ih =>
    rw [List.map_cons, List.map_cons, ih]
    cases p with
    | found a => exact (joinTokens_of_ne (token_ne_text a) _ _).symm
    | plain cs =>
      cases ps with
      | cons p ps => rfl
      | nil =>
        cases qs with
        | nil => rfl
        | cons q qs =>
          cases q with
          | plain ds => exact (hne cs ds qs rfl rfl rfl).elim
          | found a => cases a <;> rfl

theorem CutsSpan.of_cutsFind {ps : List (Text.Piece Span)} {k : Nat}
    (h : spanRecogniser.CutsFind ps k) : CutsSpan (ps.map pieceToken) k := by
  obtain ⟨before, a, after, rfl, hlt, hgt⟩ := h
  refine ⟨before.map pieceToken, a.token, after.map pieceToken, ?_, token_ne_text a, ?_⟩
  · rw [List.map_append, List.map_cons]
    rfl
  · rw [sources_map_pieceToken, source_token]
    exact ⟨hlt, hgt⟩

theorem not_cutsSpan_joinTokens (ts us : List Token) :
    ¬ CutsSpan (joinTokens ts us) (sources ts).length := by
  fun_induction joinTokens ts us with
  | case1 us =>
    rintro ⟨before, t, after, -, -, hlt, -⟩
    exact Nat.not_lt_zero _ hlt
  | case2 s t us =>
    rintro ⟨before, u, after, heq, hne, hlt, -⟩
    cases before with
    | nil => exact hne (s ++ t) (List.cons.inj heq).1.symm
    | cons v before =>
      obtain ⟨rfl, -⟩ := List.cons.inj heq
      simp only [sources, Token.source, String.toList_append, List.length_append,
        List.length_nil] at hlt
      omega
  | case3 t ts us _ ih =>
    rintro ⟨before, u, after, heq, hne, hlt, hgt⟩
    cases before with
    | nil =>
      obtain ⟨rfl, -⟩ := List.cons.inj heq
      rw [sources, sources, List.length_append, List.length_nil] at hgt
      omega
    | cons v before =>
      obtain ⟨rfl, htail⟩ := List.cons.inj heq
      apply ih
      refine ⟨before, u, after, htail, hne, ?_⟩
      simp only [sources, List.length_append] at hlt hgt
      omega

theorem CutsSpan.lt_length {ts : List Token} {k : Nat} (h : CutsSpan ts k) :
    k < (sources ts).length := by
  obtain ⟨before, t, after, rfl, -, -, hgt⟩ := h
  simp only [sources_append, sources, List.length_append]
  omega

theorem inlineTokens_append_iff (s t : List Char) :
    inlineTokens (s ++ t) = joinTokens (inlineTokens s) (inlineTokens t) ↔
      ¬ CutsSpan (inlineTokens (s ++ t)) s.length := by
  constructor
  · intro h
    have hnot := not_cutsSpan_joinTokens (inlineTokens s) (inlineTokens t)
    rw [sources_inlineTokens] at hnot
    rwa [h]
  · intro h
    have hscan := local_spanRecogniser.scan_append fun hcut => h (.of_cutsFind hcut)
    rw [inlineTokens, hscan, map_pieceToken_joinPieces]
    rfl

/-- A line can be cut at an offset and read in two parts exactly when no span is cut in two there. -/
theorem parseInline_eq_joinTokens_iff (text : String) (k : Nat) :
    parseInline text = joinTokens (parseInline (String.ofList (text.toList.take k)))
        (parseInline (String.ofList (text.toList.drop k))) ↔
      ¬ CutsSpan (parseInline text) k := by
  have happend := inlineTokens_append_iff (text.toList.take k) (text.toList.drop k)
  rw [List.take_append_drop, List.length_take] at happend
  simp only [parseInline, String.toList_ofList]
  rw [happend]
  rcases Nat.le_total k text.toList.length with hk | hk
  · rw [Nat.min_eq_left hk]
  · rw [Nat.min_eq_right hk]
    have hnot : ∀ j, text.toList.length ≤ j → ¬ CutsSpan (inlineTokens text.toList) j := by
      intro j hj hcut
      have hlt := hcut.lt_length
      rw [sources_inlineTokens] at hlt
      omega
    exact iff_of_true (hnot _ (Nat.le_refl _)) (hnot k hk)

end ChatMarkup
