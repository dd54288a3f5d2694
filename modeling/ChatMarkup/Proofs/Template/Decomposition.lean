import ChatMarkup.Proofs.Template.Agreement

/-! # The only leftmost decomposition of a template

A decomposition is described without a scan: by its parts, which make up the text, and by the offsets of
the text that a plain part covers, where no loose placeholder starts. Highlighting gives such a
decomposition of every text, and there is no other one.
-/
namespace ChatMarkup.Template
open Text

/-- A loose placeholder stands in the text at that offset. -/
def LooseAt (text : List Char) (start : Nat) : Prop :=
  ∃ content, IsLoose content ∧ braced content <+: text.drop start

/-- The last two conditions look at the whole list: no plain part is cut in two, and at no offset of the
text that a plain part covers does a placeholder start. -/
structure IsDecomposition (text : String) (parts : List Part) : Prop where
  whole : String.join (parts.map Part.content) = text
  placeholders : ∀ v, .variable v ∈ parts → ∃ content, IsLoose content ∧ v.toList = braced content
  nonempty : ∀ s, .text s ∈ parts → s ≠ ""
  apart : ∀ before after s t, parts ≠ before ++ .text s :: .text t :: after
  leftmost : ∀ before after s, parts = before ++ .text s :: after →
    ∀ k < s.length, ¬ LooseAt text.toList (partStart parts before.length + k)

theorem loose_find?_eq_none_iff {s : List Char} :
    loose.find? s = none ↔ ¬ ∃ content, IsLoose content ∧ braced content <+: s := by
  rw [Option.eq_none_iff_forall_ne_some]
  constructor
  · rintro h ⟨content, hcontent, rest, hrest⟩
    exact h (content, rest) (loose_find?_eq_some_iff.2 ⟨hcontent, hrest.symm⟩)
  · rintro h ⟨content, rest⟩ hfind
    obtain ⟨hcontent, hs⟩ := loose_find?_eq_some_iff.1 hfind
    exact h ⟨content, hcontent, rest, hs.symm⟩

/-- A plain piece is silent if no placeholder starts at an offset that it covers. -/
theorem silent_iff_not_looseAt (before after : List (Piece (List Char))) (cs : List Char) :
    loose.Silent cs (loose.sourceOf after) ↔ ∀ k < cs.length,
      ¬ LooseAt (loose.sourceOf (before ++ .plain cs :: after)) ((loose.sourceOf before).length + k) := by
  rw [loose.silent_iff_drop]
  refine forall₂_congr fun k hk => ?_
  have hdrop : (loose.sourceOf (before ++ .plain cs :: after)).drop
      ((loose.sourceOf before).length + k) = cs.drop k ++ loose.sourceOf after := by
    rw [Recogniser.sourceOf_append, List.drop_length_add_append, Recogniser.sourceOf_plain,
      List.drop_append_of_le_length (Nat.le_of_lt hk)]
  rw [loose_find?_eq_none_iff, LooseAt, hdrop]

/-- Parts whose variables are loose placeholders are the parts of some pieces. -/
theorem exists_map_piecePart {parts : List Part}
    (h : ∀ v, .variable v ∈ parts → ∃ content, IsLoose content ∧ v.toList = braced content) :
    ∃ ps : List (Piece (List Char)), parts = ps.map piecePart ∧
      ∀ content, .found content ∈ ps → IsLoose content := by
  induction parts with
  | nil => exact ⟨[], rfl, by simp⟩
  | cons p parts ih =>
    obtain ⟨ps, rfl, hps⟩ := ih fun v hv => h v (List.mem_cons_of_mem p hv)
    rcases p with s | v
    · refine ⟨.plain s.toList :: ps, ?_, fun content hc => hps content (by simpa using hc)⟩
      rw [List.map_cons, piecePart, String.ofList_toList]
    · obtain ⟨content, hcontent, hv⟩ := h v List.mem_cons_self
      refine ⟨.found content :: ps, ?_, fun other hother => ?_⟩
      · rw [List.map_cons, piecePart, ← hv, String.ofList_toList]
      · rcases List.mem_cons.1 hother with he | hmem
        · cases he
          exact hcontent
        · exact hps other hmem

/-- What the parts must satisfy is what the pieces of a leftmost decomposition do. -/
theorem IsDecomposition.leftmost_pieces {text : String} {ps : List (Piece (List Char))}
    (h : IsDecomposition text (ps.map piecePart))
    (hloose : ∀ content, .found content ∈ ps → IsLoose content) : loose.Leftmost ps := by
  have htext : text.toList = loose.sourceOf ps := by rw [← h.whole, toList_join_content]
  rw [loose.leftmost_iff_forall]
  constructor
  · rintro before content after rfl
    exact loose_find?_eq_some_iff.2 ⟨hloose content (by simp), rfl⟩
  · rintro before cs after rfl
    refine ⟨?_, ?_, ?_⟩
    · rintro rfl
      exact h.nonempty "" (by simp [piecePart]) rfl
    · cases after with
      | nil => rfl
      | cons p after =>
        cases p with
        | found content => rfl
        | plain ds =>
          refine absurd ?_ (h.apart (before.map piecePart) (after.map piecePart) (String.ofList cs)
            (String.ofList ds))
          simp [piecePart]
    · rw [silent_iff_not_looseAt before, ← htext]
      intro k hk
      have hleft := h.leftmost (before.map piecePart) (after.map piecePart) (String.ofList cs)
        (by simp [piecePart]) k (by rwa [String.length_ofList])
      rwa [List.length_map, partStart_map_piecePart] at hleft

theorem map_piecePart_eq_append_text {ps : List (Piece (List Char))} {before after : List Part}
    {s : String} (h : ps.map piecePart = before ++ .text s :: after) : ∃ pre post,
      ps = pre ++ .plain s.toList :: post ∧ pre.map piecePart = before ∧
      post.map piecePart = after := by
  obtain ⟨pre, qs, rfl, hpre, hqs⟩ := List.map_eq_append_iff.1 h
  obtain ⟨p, post, rfl, hp, hpost⟩ := List.map_eq_cons_iff.1 hqs
  cases p with
  | found content => cases hp
  | plain cs =>
    cases hp
    exact ⟨pre, post, by rw [String.toList_ofList], hpre, hpost⟩

theorem startsPlain_of_map_piecePart {ps : List (Piece (List Char))} {s : String} {after : List Part}
    (h : ps.map piecePart = .text s :: after) : Recogniser.startsPlain ps = true := by
  obtain ⟨p, post, rfl, hp, -⟩ := List.map_eq_cons_iff.1 h
  cases p with
  | found content => cases hp
  | plain cs => rfl

theorem isDecomposition_of_leftmost {ps : List (Piece (List Char))} (h : loose.Leftmost ps) :
    IsDecomposition (String.ofList (loose.sourceOf ps)) (ps.map piecePart) where
  whole := by rw [← String.toList_inj, toList_join_content, String.toList_ofList]
  placeholders := by
    intro v hv
    obtain ⟨p, hp, hpart⟩ := List.mem_map.1 hv
    cases p with
    | plain cs => cases hpart
    | found content =>
      cases hpart
      obtain ⟨before, after, rfl⟩ := List.append_of_mem hp
      have hfind := (loose.leftmost_iff_forall.1 h).1 before content after rfl
      exact ⟨content, (loose_find?_eq_some_iff.1 hfind).1, String.toList_ofList⟩
  nonempty := by
    rintro s hs rfl
    obtain ⟨before, after, hparts⟩ := List.append_of_mem hs
    obtain ⟨pre, post, hps, -, -⟩ := map_piecePart_eq_append_text hparts
    exact ((loose.leftmost_iff_forall.1 h).2 pre _ post hps).1 rfl
  apart := by
    intro before after s t hparts
    obtain ⟨pre, post, hps, -, hpost⟩ := map_piecePart_eq_append_text hparts
    have hstart := ((loose.leftmost_iff_forall.1 h).2 pre _ post hps).2.1
    rw [startsPlain_of_map_piecePart hpost] at hstart
    cases hstart
  leftmost := by
    intro before after s hparts
    obtain ⟨pre, post, rfl, rfl, -⟩ := map_piecePart_eq_append_text hparts
    have hsilent := ((loose.leftmost_iff_forall.1 h).2 pre _ post rfl).2.2
    rw [silent_iff_not_looseAt pre] at hsilent
    rwa [List.length_map, partStart_map_piecePart, ← String.length_toList, String.toList_ofList]

/-- The parts concatenate to the text; a variable is a loose placeholder with its braces; plain parts are
not empty and not neighbours, and where one stands no loose placeholder starts. This holds of the
highlighted parts, and of no other list of parts. -/
theorem isDecomposition_iff_eq_highlight {text : String} {parts : List Part} :
    IsDecomposition text parts ↔ parts = highlight text := by
  constructor
  · intro h
    obtain ⟨ps, rfl, hloose⟩ := exists_map_piecePart h.placeholders
    have hscan := (h.leftmost_pieces hloose).scan_sourceOf
    rw [highlight, ← h.whole, toList_join_content, hscan]
  · rintro rfl
    have h := isDecomposition_of_leftmost (loose.leftmost_scan text.toList)
    rwa [Recogniser.sourceOf_scan, String.ofList_toList] at h

/-- A third opening brace belongs to the placeholder, a third closing brace does not. -/
example : highlight "a\x7b\x7b\x7bb\nc\x7d\x7d\x7d" =
    [.text "a", .variable "\x7b\x7b\x7bb\nc\x7d\x7d", .text "\x7d"] := by
  cbv

end ChatMarkup.Template
