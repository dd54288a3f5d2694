import ChatMarkup.Text.Scan

/-! # Leftmost decompositions

A decomposition of a text into pieces is leftmost when each find is what the recogniser answers
there, no find starts inside a plain piece, and plain pieces are neither empty nor neighbours. Every
text has exactly one such decomposition, and scanning produces it.
-/
namespace ChatMarkup.Text.Recogniser
variable {α : Type} (r : Recogniser α)

def sourceOf (ps : List (Piece α)) : List Char := ps.flatMap r.pieceSource

theorem sourceOf_nil : r.sourceOf [] = [] := rfl

theorem sourceOf_cons (p : Piece α) (ps : List (Piece α)) :
    r.sourceOf (p :: ps) = r.pieceSource p ++ r.sourceOf ps := rfl

@[simp] theorem sourceOf_plain (cs : List Char) (ps : List (Piece α)) :
    r.sourceOf (.plain cs :: ps) = cs ++ r.sourceOf ps := rfl

@[simp] theorem sourceOf_found (a : α) (ps : List (Piece α)) :
    r.sourceOf (.found a :: ps) = r.source a ++ r.sourceOf ps := rfl

theorem sourceOf_append (ps qs : List (Piece α)) :
    r.sourceOf (ps ++ qs) = r.sourceOf ps ++ r.sourceOf qs := List.flatMap_append

@[simp] theorem sourceOf_scan (s : List Char) : r.sourceOf (r.scan s) = s := r.flatMap_scan s

/-- No find starts inside `s` when `behind` follows it. -/
def Silent (s behind : List Char) : Prop :=
  ∀ before rest, s = before ++ rest → rest ≠ [] → r.find? (rest ++ behind) = none

theorem silent_nil (behind : List Char) : r.Silent [] behind := by
  intro before rest h hne
  exact absurd (List.append_eq_nil_iff.1 h.symm).2 hne

theorem silent_cons {c : Char} {s behind : List Char} :
    r.Silent (c :: s) behind ↔ r.find? (c :: (s ++ behind)) = none ∧ r.Silent s behind := by
  constructor
  · intro h
    refine ⟨h [] (c :: s) rfl (List.cons_ne_nil c s), ?_⟩
    intro before rest hs hne
    exact h (c :: before) rest (by rw [hs]; rfl) hne
  · rintro ⟨hc, hs⟩ before rest h hne
    cases before with
    | nil =>
      have hrest : rest = c :: s := h.symm
      rw [hrest]
      exact hc
    | cons d before =>
      have htail : s = before ++ rest := (List.cons.inj h).2
      exact hs before rest htail hne

/-- The same by offsets. -/
theorem silent_iff_drop {s behind : List Char} :
    r.Silent s behind ↔ ∀ k < s.length, r.find? (s.drop k ++ behind) = none := by
  constructor
  · intro h k hk
    have hne : s.drop k ≠ [] := by
      rw [Ne, List.drop_eq_nil_iff]
      omega
    exact h (s.take k) (s.drop k) (List.take_append_drop k s).symm hne
  · rintro h before rest rfl hne
    have hpos := List.length_pos_iff.2 hne
    have hnone := h before.length (by rw [List.length_append]; omega)
    rwa [List.drop_left] at hnone

/-- A silent stretch goes character by character to the plain text in front of what follows. -/
theorem scan_append_of_silent {s behind : List Char} (h : r.Silent s behind) :
    r.scan (s ++ behind) = s.foldr Piece.prepend (r.scan behind) := by
  induction s with
  | nil => rfl
  | cons c s ih =>
    obtain ⟨hc, hs⟩ := r.silent_cons.1 h
    rw [List.cons_append, r.scan_of_none hc, ih hs]
    rfl

/-- The piece that a plain stretch makes, if it is not empty. -/
def plainPieces (s : List Char) : List (Piece α) := if s = [] then [] else [.plain s]

theorem plainPieces_of_ne_nil {s : List Char} (h : s ≠ []) : plainPieces (α := α) s = [.plain s] :=
  if_neg h

def startsPlain : List (Piece α) → Bool
  | .plain _ :: _ => true
  | _ => false

theorem foldr_prepend {ps : List (Piece α)} (h : startsPlain ps = false) (s : List Char) :
    s.foldr Piece.prepend ps = plainPieces s ++ ps := by
  induction s with
  | nil => rfl
  | cons c s ih =>
    rw [List.foldr_cons, ih, plainPieces_of_ne_nil (List.cons_ne_nil c s)]
    cases s with
    | nil =>
      cases ps with
      | nil => rfl
      | cons p ps =>
        cases p with
        | plain cs => exact absurd h (by simp [startsPlain])
        | found a => rfl
    | cons d s => rfl

theorem foldr_prepend_plain (s cs : List Char) (ps : List (Piece α)) :
    s.foldr Piece.prepend (.plain cs :: ps) = .plain (s ++ cs) :: ps := by
  induction s with
  | nil => rfl
  | cons c s ih =>
    rw [List.foldr_cons, ih]
    rfl

theorem startsPlain_scan_of_find {s rest : List Char} {a : α} (h : r.find? s = some (a, rest)) :
    startsPlain (r.scan s) = false := by
  rw [r.scan_of_find h]
  rfl

inductive Leftmost : List (Piece α) → Prop
  | nil : Leftmost []
  | found {a : α} {ps : List (Piece α)} :
      r.find? (r.source a ++ r.sourceOf ps) = some (a, r.sourceOf ps) → Leftmost ps →
      Leftmost (.found a :: ps)
  | plain {cs : List Char} {ps : List (Piece α)} :
      cs ≠ [] → startsPlain ps = false → r.Silent cs (r.sourceOf ps) → Leftmost ps →
      Leftmost (.plain cs :: ps)

variable {r}

theorem Leftmost.tail {p : Piece α} {ps : List (Piece α)} (h : r.Leftmost (p :: ps)) :
    r.Leftmost ps := by
  cases h <;> assumption

theorem Leftmost.of_suffix {ps qs : List (Piece α)} (h : r.Leftmost ps) (hqs : qs <:+ ps) :
    r.Leftmost qs := by
  obtain ⟨before, rfl⟩ := hqs
  induction before with
  | nil => exact h
  | cons p before ih => exact ih h.tail

theorem Leftmost.exists_silent {ps : List (Piece α)} (h : r.Leftmost ps) {cs : List Char}
    (hmem : .plain cs ∈ ps) : ∃ behind, r.Silent cs behind := by
  induction h with
  | nil => cases hmem
  | found _ _ ih =>
    rcases List.mem_cons.1 hmem with he | hmem
    · cases he
    · exact ih hmem
  | plain _ _ hsilent _ ih =>
    rcases List.mem_cons.1 hmem with he | hmem
    · cases he
      exact ⟨_, hsilent⟩
    · exact ih hmem

/-- Being leftmost is a condition on each piece and on what comes behind it. -/
theorem leftmost_iff_forall {ps : List (Piece α)} : r.Leftmost ps ↔
    (∀ before a after, ps = before ++ .found a :: after →
      r.find? (r.source a ++ r.sourceOf after) = some (a, r.sourceOf after)) ∧
    ∀ before cs after, ps = before ++ .plain cs :: after →
      cs ≠ [] ∧ startsPlain after = false ∧ r.Silent cs (r.sourceOf after) := by
  constructor
  · intro h
    constructor
    · rintro before a after rfl
      cases h.of_suffix ⟨before, rfl⟩ with
      | found hfind _ => exact hfind
    · rintro before cs after rfl
      cases h.of_suffix ⟨before, rfl⟩ with
      | plain hne hstart hsilent _ => exact ⟨hne, hstart, hsilent⟩
  · rintro ⟨hfound, hplain⟩
    induction ps with
    | nil => exact .nil
    | cons p ps ih =>
      have hps : r.Leftmost ps := by
        refine ih (fun before a after h => ?_) fun before cs after h => ?_
        · exact hfound (p :: before) a after (by rw [h]; rfl)
        · exact hplain (p :: before) cs after (by rw [h]; rfl)
      cases p with
      | found a => exact .found (hfound [] a ps rfl) hps
      | plain cs =>
        obtain ⟨hne, hstart, hsilent⟩ := hplain [] cs ps rfl
        exact .plain hne hstart hsilent hps

theorem Leftmost.prepend {c : Char} {ps : List (Piece α)} (h : r.Leftmost ps)
    (hc : r.find? (c :: r.sourceOf ps) = none) : r.Leftmost (Piece.prepend c ps) := by
  have hsingle : ∀ qs : List (Piece α), r.find? (c :: r.sourceOf qs) = none →
      r.Silent [c] (r.sourceOf qs) :=
    fun qs hq => r.silent_cons.2 ⟨hq, r.silent_nil _⟩
  cases h with
  | nil => exact .plain (List.cons_ne_nil c []) rfl (hsingle [] hc) .nil
  | found ha hps => exact .plain (List.cons_ne_nil c []) rfl (hsingle _ hc) (.found ha hps)
  | plain hne hstart hs hps =>
    exact .plain (List.cons_ne_nil c _) hstart (r.silent_cons.2 ⟨hc, hs⟩) hps

variable (r)

theorem leftmost_scan (s : List Char) : r.Leftmost (r.scan s) := by
  fun_induction r.scan s with
  | case1 => exact .nil
  | case2 c s a rest h _ ih =>
    refine .found ?_ ih
    rw [r.sourceOf_scan, ← r.eq_append h]
    exact h
  | case3 c s h ih => exact ih.prepend (by rw [r.sourceOf_scan]; exact h)

variable {r}

theorem Leftmost.scan_sourceOf {ps : List (Piece α)} (h : r.Leftmost ps) :
    r.scan (r.sourceOf ps) = ps := by
  induction h with
  | nil => exact r.scan_nil
  | found ha _ ih => rw [r.sourceOf_found, r.scan_of_find ha, ih]
  | plain hne hstart hs _ ih =>
    rw [r.sourceOf_plain, r.scan_append_of_silent hs, ih, foldr_prepend hstart,
      plainPieces_of_ne_nil hne]
    rfl

end ChatMarkup.Text.Recogniser
