import ChatMarkup.Proofs.Text.Leftmost

/-! # Cutting a scan and resuming it

A recogniser is local when a find does not depend on what stands behind it. A scan for it can be cut
wherever no find is cut in two: the pieces of both parts, with the plain pieces that meet at the cut put
together, are the pieces of the whole text.
-/
namespace ChatMarkup.Text
variable {α : Type}

/-- The pieces of two parts of a text. Plain pieces that meet are one piece. -/
def joinPieces : List (Piece α) → List (Piece α) → List (Piece α)
  | [], qs => qs
  | [.plain cs], .plain ds :: qs => .plain (cs ++ ds) :: qs
  | p :: ps, qs => p :: joinPieces ps qs

theorem joinPieces_found (a : α) (ps qs : List (Piece α)) :
    joinPieces (.found a :: ps) qs = .found a :: joinPieces ps qs := by
  rw [joinPieces]
  intro cs _ _ _ h
  cases h

theorem joinPieces_prepend (c : Char) (ps qs : List (Piece α)) :
    joinPieces (Piece.prepend c ps) qs = Piece.prepend c (joinPieces ps qs) := by
  cases ps with
  | nil =>
    cases qs with
    | nil => rfl
    | cons q qs => cases q <;> rfl
  | cons p ps =>
    cases p with
    | found a =>
      rw [joinPieces_found]
      have hprepend : ∀ rs : List (Piece α),
        Piece.prepend c (.found a :: rs) = .plain [c] :: .found a :: rs := fun rs => rfl
      rw [hprepend, hprepend]
      rfl
    | plain cs =>
      cases ps with
      | nil =>
        cases qs with
        | nil => rfl
        | cons q qs => cases q <;> rfl
      | cons p ps => rfl

/-- What is made of the pieces one by one is made of both parts, if plain pieces can be cut for it. -/
theorem flatMap_joinPieces {γ : Type} {f : Piece α → List γ}
    (hf : ∀ cs ds, f (.plain (cs ++ ds)) = f (.plain cs) ++ f (.plain ds)) (ps qs : List (Piece α)) :
    (joinPieces ps qs).flatMap f = ps.flatMap f ++ qs.flatMap f := by
  fun_induction joinPieces ps qs with
  | case1 qs => rfl
  | case2 cs ds qs => rw [List.flatMap_cons, hf, List.flatMap_singleton, List.flatMap_cons,
      List.append_assoc]
  | case3 p ps qs _ ih => rw [List.flatMap_cons, ih, List.flatMap_cons, List.append_assoc]

namespace Recogniser
variable (r : Recogniser α)

def Local : Prop := ∀ a rest other,
  r.find? (r.source a ++ rest) = some (a, rest) → r.find? (r.source a ++ other) = some (a, other)

/-- The offset is strictly inside one of the finds. -/
def CutsFind (ps : List (Piece α)) (k : Nat) : Prop :=
  ∃ before a after, ps = before ++ .found a :: after ∧
    (r.sourceOf before).length < k ∧ k < (r.sourceOf before).length + (r.source a).length

variable {r}

theorem cutsFind_head {a : α} {k : Nat} (hpos : 0 < k) (hk : k < (r.source a).length)
    (ps : List (Piece α)) : r.CutsFind (.found a :: ps) k := by
  refine ⟨[], a, ps, rfl, hpos, ?_⟩
  rw [sourceOf_nil, List.length_nil]
  omega

theorem CutsFind.found {ps : List (Piece α)} {k : Nat} (h : r.CutsFind ps k) (a : α) :
    r.CutsFind (.found a :: ps) ((r.source a).length + k) := by
  obtain ⟨before, b, after, rfl, hlt, hgt⟩ := h
  refine ⟨.found a :: before, b, after, rfl, ?_⟩
  rw [sourceOf_found, List.length_append]
  omega

theorem CutsFind.prepend {ps : List (Piece α)} {k : Nat} (h : r.CutsFind ps k) (c : Char) :
    r.CutsFind (Piece.prepend c ps) (k + 1) := by
  obtain ⟨before, b, after, rfl, hlt, hgt⟩ := h
  have hprepend : Piece.prepend c (before ++ .found b :: after) =
      Piece.prepend c before ++ .found b :: after := by
    cases before with
    | nil => rfl
    | cons p before => cases p <;> rfl
  have hsource : r.sourceOf (Piece.prepend c before) = c :: r.sourceOf before :=
    r.flatMap_prepend c before
  refine ⟨Piece.prepend c before, b, after, hprepend, ?_⟩
  rw [hsource, List.length_cons]
  omega

/-- What is found only with more text behind reaches into that text. -/
theorem Local.length_lt (hr : r.Local) {s t rest : List Char} {a : α} (hnone : r.find? s = none)
    (h : r.find? (s ++ t) = some (a, rest)) : s.length < (r.source a).length := by
  refine Nat.lt_of_not_le fun hle => ?_
  have hprefix : r.source a <+: s ++ t := ⟨rest, (r.eq_append h).symm⟩
  have hsource : r.source a <+: s :=
    List.prefix_of_prefix_length_le hprefix (List.prefix_append s t) hle
  obtain ⟨u, rfl⟩ := hsource
  rw [r.eq_append h] at h
  have hfind := hr a rest u h
  rw [hnone] at hfind
  cases hfind

theorem Local.find?_append (hr : r.Local) {s rest : List Char} {a : α}
    (h : r.find? s = some (a, rest)) (t : List Char) :
    r.find? (s ++ t) = some (a, rest ++ t) := by
  obtain rfl := r.eq_append h
  rw [List.append_assoc]
  exact hr a rest (rest ++ t) h

theorem Local.scan_append (hr : r.Local) {s t : List Char}
    (h : ¬ r.CutsFind (r.scan (s ++ t)) s.length) :
    r.scan (s ++ t) = joinPieces (r.scan s) (r.scan t) := by
  fun_induction r.scan s with
  | case1 => rfl
  | case2 c s a rest hfind _ ih =>
    have hsource : (c :: s).length = (r.source a).length + rest.length := by
      rw [r.eq_append hfind, List.length_append]
    rw [r.scan_of_find (hr.find?_append hfind t)] at h ⊢
    rw [joinPieces_found, ih]
    intro hcut
    apply h
    rw [hsource]
    exact hcut.found a
  | case3 c s hnone ih =>
    have hnone' : r.find? (c :: (s ++ t)) = none := by
      cases hfind : r.find? (c :: (s ++ t)) with
      | none => rfl
      | some p =>
        obtain ⟨a, rest⟩ := p
        have hlt : (c :: s).length < (r.source a).length := hr.length_lt hnone hfind
        rw [List.cons_append, r.scan_of_find hfind] at h
        exact absurd (cutsFind_head (Nat.succ_pos s.length) hlt _) h
    rw [List.cons_append, r.scan_of_none hnone'] at h ⊢
    rw [joinPieces_prepend, ih]
    intro hcut
    exact h (hcut.prepend c)

theorem Local.flatMap_scan_append (hr : r.Local) {γ : Type} {f : Piece α → List γ}
    (hf : ∀ cs ds, f (.plain (cs ++ ds)) = f (.plain cs) ++ f (.plain ds)) {s t : List Char}
    (h : ¬ r.CutsFind (r.scan (s ++ t)) s.length) :
    (r.scan (s ++ t)).flatMap f = (r.scan s).flatMap f ++ (r.scan t).flatMap f := by
  rw [hr.scan_append h, flatMap_joinPieces hf]

/-- A text that is put together from parts can be scanned part by part, if no find is cut between two. -/
theorem Local.flatMap_scan_flatMap (hr : r.Local) {β γ : Type} {f : Piece α → List γ}
    (hf : ∀ cs ds, f (.plain (cs ++ ds)) = f (.plain cs) ++ f (.plain ds)) {g : β → List Char}
    {bs : List β}
    (h : ∀ b rest, b :: rest <:+ bs →
      ¬ r.CutsFind (r.scan (g b ++ rest.flatMap g)) (g b).length) :
    (r.scan (bs.flatMap g)).flatMap f = bs.flatMap fun b => (r.scan (g b)).flatMap f := by
  induction bs with
  | nil =>
    rw [List.flatMap_nil, r.scan_nil]
    rfl
  | cons b bs ih =>
    have hcut := h b bs List.suffix_rfl
    have hrest := ih fun c rest hc => h c rest (hc.trans (List.suffix_cons b bs))
    rw [List.flatMap_cons, hr.flatMap_scan_append hf hcut, hrest, List.flatMap_cons]

theorem Local.silent_nil (hr : r.Local) {s behind : List Char} (h : r.Silent s behind) :
    r.Silent s [] := by
  intro before rest hs hne
  rw [Option.eq_none_iff_forall_ne_some]
  rintro ⟨a, after⟩ hfind
  rw [List.append_nil] at hfind
  have hnone := h before rest hs hne
  rw [hr.find?_append hfind behind] at hnone
  cases hnone

end Recogniser

end ChatMarkup.Text
