import ChatMarkup.Proofs.Text.Resume

/-! # Where the finds of a decomposition stand

The finds of a decomposition are listed with the offsets at which they start. The offsets increase from one
find to the next, so no find is listed twice.
-/
namespace ChatMarkup.Text
variable {α : Type}

theorem joinPieces_found_right (ps : List (Piece α)) (a : α) (qs : List (Piece α)) :
    joinPieces ps (.found a :: qs) = ps ++ .found a :: qs := by
  induction ps with
  | nil => rfl
  | cons p ps ih =>
    cases p with
    | found b => rw [joinPieces_found, ih, List.cons_append]
    | plain cs =>
      cases ps with
      | nil => rfl
      | cons q ps => exact congrArg (.plain cs :: ·) ih

namespace Recogniser
variable (r : Recogniser α)

/-- What is listed for a stretch, when another stretch of that length stands in front of it. -/
def shift (n : Nat) (l : List (Nat × α)) : List (Nat × α) := l.map fun (k, a) => (n + k, a)

/-- The finds among some pieces, each with the number of characters in front of it. -/
def finds : List (Piece α) → List (Nat × α)
  | [] => []
  | .plain cs :: ps => shift cs.length (finds ps)
  | .found a :: ps => (0, a) :: shift (r.source a).length (finds ps)

theorem mem_shift {n k : Nat} {a : α} {l : List (Nat × α)} :
    (k, a) ∈ shift n l ↔ ∃ j, (j, a) ∈ l ∧ n + j = k := by
  simp [shift]

theorem pairwise_shift {n : Nat} {l : List (Nat × α)} (h : l.Pairwise fun a b => a.1 < b.1) :
    (shift n l).Pairwise fun a b => a.1 < b.1 :=
  List.pairwise_map.2 (h.imp fun hlt => Nat.add_lt_add_left hlt n)

variable {r}

theorem mem_finds_iff {ps : List (Piece α)} {k : Nat} {a : α} : (k, a) ∈ r.finds ps ↔
    ∃ before after, ps = before ++ .found a :: after ∧ (r.sourceOf before).length = k := by
  constructor
  · intro h
    induction ps generalizing k with
    | nil => cases h
    | cons p ps ih =>
      cases p with
      | plain cs =>
        obtain ⟨j, hj, rfl⟩ := mem_shift.1 h
        obtain ⟨before, after, rfl, rfl⟩ := ih hj
        exact ⟨.plain cs :: before, after, rfl, by simp⟩
      | found b =>
        rcases List.mem_cons.1 h with he | h
        · cases he
          exact ⟨[], ps, rfl, rfl⟩
        · obtain ⟨j, hj, rfl⟩ := mem_shift.1 h
          obtain ⟨before, after, rfl, rfl⟩ := ih hj
          exact ⟨.found b :: before, after, rfl, by simp⟩
  · rintro ⟨before, after, rfl, rfl⟩
    induction before with
    | nil => exact List.mem_cons_self
    | cons p before ih =>
      cases p with
      | plain cs => exact mem_shift.2 ⟨_, ih, by simp⟩
      | found b => exact List.mem_cons_of_mem _ (mem_shift.2 ⟨_, ih, by simp⟩)

theorem finds_pairwise (ps : List (Piece α)) :
    (r.finds ps).Pairwise fun a b => a.1 < b.1 := by
  induction ps with
  | nil => exact .nil
  | cons p ps ih =>
    cases p with
    | plain cs => exact pairwise_shift ih
    | found a =>
      refine .cons ?_ (pairwise_shift ih)
      rintro ⟨k, b⟩ hmem
      obtain ⟨j, -, rfl⟩ := mem_shift.1 hmem
      have hpos := List.length_pos_iff.2 (r.source_ne_nil a)
      exact Nat.add_pos_left hpos j

/-- What is made of the finds alone is made of them in their order. -/
theorem flatMap_eq_map_finds {γ : Type} {f : Piece α → List γ} {g : α → γ}
    (hplain : ∀ cs, f (.plain cs) = []) (hfound : ∀ a, f (.found a) = [g a]) (ps : List (Piece α)) :
    ps.flatMap f = (r.finds ps).map fun p => g p.2 := by
  have hshift : ∀ n (l : List (Nat × α)), (shift n l).map (fun p => g p.2) = l.map fun p => g p.2 := by
    intro n l
    rw [shift, List.map_map]
    rfl
  induction ps with
  | nil => rfl
  | cons p ps ih =>
    cases p with
    | plain cs => rw [List.flatMap_cons, hplain, finds, hshift, ← ih, List.nil_append]
    | found a => rw [List.flatMap_cons, hfound, finds, List.map_cons, hshift, ← ih]; rfl

end Recogniser

end ChatMarkup.Text
