/-! # Scanning a text for the leftmost occurrences of a pattern

A recogniser answers what stands at the head of a text and what is left behind it. Scanning asks
it at every position in turn: where it finds something the scan goes on behind the find, elsewhere
the character belongs to the plain text in between. The pieces of a scan put together are the
scanned text, whatever the recogniser looks for.
-/
namespace ChatMarkup.Text

/-- A pattern that is looked for at the head of a text. A find is a non-empty head of the text. -/
structure Recogniser (α : Type) where
  source : α → List Char
  find? : List Char → Option (α × List Char)
  source_ne_nil : ∀ a, source a ≠ []
  eq_append : ∀ {s a rest}, find? s = some (a, rest) → s = source a ++ rest

inductive Piece (α : Type) where
  | plain (cs : List Char)
  | found (a : α)

variable {α : Type}

/-- Neighbouring plain characters stand in one piece. -/
def Piece.prepend (c : Char) : List (Piece α) → List (Piece α)
  | .plain cs :: ps => .plain (c :: cs) :: ps
  | ps => .plain [c] :: ps

namespace Recogniser

theorem length_lt (r : Recogniser α) {s rest : List Char} {a : α}
    (h : r.find? s = some (a, rest)) : rest.length < s.length := by
  have hpos := List.length_pos_iff.2 (r.source_ne_nil a)
  rw [r.eq_append h, List.length_append]
  omega

theorem find?_nil (r : Recogniser α) : r.find? [] = none := by
  cases h : r.find? [] with
  | none => rfl
  | some p =>
    exact absurd (r.length_lt h) (by simp)

def scan (r : Recogniser α) : List Char → List (Piece α)
  | [] => []
  | c :: s =>
    match h : r.find? (c :: s) with
    | some (a, rest) =>
      have : rest.length < (c :: s).length := r.length_lt h
      .found a :: r.scan rest
    | none => Piece.prepend c (r.scan s)
termination_by s => s.length
decreasing_by
  · assumption
  · exact Nat.lt_succ_self s.length

def pieceSource (r : Recogniser α) : Piece α → List Char
  | .plain cs => cs
  | .found a => r.source a

@[simp] theorem scan_nil (r : Recogniser α) : r.scan [] = [] := by
  rw [scan]

theorem scan_of_find (r : Recogniser α) {s rest : List Char} {a : α}
    (h : r.find? s = some (a, rest)) : r.scan s = .found a :: r.scan rest := by
  cases s with
  | nil => simp [r.find?_nil] at h
  | cons c s =>
    rw [scan]
    split
    · rename_i h'
      rw [h] at h'
      cases h'
      rfl
    · rename_i h'
      rw [h] at h'
      cases h'

theorem scan_of_none (r : Recogniser α) {c : Char} {s : List Char}
    (h : r.find? (c :: s) = none) : r.scan (c :: s) = Piece.prepend c (r.scan s) := by
  rw [scan]
  split
  · rename_i h'
    rw [h] at h'
    cases h'
  · rfl

theorem flatMap_prepend (r : Recogniser α) (c : Char) (ps : List (Piece α)) :
    (Piece.prepend c ps).flatMap r.pieceSource = c :: ps.flatMap r.pieceSource := by
  unfold Piece.prepend
  split <;> simp [pieceSource]

/-- Nothing of a scanned text is lost, added or moved. -/
theorem flatMap_scan (r : Recogniser α) (s : List Char) :
    (r.scan s).flatMap r.pieceSource = s := by
  fun_induction r.scan s with
  | case1 => rfl
  | case2 c s a rest h _ ih =>
    rw [List.flatMap_cons, ih, r.eq_append h]
    rfl
  | case3 c s h ih => rw [flatMap_prepend, ih]

theorem mem_prepend {c : Char} {p : Piece α} {ps : List (Piece α)}
    (h : p ∈ Piece.prepend c ps) : p ∈ ps ∨ ∃ cs, p = .plain (c :: cs) := by
  unfold Piece.prepend at h
  split at h
  · rcases List.mem_cons.1 h with rfl | hp
    · exact Or.inr ⟨_, rfl⟩
    · exact Or.inl (List.mem_cons_of_mem _ hp)
  · rcases List.mem_cons.1 h with rfl | hp
    · exact Or.inr ⟨[], rfl⟩
    · exact Or.inl hp

/-- What a scan finds stands at the head of an end of the text. -/
theorem exists_suffix_of_found_mem_scan (r : Recogniser α) {s : List Char} {a : α}
    (h : .found a ∈ r.scan s) : ∃ t rest, t <:+ s ∧ r.find? t = some (a, rest) := by
  fun_induction r.scan s with
  | case1 => cases h
  | case2 c s b rest hf _ ih =>
    rcases List.mem_cons.1 h with he | hm
    · cases he
      exact ⟨c :: s, rest, List.suffix_refl _, hf⟩
    · obtain ⟨t, rest', ht, hfind⟩ := ih hm
      have hrest : rest <:+ c :: s := ⟨r.source b, (r.eq_append hf).symm⟩
      exact ⟨t, rest', ht.trans hrest, hfind⟩
  | case3 c s hf ih =>
    rcases mem_prepend h with hm | ⟨cs, he⟩
    · obtain ⟨t, rest, ht, hfind⟩ := ih hm
      exact ⟨t, rest, ht.trans (List.suffix_cons c s), hfind⟩
    · cases he

end Recogniser

end ChatMarkup.Text
