import ChatMarkup.Text.Scan
import ChatMarkup.Text.Split

/-! # Texts under a map of characters

A map of characters can bring nothing new to a place where a text is cut if the character that the cut
is made at has no other source. Then splitting a text and skipping a mark go along with the map. A scan
goes along with it as soon as the recogniser does, which is a condition on the head of a text alone.
-/
namespace ChatMarkup.Text

theorem splitAt?_map {f : Char → Char} {d e : Char} (h : ∀ c, f c = e ↔ c = d) (s : List Char) :
    splitAt? e (s.map f) =
      (splitAt? d s).map fun (before, behind) => (before.map f, behind.map f) := by
  induction s with
  | nil => rfl
  | cons c s ih =>
    rw [List.map_cons, splitAt?, splitAt?, ih]
    by_cases hc : c = d
    · rw [if_pos hc, if_pos ((h c).2 hc)]
      rfl
    · rw [if_neg hc, if_neg (mt (h c).1 hc)]
      cases splitAt? d s <;> rfl

theorem splitOn_map {f : Char → Char} {d e : Char} (h : ∀ c, f c = e ↔ c = d) (s : List Char) :
    (s.map f).splitOn e = (s.splitOn d).map (List.map f) := by
  induction s with
  | nil => rfl
  | cons c s ih =>
    rw [List.map_cons, List.splitOn_cons_eq_if_modifyHead, List.splitOn_cons_eq_if_modifyHead, ih]
    simp only [beq_iff_eq, h]
    split
    · rfl
    · cases s.splitOn d <;> rfl

theorem map_eq_mark_iff {f : Char → Char} {mark : List Char}
    (h : ∀ d ∈ mark, ∀ c, f c = d ↔ c = d) {s : List Char} : s.map f = mark ↔ s = mark := by
  induction mark generalizing s with
  | nil => exact List.map_eq_nil_iff
  | cons d mark ih =>
    have hmark : ∀ t : List Char, t.map f = mark ↔ t = mark :=
      fun t => ih fun e he => h e (List.mem_cons_of_mem d he)
    cases s with
    | nil => simp
    | cons c s =>
      rw [List.map_cons, List.cons.injEq, List.cons.injEq, hmark, h d List.mem_cons_self c]

/-- Skipping a mark that only itself is sent to. -/
theorem skip_map {skip? : List Char → Option (List Char)} {f : Char → Char} {mark : List Char}
    (hskip : ∀ {s rest}, skip? s = some rest ↔ s = mark ++ rest)
    (h : ∀ d ∈ mark, ∀ c, f c = d ↔ c = d) (s : List Char) :
    skip? (s.map f) = (skip? s).map (List.map f) := by
  apply Option.ext
  intro rest
  rw [hskip, List.map_eq_append_iff, Option.map_eq_some_iff]
  constructor
  · rintro ⟨head, tail, rfl, hhead, rfl⟩
    rw [(map_eq_mark_iff h).1 hhead]
    exact ⟨tail, hskip.2 rfl, rfl⟩
  · rintro ⟨tail, htail, rfl⟩
    exact ⟨mark, tail, hskip.1 htail, (map_eq_mark_iff h).2 rfl, rfl⟩

variable {α : Type}

/-- The piece of the mapped text; what is found has a map of its own. -/
def Piece.map (f : Char → Char) (g : α → α) : Piece α → Piece α
  | .plain cs => .plain (cs.map f)
  | .found a => .found (g a)

theorem Piece.map_prepend (f : Char → Char) (g : α → α) (c : Char) (ps : List (Piece α)) :
    (Piece.prepend c ps).map (Piece.map f g) = Piece.prepend (f c) (ps.map (Piece.map f g)) := by
  cases ps with
  | nil => rfl
  | cons p ps => cases p <;> rfl

namespace Recogniser
variable {r : Recogniser α}

variable (r) in
/-- At the head of a mapped text stands the map of what stands at the head of the text. -/
def Follows (f : Char → Char) (g : α → α) : Prop :=
  ∀ s, r.find? (s.map f) = (r.find? s).map fun (a, rest) => (g a, rest.map f)

theorem Follows.scan_map {f : Char → Char} {g : α → α} (h : r.Follows f g) (s : List Char) :
    r.scan (s.map f) = (r.scan s).map (Piece.map f g) := by
  fun_induction r.scan s with
  | case1 => exact r.scan_nil
  | case2 c s a rest hfind _ ih =>
    have hmap : r.find? ((c :: s).map f) = some (g a, rest.map f) := by
      rw [h, hfind]
      rfl
    rw [r.scan_of_find hmap, ih]
    rfl
  | case3 c s hnone ih =>
    have hmap : r.find? (f c :: s.map f) = none := by
      rw [← List.map_cons, h, hnone]
      rfl
    rw [List.map_cons, r.scan_of_none hmap, ih, Piece.map_prepend]

end Recogniser

end ChatMarkup.Text
