/-! # Splitting a text at a character

`splitAt? d s` is the text before the first `d` and the text behind it; these two are determined by the
text. The lines of a text are what stands between all its line feeds, one more than there are of them.
-/
namespace ChatMarkup.Text

def splitAt? (d : Char) : List Char → Option (List Char × List Char)
  | [] => none
  | c :: s =>
    if c = d then some ([], s)
    else (splitAt? d s).map fun (before, behind) => (c :: before, behind)

theorem splitAt?_append (d : Char) {before : List Char} (h : d ∉ before) (behind : List Char) :
    splitAt? d (before ++ d :: behind) = some (before, behind) := by
  induction before with
  | nil => simp [splitAt?]
  | cons c before ih =>
    have hc : c ≠ d := fun he => h (by simp [he])
    have ht : d ∉ before := fun hm => h (by simp [hm])
    simp [splitAt?, hc, ih ht]

theorem splitAt?_eq_some_iff {d : Char} {s before behind : List Char} :
    splitAt? d s = some (before, behind) ↔ s = before ++ d :: behind ∧ d ∉ before := by
  constructor
  · intro h
    induction s generalizing before with
    | nil => simp [splitAt?] at h
    | cons c s ih =>
      unfold splitAt? at h
      split at h
      · rename_i hc
        cases h
        simp [hc]
      · rename_i hc
        obtain ⟨⟨before', behind'⟩, hs, he⟩ := Option.map_eq_some_iff.1 h
        cases he
        obtain ⟨rfl, hm⟩ := ih hs
        exact ⟨rfl, by simp [hm, Ne.symm hc]⟩
  · rintro ⟨rfl, h⟩
    exact splitAt?_append d h behind

/-- There is only one way to cut a text at its first `d`. -/
theorem append_cons_inj {d : Char} {a b s t : List Char} (ha : d ∉ a) (hb : d ∉ b)
    (h : a ++ d :: s = b ++ d :: t) : a = b ∧ s = t := by
  have hsplit := splitAt?_append d ha s
  rw [h, splitAt?_append d hb t] at hsplit
  cases hsplit
  exact ⟨rfl, rfl⟩

theorem splitAt?_eq_none_iff {d : Char} {s : List Char} : splitAt? d s = none ↔ d ∉ s := by
  induction s with
  | nil => simp [splitAt?]
  | cons c s ih =>
    unfold splitAt?
    split
    · rename_i hc
      simp [hc]
    · rename_i hc
      simp [ih, Ne.symm hc]

theorem not_mem_of_mem_splitOn (d : Char) (s : List Char) : ∀ part ∈ s.splitOn d, d ∉ part := by
  induction s with
  | nil => simp
  | cons c s ih =>
    rw [List.splitOn_cons_eq_if_modifyHead]
    split
    · simpa using ih
    · rename_i hc
      obtain ⟨first, parts, hs⟩ := List.exists_cons_of_ne_nil (List.splitOn_ne_nil d s)
      rw [hs, List.forall_mem_cons] at ih
      rw [hs, List.modifyHead_cons, List.forall_mem_cons]
      refine ⟨fun hd => ?_, ih.2⟩
      rcases List.mem_cons.1 hd with rfl | hd
      · exact hc (beq_self_eq_true d)
      · exact ih.1 hd

theorem intercalate_singleton_cons_cons (d : Char) (part next : List Char) (parts : List (List Char)) :
    [d].intercalate (part :: next :: parts) = part ++ d :: [d].intercalate (next :: parts) := by
  simp

/-- The lines of a text. A carriage return is an ordinary character in them. -/
def lines (s : List Char) : List (List Char) := s.splitOn '\n'

end ChatMarkup.Text
