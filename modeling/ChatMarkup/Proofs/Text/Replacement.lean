import Mathlib.Data.List.Basic

/-! # Replacing one text by another

All occurrences of a text are replaced from the left, and the search goes on behind each of them, so the
replacement itself is not searched. It suffices to know at which offsets an occurrence starts: up to the
next one everything stays as it is.
-/
namespace ChatMarkup.Text

/-- Each occurrence of `old`, which is not to be empty, becomes `new`. -/
def replaceAll (old new : List Char) : List Char → List Char
  | [] => []
  | c :: s =>
    if old <+: c :: s then new ++ replaceAll old new (s.drop (old.length - 1))
    else c :: replaceAll old new s
termination_by s => s.length
decreasing_by
  · rw [List.length_drop, List.length_cons]
    omega
  · exact Nat.lt_succ_self s.length

theorem replaceAll_nil (old new : List Char) : replaceAll old new [] = [] := by
  rw [replaceAll]

theorem replaceAll_append {old : List Char} (h : old ≠ []) (new rest : List Char) :
    replaceAll old new (old ++ rest) = new ++ replaceAll old new rest := by
  obtain ⟨c, tail, rfl⟩ := List.exists_cons_of_ne_nil h
  have hprefix : c :: tail <+: c :: (tail ++ rest) := List.prefix_append (c :: tail) rest
  have hskip : (tail ++ rest).drop ((c :: tail).length - 1) = rest := List.drop_left
  rw [List.cons_append, replaceAll, if_pos hprefix, hskip]

/-- Where no occurrence starts the text is left as it is. -/
theorem replaceAll_append_of_absent {old s behind : List Char} (new : List Char)
    (h : ∀ rest, rest <:+ s → rest ≠ [] → ¬ old <+: rest ++ behind) :
    replaceAll old new (s ++ behind) = s ++ replaceAll old new behind := by
  induction s with
  | nil => rfl
  | cons c s ih =>
    have hhead : ¬ old <+: c :: (s ++ behind) := h (c :: s) List.suffix_rfl (List.cons_ne_nil c s)
    have htail : ∀ rest, rest <:+ s → rest ≠ [] → ¬ old <+: rest ++ behind :=
      fun rest hrest => h rest (hrest.trans (List.suffix_cons c s))
    rw [List.cons_append, replaceAll, if_neg hhead, ih htail, List.cons_append]

end ChatMarkup.Text
