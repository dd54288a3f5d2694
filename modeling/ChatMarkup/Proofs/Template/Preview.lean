import ChatMarkup.Proofs.Template.Placeholder
import ChatMarkup.Template.Preview
import Mathlib.Data.List.Basic

/-! # Previews and distinct names

Where no strict placeholder stands, the preview of a text is the text, and it has no names. Names can be
made distinct in each part of a text first without a change to the distinct names of the whole.
-/
namespace ChatMarkup.Template
open Text

theorem names_eq_flatMap (s : List Char) :
    names s = (strict.scan s).flatMap fun p => (pieceName? p).toList :=
  List.filterMap_eq_flatMap_toList _ _

theorem scan_of_silent {s : List Char} (h : strict.Silent s []) :
    strict.scan s = Recogniser.plainPieces s := by
  have hscan := strict.scan_append_of_silent h
  rw [List.append_nil, strict.scan_nil, Recogniser.foldr_prepend rfl, List.append_nil] at hscan
  exact hscan

theorem previewChars_of_silent {s : List Char} (h : strict.Silent s []) : previewChars s = s := by
  rw [previewChars, scan_of_silent h]
  cases s with
  | nil => rfl
  | cons c s => exact List.append_nil _

theorem names_of_silent {s : List Char} (h : strict.Silent s []) : names s = [] := by
  rw [names, scan_of_silent h]
  cases s <;> rfl

section Distinct
variable {α β : Type} [BEq β] [LawfulBEq β]

theorem eraseDups_filter (p : β → Bool) (l : List β) :
    (l.filter p).eraseDups = l.eraseDups.filter p := by
  match l with
  | [] => rfl
  | b :: l =>
    have ih := eraseDups_filter p (l.filter fun c => !c == b)
    rw [List.eraseDups_cons]
    by_cases hb : p b = true
    · rw [List.filter_cons_of_pos hb, List.filter_cons_of_pos hb, List.eraseDups_cons, ← ih,
        List.filter_filter, List.filter_filter]
      simp only [Bool.and_comm]
    · -- What is left out with the first one would be left out by the condition.
      have hsame : ∀ c ∈ l, p c = (p c && !c == b) := by
        intro c _
        by_cases hc : c = b
        · simp [hc, hb]
        · simp [hc]
      rw [List.filter_cons_of_neg hb, List.filter_cons_of_neg hb, ← ih, List.filter_filter,
        List.filter_congr hsame]
termination_by l.length
decreasing_by exact Nat.lt_succ_of_le (List.length_filter_le _ _)

theorem eraseDups_eraseDups (l : List β) : l.eraseDups.eraseDups = l.eraseDups := by
  match l with
  | [] => rfl
  | b :: l =>
    have ih := eraseDups_eraseDups (l.filter fun c => !c == b)
    rw [List.eraseDups_cons, List.eraseDups_cons, ← eraseDups_filter, List.filter_filter]
    simp only [Bool.and_self, ih]
termination_by l.length
decreasing_by exact Nat.lt_succ_of_le (List.length_filter_le _ _)

theorem nodup_eraseDups (l : List β) : l.eraseDups.Nodup := by
  match l with
  | [] => exact List.nodup_nil
  | b :: l =>
    have hrest := nodup_eraseDups (l.filter fun c => !c == b)
    rw [List.eraseDups_cons, List.nodup_cons]
    refine ⟨?_, hrest⟩
    simp [List.mem_eraseDups]
termination_by l.length
decreasing_by exact Nat.lt_succ_of_le (List.length_filter_le _ _)

theorem eraseDups_flatMap (f : α → List β) (l : List α) :
    (l.flatMap fun a => (f a).eraseDups).eraseDups = (l.flatMap f).eraseDups := by
  induction l with
  | nil => rfl
  | cons a l ih =>
    have hmem : ∀ c, (f a).eraseDups.elem c = (f a).elem c := by
      intro c
      rw [Bool.eq_iff_iff, List.elem_iff, List.elem_iff, List.mem_eraseDups]
    simp only [List.flatMap_cons, List.eraseDups_append, List.removeAll, eraseDups_filter, ih,
      eraseDups_eraseDups, hmem]

end Distinct

end ChatMarkup.Template
