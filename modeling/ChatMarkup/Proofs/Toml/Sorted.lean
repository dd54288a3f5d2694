import ChatMarkup.Proofs.Toml.Distinct
import Mathlib.Data.List.Basic

/-! # The entries of a table in the order of their keys

Where no key is given twice, to look a key up and to find its entry are the same, in whatever order the
entries are.
-/
namespace ChatMarkup.Toml

theorem lookup_eq_some_iff {es : Entries} (hes : (es.map Prod.fst).Nodup) {name : String}
    {v : Located Value} : es.lookup name = some v ↔ (name, v) ∈ es := by
  refine ⟨mem_of_lookup, fun hmem => ?_⟩
  induction es with
  | nil => cases hmem
  | cons e es ih =>
    rw [List.map_cons, List.nodup_cons] at hes
    rcases List.mem_cons.mp hmem with rfl | hmem
    · exact List.lookup_cons_self
    · have hne : name ≠ e.1 := by
        rintro rfl
        exact hes.1 (List.mem_map.mpr ⟨_, hmem, rfl⟩)
      rw [List.lookup_cons, beq_false_of_ne hne]
      exact ih hes.2 hmem

theorem sortEntries_perm (es : Entries) : (sortEntries es).Perm es := List.mergeSort_perm _ _

@[simp] theorem mem_sortEntries {es : Entries} {e : String × Located Value} :
    e ∈ sortEntries es ↔ e ∈ es := (sortEntries_perm es).mem_iff

theorem nodup_keys_sortEntries {es : Entries} (hes : (es.map Prod.fst).Nodup) :
    ((sortEntries es).map Prod.fst).Nodup := ((sortEntries_perm es).map Prod.fst).nodup_iff.mpr hes

theorem sortEntries_pairwise {es : Entries} (hes : (es.map Prod.fst).Nodup) :
    (sortEntries es).Pairwise fun a b => a.1 < b.1 := by
  have hsorted := @List.pairwise_mergeSort _
    (fun a b : String × Located Value => decide (a.1 ≤ b.1))
    (fun a b c hab hbc => by
      rw [decide_eq_true_iff] at hab hbc ⊢
      exact String.le_trans hab hbc)
    (fun a b => by
      rw [Bool.or_eq_true, decide_eq_true_iff, decide_eq_true_iff]
      exact String.le_total a.1 b.1) es
  refine hsorted.imp₂ ?_ (List.pairwise_map.mp (nodup_keys_sortEntries hes))
  intro a b hab hne
  exact String.not_le.mp fun hba => hne (String.le_antisymm (of_decide_eq_true hab) hba)

/-- Sorting changes nothing about what a key is given. -/
theorem lookup_sortEntries {es : Entries} (hes : (es.map Prod.fst).Nodup) (name : String) :
    (sortEntries es).lookup name = es.lookup name := by
  refine Option.ext fun v => ?_
  rw [lookup_eq_some_iff (nodup_keys_sortEntries hes), mem_sortEntries, lookup_eq_some_iff hes]

end ChatMarkup.Toml
