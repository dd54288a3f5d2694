import ChatMarkup.Proofs.Template.Names
import Mathlib.Data.Nat.Find
import Mathlib.Order.Bounds.Basic

/-! # The order of distinct names

Without its repetitions a list keeps the first place of each entry, so its entries come in the order of
their first places. For the names of a template this is the order in which their placeholders first start.
-/
namespace ChatMarkup.Template

section Lists
variable {β : Type} [BEq β] [LawfulBEq β] {a b : β}

theorem idxOf_cons_lt_iff {c : β} {l : List β} :
    (c :: l).idxOf a < (c :: l).idxOf b ↔ c ≠ b ∧ (c = a ∨ l.idxOf a < l.idxOf b) := by
  by_cases hcb : c = b
  · simp [hcb]
  · rw [List.idxOf_cons_ne l hcb]
    by_cases hca : c = a
    · subst hca
      simp [hcb]
    · simp [List.idxOf_cons_ne l hca, hca, hcb]

theorem idxOf_filter_lt_iff {p : β → Bool} (ha : p a = true) (hb : p b = true) (l : List β) :
    (l.filter p).idxOf a < (l.filter p).idxOf b ↔ l.idxOf a < l.idxOf b := by
  induction l with
  | nil => rfl
  | cons c l ih =>
    rw [idxOf_cons_lt_iff, ← ih]
    by_cases hc : p c = true
    · rw [List.filter_cons_of_pos hc, idxOf_cons_lt_iff]
    · have hca : c ≠ a := fun h => hc (h ▸ ha)
      have hcb : c ≠ b := fun h => hc (h ▸ hb)
      simp [List.filter_cons_of_neg hc, hca, hcb]

/-- Distinct entries come in the order of their first places. -/
theorem pair_sublist_eraseDups_iff (l : List β) :
    [a, b].Sublist l.eraseDups ↔ b ∈ l ∧ l.idxOf a < l.idxOf b := by
  match l with
  | [] => simp
  | c :: l =>
    have ih := pair_sublist_eraseDups_iff (l.filter fun d => !d == c)
    have hpair : [a, b].Sublist (c :: l).eraseDups ↔
        [a, b].Sublist (l.filter fun d => !d == c).eraseDups ∨ a = c ∧ b ∈ l ∧ b ≠ c := by
      rw [List.eraseDups_cons, List.sublist_cons_iff]
      simp [List.mem_eraseDups]
    rw [hpair, ih, idxOf_cons_lt_iff]
    -- The first entry is in front of all others and behind none; among the others it plays no part.
    by_cases hb : b = c
    · simp [hb]
    · by_cases ha : a = c
      · simp +contextual [ha, hb, Ne.symm hb]
      · have hfilter := idxOf_filter_lt_iff (p := fun d => !d == c) (a := a) (b := b)
          (by simpa using ha) (by simpa using hb) l
        simp [hfilter, ha, hb, Ne.symm ha, Ne.symm hb]
termination_by l.length
decreasing_by exact Nat.lt_succ_of_le (List.length_filter_le _ _)

/-- Where keys ascend, first places are in the order of least keys. -/
theorem idxOf_map_snd_lt_iff {l : List (Nat × β)} (hl : l.Pairwise fun p q => p.1 < q.1) {i j : Nat}
    (hi : IsLeast {k | (k, a) ∈ l} i) (hj : IsLeast {k | (k, b) ∈ l} j) :
    (l.map Prod.snd).idxOf a < (l.map Prod.snd).idxOf b ↔ i < j := by
  induction l with
  | nil => cases hi.1
  | cons p l ih =>
    obtain ⟨k, c⟩ := p
    obtain ⟨hk, hl⟩ := List.pairwise_cons.1 hl
    have hle : ∀ {n d}, (n, d) ∈ (k, c) :: l → k ≤ n := by
      intro n d hmem
      rcases List.mem_cons.1 hmem with he | hmem
      · cases he
        exact Nat.le_refl k
      · exact Nat.le_of_lt (hk _ hmem)
    have htail : ∀ {d}, c ≠ d → {n | (n, d) ∈ (k, c) :: l} = {n | (n, d) ∈ l} := by
      intro d hne
      ext n
      simp [Ne.symm hne]
    rw [List.map_cons, idxOf_cons_lt_iff]
    by_cases hb : c = b
    · subst hb
      have hjk : j ≤ k := hj.2 List.mem_cons_self
      have hki : k ≤ i := hle hi.1
      have hnot : ¬ i < j := by omega
      simp [hnot]
    · rw [htail hb] at hj
      by_cases ha : c = a
      · subst ha
        have hik : i ≤ k := hi.2 List.mem_cons_self
        have hkj : k < j := hk _ hj.1
        have hlt : i < j := by omega
        simp [hb, hlt]
      · rw [htail ha] at hi
        simp [ha, hb, ih hl hi hj]

omit [BEq β] [LawfulBEq β] in
theorem exists_isLeast_of_mem {l : List (Nat × β)} (h : a ∈ l.map Prod.snd) :
    ∃ i, IsLeast {k | (k, a) ∈ l} i := by
  classical
  have hkey : ∃ k, (k, a) ∈ l := by simpa using h
  exact ⟨Nat.find hkey, Nat.find_spec hkey, fun k hk => Nat.find_min' hkey hk⟩

end Lists

theorem pair_sublist_variableNames_iff {text w v : String} :
    [w, v].Sublist (variableNames text) ↔
      ∃ i j, IsLeast {start | StrictAt text.toList start w.toList} i ∧
        IsLeast {start | StrictAt text.toList start v.toList} j ∧ i < j := by
  have hkeys : ∀ name : String, {start | StrictAt text.toList start name.toList} =
      {start | (start, name) ∈ placedNames text.toList} :=
    fun name => Set.ext fun start => mem_placedNames_iff.symm
  have hmem : ∀ {name : String} {i : Nat},
      IsLeast {start | (start, name) ∈ placedNames text.toList} i → name ∈ names text.toList := by
    intro name i h
    rw [← map_snd_placedNames]
    exact List.mem_map_of_mem h.1
  rw [variableNames, pair_sublist_eraseDups_iff, hkeys, hkeys]
  have hsorted := placedNames_pairwise text.toList
  constructor
  · rintro ⟨hv, hlt⟩
    have hw : w ∈ names text.toList := by
      rw [← List.idxOf_lt_length_iff]
      exact hlt.trans (List.idxOf_lt_length_iff.2 hv)
    rw [← map_snd_placedNames] at hv hw hlt
    obtain ⟨i, hi⟩ := exists_isLeast_of_mem hw
    obtain ⟨j, hj⟩ := exists_isLeast_of_mem hv
    exact ⟨i, j, hi, hj, (idxOf_map_snd_lt_iff hsorted hi hj).1 hlt⟩
  · rintro ⟨i, j, hi, hj, hij⟩
    refine ⟨hmem hj, ?_⟩
    rw [← map_snd_placedNames]
    exact (idxOf_map_snd_lt_iff hsorted hi hj).2 hij

/-- The names of a text are those that stand in a placeholder anywhere in it, each once. One is in front of
another exactly when its first placeholder starts before the first one of the other. -/
theorem variableNames_occurrences (text : String) :
    (∀ w, w ∈ variableNames text ↔ IsName w.toList ∧ braced w.toList <:+: text.toList) ∧
    (variableNames text).Nodup ∧
    ∀ w v, [w, v].Sublist (variableNames text) ↔
      ∃ i j, IsLeast {start | StrictAt text.toList start w.toList} i ∧
        IsLeast {start | StrictAt text.toList start v.toList} j ∧ i < j := by
  refine ⟨fun w => ?_, nodup_variableNames text, fun w v => pair_sublist_variableNames_iff⟩
  rw [mem_variableNames_iff, exists_strictAt_iff]

end ChatMarkup.Template
