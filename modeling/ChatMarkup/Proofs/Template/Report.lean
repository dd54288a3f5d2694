import ChatMarkup.Proofs.Template.Order
import ChatMarkup.Proofs.Template.Declared
import Mathlib.Data.List.Nodup

/-! # The two differences of a report

What a text uses and what is declared are compared both ways. Each difference is listed without
repetitions, the missing names in the order of their first placeholders and the unused ones in the order of
their first declarations. How often and in which order names are declared plays no part beyond that.
-/
namespace ChatMarkup.Template

/-- The list holds its members once each, and in the given order. -/
structure Lists {α : Type} (members : α → Prop) (before : α → α → Prop) (l : List α) : Prop where
  mem_iff : ∀ a, a ∈ l ↔ members a
  nodup : l.Nodup
  pair_sublist_iff : ∀ a b, members a → members b → ([a, b].Sublist l ↔ before a b)

section Lists
variable {α : Type} {members : α → Prop} {before : α → α → Prop} {l l' : List α}

theorem Lists.pairwise (h : Lists members before l) : l.Pairwise before := by
  rw [List.pairwise_iff_forall_sublist]
  intro a b hab
  have ha : members a := (h.mem_iff a).1 (hab.subset List.mem_cons_self)
  have hb : members b := (h.mem_iff b).1 (hab.subset (by simp))
  exact (h.pair_sublist_iff a b ha hb).1 hab

theorem not_pair_sublist_swap {a b : α} (hl : l.Nodup) (h : [a, b].Sublist l) :
    ¬ [b, a].Sublist l := by
  induction l with
  | nil => cases h
  | cons c l ih =>
    obtain ⟨hc, hl⟩ := List.nodup_cons.1 hl
    have hmem : ∀ {d e : α}, [d, e].Sublist l → d ∈ l ∧ e ∈ l := fun hs =>
      ⟨hs.subset List.mem_cons_self, hs.subset (by simp)⟩
    intro hswap
    rcases List.sublist_cons_iff.1 h with htail | ⟨r, hr, htail⟩
    · rcases List.sublist_cons_iff.1 hswap with hswap' | ⟨r, hr, -⟩
      · exact ih hl htail hswap'
      · cases hr
        exact hc (hmem htail).2
    · cases hr
      rcases List.sublist_cons_iff.1 hswap with hswap' | ⟨r, hr, hswap'⟩
      · exact hc (hmem hswap').2
      · cases hr
        exact hc (hswap'.subset List.mem_cons_self)

/-- There is only one such list. -/
theorem Lists.unique (h : Lists members before l) (h' : Lists members before l') : l = l' := by
  have hperm : l.Perm l' := (List.perm_ext_iff_of_nodup h.nodup h'.nodup).2 fun a => by
    rw [h.mem_iff, h'.mem_iff]
  refine hperm.eq_of_pairwise (fun a b ha hb hab hba => ?_) h.pairwise h'.pairwise
  have ha := (h.mem_iff a).1 ha
  have hb := (h'.mem_iff b).1 hb
  exact absurd ((h.pair_sublist_iff b a hb ha).2 hba)
    (not_pair_sublist_swap h.nodup ((h.pair_sublist_iff a b ha hb).2 hab))

theorem pair_sublist_filter_iff {p : α → Bool} {a b : α} (ha : p a = true) (hb : p b = true) :
    [a, b].Sublist (l.filter p) ↔ [a, b].Sublist l := by
  constructor
  · exact fun h => h.trans List.filter_sublist
  · intro h
    have hkept := h.filter p
    simpa [ha, hb] using hkept

theorem Lists.filter (h : Lists members before l) (p : α → Bool) :
    Lists (fun a => members a ∧ p a = true) before (l.filter p) where
  mem_iff a := by rw [List.mem_filter, h.mem_iff]
  nodup := h.nodup.filter p
  pair_sublist_iff a b ha hb := by
    rw [pair_sublist_filter_iff ha.2 hb.2, h.pair_sublist_iff a b ha.1 hb.1]

theorem Lists.congr {others : α → Prop} (h : Lists members before l)
    (hmem : ∀ a, members a ↔ others a) : Lists others before l := by
  obtain rfl : members = others := funext fun a => propext (hmem a)
  exact h

end Lists

/-- The strict placeholder of that name stands somewhere in the text. -/
def Uses (text name : String) : Prop := IsName name.toList ∧ braced name.toList <:+: text.toList

/-- The first placeholder of the one name starts in front of the first one of the other. -/
def StartsBefore (text w v : String) : Prop :=
  ∃ i j, IsLeast {start | StrictAt text.toList start w.toList} i ∧
    IsLeast {start | StrictAt text.toList start v.toList} j ∧ i < j

section Report
variable {text : String} {declared : List String}

theorem mem_variableNames_iff_uses {name : String} : name ∈ variableNames text ↔ Uses text name := by
  rw [mem_variableNames_iff, exists_strictAt_iff, Uses]

theorem lists_variableNames (text : String) :
    Lists (Uses text) (StartsBefore text) (variableNames text) where
  mem_iff _ := mem_variableNames_iff_uses
  nodup := nodup_variableNames text
  pair_sublist_iff _ _ _ _ := pair_sublist_variableNames_iff

/-- A list without its repetitions, in the order of first places. -/
theorem lists_eraseDups (declared : List String) :
    Lists (· ∈ declared) (fun w v => declared.idxOf w < declared.idxOf v) declared.eraseDups where
  mem_iff _ := List.mem_eraseDups
  nodup := nodup_eraseDups declared
  pair_sublist_iff w v _ hv := by
    rw [pair_sublist_eraseDups_iff]
    exact and_iff_right hv

theorem lists_missing (text : String) (declared : List String) :
    Lists (fun w => Uses text w ∧ w ∉ declared) (StartsBefore text)
      (checkVariables text declared).missing :=
  ((lists_variableNames text).filter (· ∉ declared)).congr fun _ => by
    rw [decide_eq_true_iff]

theorem lists_unused (text : String) (declared : List String) :
    Lists (fun w => w ∈ declared ∧ ¬ Uses text w) (fun w v => declared.idxOf w < declared.idxOf v)
      (checkVariables text declared).unused := by
  have hunused : (checkVariables text declared).unused =
      declared.eraseDups.filter (· ∉ variableNames text) := eraseDups_filter _ _
  rw [hunused]
  exact ((lists_eraseDups declared).filter (· ∉ variableNames text)).congr fun _ => by
    rw [decide_eq_true_iff, mem_variableNames_iff_uses]

theorem isConsistent_iff : (checkVariables text declared).isConsistent = true ↔
    ∀ name, Uses text name ↔ name ∈ declared := by
  have hmissing : (checkVariables text declared).missing = [] ↔
      ∀ name, Uses text name → name ∈ declared := by
    rw [missing_eq_nil_iff]
    exact forall_congr' fun name => by rw [mem_variableNames_iff_uses]
  have hunused : (checkVariables text declared).unused = [] ↔
      ∀ name, name ∈ declared → Uses text name := by
    simp [List.eq_nil_iff_forall_not_mem, (lists_unused text declared).mem_iff]
  rw [VariableReport.isConsistent, Bool.and_eq_true, List.isEmpty_iff, List.isEmpty_iff, hmissing,
    hunused, ← forall_and]
  exact forall_congr' fun name => iff_iff_implies_and_implies.symm

/-- A report looks at which names are declared, and at their order for the unused ones only. -/
theorem checkVariables_congr {declared' : List String} (h : ∀ name, name ∈ declared' ↔ name ∈ declared) :
    (checkVariables text declared').missing = (checkVariables text declared).missing ∧
    (checkVariables text declared').isConsistent = (checkVariables text declared).isConsistent ∧
    (checkVariables text declared').unused.Perm (checkVariables text declared).unused := by
  have hmissing : Lists (fun w => Uses text w ∧ w ∉ declared) (StartsBefore text)
      (checkVariables text declared').missing :=
    (lists_missing text declared').congr fun w => by rw [h w]
  have hunused := lists_unused text declared
  have hunused' := lists_unused text declared'
  refine ⟨hmissing.unique (lists_missing text declared), ?_, ?_⟩
  · rw [Bool.eq_iff_iff, isConsistent_iff, isConsistent_iff]
    exact forall_congr' fun w => by rw [h w]
  · rw [List.perm_ext_iff_of_nodup hunused'.nodup hunused.nodup]
    intro w
    rw [hunused'.mem_iff, hunused.mem_iff, h w]

/-- The missing names are the ones that the text uses and nobody declares, the unused names the ones that are
declared and not used by the text; no other lists hold them once each and in their order. A report is
consistent if both sides have the same names. Declaring the same names in another order or more often
only changes the order of the unused ones. -/
theorem checkVariables_differences (text : String) (declared : List String) :
    (∀ l, l = (checkVariables text declared).missing ↔
      Lists (fun w => Uses text w ∧ w ∉ declared) (StartsBefore text) l) ∧
    (∀ l, l = (checkVariables text declared).unused ↔
      Lists (fun w => w ∈ declared ∧ ¬ Uses text w)
        (fun w v => declared.idxOf w < declared.idxOf v) l) ∧
    ((checkVariables text declared).isConsistent = true ↔
      {w | Uses text w} = {w | w ∈ declared}) ∧
    ∀ declared', (∀ w, w ∈ declared' ↔ w ∈ declared) →
      (checkVariables text declared').missing = (checkVariables text declared).missing ∧
      (checkVariables text declared').isConsistent = (checkVariables text declared).isConsistent ∧
      (checkVariables text declared').unused.Perm (checkVariables text declared).unused := by
  refine ⟨fun l => ⟨?_, ?_⟩, fun l => ⟨?_, ?_⟩, ?_, fun _ => checkVariables_congr⟩
  · rintro rfl
    exact lists_missing text declared
  · exact fun h => h.unique (lists_missing text declared)
  · rintro rfl
    exact lists_unused text declared
  · exact fun h => h.unique (lists_unused text declared)
  · rw [isConsistent_iff, Set.ext_iff]
    exact Iff.rfl

end Report

end ChatMarkup.Template
