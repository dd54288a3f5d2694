import ChatMarkup.Proofs.Template.Names
import Mathlib.Data.List.Nodup

/-! # Checking declared names

Nothing is missing if every name of the text is declared. A text that is checked against its own names is
consistent; a name that is left out of them is the only one missing, and a name that is added to them is the
only one unused.
-/
namespace ChatMarkup.Template
variable {text : String} {declared : List String}

theorem missing_eq_nil_iff :
    (checkVariables text declared).missing = [] ↔ ∀ name ∈ variableNames text, name ∈ declared := by
  simp [checkVariables, List.filter_eq_nil_iff]

theorem filter_unused_eq_nil (h : ∀ name ∈ declared, name ∈ variableNames text) :
    declared.filter (· ∉ variableNames text) = [] := by
  rw [List.filter_eq_nil_iff]
  intro name hname
  simpa using h name hname

theorem checkVariables_of_subset (h : ∀ name ∈ declared, name ∈ variableNames text) :
    checkVariables text declared = ⟨(variableNames text).filter (· ∉ declared), []⟩ := by
  simp only [checkVariables, filter_unused_eq_nil h]
  rfl

theorem checkVariables_variableNames (text : String) :
    checkVariables text (variableNames text) = ⟨[], []⟩ := by
  have hall : ∀ name ∈ variableNames text, name ∈ variableNames text := fun _ h => h
  rw [checkVariables_of_subset hall, filter_unused_eq_nil hall]

/-- A name that is left out is missing. -/
theorem checkVariables_erase {name : String} (h : name ∈ variableNames text) :
    checkVariables text ((variableNames text).erase name) = ⟨[name], []⟩ := by
  have hnodup := nodup_variableNames text
  have hleft : ∀ other ∈ variableNames text,
      decide (other ∉ (variableNames text).erase name) = (other == name) := by
    intro other hother
    rw [Bool.eq_iff_iff, decide_eq_true_iff, hnodup.mem_erase_iff, beq_iff_eq]
    simp [hother]
  rw [checkVariables_of_subset fun _ hm => List.mem_of_mem_erase hm, List.filter_congr hleft,
    List.filter_beq, List.count_eq_one_of_mem hnodup h]
  rfl

/-- A name that the text does not use is unused, and changes nothing else. -/
theorem checkVariables_append_unused {extra : String}
    (h : ∀ name ∈ declared, name ∈ variableNames text) (hextra : extra ∉ variableNames text) :
    checkVariables text (declared ++ [extra]) = ⟨(checkVariables text declared).missing, [extra]⟩ := by
  have hmissing : ∀ name ∈ variableNames text,
      decide (name ∉ declared ++ [extra]) = decide (name ∉ declared) := by
    intro name hname
    have hne : name ≠ extra := fun he => hextra (he ▸ hname)
    simp [hne]
  have hunused : (declared ++ [extra]).filter (· ∉ variableNames text) = [extra] := by
    rw [List.filter_append, filter_unused_eq_nil h]
    simp [hextra]
  simp only [checkVariables, hunused, List.filter_congr hmissing]
  rfl

end ChatMarkup.Template
