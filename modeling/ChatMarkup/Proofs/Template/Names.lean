import ChatMarkup.Proofs.Template.Occurrences

/-! # The names of a template

The names that a scan finds are those that stand in strict placeholders anywhere in the text, and each is
listed once. They can be taken from two parts of a text one by one if no placeholder lies across the cut.
-/
namespace ChatMarkup.Template
open Text

theorem names_append {front behind : List Char} (h : ¬ Straddles front behind) :
    names (front ++ behind) = names front ++ names behind := by
  have hcut : ¬ strict.CutsFind (strict.scan (front ++ behind)) front.length :=
    fun hcut => h (straddles_of_cutsFind hcut)
  simp only [names_eq_flatMap]
  exact local_strict.flatMap_scan_append (fun _ _ => rfl) hcut

/-- A placeholder is found wherever it stands. -/
theorem mem_names_iff {s name : List Char} :
    String.ofList name ∈ names s ↔ ∃ start, StrictAt s start name := by
  simp only [← map_snd_placedNames, List.mem_map, Prod.exists, exists_eq_right, mem_placedNames_iff,
    String.toList_ofList]

theorem mem_variableNames_iff {text name : String} :
    name ∈ variableNames text ↔ ∃ start, StrictAt text.toList start name.toList := by
  rw [variableNames, List.mem_eraseDups, ← mem_names_iff, String.ofList_toList]

theorem nodup_variableNames (text : String) : (variableNames text).Nodup := nodup_eraseDups _

theorem isName_of_mem_variableNames {text name : String} (h : name ∈ variableNames text) :
    IsName name.toList := by
  obtain ⟨_, hname, _⟩ := mem_variableNames_iff.1 h
  exact hname

/-- What stands in no placeholder can be put behind a text without a change to its names. -/
theorem names_append_of_absent {behind : List Char}
    (h : ∀ name, IsName name → ∀ c ∈ braced name, c ∉ behind) (s : List Char) :
    names (s ++ behind) = names s := by
  have hcut : ¬ Straddles s behind := by
    rintro ⟨name, u, v, hname, hsource, -, hv, -, hstart⟩
    obtain ⟨c, v, rfl⟩ := List.exists_cons_of_ne_nil hv
    have hmem : c ∈ braced name := by simp [hsource]
    exact h name hname c hmem (hstart.subset List.mem_cons_self)
  have hsilent : names behind = [] := by
    refine List.eq_nil_iff_forall_not_mem.2 fun name hm => ?_
    rw [← String.ofList_toList (s := name)] at hm
    obtain ⟨_, hname, hstart⟩ := mem_names_iff.1 hm
    have hopen : '\x7b' ∈ braced name.toList := by simp [braced, openBraces]
    exact h name.toList hname '\x7b' hopen (List.mem_of_mem_drop (hstart.subset hopen))
  rw [names_append hcut, hsilent, List.append_nil]

end ChatMarkup.Template
