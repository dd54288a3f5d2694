import ChatMarkup.Proofs.Text.Resume
import ChatMarkup.Template.Placeholder

/-! # Where placeholders stand

`IsName` and `IsLoose` say what can stand between the braces of a strict and of a loose placeholder. A
placeholder is found at the head of a text exactly when the text starts with one, so what stands behind
it does not matter. Every strict placeholder is a loose one. If it starts inside another loose one,
both end together, since the first closing brace ends either.
-/
namespace ChatMarkup.Template

def IsName (name : List Char) : Prop := name ≠ [] ∧ ∀ c ∈ name, isNameChar c = true

def IsLoose (content : List Char) : Prop := content ≠ [] ∧ '\x7d' ∉ content

/-- A strict placeholder of that name stands in the text at that offset. -/
def StrictAt (text : List Char) (start : Nat) (name : List Char) : Prop :=
  IsName name ∧ braced name <+: text.drop start

theorem braced_ne_nil (content : List Char) : braced content ≠ [] := by
  simp [braced, openBraces]

theorem strictAt_iff {text name : List Char} {start : Nat} : StrictAt text start name ↔
    IsName name ∧ ∃ before after, text = before ++ (braced name ++ after) ∧ before.length = start := by
  constructor
  · rintro ⟨hname, after, hafter⟩
    have hdrop : text.drop start ≠ [] := by
      rw [← hafter]
      simp [braced_ne_nil]
    have hstart : start ≤ text.length := by
      rw [Ne, List.drop_eq_nil_iff] at hdrop
      omega
    refine ⟨hname, text.take start, after, ?_, List.length_take_of_le hstart⟩
    rw [hafter, List.take_append_drop]
  · rintro ⟨hname, before, after, rfl, rfl⟩
    rw [StrictAt, List.drop_left]
    exact ⟨hname, List.prefix_append _ after⟩

/-- The recogniser of placeholders whose content is determined by what closes it. -/
theorem placeholder?_eq_some_iff {content? : List Char → Option (List Char × List Char)}
    {Admits : List Char → Prop}
    (hsound : ∀ {s content behind}, content? s = some (content, behind) →
      s = content ++ behind ∧ Admits content)
    (hcomplete : ∀ {content}, Admits content → ∀ rest,
      content? (content ++ (closeBraces ++ rest)) = some (content, closeBraces ++ rest))
    {s content rest : List Char} : placeholder? content? s = some (content, rest) ↔
      (content ≠ [] ∧ Admits content) ∧ s = braced content ++ rest := by
  constructor
  · intro h
    refine ⟨?_, eq_append_of_placeholder? (fun hc => (hsound hc).1) h⟩
    unfold placeholder? at h
    split at h
    · cases h
    · split at h
      · rename_i hcontent
        obtain ⟨_, _, he⟩ := Option.map_eq_some_iff.1 h
        cases he
        exact ⟨List.cons_ne_nil _ _, (hsound hcontent).2⟩
      · cases h
  · rintro ⟨⟨hne, hadmits⟩, rfl⟩
    obtain ⟨c, content, rfl⟩ := List.exists_cons_of_ne_nil hne
    have hopen : skipOpen? (braced (c :: content) ++ rest) =
        some (c :: content ++ (closeBraces ++ rest)) :=
      skipOpen?_eq_some_iff.2 (by simp [braced])
    have hclose : skipClose? (closeBraces ++ rest) = some rest := skipClose?_eq_some_iff.2 rfl
    simp only [placeholder?, hopen, hcomplete hadmits rest, hclose, Option.map_some]

theorem name?_append {name : List Char} (h : ∀ c ∈ name, isNameChar c = true) (rest : List Char) :
    name? (name ++ (closeBraces ++ rest)) = some (name, closeBraces ++ rest) := by
  have hbrace : isNameChar '\x7d' = false := by decide
  rw [name?, List.takeWhile_append_of_pos h, List.dropWhile_append_of_pos h]
  simp [closeBraces, hbrace]

theorem looseContent?_append {content : List Char} (h : '\x7d' ∉ content) (rest : List Char) :
    looseContent? (content ++ (closeBraces ++ rest)) = some (content, closeBraces ++ rest) := by
  have hsplit := Text.splitAt?_append '\x7d' h ('\x7d' :: rest)
  rw [looseContent?, closeBraces, List.cons_append, List.cons_append, List.nil_append, hsplit]
  rfl

theorem strict_find?_eq_some_iff {s name rest : List Char} :
    strict.find? s = some (name, rest) ↔ IsName name ∧ s = braced name ++ rest := by
  apply placeholder?_eq_some_iff _ name?_append
  intro s name behind h
  refine ⟨eq_append_of_name? h, ?_⟩
  cases h
  exact List.all_eq_true.1 List.all_takeWhile

theorem loose_find?_eq_some_iff {s content rest : List Char} :
    loose.find? s = some (content, rest) ↔ IsLoose content ∧ s = braced content ++ rest := by
  apply placeholder?_eq_some_iff _ looseContent?_append
  intro s content behind h
  refine ⟨eq_append_of_looseContent? h, ?_⟩
  obtain ⟨⟨before, rest⟩, hs, he⟩ := Option.map_eq_some_iff.1 h
  cases he
  exact (Text.splitAt?_eq_some_iff.1 hs).2

theorem local_strict : strict.Local := by
  intro name rest other h
  exact strict_find?_eq_some_iff.2 ⟨(strict_find?_eq_some_iff.1 h).1, rfl⟩

theorem IsName.not_mem {name : List Char} (h : IsName name) {c : Char} (hc : isNameChar c = false) :
    c ∉ name := by
  intro hmem
  rw [h.2 c hmem] at hc
  cases hc

theorem IsName.brace_not_mem {name : List Char} (h : IsName name) :
    '\x7b' ∉ name ∧ '\x7d' ∉ name :=
  ⟨h.not_mem (by decide), h.not_mem (by decide)⟩

theorem IsName.not_mem_braced {name : List Char} (h : IsName name) {c : Char}
    (hc : isNameChar c = false) (hopen : c ≠ '\x7b') (hclose : c ≠ '\x7d') : c ∉ braced name := by
  simp [braced, openBraces, closeBraces, h.not_mem hc, hopen, hclose]

theorem IsName.isLoose {name : List Char} (h : IsName name) : IsLoose name :=
  ⟨h.1, h.brace_not_mem.2⟩

theorem IsName.loose_find? {name : List Char} (h : IsName name) (rest : List Char) :
    loose.find? (braced name ++ rest) = some (name, rest) :=
  loose_find?_eq_some_iff.2 ⟨h.isLoose, rfl⟩

theorem isName_of_found_mem_scan {s name : List Char} (h : .found name ∈ strict.scan s) :
    IsName name := by
  obtain ⟨t, rest, -, hfind⟩ := strict.exists_suffix_of_found_mem_scan h
  exact (strict_find?_eq_some_iff.1 hfind).1

theorem exists_strict_of_cutsFind {s : List Char} {k : Nat}
    (h : strict.CutsFind (strict.scan s) k) : ∃ before name after, IsName name ∧
      s = before ++ (braced name ++ after) ∧
      before.length < k ∧ k < before.length + (braced name).length := by
  obtain ⟨before, name, after, hscan, hlt, hgt⟩ := h
  have hname : IsName name :=
    isName_of_found_mem_scan (hscan ▸ List.mem_append_right before List.mem_cons_self)
  have hsource := congrArg strict.sourceOf hscan
  rw [Text.Recogniser.sourceOf_scan, Text.Recogniser.sourceOf_append] at hsource
  exact ⟨strict.sourceOf before, name, strict.sourceOf after, hname, hsource, hlt, hgt⟩

theorem isLoose_of_found_mem_scan {s content : List Char} (h : .found content ∈ loose.scan s) :
    IsLoose content := by
  obtain ⟨t, rest, -, hfind⟩ := loose.exists_suffix_of_found_mem_scan h
  exact (loose_find?_eq_some_iff.1 hfind).1

theorem exists_append_of_length_le {a b s t : List Char} (h : a ++ s = b ++ t)
    (hle : a.length ≤ b.length) : ∃ c, b = a ++ c ∧ s = c ++ t := by
  obtain ⟨c, rfl⟩ : a <+: b := List.prefix_of_prefix_length_le ⟨s, h⟩ ⟨t, rfl⟩ hle
  rw [List.append_assoc] at h
  exact ⟨c, rfl, List.append_cancel_left h⟩

/-- A strict placeholder that starts in front of the end of a loose one ends with it. -/
theorem IsLoose.ends_with_strict {content name rest before after : List Char}
    (hcontent : IsLoose content) (hname : IsName name)
    (h : braced content ++ rest = before ++ (braced name ++ after))
    (hlt : before.length < (braced content).length) :
    braced content = before ++ braced name ∧ rest = after := by
  have hfree : '\x7d' ∉ openBraces ++ content := by simp [openBraces, hcontent.2]
  have hfirst : braced content ++ rest = (openBraces ++ content) ++ '\x7d' :: '\x7d' :: rest := by
    simp [braced, closeBraces]
  rw [hfirst] at h
  by_cases hmem : '\x7d' ∈ before
  · -- Only the second closing brace is left for the start of the strict one.
    obtain ⟨b, c, rfl, hb⟩ := List.eq_append_cons_of_mem hmem
    rw [List.append_assoc b, List.cons_append] at h
    obtain ⟨rfl, hbehind⟩ := Text.append_cons_inj hfree hb h
    have hc : c = [] := by
      rw [← List.length_eq_zero_iff]
      simp only [braced, closeBraces, List.length_append, List.length_cons, List.length_nil] at hlt
      omega
    rw [hc] at hbehind
    cases hbehind
  · have hfree' : '\x7d' ∉ before ++ (openBraces ++ name) := by
      simp [openBraces, hmem, hname.brace_not_mem.2]
    have hsecond : before ++ (braced name ++ after) =
        (before ++ (openBraces ++ name)) ++ '\x7d' :: '\x7d' :: after := by
      simp [braced, closeBraces]
    rw [hsecond] at h
    obtain ⟨hhead, htail⟩ := Text.append_cons_inj hfree hfree' h
    refine ⟨?_, (List.cons.inj htail).2⟩
    rw [braced, ← List.append_assoc, hhead]
    simp [braced]

/-- At most one strict placeholder ends where a text ends. -/
theorem IsName.eq_of_append_braced {name other before before' : List Char} (hname : IsName name)
    (hother : IsName other) (h : before ++ braced name = before' ++ braced other) :
    before = before' ∧ name = other := by
  have hrev := congrArg List.reverse h
  simp only [braced, openBraces, closeBraces, List.reverse_append, List.reverse_cons,
    List.reverse_nil, List.nil_append, List.cons_append, List.append_assoc, List.cons.injEq,
    true_and] at hrev
  have hfree : ∀ {n : List Char}, IsName n → '\x7b' ∉ n.reverse := by
    intro n hn
    rw [List.mem_reverse]
    exact hn.brace_not_mem.1
  obtain ⟨hn, hb⟩ := Text.append_cons_inj (hfree hname) (hfree hother) hrev
  exact ⟨List.reverse_inj.1 (List.cons.inj hb).2, List.reverse_inj.1 hn⟩

end ChatMarkup.Template
