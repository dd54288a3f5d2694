import ChatMarkup.Proofs.Template.Preview
import ChatMarkup.Proofs.Text.Replacement

/-! # Substituting one name after the other

The preview is made in one scan. The same text comes out when the names are taken one by one, in any
order, and all occurrences of a name in double braces are replaced by the name in square brackets. One such
step changes the placeholders of that name and nothing else: it takes the name from the names of the text,
and the preview stays as it is.
-/
namespace ChatMarkup.Template
open Text

def bracketed (name : List Char) : List Char := '[' :: (name ++ [']'])

/-- All placeholders of one name, wherever they stand in the text, show the name. -/
def substitute (text name : String) : String :=
  String.ofList (replaceAll (braced name.toList) (bracketed name.toList) text.toList)

/-- Placeholders do not overlap. -/
theorem IsName.eq_of_overlap {name other before after rest : List Char} (hname : IsName name)
    (hother : IsName other) (h : braced name ++ rest = before ++ (braced other ++ after))
    (hlt : before.length < (braced name).length) : before = [] ∧ name = other := by
  obtain ⟨hends, -⟩ := hname.isLoose.ends_with_strict hother h hlt
  have hwhole : [] ++ braced name = before ++ braced other := hends
  obtain ⟨hnil, heq⟩ := hname.eq_of_append_braced hother hwhole
  exact ⟨hnil.symm, heq⟩

/-- What a piece becomes when one name is substituted. -/
def substituted (name : List Char) : Piece (List Char) → List Char
  | .plain cs => cs
  | .found other => if other = name then bracketed name else braced other

theorem replaceAll_sourceOf {ps : List (Piece (List Char))} (h : strict.Leftmost ps)
    {name : List Char} (hname : IsName name) :
    replaceAll (braced name) (bracketed name) (strict.sourceOf ps) =
      ps.flatMap (substituted name) := by
  induction h with
  | nil => exact replaceAll_nil _ _
  | @found other ps hfind _ ih =>
    have hother : IsName other := (strict_find?_eq_some_iff.1 hfind).1
    rw [Recogniser.sourceOf_found, List.flatMap_cons, ← ih]
    by_cases heq : other = name
    · rw [substituted, if_pos heq, ← heq]
      exact replaceAll_append (braced_ne_nil other) _ _
    · have habsent : ∀ rest, rest <:+ braced other → rest ≠ [] →
          ¬ braced name <+: rest ++ strict.sourceOf ps := by
        rintro rest ⟨before, hrest⟩ hne ⟨after, hafter⟩
        have hover : braced other ++ strict.sourceOf ps = before ++ (braced name ++ after) := by
          rw [← hrest, List.append_assoc, hafter]
        have hlt : before.length < (braced other).length := by
          have hpos := List.length_pos_iff.2 hne
          rw [← hrest, List.length_append]
          omega
        exact heq (hother.eq_of_overlap hname hover hlt).2
      rw [substituted, if_neg heq]
      exact replaceAll_append_of_absent _ habsent
  | @plain cs ps _ _ hsilent _ ih =>
    rw [Recogniser.sourceOf_plain, List.flatMap_cons, ← ih]
    refine replaceAll_append_of_absent _ ?_
    rintro rest ⟨before, hrest⟩ hne ⟨after, hafter⟩
    have hnone := hsilent before rest hrest.symm hne
    rw [← hafter, strict_find?_eq_some_iff.2 ⟨hname, rfl⟩] at hnone
    cases hnone

/-- A strict placeholder begins in the one text and ends in the other. -/
def Straddles (front behind : List Char) : Prop :=
  ∃ name u v, IsName name ∧ braced name = u ++ v ∧ u ≠ [] ∧ v ≠ [] ∧ u <:+ front ∧ v <+: behind

theorem straddles_of_cutsFind {front behind : List Char}
    (h : strict.CutsFind (strict.scan (front ++ behind)) front.length) :
    Straddles front behind := by
  obtain ⟨before, name, after, hname, hsource, hlt, hgt⟩ := exists_strict_of_cutsFind h
  obtain ⟨u, hu, hrest⟩ := exists_append_of_length_le hsource.symm (Nat.le_of_lt hlt)
  have hlen := congrArg List.length hu
  rw [List.length_append] at hlen
  obtain ⟨v, hv, hbehind⟩ := exists_append_of_length_le hrest.symm (by omega)
  have hlenv := congrArg List.length hv
  rw [List.length_append] at hlenv
  refine ⟨name, u, v, hname, hv, ?_, ?_, ⟨_, hu.symm⟩, ⟨_, hbehind.symm⟩⟩
  · exact List.length_pos_iff.1 (by omega)
  · exact List.length_pos_iff.1 (by omega)

theorem bracket_not_mem_braced {name : List Char} (h : IsName name) :
    '[' ∉ braced name ∧ ']' ∉ braced name :=
  ⟨h.not_mem_braced (by decide) (by decide) (by decide),
    h.not_mem_braced (by decide) (by decide) (by decide)⟩

theorem not_straddles_bracketed_left (name behind : List Char) :
    ¬ Straddles (bracketed name) behind := by
  rintro ⟨other, u, v, hother, hsource, hu, -, ⟨before, hfront⟩, -⟩
  obtain ⟨front, c, rfl⟩ := (List.eq_nil_or_concat u).resolve_left hu
  have hc : c = ']' := by
    have hlast := congrArg List.getLast? hfront
    simpa [bracketed, List.getLast?_cons] using hlast
  exact (bracket_not_mem_braced hother).2 (by simp [hsource, hc])

theorem not_straddles_bracketed_right (front name rest : List Char) :
    ¬ Straddles front (bracketed name ++ rest) := by
  rintro ⟨other, u, v, hother, hsource, -, hv, -, ⟨after, hbehind⟩⟩
  obtain ⟨c, v, rfl⟩ := List.exists_cons_of_ne_nil hv
  have hc : c = '[' := (List.cons.inj hbehind).1
  exact (bracket_not_mem_braced hother).1 (by simp [hsource, hc])

theorem not_straddles_braced_left {name : List Char} (hname : IsName name) (behind : List Char) :
    ¬ Straddles (braced name) behind := by
  rintro ⟨other, u, v, hother, hsource, hu, hv, ⟨before, hfront⟩, -⟩
  have hover : braced name ++ v = before ++ (braced other ++ []) := by
    rw [← hfront, hsource, List.append_nil, List.append_assoc]
  have hlt : before.length < (braced name).length := by
    have hpos := List.length_pos_iff.2 hu
    rw [← hfront, List.length_append]
    omega
  obtain ⟨rfl, rfl⟩ := hname.eq_of_overlap hother hover hlt
  rw [List.nil_append] at hfront
  rw [hfront] at hsource
  exact hv (List.self_eq_append_right.1 hsource)

theorem not_straddles_braced_right (front : List Char) {name : List Char} (hname : IsName name)
    (rest : List Char) : ¬ Straddles front (braced name ++ rest) := by
  rintro ⟨other, u, v, hother, hsource, hu, hv, -, ⟨after, hbehind⟩⟩
  have hover : braced other ++ after = u ++ (braced name ++ rest) := by
    rw [hsource, List.append_assoc, hbehind]
  have hlt : u.length < (braced other).length := by
    have hpos := List.length_pos_iff.2 hv
    rw [hsource, List.length_append]
    omega
  exact hu (hother.eq_of_overlap hname hover hlt).1

/-- After a substitution no strict placeholder reaches from one piece into the next. -/
theorem not_straddles_substituted {p : Piece (List Char)} {ps : List (Piece (List Char))}
    (h : strict.Leftmost (p :: ps)) (name : List Char) :
    ¬ Straddles (substituted name p) (ps.flatMap (substituted name)) := by
  cases h with
  | @found other ps hfind _ =>
    have hother : IsName other := (strict_find?_eq_some_iff.1 hfind).1
    rw [substituted]
    split
    · exact not_straddles_bracketed_left _ _
    · exact not_straddles_braced_left hother _
  | @plain cs ps _ hstart _ hps =>
    cases hps with
    | nil =>
      rintro ⟨other, u, v, -, -, -, hv, -, hprefix⟩
      exact hv (List.prefix_nil.1 hprefix)
    | @found other ps hfind _ =>
      have hother : IsName other := (strict_find?_eq_some_iff.1 hfind).1
      simp only [List.flatMap_cons, substituted]
      split
      · exact not_straddles_bracketed_right _ _ _
      · exact not_straddles_braced_right _ hother _
    | plain _ _ _ _ => cases hstart

/-- What is made of the pieces of a scan one by one is made of each piece after a substitution. -/
theorem flatMap_scan_substituted {γ : Type} {f : Piece (List Char) → List γ}
    (hf : ∀ cs ds, f (.plain (cs ++ ds)) = f (.plain cs) ++ f (.plain ds))
    {s name : List Char} (hname : IsName name) :
    (strict.scan (replaceAll (braced name) (bracketed name) s)).flatMap f =
      (strict.scan s).flatMap fun p => (strict.scan (substituted name p)).flatMap f := by
  have hleft := strict.leftmost_scan s
  have hreplaced := replaceAll_sourceOf hleft hname
  rw [Recogniser.sourceOf_scan] at hreplaced
  rw [hreplaced]
  refine local_strict.flatMap_scan_flatMap hf fun p rest hsuffix hcut => ?_
  exact not_straddles_substituted (hleft.of_suffix hsuffix) name (straddles_of_cutsFind hcut)

theorem scan_braced {name : List Char} (h : IsName name) :
    strict.scan (braced name) = [.found name] := by
  have hfind : strict.find? (braced name) = some (name, []) :=
    strict_find?_eq_some_iff.2 ⟨h, (List.append_nil _).symm⟩
  rw [strict.scan_of_find hfind, strict.scan_nil]

theorem silent_bracketed {name : List Char} (h : IsName name) :
    strict.Silent (bracketed name) [] := by
  intro before rest hrest hne
  rw [List.append_nil, Option.eq_none_iff_forall_ne_some]
  rintro ⟨other, after⟩ hfind
  obtain ⟨-, hother⟩ := strict_find?_eq_some_iff.1 hfind
  have hbrace : '\x7b' ∈ bracketed name := by
    rw [hrest, hother]
    simp [braced, openBraces]
  simp [bracketed, h.brace_not_mem.1] at hbrace

theorem silent_of_plain_mem_scan {s cs : List Char} (h : .plain cs ∈ strict.scan s) :
    strict.Silent cs [] := by
  obtain ⟨_, hsilent⟩ := (strict.leftmost_scan s).exists_silent h
  exact local_strict.silent_nil hsilent

theorem previewChars_substituted {s name : List Char} (hname : IsName name)
    {p : Piece (List Char)} (h : p ∈ strict.scan s) :
    previewChars (substituted name p) = pieceChars p := by
  cases p with
  | plain cs => exact previewChars_of_silent (silent_of_plain_mem_scan h)
  | found other =>
    rw [substituted]
    split
    · rename_i heq
      rw [previewChars_of_silent (silent_bracketed hname), heq]
      rfl
    · rw [previewChars, scan_braced (isName_of_found_mem_scan h)]
      exact List.append_nil _

theorem names_substituted {s name : List Char} (hname : IsName name)
    {p : Piece (List Char)} (h : p ∈ strict.scan s) :
    names (substituted name p) = (pieceName? p).toList.filter (· ≠ String.ofList name) := by
  cases p with
  | plain cs => exact names_of_silent (silent_of_plain_mem_scan h)
  | found other =>
    rw [substituted]
    split
    · rename_i heq
      rw [names_of_silent (silent_bracketed hname), heq]
      simp [pieceName?]
    · rename_i hne
      rw [names, scan_braced (isName_of_found_mem_scan h)]
      simp [pieceName?, String.ofList_inj, hne]

theorem preview_substitute {name : String} (h : IsName name.toList) (text : String) :
    preview (substitute text name) = preview text := by
  have hpieces : previewChars (replaceAll (braced name.toList) (bracketed name.toList) text.toList) =
      (strict.scan text.toList).flatMap fun p => previewChars (substituted name.toList p) :=
    flatMap_scan_substituted (fun _ _ => rfl) h
  have hpart := List.flatMap_congr fun p hp => previewChars_substituted (s := text.toList) h hp
  rw [preview, substitute, String.toList_ofList, hpieces, hpart]
  rfl

theorem names_substitute {name : String} (h : IsName name.toList) (text : String) :
    names (substitute text name).toList = (names text.toList).filter (· ≠ name) := by
  have hpieces : names (replaceAll (braced name.toList) (bracketed name.toList) text.toList) =
      (strict.scan text.toList).flatMap fun p => names (substituted name.toList p) := by
    simp only [names_eq_flatMap]
    exact flatMap_scan_substituted (fun _ _ => rfl) h
  have hpart := List.flatMap_congr fun p hp => names_substituted (s := text.toList) h hp
  rw [substitute, String.toList_ofList, hpieces, hpart, String.ofList_toList, names_eq_flatMap,
    List.filter_flatMap]

theorem preview_of_names_eq_nil {text : String} (h : names text.toList = []) :
    preview text = text := by
  have hplain : ∀ p ∈ strict.scan text.toList, pieceChars p = strict.pieceSource p := by
    intro p hp
    cases p with
    | plain cs => rfl
    | found name =>
      have hmem : String.ofList name ∈ names text.toList := List.mem_filterMap.2 ⟨_, hp, rfl⟩
      rw [h] at hmem
      cases hmem
  rw [preview, previewChars, List.flatMap_congr hplain, strict.flatMap_scan, String.ofList_toList]

theorem isName_of_mem_names {s : List Char} {name : String} (h : name ∈ names s) :
    IsName name.toList := by
  obtain ⟨p, hp, hname⟩ := List.mem_filterMap.1 h
  cases p with
  | plain cs => cases hname
  | found other =>
    cases hname
    rw [String.toList_ofList]
    exact isName_of_found_mem_scan hp

/-- Substituting any names, as long as all those of the text are among them, gives the preview. -/
theorem foldl_substitute_of_names_subset {ws : List String} (hws : ∀ w ∈ ws, IsName w.toList)
    {text : String} (h : ∀ name ∈ names text.toList, name ∈ ws) :
    ws.foldl substitute text = preview text := by
  induction ws generalizing text with
  | nil =>
    have hnil : names text.toList = [] :=
      List.eq_nil_iff_forall_not_mem.2 fun name hm => List.not_mem_nil (h name hm)
    exact (preview_of_names_eq_nil hnil).symm
  | cons w ws ih =>
    have hw : IsName w.toList := hws w List.mem_cons_self
    have hrest : ∀ name ∈ names (substitute text w).toList, name ∈ ws := by
      intro name hm
      rw [names_substitute hw] at hm
      obtain ⟨hm, hne⟩ := List.mem_filter.1 hm
      exact List.mem_of_ne_of_mem (of_decide_eq_true hne) (h name hm)
    have htail := ih (fun v hv => hws v (List.mem_cons_of_mem w hv)) hrest
    rw [List.foldl_cons, htail, preview_substitute hw]

/-- The names of a text, each once and in any order, can be substituted one after the other. -/
theorem foldl_substitute_eq_preview {text : String} {ws : List String}
    (h : ws.Perm (variableNames text)) : ws.foldl substitute text = preview text := by
  have hmem : ∀ name, name ∈ ws ↔ name ∈ names text.toList := by
    intro name
    rw [h.mem_iff, variableNames, List.mem_eraseDups]
  exact foldl_substitute_of_names_subset (fun w hw => isName_of_mem_names ((hmem w).1 hw))
    fun name hname => (hmem name).2 hname

/-- Nested and adjacent braces, taken in the order in which the text does not name them. -/
theorem foldl_substitute_nested_braces :
    ["a", "b"].Perm (variableNames "\x7b\x7bb\x7d\x7d\x7b\x7b\x7b\x7ba\x7d\x7d\x7d\x7d") ∧
    ["a", "b"].foldl substitute "\x7b\x7bb\x7d\x7d\x7b\x7b\x7b\x7ba\x7d\x7d\x7d\x7d" =
      "[b]\x7b\x7b[a]\x7d\x7d" := by
  have hnames : variableNames "\x7b\x7bb\x7d\x7d\x7b\x7b\x7b\x7ba\x7d\x7d\x7d\x7d" =
      ["b", "a"] := by
    decide +kernel
  have hperm : ["a", "b"].Perm
      (variableNames "\x7b\x7bb\x7d\x7d\x7b\x7b\x7b\x7ba\x7d\x7d\x7d\x7d") := by
    rw [hnames]
    decide
  exact ⟨hperm, (foldl_substitute_eq_preview hperm).trans (by decide +kernel)⟩

end ChatMarkup.Template
