import ChatMarkup.Proofs.Template.Preview
import ChatMarkup.Template.Highlight
import Mathlib.Logic.ExistsUnique

/-! # Strict and loose placeholders agree

Highlighting looks for loose placeholders and the preview for strict ones, each in a scan of its own. Both
agree about every text: each strict placeholder is the end of one variable that highlighting shows, no
other part holds one, and preview and names can be taken part by part.
-/
namespace ChatMarkup.Template
open Text

/-- In a leftmost decomposition into loose placeholders, a strict one is the end of a find. -/
theorem exists_found_of_strict {ps : List (Piece (List Char))} (h : loose.Leftmost ps)
    {before name after : List Char} (hname : IsName name)
    (hsource : loose.sourceOf ps = before ++ (braced name ++ after)) :
    ∃ pre content post front, ps = pre ++ .found content :: post ∧
      before = loose.sourceOf pre ++ front ∧ braced content = front ++ braced name ∧
      after = loose.sourceOf post := by
  induction h generalizing before with
  | nil => simp [Recogniser.sourceOf, braced_ne_nil] at hsource
  | @found content ps hfind _ ih =>
    have hcontent : IsLoose content := (loose_find?_eq_some_iff.1 hfind).1
    have hs : braced content ++ loose.sourceOf ps = before ++ (braced name ++ after) := hsource
    rcases Nat.lt_or_ge before.length (braced content).length with hlt | hle
    · obtain ⟨hends, hafter⟩ := hcontent.ends_with_strict hname hs hlt
      exact ⟨[], content, ps, before, rfl, rfl, hends, hafter.symm⟩
    · obtain ⟨rest, rfl, hrest⟩ := exists_append_of_length_le hs hle
      obtain ⟨pre, found, post, front, rfl, rfl, hends, hafter⟩ := ih hrest
      refine ⟨.found content :: pre, found, post, front, rfl, ?_, hends, hafter⟩
      rw [Recogniser.sourceOf_found, List.append_assoc]
      rfl
  | @plain cs ps _ _ hsilent _ ih =>
    rw [Recogniser.sourceOf_plain] at hsource
    rcases Nat.lt_or_ge before.length cs.length with hlt | hle
    · obtain ⟨rest, rfl, hrest⟩ := exists_append_of_length_le hsource.symm (Nat.le_of_lt hlt)
      -- It would start inside a plain piece, where nothing loose does.
      have hne : rest ≠ [] := by
        rintro rfl
        simp at hlt
      have hnone := hsilent before rest rfl hne
      rw [← hrest, hname.loose_find?] at hnone
      cases hnone
    · obtain ⟨rest, rfl, hrest⟩ := exists_append_of_length_le hsource hle
      obtain ⟨pre, found, post, front, rfl, rfl, hends, hafter⟩ := ih hrest
      refine ⟨.plain cs :: pre, found, post, front, rfl, ?_, hends, hafter⟩
      rw [Recogniser.sourceOf_plain, List.append_assoc]

/-- Between two pieces of the one decomposition no find of the other is cut. -/
theorem not_cutsFind_pieceSource {p : Piece (List Char)} {ps : List (Piece (List Char))}
    (h : loose.Leftmost (p :: ps)) :
    ¬ strict.CutsFind (strict.scan (loose.pieceSource p ++ loose.sourceOf ps))
      (loose.pieceSource p).length := by
  intro hcut
  obtain ⟨before, name, after, hname, hsource, hlt, hgt⟩ := exists_strict_of_cutsFind hcut
  obtain ⟨pre, content, post, front, hps, hbefore, hends, -⟩ := exists_found_of_strict h hname hsource
  have hlen := congrArg List.length hends
  have hstart := congrArg List.length hbefore
  rw [List.length_append] at hlen hstart
  -- The loose one that it ends with is this piece, which ends at the cut, or a later one.
  cases pre with
  | nil =>
    obtain ⟨rfl, -⟩ := List.cons.inj hps
    have hpiece : loose.pieceSource (.found content) = braced content := rfl
    rw [Recogniser.sourceOf_nil, List.length_nil] at hstart
    rw [hpiece] at hgt
    omega
  | cons q pre =>
    obtain ⟨rfl, -⟩ := List.cons.inj hps
    rw [Recogniser.sourceOf_cons, List.length_append] at hstart
    omega

/-- What is silent for the loose recogniser is silent for the strict one, whatever follows it. -/
theorem silent_strict {cs behind : List Char} (h : loose.Silent cs behind) : strict.Silent cs [] := by
  intro before rest hcs hne
  rw [Option.eq_none_iff_forall_ne_some]
  rintro ⟨name, after⟩ hfind
  obtain ⟨hname, hrest⟩ := strict_find?_eq_some_iff.1 hfind
  have hnone := h before rest hcs hne
  rw [List.append_nil] at hrest
  rw [hrest, List.append_assoc, hname.loose_find?] at hnone
  cases hnone

theorem strict_silent_of_plain_mem {s cs : List Char} (h : .plain cs ∈ loose.scan s) :
    strict.Silent cs [] := by
  obtain ⟨_, hsilent⟩ := (loose.leftmost_scan s).exists_silent h
  exact silent_strict hsilent

/-- What is made of the pieces of a strict scan one by one can be made in each loose piece on its own. -/
theorem flatMap_strict_scan_sourceOf {γ : Type} {f : Piece (List Char) → List γ}
    (hf : ∀ cs ds, f (.plain (cs ++ ds)) = f (.plain cs) ++ f (.plain ds))
    {ps : List (Piece (List Char))} (h : loose.Leftmost ps) :
    (strict.scan (loose.sourceOf ps)).flatMap f =
      ps.flatMap fun p => (strict.scan (loose.pieceSource p)).flatMap f := by
  refine local_strict.flatMap_scan_flatMap hf fun p rest hsuffix => ?_
  exact not_cutsFind_pieceSource (h.of_suffix hsuffix)

theorem flatMap_strict_scan {γ : Type} {f : Piece (List Char) → List γ}
    (hf : ∀ cs ds, f (.plain (cs ++ ds)) = f (.plain cs) ++ f (.plain ds)) (s : List Char) :
    (strict.scan s).flatMap f =
      (loose.scan s).flatMap fun p => (strict.scan (loose.pieceSource p)).flatMap f := by
  have hsource := flatMap_strict_scan_sourceOf hf (loose.leftmost_scan s)
  rwa [Recogniser.sourceOf_scan] at hsource

def Part.content : Part → String
  | .text s => s
  | .variable v => v

/-- The number of characters in front of a part. -/
def partStart (parts : List Part) (i : Nat) : Nat :=
  ((parts.take i).flatMap fun p => p.content.toList).length

/-- The part with that index is a variable, and the characters from `start` to `stop` lie inside it. -/
def InVariable (parts : List Part) (i start stop : Nat) (v : String) : Prop :=
  parts[i]? = some (.variable v) ∧ partStart parts i ≤ start ∧ stop ≤ partStart parts i + v.length

theorem partStart_succ {parts : List Part} {i : Nat} {p : Part} (h : parts[i]? = some p) :
    partStart parts (i + 1) = partStart parts i + p.content.length := by
  rw [partStart, List.take_add_one, h, List.flatMap_append, List.length_append, partStart]
  simp [String.length_toList]

theorem partStart_le {parts : List Part} {i j : Nat} (h : i ≤ j) :
    partStart parts i ≤ partStart parts j := by
  obtain ⟨rest, hrest⟩ : parts.take i <+: parts.take j := List.take_prefix_take_left h
  rw [partStart, partStart, ← hrest, List.flatMap_append, List.length_append]
  omega

theorem InVariable.not_lt {parts : List Part} {i j start stop : Nat} {v w : String}
    (hi : InVariable parts i start stop v) (hj : InVariable parts j start stop w)
    (hne : start < stop) : ¬ i < j := by
  intro hlt
  have hsucc : partStart parts (i + 1) = partStart parts i + v.length := partStart_succ hi.1
  have hle : partStart parts (i + 1) ≤ partStart parts j := partStart_le hlt
  have hstop := hi.2.2
  have hstart := hj.2.1
  omega

/-- Parts do not overlap, so characters lie inside one of them only. -/
theorem InVariable.index_unique {parts : List Part} {i j start stop : Nat} {v w : String}
    (hi : InVariable parts i start stop v) (hj : InVariable parts j start stop w)
    (hne : start < stop) : i = j :=
  Nat.le_antisymm (Nat.le_of_not_lt (hj.not_lt hi hne)) (Nat.le_of_not_lt (hi.not_lt hj hne))

theorem toList_content_piecePart (p : Piece (List Char)) :
    (piecePart p).content.toList = loose.pieceSource p := by
  cases p with
  | plain cs => exact String.toList_ofList
  | found content => exact String.toList_ofList

theorem partStart_map_piecePart (pre ps : List (Piece (List Char))) :
    partStart ((pre ++ ps).map piecePart) pre.length = (loose.sourceOf pre).length := by
  have htake : ((pre ++ ps).map piecePart).take pre.length = pre.map piecePart := by
    rw [List.map_append, ← List.length_map piecePart, List.take_left]
  rw [partStart, htake, List.flatMap_map]
  simp only [toList_content_piecePart]
  rfl

/-- The variable that a strict placeholder lies in, and where. -/
theorem exists_inVariable {text : String} {start : Nat} {name : List Char}
    (h : StrictAt text.toList start name) :
    ∃ i v, InVariable (highlight text) i start (start + (braced name).length) v ∧
      braced name <:+ v.toList ∧
      start + (braced name).length = partStart (highlight text) i + v.length := by
  obtain ⟨hname, before, after, htext, rfl⟩ := strictAt_iff.1 h
  have hsource : loose.sourceOf (loose.scan text.toList) = before ++ (braced name ++ after) := by
    rw [Recogniser.sourceOf_scan, htext]
  obtain ⟨pre, content, post, front, hscan, rfl, hends, -⟩ :=
    exists_found_of_strict (loose.leftmost_scan _) hname hsource
  have hparts : highlight text = (pre ++ .found content :: post).map piecePart := by
    rw [highlight, hscan]
  have hstart : partStart (highlight text) pre.length = (loose.sourceOf pre).length := by
    rw [hparts, partStart_map_piecePart]
  have hget : (highlight text)[pre.length]? = some (.variable (String.ofList (braced content))) := by
    rw [hparts]
    simp [piecePart]
  have hlen : (String.ofList (braced content)).length = front.length + (braced name).length := by
    rw [String.length_ofList, hends, List.length_append]
  refine ⟨pre.length, String.ofList (braced content), ⟨hget, ?_, ?_⟩, ?_, ?_⟩
  · rw [hstart, List.length_append]
    omega
  · rw [hstart, hlen, List.length_append]
    omega
  · rw [String.toList_ofList, hends]
    exact List.suffix_append front _
  · rw [hstart, hlen, List.length_append]
    omega

theorem not_strictAt_of_text_mem {text s : String} (h : .text s ∈ highlight text) (start : Nat)
    (name : List Char) : ¬ StrictAt s.toList start name := by
  intro hstrict
  obtain ⟨hname, before, after, hs, -⟩ := strictAt_iff.1 hstrict
  obtain ⟨p, hp, hpart⟩ := List.mem_map.1 h
  cases p with
  | found content => cases hpart
  | plain cs =>
    cases hpart
    rw [String.toList_ofList] at hs
    have hnone := strict_silent_of_plain_mem hp before (braced name ++ after) hs
      (by simp [braced_ne_nil])
    rw [List.append_nil, strict_find?_eq_some_iff.2 ⟨hname, rfl⟩] at hnone
    cases hnone

theorem strictAt_unique_of_variable_mem {text v : String} (h : .variable v ∈ highlight text)
    {start start' : Nat} {name name' : List Char} (hstrict : StrictAt v.toList start name)
    (hstrict' : StrictAt v.toList start' name') : start = start' ∧ name = name' := by
  obtain ⟨hname, before, after, hv, rfl⟩ := strictAt_iff.1 hstrict
  obtain ⟨hname', before', after', hv', rfl⟩ := strictAt_iff.1 hstrict'
  obtain ⟨p, hp, hpart⟩ := List.mem_map.1 h
  cases p with
  | plain cs => cases hpart
  | found content =>
    cases hpart
    have hcontent : IsLoose content := isLoose_of_found_mem_scan hp
    have hends : ∀ {b n a : List Char}, IsName n → braced content = b ++ (braced n ++ a) →
        braced content = b ++ braced n := by
      intro b n a hn hb
      have hlt : b.length < (braced content).length := by
        rw [hb]
        simp [braced, openBraces]
      exact (hcontent.ends_with_strict hn (by rw [List.append_nil, hb]) hlt).1
    rw [String.toList_ofList] at hv hv'
    have heq := (hends hname hv).symm.trans (hends hname' hv')
    obtain ⟨rfl, rfl⟩ := hname.eq_of_append_braced hname' heq
    exact ⟨rfl, rfl⟩

theorem toList_join_content (ps : List (Piece (List Char))) :
    (String.join ((ps.map piecePart).map Part.content)).toList = loose.sourceOf ps := by
  rw [String.toList_join, List.map_map, List.flatMap_map]
  simp only [Function.comp_apply, toList_content_piecePart]
  rfl

theorem join_content_highlight (text : String) :
    String.join ((highlight text).map Part.content) = text := by
  rw [← String.toList_inj, highlight, toList_join_content, Recogniser.sourceOf_scan]

/-- What a part adds to the preview. -/
def Part.preview : Part → String
  | .text s => s
  | .variable v => Template.preview v

def Part.variableNames : Part → List String
  | .text _ => []
  | .variable v => Template.variableNames v

theorem preview_eq_join (text : String) :
    Template.preview text = String.join ((highlight text).map Part.preview) := by
  have hpart : ∀ p ∈ loose.scan text.toList,
      (piecePart p).preview.toList = previewChars (loose.pieceSource p) := by
    intro p hp
    cases p with
    | plain cs =>
      exact String.toList_ofList.trans (previewChars_of_silent (strict_silent_of_plain_mem hp)).symm
    | found content =>
      rw [piecePart, Part.preview, Template.preview, String.toList_ofList, String.toList_ofList]
      rfl
  have hpieces : previewChars text.toList =
      (loose.scan text.toList).flatMap fun p => previewChars (loose.pieceSource p) :=
    flatMap_strict_scan (fun _ _ => rfl) text.toList
  rw [← String.toList_inj, Template.preview, String.toList_ofList, String.toList_join, highlight,
    List.map_map, List.flatMap_map, hpieces, ← List.flatMap_congr hpart]
  rfl

theorem variableNames_eq_eraseDups (text : String) :
    Template.variableNames text = ((highlight text).flatMap Part.variableNames).eraseDups := by
  have hpart : ∀ p ∈ loose.scan text.toList,
      (piecePart p).variableNames = (names (loose.pieceSource p)).eraseDups := by
    intro p hp
    cases p with
    | plain cs =>
      have hnames : names (loose.pieceSource (.plain cs)) = [] :=
        names_of_silent (strict_silent_of_plain_mem hp)
      rw [hnames]
      rfl
    | found content =>
      rw [piecePart, Part.variableNames, Template.variableNames, String.toList_ofList]
      rfl
  have hnames : names text.toList =
      (loose.scan text.toList).flatMap fun p => names (loose.pieceSource p) := by
    simp only [names_eq_flatMap]
    exact flatMap_strict_scan (fun _ _ => rfl) text.toList
  rw [Template.variableNames, hnames, highlight, List.flatMap_map, List.flatMap_congr hpart,
    eraseDups_flatMap]

/-- The parts cover the text. Each strict placeholder lies at the end of exactly one variable among them
and in no plain text; a variable holds at most one; preview and names are put together part by part. -/
theorem highlight_agrees (text : String) :
    String.join ((highlight text).map Part.content) = text ∧
    (∀ start name, StrictAt text.toList start name →
      (∃! i, ∃ v, InVariable (highlight text) i start (start + (braced name).length) v) ∧
      ∀ i v, InVariable (highlight text) i start (start + (braced name).length) v →
        braced name <:+ v.toList ∧
        start + (braced name).length = partStart (highlight text) i + v.length) ∧
    (∀ s, .text s ∈ highlight text → ∀ start name, ¬ StrictAt s.toList start name) ∧
    (∀ v, .variable v ∈ highlight text → ∀ start name start' name',
      StrictAt v.toList start name → StrictAt v.toList start' name' →
        start = start' ∧ name = name') ∧
    preview text = String.join ((highlight text).map Part.preview) ∧
    variableNames text = ((highlight text).flatMap Part.variableNames).eraseDups := by
  refine ⟨join_content_highlight text, ?_,
    fun s hs start name => not_strictAt_of_text_mem hs start name,
    fun v hv start name start' name' => strictAt_unique_of_variable_mem hv, preview_eq_join text,
    variableNames_eq_eraseDups text⟩
  intro start name hstrict
  have hpos : start < start + (braced name).length :=
    Nat.lt_add_of_pos_right (List.length_pos_iff.2 (braced_ne_nil name))
  obtain ⟨i, v, hin, hsuffix, hstop⟩ := exists_inVariable hstrict
  constructor
  · refine ⟨i, ⟨v, hin⟩, ?_⟩
    rintro j ⟨w, hw⟩
    exact hw.index_unique hin hpos
  · intro j w hw
    obtain rfl := hw.index_unique hin hpos
    have hvar := hw.1.symm.trans hin.1
    cases hvar
    exact ⟨hsuffix, hstop⟩

/-- A strict placeholder can start behind the variable that it ends. -/
example : highlight "\x7b\x7bx\x7b\x7ba\x7d\x7d" = [.variable "\x7b\x7bx\x7b\x7ba\x7d\x7d"] ∧
    preview "\x7b\x7bx\x7b\x7ba\x7d\x7d" = "\x7b\x7bx[a]" := by
  cbv

end ChatMarkup.Template
