import ChatMarkup.Proofs.Template.Substitution
import ChatMarkup.Proofs.Text.Finds
import Mathlib.Data.Finset.Card

/-! # All places of placeholders

A scan takes a text from left to right and goes on behind what it finds. Strict placeholders never overlap,
so nothing is passed over in this way: the finds of a scan are all the places where a strict placeholder
stands, and the names of a text are the names at these places in their order.
-/
namespace ChatMarkup.Template
open Text

theorem scan_append_braced (before : List Char) {name : List Char} (h : IsName name)
    (after : List Char) : strict.scan (before ++ (braced name ++ after)) =
      strict.scan before ++ .found name :: strict.scan after := by
  have hcut : ¬ strict.CutsFind (strict.scan (before ++ (braced name ++ after))) before.length :=
    fun hcut => not_straddles_braced_right before h after (straddles_of_cutsFind hcut)
  have hfind : strict.find? (braced name ++ after) = some (name, after) :=
    strict_find?_eq_some_iff.2 ⟨h, rfl⟩
  rw [local_strict.scan_append hcut, strict.scan_of_find hfind, joinPieces_found_right]

theorem mem_finds_scan_iff {s name : List Char} {start : Nat} :
    (start, name) ∈ strict.finds (strict.scan s) ↔ StrictAt s start name := by
  rw [Recogniser.mem_finds_iff]
  constructor
  · rintro ⟨before, after, hscan, rfl⟩
    have hname : IsName name := isName_of_found_mem_scan (s := s) (by simp [hscan])
    have hs := congrArg strict.sourceOf hscan
    rw [Recogniser.sourceOf_scan, Recogniser.sourceOf_append] at hs
    exact strictAt_iff.2 ⟨hname, _, _, hs, rfl⟩
  · intro h
    obtain ⟨hname, before, after, rfl, rfl⟩ := strictAt_iff.1 h
    exact ⟨_, _, scan_append_braced before hname after, by rw [Recogniser.sourceOf_scan]⟩

/-- The names of a text with the offsets at which their placeholders start. -/
def placedNames (s : List Char) : List (Nat × String) :=
  (strict.finds (strict.scan s)).map fun (start, name) => (start, String.ofList name)

theorem mem_placedNames_iff {s : List Char} {start : Nat} {name : String} :
    (start, name) ∈ placedNames s ↔ StrictAt s start name.toList := by
  rw [← mem_finds_scan_iff, placedNames, List.mem_map]
  constructor
  · rintro ⟨⟨_, other⟩, hmem, he⟩
    cases he
    rwa [String.toList_ofList]
  · intro hmem
    exact ⟨_, hmem, by simp⟩

theorem placedNames_pairwise (s : List Char) :
    (placedNames s).Pairwise fun p q => p.1 < q.1 :=
  List.pairwise_map.2 (Recogniser.finds_pairwise _)

theorem map_snd_placedNames (s : List Char) : (placedNames s).map Prod.snd = names s := by
  have hnames : names s = (strict.finds (strict.scan s)).map fun p => String.ofList p.2 := by
    rw [names_eq_flatMap]
    exact Recogniser.flatMap_eq_map_finds (fun _ => rfl) (fun _ => rfl) _
  rw [hnames, placedNames, List.map_map]
  rfl

theorem exists_strictAt_iff {text name : List Char} :
    (∃ start, StrictAt text start name) ↔ IsName name ∧ braced name <:+: text := by
  constructor
  · rintro ⟨start, h⟩
    obtain ⟨hname, before, after, rfl, -⟩ := strictAt_iff.1 h
    exact ⟨hname, before, after, List.append_assoc _ _ _⟩
  · rintro ⟨hname, before, after, rfl⟩
    exact ⟨before.length, strictAt_iff.2 ⟨hname, before, after, List.append_assoc _ _ _, rfl⟩⟩

theorem strictAt_iff_find? {text name : List Char} {start : Nat} : StrictAt text start name ↔
    ∃ rest, strict.find? (text.drop start) = some (name, rest) := by
  constructor
  · rintro ⟨hname, rest, hrest⟩
    exact ⟨rest, strict_find?_eq_some_iff.2 ⟨hname, hrest.symm⟩⟩
  · rintro ⟨rest, hfind⟩
    obtain ⟨hname, hrest⟩ := strict_find?_eq_some_iff.1 hfind
    exact ⟨hname, rest, hrest.symm⟩

theorem StrictAt.name_unique {text name other : List Char} {start : Nat}
    (h : StrictAt text start name) (h' : StrictAt text start other) : name = other := by
  obtain ⟨rest, hfind⟩ := strictAt_iff_find?.1 h
  obtain ⟨rest', hfind'⟩ := strictAt_iff_find?.1 h'
  rw [hfind] at hfind'
  cases hfind'
  rfl

theorem StrictAt.end_le {text name : List Char} {start : Nat} (h : StrictAt text start name) :
    start + (braced name).length ≤ text.length := by
  obtain ⟨-, before, after, rfl, rfl⟩ := strictAt_iff.1 h
  simp only [List.length_append]
  omega

theorem StrictAt.lt_length {text name : List Char} {start : Nat} (h : StrictAt text start name) :
    start < text.length := by
  have hend := h.end_le
  have hpos := List.length_pos_iff.2 (braced_ne_nil name)
  omega

theorem StrictAt.append {front name : List Char} {start : Nat} (h : StrictAt front start name)
    (behind : List Char) : StrictAt (front ++ behind) start name := by
  obtain ⟨hname, before, after, rfl, rfl⟩ := strictAt_iff.1 h
  refine strictAt_iff.2 ⟨hname, before, after ++ behind, ?_, rfl⟩
  simp only [List.append_assoc]

theorem strictAt_append_right_iff {front behind name : List Char} {start : Nat} :
    StrictAt (front ++ behind) (front.length + start) name ↔ StrictAt behind start name := by
  rw [StrictAt, StrictAt, List.drop_length_add_append]

instance (text : List Char) (start : Nat) : Decidable (∃ name, StrictAt text start name) :=
  decidable_of_iff ((strict.find? (text.drop start)).isSome = true) <| by
    simp only [strictAt_iff_find?, Option.isSome_iff_exists, Prod.exists]

/-- The offsets at which a strict placeholder starts. There is one name only that can stand there. -/
def strictStarts (text : List Char) : Finset Nat :=
  (Finset.range text.length).filter fun start => ∃ name, StrictAt text start name

theorem mem_strictStarts {text : List Char} {start : Nat} :
    start ∈ strictStarts text ↔ ∃ name, StrictAt text start name := by
  rw [strictStarts, Finset.mem_filter, Finset.mem_range]
  exact and_iff_right_of_imp fun ⟨_, h⟩ => h.lt_length

theorem card_strictStarts (s : List Char) :
    (strictStarts s).card = (strict.finds (strict.scan s)).length := by
  have hstarts : strictStarts s = ((strict.finds (strict.scan s)).map Prod.fst).toFinset := by
    ext start
    simp [mem_strictStarts, mem_finds_scan_iff]
  have hnodup : ((strict.finds (strict.scan s)).map Prod.fst).Nodup :=
    List.pairwise_map.2 ((Recogniser.finds_pairwise _).imp Nat.ne_of_lt)
  rw [hstarts, List.toFinset_card_of_nodup hnodup, List.length_map]

end ChatMarkup.Template
