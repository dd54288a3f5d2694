import ChatMarkup.Proofs.Template.Occurrences

/-! # The preview of a preview and the previews of two parts

A preview holds no placeholder, so its own preview changes nothing. Each strict placeholder loses two
characters in the preview, hence the length of a preview counts them. This decides where a text can be cut:
a placeholder across the cut is one that no part holds, and the previews of the parts are then too long.
-/
namespace ChatMarkup.Template
open Text

/-- Substituting names takes these from the names of the text, and no others. -/
theorem names_foldl_substitute {ws : List String} (hws : ∀ w ∈ ws, IsName w.toList) (text : String) :
    names (ws.foldl substitute text).toList = (names text.toList).filter (· ∉ ws) := by
  induction ws generalizing text with
  | nil => simp
  | cons w ws ih =>
    have hw := names_substitute (hws w List.mem_cons_self) text
    rw [List.foldl_cons, ih (fun v hv => hws v (List.mem_cons_of_mem w hv)), hw, List.filter_filter]
    refine List.filter_congr fun name _ => ?_
    simp [Bool.and_comm]

theorem names_preview (text : String) : names (preview text).toList = [] := by
  have hws : ∀ w ∈ names text.toList, IsName w.toList := fun w hw => isName_of_mem_names hw
  have hpreview : (names text.toList).foldl substitute text = preview text :=
    foldl_substitute_of_names_subset hws fun _ hname => hname
  rw [← hpreview, names_foldl_substitute hws, List.filter_eq_nil_iff]
  intro name hname
  simpa using hname

theorem variableNames_eq_nil_iff {text : String} :
    variableNames text = [] ↔ names text.toList = [] := by
  simp only [variableNames, List.eq_nil_iff_forall_not_mem, List.mem_eraseDups]

/-- No name is left in a preview, so it is its own preview. A text is its own preview only if it has no
names. -/
theorem preview_idempotent (text : String) : variableNames (preview text) = [] ∧
    preview (preview text) = preview text ∧ (preview text = text ↔ variableNames text = []) := by
  have hnames := names_preview text
  refine ⟨variableNames_eq_nil_iff.2 hnames, preview_of_names_eq_nil hnames, ?_⟩
  rw [variableNames_eq_nil_iff]
  constructor
  · intro h
    rwa [h] at hnames
  · exact preview_of_names_eq_nil

/-- Nested braces leave braces behind, but no placeholder. -/
example : preview "\x7b\x7b\x7b\x7ba\x7d\x7d\x7d\x7d" = "\x7b\x7b[a]\x7d\x7d" := by
  cbv

theorem length_flatMap_pieceChars (ps : List (Piece (List Char))) :
    (ps.flatMap pieceChars).length + 2 * (strict.finds ps).length = (strict.sourceOf ps).length := by
  induction ps with
  | nil => rfl
  | cons p ps ih =>
    cases p with
    | plain cs =>
      simp only [List.flatMap_cons, pieceChars, Recogniser.finds, Recogniser.shift, List.length_append,
        List.length_map, Recogniser.sourceOf_plain]
      omega
    | found name =>
      have hsource : (strict.source name).length = name.length + 4 := by
        simp [strict, braced, openBraces, closeBraces]
      simp only [List.flatMap_cons, pieceChars, Recogniser.finds, Recogniser.shift, List.length_append,
        List.length_cons, List.length_nil, List.length_map, Recogniser.sourceOf_found, hsource]
      omega

/-- Each placeholder is two characters shorter in the preview. -/
theorem length_previewChars (s : List Char) :
    (previewChars s).length + 2 * (strictStarts s).card = s.length := by
  have h := length_flatMap_pieceChars (strict.scan s)
  rwa [Recogniser.sourceOf_scan, ← card_strictStarts] at h

/-- A strict placeholder starts in front of the offset and ends behind it. -/
def StrictAcross (text : List Char) (k : Nat) : Prop :=
  ∃ start name, StrictAt text start name ∧ start < k ∧ k < start + (braced name).length

variable {front behind : List Char}

theorem previewChars_append (h : ¬ StrictAcross (front ++ behind) front.length) :
    previewChars (front ++ behind) = previewChars front ++ previewChars behind := by
  refine local_strict.flatMap_scan_append (fun _ _ => rfl) fun hcut => h ?_
  obtain ⟨before, name, after, hname, hsource, hlt, hgt⟩ := exists_strict_of_cutsFind hcut
  exact ⟨before.length, name, strictAt_iff.2 ⟨hname, before, after, hsource, rfl⟩, hlt, hgt⟩

/-- The offsets in a text that is cut in two at which a strict placeholder of one part starts. -/
def startsInParts (front behind : List Char) : Finset Nat :=
  strictStarts front ∪ (strictStarts behind).image (front.length + ·)

theorem card_startsInParts (front behind : List Char) : (startsInParts front behind).card =
    (strictStarts front).card + (strictStarts behind).card := by
  have hdisj : Disjoint (strictStarts front) ((strictStarts behind).image (front.length + ·)) := by
    rw [Finset.disjoint_left]
    intro k hk hshift
    obtain ⟨_, hat⟩ := mem_strictStarts.1 hk
    obtain ⟨j, -, rfl⟩ := Finset.mem_image.1 hshift
    have hlt := hat.lt_length
    omega
  have hinjective : Function.Injective (front.length + ·) := fun _ _ h => Nat.add_left_cancel h
  rw [startsInParts, Finset.card_union_of_disjoint hdisj, Finset.card_image_of_injective _ hinjective]

theorem startsInParts_subset (front behind : List Char) :
    startsInParts front behind ⊆ strictStarts (front ++ behind) := by
  refine Finset.union_subset ?_ ?_
  · intro k hk
    obtain ⟨name, hat⟩ := mem_strictStarts.1 hk
    exact mem_strictStarts.2 ⟨name, hat.append behind⟩
  · intro k hk
    obtain ⟨j, hj, rfl⟩ := Finset.mem_image.1 hk
    obtain ⟨name, hat⟩ := mem_strictStarts.1 hj
    exact mem_strictStarts.2 ⟨name, strictAt_append_right_iff.2 hat⟩

/-- A placeholder across the cut is one more than those of the two parts. -/
theorem card_strictStarts_lt (h : StrictAcross (front ++ behind) front.length) :
    (strictStarts front).card + (strictStarts behind).card <
      (strictStarts (front ++ behind)).card := by
  obtain ⟨start, name, hat, hlt, hgt⟩ := h
  have hnot : start ∉ startsInParts front behind := by
    rw [startsInParts, Finset.mem_union]
    rintro (hmem | hmem)
    · -- At this offset the first part could hold no other placeholder, and this one it does not hold whole.
      obtain ⟨other, hfront⟩ := mem_strictStarts.1 hmem
      obtain rfl := hat.name_unique (hfront.append behind)
      have hend := hfront.end_le
      omega
    · obtain ⟨j, -, rfl⟩ := Finset.mem_image.1 hmem
      omega
  have hmem : start ∈ strictStarts (front ++ behind) := mem_strictStarts.2 ⟨name, hat⟩
  rw [← card_startsInParts]
  exact Finset.card_lt_card ⟨startsInParts_subset front behind, fun hsub => hnot (hsub hmem)⟩

theorem previewChars_append_iff (front behind : List Char) : previewChars (front ++ behind) =
    previewChars front ++ previewChars behind ↔ ¬ StrictAcross (front ++ behind) front.length := by
  refine ⟨fun h hacross => ?_, previewChars_append⟩
  have hlen := congrArg List.length h
  have hcard := card_strictStarts_lt hacross
  have hwhole := length_previewChars (front ++ behind)
  have hfront := length_previewChars front
  have hbehind := length_previewChars behind
  rw [List.length_append] at hlen hwhole
  omega

/-- The preview of two parts is put together from theirs exactly when no strict placeholder starts in the
first part and ends in the second one. A preview is shorter by two for each place where one stands. -/
theorem preview_local :
    (∀ a b : String, preview (a ++ b) = preview a ++ preview b ↔
      ¬ ∃ start name, StrictAt (a ++ b).toList start name ∧
        start < a.length ∧ a.length < start + (braced name).length) ∧
    ∀ text : String, (preview text).length + 2 * (strictStarts text.toList).card = text.length := by
  constructor
  · intro a b
    have h := previewChars_append_iff a.toList b.toList
    rw [StrictAcross, ← String.toList_append, String.length_toList] at h
    rw [← h, preview, preview, preview, ← String.ofList_append, String.ofList_inj]
  · intro text
    rw [preview, String.length_ofList, ← String.length_toList]
    exact length_previewChars text.toList

end ChatMarkup.Template
