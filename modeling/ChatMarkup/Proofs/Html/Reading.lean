import ChatMarkup.Html
import ChatMarkup.Proofs.Text.Leftmost
import ChatMarkup.Text.Split

/-! # Reading an HTML fragment

The reader knows nothing of tokens: a tag is what stands between an angle bracket and the next one
that closes it, all else is text, and five entities stand for the characters that cannot be written.
On a written list of parts it finds exactly the tags of that list, each with its element and its class
name, and the escaped texts between them.
-/
namespace ChatMarkup.Html
open Text

def tag? : List Char → Option (List Char × List Char)
  | '<' :: s => splitAt? '>' s
  | _ => none

theorem tag?_of_ne {s : List Char} (h : ∀ rest, s ≠ '<' :: rest) : tag? s = none := by
  unfold tag?
  split
  · rename_i rest
    exact absurd rfl (h rest)
  · rfl

/-- Finds a tag as the text between its angle brackets. -/
def tagRecogniser : Recogniser (List Char) where
  source inside := '<' :: (inside ++ ['>'])
  find? := tag?
  source_ne_nil inside := List.cons_ne_nil _ _
  eq_append := by
    intro s inside rest h
    unfold tag? at h
    split at h
    · rw [(splitAt?_eq_some_iff.1 h).1]
      simp
    · cases h

theorem scan_tag {inside : List Char} (h : '>' ∉ inside) (rest : List Char) :
    tagRecogniser.scan ('<' :: (inside ++ ['>']) ++ rest) =
      .found inside :: tagRecogniser.scan rest := by
  apply tagRecogniser.scan_of_find
  rw [List.cons_append, List.append_assoc]
  exact splitAt?_append '>' h rest

theorem scan_text {s : List Char} (h : '<' ∉ s) (rest : List Char) :
    tagRecogniser.scan (s ++ rest) = s.foldr Piece.prepend (tagRecogniser.scan rest) := by
  apply tagRecogniser.scan_append_of_silent
  rintro before run rfl hne
  apply tag?_of_ne
  intro rest' hrest
  obtain ⟨c, run, rfl⟩ := List.exists_cons_of_ne_nil hne
  have hc : c = '<' := (List.cons.inj hrest).1
  exact h (by rw [hc]; simp)

def foundTag? : Piece (List Char) → Option (List Char)
  | .plain _ => none
  | .found inside => some inside

/-- The texts of all tags of a fragment, in order. -/
def tagTexts (html : List Char) : List (List Char) :=
  (tagRecogniser.scan html).filterMap foundTag?

theorem filterMap_foundTag?_prepend (c : Char) (ps : List (Piece (List Char))) :
    (Piece.prepend c ps).filterMap foundTag? = ps.filterMap foundTag? := by
  unfold Piece.prepend
  split <;> rfl

theorem tagTexts_append_text {s : List Char} (h : '<' ∉ s) (rest : List Char) :
    tagTexts (s ++ rest) = tagTexts rest := by
  rw [tagTexts, scan_text h, tagTexts]
  induction s with
  | nil => rfl
  | cons c s ih =>
    rw [List.foldr_cons, filterMap_foundTag?_prepend]
    exact ih (fun hm => h (List.mem_cons_of_mem c hm))

theorem tagTexts_append_tag {inside : List Char} (h : '>' ∉ inside) (rest : List Char) :
    tagTexts ('<' :: (inside ++ ['>']) ++ rest) = inside :: tagTexts rest := by
  rw [tagTexts, scan_tag h]
  rfl

def Part.isTag : Part → Bool
  | .text _ => false
  | _ => true

def tagParts (ps : List Part) : List Part := ps.filter Part.isTag

/-- What a tag holds between its angle brackets. -/
def Part.inside : Part → List Char
  | .opening e className => e.name ++ classAttribute className
  | .closing e => '/' :: e.name
  | .lineBreak => ['b', 'r']
  | .text _ => []

theorem Part.write_of_isTag {p : Part} (h : p.isTag = true) :
    p.write = '<' :: (p.inside ++ ['>']) := by
  cases p with
  | text s => cases h
  | opening e className => simp [write, inside]
  | closing e => rfl
  | lineBreak => rfl

theorem not_mem_name {c : Char} (h : c ∈ ['<', '>', '"', '\'', '&', '/', ' ']) (e : Element) :
    c ∉ e.name := by
  simp only [List.mem_cons, List.not_mem_nil, or_false] at h
  rcases h with rfl | rfl | rfl | rfl | rfl | rfl | rfl <;> cases e <;> decide

theorem not_mem_classAttribute {c : Char} (h : c ∈ ['<', '>', '\'']) (className : String) :
    c ∉ classAttribute className := by
  have hsub : ['<', '>', '\''] ⊆ ['<', '>', '"', '\''] := by simp
  have hescape : c ∉ escape className.toList := not_mem_escape (hsub h) _
  unfold classAttribute
  split
  · exact List.not_mem_nil
  · simp only [List.mem_append, not_or]
    refine ⟨⟨?_, hescape⟩, ?_⟩
    all_goals
      simp only [List.mem_cons, List.not_mem_nil, or_false] at h ⊢
      rcases h with rfl | rfl | rfl <;> decide

theorem Part.not_mem_inside {c : Char} (h : c ∈ ['<', '>', '\'']) (p : Part) : c ∉ p.inside := by
  have hsub : ['<', '>', '\''] ⊆ ['<', '>', '"', '\'', '&', '/', ' '] := by simp
  have hname : ∀ e : Element, c ∉ e.name := not_mem_name (hsub h)
  cases p with
  | opening e className =>
    rw [inside, List.mem_append, not_or]
    exact ⟨hname e, not_mem_classAttribute h className⟩
  | closing e =>
    rw [inside, List.mem_cons, not_or]
    refine ⟨?_, hname e⟩
    rintro rfl
    simp at h
  | lineBreak =>
    rintro hc
    simp only [inside, List.mem_cons, List.not_mem_nil, or_false] at h hc
    rcases hc with rfl | rfl <;> simp at h
  | text s => exact List.not_mem_nil

theorem Part.text_or_isTag (p : Part) : (∃ s, p = .text s) ∨ p.isTag = true := by
  cases p with
  | text s => exact Or.inl ⟨s, rfl⟩
  | _ => exact Or.inr rfl

theorem writeParts_cons (p : Part) (ps : List Part) :
    writeParts (p :: ps) = p.write ++ writeParts ps := rfl

theorem scan_write_of_isTag {p : Part} (h : p.isTag = true) (rest : List Char) :
    tagRecogniser.scan (p.write ++ rest) = .found p.inside :: tagRecogniser.scan rest := by
  have hclose : '>' ∉ p.inside := p.not_mem_inside (by simp)
  rw [p.write_of_isTag h, scan_tag hclose]

theorem scan_write_text (s : String) (rest : List Char) :
    tagRecogniser.scan ((Part.text s).write ++ rest) =
      (escape s.toList).foldr Piece.prepend (tagRecogniser.scan rest) := by
  have hopen : '<' ∉ escape s.toList := not_mem_escape (by simp) s.toList
  exact scan_text hopen rest

/-- The reader finds the tags that were written, and nothing in the texts is a tag to it. -/
theorem tagTexts_writeParts (ps : List Part) :
    tagTexts (writeParts ps) = (tagParts ps).map Part.inside := by
  induction ps with
  | nil => simp [tagTexts, writeParts, tagParts]
  | cons p ps ih =>
    have hwrite : writeParts (p :: ps) = p.write ++ writeParts ps := rfl
    cases htag : p.isTag with
    | true =>
      have hclose : '>' ∉ p.inside := p.not_mem_inside (by simp)
      rw [hwrite, p.write_of_isTag htag, tagTexts_append_tag hclose, ih, tagParts, tagParts,
        List.filter_cons_of_pos htag, List.map_cons]
    | false =>
      cases p with
      | text s =>
        have hopen : '<' ∉ (Part.text s).write := not_mem_escape (by simp) s.toList
        rw [hwrite, tagTexts_append_text hopen, ih]
        rfl
      | _ => cases htag

/-- All characters of the texts between the finds have a property. -/
def PlainAll (Q : Char → Prop) (ps : List (Piece (List Char))) : Prop :=
  ∀ run, .plain run ∈ ps → ∀ c ∈ run, Q c

theorem PlainAll.foldr_prepend {Q : Char → Prop} {ps : List (Piece (List Char))}
    (hps : PlainAll Q ps) {s : List Char} (hs : ∀ c ∈ s, Q c) :
    PlainAll Q (s.foldr Piece.prepend ps) := by
  induction s with
  | nil => exact hps
  | cons c s ih =>
    have hc : Q c := hs c List.mem_cons_self
    have htail := ih (fun d hd => hs d (List.mem_cons_of_mem c hd))
    intro run hrun d hd
    rw [List.foldr_cons] at hrun
    generalize s.foldr Piece.prepend ps = qs at hrun htail
    unfold Piece.prepend at hrun
    split at hrun
    · rename_i cs qs
      rcases List.mem_cons.1 hrun with heq | hrun
      · cases heq
        rcases List.mem_cons.1 hd with rfl | hd
        · exact hc
        · exact htail cs List.mem_cons_self d hd
      · exact htail run (List.mem_cons_of_mem _ hrun) d hd
    · rcases List.mem_cons.1 hrun with heq | hrun
      · cases heq
        rw [List.mem_singleton.1 hd]
        exact hc
      · exact htail run hrun d hd

/-- The texts between the tags hold no angle bracket and no quotation mark. -/
theorem plainAll_scan_writeParts (ps : List Part) :
    PlainAll (· ∉ ['<', '>', '"', '\'']) (tagRecogniser.scan (writeParts ps)) := by
  induction ps with
  | nil =>
    intro run hrun
    rw [writeParts, List.flatMap_nil, Recogniser.scan_nil] at hrun
    cases hrun
  | cons p ps ih =>
    have hwrite : writeParts (p :: ps) = p.write ++ writeParts ps := rfl
    cases htag : p.isTag with
    | true =>
      rw [hwrite, p.write_of_isTag htag, scan_tag (p.not_mem_inside (by simp))]
      intro run hrun
      rcases List.mem_cons.1 hrun with heq | hrun
      · cases heq
      · exact ih run hrun
    | false =>
      cases p with
      | text s =>
        have hopen : '<' ∉ (Part.text s).write := not_mem_escape (by simp) s.toList
        rw [hwrite, scan_text hopen]
        apply ih.foldr_prepend
        intro c hc hmark
        exact not_mem_escape hmark s.toList hc
      | _ => cases htag

/-- The entities decoded once, from left to right. -/
def unescape : List Char → List Char
  | '&' :: 'a' :: 'm' :: 'p' :: ';' :: s => '&' :: unescape s
  | '&' :: 'l' :: 't' :: ';' :: s => '<' :: unescape s
  | '&' :: 'g' :: 't' :: ';' :: s => '>' :: unescape s
  | '&' :: 'q' :: 'u' :: 'o' :: 't' :: ';' :: s => '"' :: unescape s
  | '&' :: '#' :: '3' :: '9' :: ';' :: s => '\'' :: unescape s
  | c :: s => c :: unescape s
  | [] => []

theorem unescape_cons {c : Char} (h : c ≠ '&') (s : List Char) :
    unescape (c :: s) = c :: unescape s := by
  rw [unescape]
  all_goals
    intro _ hc
    exact absurd hc h

theorem unescape_escapeChar_append (c : Char) (s : List Char) :
    unescape (escapeChar c ++ s) = c :: unescape s := by
  unfold escapeChar
  split
  case h_6 hamp _ _ _ _ => exact unescape_cons hamp s
  all_goals rfl

theorem unescape_escape_append (t s : List Char) :
    unescape (escape t ++ s) = t ++ unescape s := by
  induction t with
  | nil => rfl
  | cons c t ih =>
    rw [escape, List.flatMap_cons, List.append_assoc, unescape_escapeChar_append]
    exact congrArg (c :: ·) ih

theorem unescape_escape (t : List Char) : unescape (escape t) = t := by
  have h := unescape_escape_append t []
  rwa [List.append_nil, unescape, List.append_nil] at h

def Element.ofName? (name : List Char) : Option Element :=
  [Element.span, .strong, .em, .del, .code, .blockquote].find? (·.name == name)

theorem Element.ofName?_name (e : Element) : ofName? e.name = some e := by
  cases e <;> rfl

/-- The decoded value of a class attribute, behind the blank in front of it. -/
def readClass? : List Char → Option String
  | 'c' :: 'l' :: 'a' :: 's' :: 's' :: '=' :: '"' :: s =>
    match splitAt? '"' s with
    | some (value, []) => some (String.ofList (unescape value))
    | _ => none
  | _ => none

/-- What a tag says, from the text between its angle brackets. -/
def Part.ofTag? : List Char → Option Part
  | '/' :: name => (Element.ofName? name).map .closing
  | ['b', 'r'] => some .lineBreak
  | inside =>
    match splitAt? ' ' inside with
    | none => (Element.ofName? inside).map (.opening · "")
    | some (name, value) =>
      (Element.ofName? name).bind fun e => (readClass? value).map (.opening e ·)

theorem readClass?_escape (className : String) :
    readClass? (['c', 'l', 'a', 's', 's', '=', '"'] ++ escape className.toList ++ ['"']) =
      some className := by
  have hquote : '"' ∉ escape className.toList := not_mem_escape (by simp) _
  have hsplit := splitAt?_append '"' hquote []
  simp only [List.cons_append, List.nil_append, readClass?, hsplit, unescape_escape,
    String.ofList_toList]

theorem Part.ofTag?_opening (e : Element) (rest : List Char) :
    Part.ofTag? (e.name ++ rest) =
      match splitAt? ' ' (e.name ++ rest) with
      | none => (Element.ofName? (e.name ++ rest)).map (.opening · "")
      | some (name, value) =>
        (Element.ofName? name).bind fun e => (readClass? value).map (.opening e ·) := by
  cases e <;> rfl

theorem Part.ofTag?_inside {p : Part} (h : p.isTag = true) : Part.ofTag? p.inside = some p := by
  cases p with
  | text s => cases h
  | lineBreak => rfl
  | closing e => rw [inside, ofTag?, Element.ofName?_name]; rfl
  | opening e className =>
    have hblank : ' ' ∉ e.name := not_mem_name (by simp) e
    rw [inside, ofTag?_opening]
    by_cases hempty : className = ""
    · have hattribute : classAttribute className = [] := if_pos hempty
      rw [hattribute, List.append_nil, splitAt?_eq_none_iff.2 hblank, hempty]
      simp only [Element.ofName?_name, Option.map_some]
    · have hattribute : classAttribute className =
          ' ' :: (['c', 'l', 'a', 's', 's', '=', '"'] ++ escape className.toList ++ ['"']) := by
        rw [classAttribute, if_neg hempty]
        rfl
      rw [hattribute, splitAt?_append ' ' hblank]
      simp only [Element.ofName?_name, Option.bind_some, readClass?_escape, Option.map_some]

/-- Every tag of a written fragment reads back as the part that was written. -/
theorem map_ofTag?_tagTexts (ps : List Part) :
    (tagTexts (writeParts ps)).map Part.ofTag? = (tagParts ps).map some := by
  rw [tagTexts_writeParts, List.map_map]
  apply List.map_congr_left
  intro p hp
  exact Part.ofTag?_inside (List.mem_filter.1 hp).2

end ChatMarkup.Html
