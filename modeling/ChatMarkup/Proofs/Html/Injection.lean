import ChatMarkup.Proofs.Html.Reading

/-! # No text becomes markup

`messageTags` lists the tags of a token list by its tokens and its wrapper alone. Whatever strings
stand in the tokens and in the class names, a reader of the HTML finds exactly these tags, properly
nested, and between them text without markup characters. Only the shape of the tokens decides the
tags, and a class name leaves no trace outside its quotation marks.
-/
namespace ChatMarkup

mutual
/-- A token without the strings in it. -/
def Token.shape : Token → Token
  | .text _ => .text ""
  | .styled style ts => .styled style (shapes ts)
  | .monospace _ => .monospace ""
  | .quote ts => .quote (shapes ts)
  | .lineBreak => .lineBreak
def shapes : List Token → List Token
  | [] => []
  | t :: ts => t.shape :: shapes ts
end

end ChatMarkup

namespace ChatMarkup.Html
open Text

mutual
def tokenTags (classes : ClassNames) : Token → List Part
  | .text _ => []
  | .styled style ts => enclose (.ofStyle style) "" (tokensTags classes ts)
  | .monospace _ => enclose .code classes.code []
  | .quote ts => enclose .blockquote classes.quote (tokensTags classes ts)
  | .lineBreak => [.lineBreak]
def tokensTags (classes : ClassNames) : List Token → List Part
  | [] => []
  | t :: ts => tokenTags classes t ++ tokensTags classes ts
end

def messageTags (classes : ClassNames) (ts : List Token) : List Part :=
  if classes.wrapper = "" then tokensTags classes ts
  else enclose .span classes.wrapper (tokensTags classes ts)

/-- Tags that are closed in the reverse order in which they are opened; a wrapper is not among them. -/
inductive Nested : List Part → Prop
  | nil : Nested []
  | lineBreak {ps : List Part} : Nested ps → Nested (.lineBreak :: ps)
  | element {e : Element} {className : String} {inner ps : List Part} :
      e ≠ .span → Nested inner → Nested ps → Nested (enclose e className inner ++ ps)

inductive NestedMessage : List Part → Prop
  | bare {ps : List Part} : Nested ps → NestedMessage ps
  | wrapped {className : String} {ps : List Part} :
      Nested ps → NestedMessage (enclose .span className ps)

theorem nested_tokensTags (classes : ClassNames) (ts : List Token) :
    Nested (tokensTags classes ts) := by
  induction ts using tokensInduction with
  | nil => exact .nil
  | text s ts ih => exact ih
  | styled style inner ts hinner ih =>
    refine .element ?_ hinner ih
    cases style <;> decide
  | monospace s ts ih => exact .element (by decide) .nil ih
  | quote inner ts hinner ih => exact .element (by decide) hinner ih
  | lineBreak ts ih => exact .lineBreak ih

theorem nestedMessage_messageTags (classes : ClassNames) (ts : List Token) :
    NestedMessage (messageTags classes ts) := by
  unfold messageTags
  split
  · exact .bare (nested_tokensTags classes ts)
  · exact .wrapped (nested_tokensTags classes ts)

theorem tagParts_append (ps qs : List Part) : tagParts (ps ++ qs) = tagParts ps ++ tagParts qs :=
  List.filter_append _ _

theorem tagParts_enclose (e : Element) (className : String) (inner : List Part) :
    tagParts (enclose e className inner) = enclose e className (tagParts inner) := by
  rw [enclose, tagParts, List.filter_cons_of_pos rfl, List.filter_append]
  rfl

theorem tagParts_tokensParts (classes : ClassNames) (ts : List Token) :
    tagParts (tokensParts classes ts) = tokensTags classes ts := by
  induction ts using tokensInduction with
  | nil => rfl
  | text s ts ih => exact ih
  | styled style inner ts hinner ih =>
    rw [tokensParts, tagParts_append, tokenParts, tagParts_enclose, hinner, ih]
    rfl
  | monospace s ts ih =>
    rw [tokensParts, tagParts_append, tokenParts, tagParts_enclose, ih]
    rfl
  | quote inner ts hinner ih =>
    rw [tokensParts, tagParts_append, tokenParts, tagParts_enclose, hinner, ih]
    rfl
  | lineBreak ts ih =>
    rw [tokensParts, tagParts_append, ih]
    rfl

theorem tagParts_messageParts (classes : ClassNames) (ts : List Token) :
    tagParts (messageParts classes ts) = messageTags classes ts := by
  unfold messageParts messageTags
  split
  · exact tagParts_tokensParts classes ts
  · rw [tagParts_enclose, tagParts_tokensParts]

theorem tokensTags_shapes (classes : ClassNames) (ts : List Token) :
    tokensTags classes (shapes ts) = tokensTags classes ts := by
  induction ts using tokensInduction with
  | nil => rfl
  | text s ts ih => exact ih
  | styled style inner ts hinner ih =>
    rw [shapes, Token.shape, tokensTags, tokenTags, hinner, ih]
    rfl
  | monospace s ts ih =>
    rw [shapes, Token.shape, tokensTags, tokenTags, ih]
    rfl
  | quote inner ts hinner ih =>
    rw [shapes, Token.shape, tokensTags, tokenTags, hinner, ih]
    rfl
  | lineBreak ts ih =>
    rw [shapes, Token.shape, tokensTags, ih]
    rfl

theorem messageTags_shapes (classes : ClassNames) (ts : List Token) :
    messageTags classes (shapes ts) = messageTags classes ts := by
  rw [messageTags, messageTags, tokensTags_shapes]

theorem tagTexts_toHtml (classes : ClassNames) (ts : List Token) :
    tagTexts (toHtml ts classes).toList = (messageTags classes ts).map Part.inside := by
  rw [toHtml, String.toList_ofList, tagTexts_writeParts, tagParts_messageParts]

/-! ### Characters of the written text -/

def entities : List (List Char) :=
  [['&', 'a', 'm', 'p', ';'], ['&', 'l', 't', ';'], ['&', 'g', 't', ';'],
    ['&', 'q', 'u', 'o', 't', ';'], ['&', '#', '3', '9', ';']]

/-- Every ampersand of the text starts an entity. -/
def AmpersandsEscaped (s : List Char) : Prop :=
  ∀ rest, '&' :: rest <:+ s → ∃ e ∈ entities, e <+: '&' :: rest

theorem ampersandsEscaped_of_not_mem {s : List Char} (h : '&' ∉ s) : AmpersandsEscaped s := by
  intro rest hrest
  exact absurd (hrest.subset List.mem_cons_self) h

theorem AmpersandsEscaped.append {s t : List Char} (hs : AmpersandsEscaped s)
    (ht : AmpersandsEscaped t) : AmpersandsEscaped (s ++ t) := by
  rintro rest ⟨before, h⟩
  rcases List.append_eq_append_iff.1 h with ⟨u, rfl, hu⟩ | ⟨u, rfl, hu⟩
  · cases u with
    | nil => exact ht rest ⟨[], hu.symm ▸ rfl⟩
    | cons c u =>
      obtain ⟨rfl, rfl⟩ := List.cons.inj hu
      obtain ⟨e, he, hprefix⟩ := hs u (List.suffix_append _ _)
      exact ⟨e, he, hprefix.trans (List.prefix_append _ _)⟩
  · exact ht rest ⟨u, hu.symm⟩

theorem ampersandsEscaped_entity {tail : List Char} (he : '&' :: tail ∈ entities)
    (h : '&' ∉ tail) : AmpersandsEscaped ('&' :: tail) := by
  intro rest hrest
  rcases List.suffix_cons_iff.1 hrest with heq | hsuffix
  · exact ⟨'&' :: tail, he, heq ▸ List.prefix_refl _⟩
  · exact absurd (hsuffix.subset List.mem_cons_self) h

theorem ampersandsEscaped_escapeChar (c : Char) : AmpersandsEscaped (escapeChar c) := by
  unfold escapeChar
  split
  case h_6 hamp _ _ _ _ => exact ampersandsEscaped_of_not_mem (by simpa using Ne.symm hamp)
  all_goals exact ampersandsEscaped_entity (by decide) (by decide)

theorem ampersandsEscaped_escape (s : List Char) : AmpersandsEscaped (escape s) := by
  induction s with
  | nil => exact ampersandsEscaped_of_not_mem List.not_mem_nil
  | cons c s ih =>
    rw [escape, List.flatMap_cons]
    exact (ampersandsEscaped_escapeChar c).append ih

theorem ampersandsEscaped_classAttribute (className : String) :
    AmpersandsEscaped (classAttribute className) := by
  unfold classAttribute
  split
  · exact ampersandsEscaped_of_not_mem List.not_mem_nil
  · refine AmpersandsEscaped.append (.append ?_ (ampersandsEscaped_escape _)) ?_
    all_goals exact ampersandsEscaped_of_not_mem (by decide)

theorem ampersandsEscaped_name (e : Element) : AmpersandsEscaped e.name :=
  ampersandsEscaped_of_not_mem (not_mem_name (by simp) e)

theorem ampersandsEscaped_inside (p : Part) : AmpersandsEscaped p.inside := by
  cases p with
  | opening e className =>
    exact (ampersandsEscaped_name e).append (ampersandsEscaped_classAttribute className)
  | closing e =>
    exact AmpersandsEscaped.append (s := ['/']) (ampersandsEscaped_of_not_mem (by decide))
      (ampersandsEscaped_name e)
  | lineBreak => exact ampersandsEscaped_of_not_mem (by decide)
  | text s => exact ampersandsEscaped_of_not_mem List.not_mem_nil

/-- What holds of the escaped texts and of the insides of tags holds of what is written. -/
theorem write_cases {P : List Char → Prop} (happend : ∀ {s t}, P s → P t → P (s ++ t))
    (hopen : P ['<']) (hclose : P ['>']) (htext : ∀ s, P (escape s))
    (hinside : ∀ p : Part, P p.inside) (ps : List Part) : P (writeParts ps) := by
  induction ps with
  | nil => exact htext []
  | cons p ps ih =>
    have hp : P p.write := by
      cases htag : p.isTag with
      | true =>
        rw [p.write_of_isTag htag, ← List.singleton_append]
        exact happend hopen (happend (hinside p) hclose)
      | false =>
        cases p with
        | text s => exact htext s.toList
        | _ => cases htag
    exact happend hp ih

theorem ampersandsEscaped_writeParts (ps : List Part) : AmpersandsEscaped (writeParts ps) :=
  write_cases (P := AmpersandsEscaped) AmpersandsEscaped.append
    (ampersandsEscaped_of_not_mem (by decide)) (ampersandsEscaped_of_not_mem (by decide))
    ampersandsEscaped_escape ampersandsEscaped_inside ps

theorem apostrophe_not_mem_writeParts (ps : List Part) : '\'' ∉ writeParts ps := by
  refine write_cases (P := fun s => '\'' ∉ s) ?_ (by decide) (by decide)
    (not_mem_escape (by simp)) (Part.not_mem_inside (by simp)) ps
  intro s t hs ht h
  rcases List.mem_append.1 h with h | h
  · exact hs h
  · exact ht h

/-! ### Class names -/

/-- A text without what stands between its quotation marks; `inside` says whether it starts between
two of them. -/
def outsideQuotes (inside : Bool) : List Char → List Char
  | [] => []
  | c :: s =>
    if c = '"' then c :: outsideQuotes (!inside) s
    else if inside then outsideQuotes inside s
    else c :: outsideQuotes inside s

theorem outsideQuotes_append {s : List Char} (h : '"' ∉ s) (rest : List Char) :
    outsideQuotes false (s ++ rest) = s ++ outsideQuotes false rest := by
  induction s with
  | nil => rfl
  | cons c s ih =>
    have hc : c ≠ '"' := fun hc => h (hc ▸ List.mem_cons_self)
    rw [List.cons_append, outsideQuotes, if_neg hc, ih (fun hm => h (List.mem_cons_of_mem c hm))]
    rfl

theorem outsideQuotes_value {s : List Char} (h : '"' ∉ s) (rest : List Char) :
    outsideQuotes true (s ++ '"' :: rest) = '"' :: outsideQuotes false rest := by
  induction s with
  | nil => rfl
  | cons c s ih =>
    have hc : c ≠ '"' := fun hc => h (hc ▸ List.mem_cons_self)
    rw [List.cons_append, outsideQuotes, if_neg hc, ih (fun hm => h (List.mem_cons_of_mem c hm))]
    rfl

/-- A part as it is written, without the value of its class attribute. -/
def Part.frame : Part → List Char
  | .opening e className =>
    '<' :: (e.name ++
      ((if className = "" then [] else [' ', 'c', 'l', 'a', 's', 's', '=', '"', '"']) ++ ['>']))
  | p => p.write

theorem outsideQuotes_write (p : Part) (rest : List Char) :
    outsideQuotes false (p.write ++ rest) = p.frame ++ outsideQuotes false rest := by
  have hname : ∀ e : Element, '"' ∉ e.name := not_mem_name (by simp)
  cases p with
  | opening e className =>
    by_cases hempty : className = ""
    · have hwrite : (Part.opening e className).write = (Part.opening e className).frame := by
        simp [Part.write, Part.frame, classAttribute, hempty]
      rw [hwrite, outsideQuotes_append]
      simp [Part.frame, hempty, hname]
    · let head := '<' :: (e.name ++ [' ', 'c', 'l', 'a', 's', 's', '='])
      have hhead : '"' ∉ head := by simp [head, hname]
      have hvalue : '"' ∉ escape className.toList := not_mem_escape (by simp) _
      have hwrite : (Part.opening e className).write ++ rest =
          head ++ '"' :: (escape className.toList ++ '"' :: (['>'] ++ rest)) := by
        simp [Part.write, classAttribute, hempty, head]
      calc outsideQuotes false ((Part.opening e className).write ++ rest)
          = head ++ '"' :: outsideQuotes true (escape className.toList ++ '"' :: (['>'] ++ rest)) := by
            rw [hwrite, outsideQuotes_append hhead]
            rfl
        _ = head ++ '"' :: '"' :: (['>'] ++ outsideQuotes false rest) := by
            rw [outsideQuotes_value hvalue, outsideQuotes_append (by decide)]
        _ = (Part.opening e className).frame ++ outsideQuotes false rest := by
            simp [Part.frame, hempty, head]
  | closing e =>
    apply outsideQuotes_append
    simp [Part.write, hname]
  | lineBreak => exact outsideQuotes_append (by decide) rest
  | text s => exact outsideQuotes_append (not_mem_escape (by simp) _) rest

theorem outsideQuotes_writeParts (ps : List Part) :
    outsideQuotes false (writeParts ps) = ps.flatMap Part.frame := by
  induction ps with
  | nil => rfl
  | cons p ps ih =>
    have hwrite : writeParts (p :: ps) = p.write ++ writeParts ps := rfl
    rw [hwrite, outsideQuotes_write, ih, List.flatMap_cons]

/-- The same class names are empty. -/
structure ClassNames.SameEmpty (classes other : ClassNames) : Prop where
  wrapper : classes.wrapper = "" ↔ other.wrapper = ""
  quote : classes.quote = "" ↔ other.quote = ""
  code : classes.code = "" ↔ other.code = ""

theorem flatMap_frame_enclose {a b : String} (h : a = "" ↔ b = "") (e : Element)
    {inner inner' : List Part} (hinner : inner.flatMap Part.frame = inner'.flatMap Part.frame) :
    (enclose e a inner).flatMap Part.frame = (enclose e b inner').flatMap Part.frame := by
  simp only [enclose, List.flatMap_cons, List.flatMap_append, hinner, Part.frame, h]

theorem flatMap_frame_tokensParts {classes other : ClassNames} (h : classes.SameEmpty other)
    (ts : List Token) : (tokensParts classes ts).flatMap Part.frame =
      (tokensParts other ts).flatMap Part.frame := by
  induction ts using tokensInduction with
  | nil => rfl
  | text s ts ih => simp only [tokensParts, tokenParts, List.flatMap_append, ih]
  | styled style inner ts hinner ih =>
    simp only [tokensParts, tokenParts, List.flatMap_append, ih,
      flatMap_frame_enclose Iff.rfl _ hinner]
  | monospace s ts ih =>
    have hcode := @flatMap_frame_enclose _ _ h.code .code [.text s] _ rfl
    simp only [tokensParts, tokenParts, List.flatMap_append, ih, hcode]
  | quote inner ts hinner ih =>
    simp only [tokensParts, tokenParts, List.flatMap_append, ih,
      flatMap_frame_enclose h.quote .blockquote hinner]
  | lineBreak ts ih => simp only [tokensParts, tokenParts, List.flatMap_append, ih]

theorem flatMap_frame_messageParts {classes other : ClassNames} (h : classes.SameEmpty other)
    (ts : List Token) : (messageParts classes ts).flatMap Part.frame =
      (messageParts other ts).flatMap Part.frame := by
  have hts := flatMap_frame_tokensParts h ts
  simp only [messageParts, h.wrapper]
  split
  · exact hts
  · exact flatMap_frame_enclose h.wrapper .span hts

theorem outsideQuotes_toHtml {classes other : ClassNames} (h : classes.SameEmpty other)
    (ts : List Token) : outsideQuotes false (toHtml ts classes).toList =
      outsideQuotes false (toHtml ts other).toList := by
  rw [toHtml, toHtml, String.toList_ofList, String.toList_ofList, outsideQuotes_writeParts,
    outsideQuotes_writeParts, flatMap_frame_messageParts h]

/-- The HTML of a token list holds the tags of its tokens and of its wrapper and no others. An angle
bracket is never inside a tag, not even in a class name. -/
structure InjectionFree (classes : ClassNames) (ts : List Token) (html : List Char) : Prop where
  tags : (tagTexts html).map Part.ofTag? = (messageTags classes ts).map some
  brackets : ∀ inside ∈ tagTexts html, '<' ∉ inside
  nested : NestedMessage (messageTags classes ts)
  texts : PlainAll (· ∉ ['<', '>', '"', '\'']) (tagRecogniser.scan html)
  ampersands : AmpersandsEscaped html
  apostrophes : '\'' ∉ html

theorem injectionFree_toHtml (classes : ClassNames) (ts : List Token) :
    InjectionFree classes ts (toHtml ts classes).toList where
  tags := by rw [toHtml, String.toList_ofList, map_ofTag?_tagTexts, tagParts_messageParts]
  brackets := by
    intro inside hinside
    rw [tagTexts_toHtml] at hinside
    obtain ⟨p, -, rfl⟩ := List.mem_map.1 hinside
    exact p.not_mem_inside (by simp)
  nested := nestedMessage_messageTags classes ts
  texts := by
    rw [toHtml, String.toList_ofList]
    exact plainAll_scan_writeParts _
  ampersands := by
    rw [toHtml, String.toList_ofList]
    exact ampersandsEscaped_writeParts _
  apostrophes := by
    rw [toHtml, String.toList_ofList]
    exact apostrophe_not_mem_writeParts _

/-- No string in the tokens or in the class names adds, removes or changes a tag: a reader finds the
tags of the tokens and the wrapper, token lists of the same shape have the same tags, and class names
show only inside the quotation marks. -/
theorem toHtml_no_injection (classes : ClassNames) (ts : List Token) :
    InjectionFree classes ts (toHtml ts classes).toList ∧
    (∀ us, shapes us = shapes ts →
      tagTexts (toHtml us classes).toList = tagTexts (toHtml ts classes).toList) ∧
    ∀ other : ClassNames, classes.SameEmpty other →
      outsideQuotes false (toHtml ts classes).toList =
        outsideQuotes false (toHtml ts other).toList := by
  refine ⟨injectionFree_toHtml classes ts, ?_, fun other h => outsideQuotes_toHtml h ts⟩
  intro us h
  rw [tagTexts_toHtml, tagTexts_toHtml, ← messageTags_shapes classes us, h, messageTags_shapes]

end ChatMarkup.Html
