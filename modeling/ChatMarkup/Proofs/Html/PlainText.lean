import ChatMarkup.Cli.Run
import ChatMarkup.Proofs.Html.Reading

/-! # The text of an HTML fragment

A reader of the text alone leaves out every tag, takes a line break for a line feed and decodes the
entities once in what is left. It finds the literal text of the tokens that were written, whatever
their texts and the class names hold, so a message says the same in both formats.
-/
namespace ChatMarkup.Html
open Text

/-- What a piece leaves when the tags are left out. -/
def pieceText : Piece (List Char) → List Char
  | .plain run => run
  | .found inside => if inside = ['b', 'r'] then ['\n'] else []

def withoutTags (html : List Char) : List Char := (tagRecogniser.scan html).flatMap pieceText

def plainText (html : String) : String := String.ofList (unescape (withoutTags html.toList))

theorem flatMap_pieceText_prepend (c : Char) (ps : List (Piece (List Char))) :
    (Piece.prepend c ps).flatMap pieceText = c :: ps.flatMap pieceText := by
  unfold Piece.prepend
  split <;> rfl

theorem withoutTags_write_text (s : String) (rest : List Char) :
    withoutTags ((Part.text s).write ++ rest) = escape s.toList ++ withoutTags rest := by
  rw [withoutTags, scan_write_text, withoutTags]
  induction escape s.toList with
  | nil => rfl
  | cons c run ih =>
    rw [List.foldr_cons, flatMap_pieceText_prepend, ih]
    rfl

theorem withoutTags_write_of_isTag {p : Part} (h : p.isTag = true) (rest : List Char) :
    withoutTags (p.write ++ rest) = pieceText (.found p.inside) ++ withoutTags rest := by
  rw [withoutTags, scan_write_of_isTag h, List.flatMap_cons]
  rfl

/-- The characters of a part that a reader of the text sees. -/
def Part.literal : Part → List Char
  | .text s => s.toList
  | .lineBreak => ['\n']
  | _ => []

/-- Only a line break is taken for one. -/
theorem pieceText_inside {p : Part} (h : p.isTag = true) :
    pieceText (.found p.inside) = p.literal := by
  cases p with
  | text s => cases h
  | lineBreak => rfl
  | closing e =>
    have hne : (Part.closing e).inside ≠ ['b', 'r'] := by simp [Part.inside]
    rw [pieceText, if_neg hne]
    rfl
  | opening e className =>
    have hne : (Part.opening e className).inside ≠ ['b', 'r'] := by
      cases e <;> simp [Part.inside, Element.name]
    rw [pieceText, if_neg hne]
    rfl

theorem unescape_literal_append {p : Part} (h : p.isTag = true) (rest : List Char) :
    unescape (p.literal ++ rest) = p.literal ++ unescape rest := by
  cases p with
  | text s => cases h
  | lineBreak => exact unescape_cons (by decide) rest
  | _ => rfl

theorem unescape_withoutTags_write (p : Part) (rest : List Char) :
    unescape (withoutTags (p.write ++ rest)) = p.literal ++ unescape (withoutTags rest) := by
  rcases p.text_or_isTag with ⟨s, rfl⟩ | htag
  · rw [withoutTags_write_text, unescape_escape_append]
    rfl
  · rw [withoutTags_write_of_isTag htag, pieceText_inside htag, unescape_literal_append htag]

theorem unescape_withoutTags_writeParts (ps : List Part) :
    unescape (withoutTags (writeParts ps)) = ps.flatMap Part.literal := by
  induction ps with
  | nil =>
    rw [writeParts, List.flatMap_nil, withoutTags, Recogniser.scan_nil]
    rfl
  | cons p ps ih =>
    rw [writeParts_cons, unescape_withoutTags_write, ih, List.flatMap_cons]

theorem flatMap_literal_enclose (e : Element) (className : String) (inner : List Part) :
    (enclose e className inner).flatMap Part.literal = inner.flatMap Part.literal := by
  rw [enclose, List.flatMap_cons, List.flatMap_append, List.flatMap_singleton]
  exact List.append_nil _

theorem flatMap_literal_tokensParts (classes : ClassNames) (ts : List Token) :
    (tokensParts classes ts).flatMap Part.literal = literals ts := by
  induction ts using tokensInduction with
  | nil => rfl
  | text s ts ih =>
    rw [tokensParts, List.flatMap_append, ih, tokenParts, List.flatMap_singleton]
    rfl
  | styled style inner ts hinner ih =>
    rw [tokensParts, List.flatMap_append, ih, tokenParts, flatMap_literal_enclose, hinner]
    rfl
  | monospace s ts ih =>
    rw [tokensParts, List.flatMap_append, ih, tokenParts, flatMap_literal_enclose,
      List.flatMap_singleton]
    rfl
  | quote inner ts hinner ih =>
    rw [tokensParts, List.flatMap_append, ih, tokenParts, flatMap_literal_enclose, hinner]
    rfl
  | lineBreak ts ih =>
    rw [tokensParts, List.flatMap_append, ih]
    rfl

theorem flatMap_literal_messageParts (classes : ClassNames) (ts : List Token) :
    (messageParts classes ts).flatMap Part.literal = literals ts := by
  unfold messageParts
  split
  · exact flatMap_literal_tokensParts classes ts
  · rw [flatMap_literal_enclose, flatMap_literal_tokensParts]

theorem plainText_writeParts (ps : List Part) :
    plainText (String.ofList (writeParts ps)) = String.ofList (ps.flatMap Part.literal) := by
  rw [plainText, String.toList_ofList, unescape_withoutTags_writeParts]

theorem plainText_toHtml (classes : ClassNames) (ts : List Token) :
    plainText (toHtml ts classes) = literalText ts := by
  rw [toHtml, plainText_writeParts, flatMap_literal_messageParts, literalText]

-- What looks like an entity or a tag in a text is read as it was.
example : plainText (toHtml [.text "&lt;", .monospace "<br>"] ⟨"", "", ""⟩) = "&lt;<br>" := by
  cbv

/-- The line feed that ends an answer is a text like any other. -/
theorem plainText_toHtml_append_newline (classes : ClassNames) (ts : List Token) :
    plainText (toHtml ts classes ++ "\n") = literalText ts ++ "\n" := by
  have hwrite : toHtml ts classes ++ "\n" =
      String.ofList (writeParts (messageParts classes ts ++ [.text "\n"])) := by
    rw [writeParts_append, String.ofList_append]
    rfl
  rw [hwrite, plainText_writeParts, List.flatMap_append, flatMap_literal_messageParts,
    String.ofList_append]
  rfl

theorem plainText_answerRender (config : Config) (text : String) :
    plainText (Cli.answerRender .html config text).output =
      (Cli.answerRender .text config text).output := by
  simp only [Cli.answerRender, Cli.asLines_singleton]
  exact plainText_toHtml_append_newline config.html (render text)

theorem plainText_run (inv : Cli.Invocation) (around : Cli.Surroundings) :
    plainText (Cli.run { inv with command := .render .html } around).stdout =
      (Cli.run { inv with command := .render .text } around).stdout := by
  have hempty : plainText "" = "" := plainText_writeParts []
  unfold Cli.run
  simp only
  split
  · exact hempty
  · split
    · exact hempty
    · exact plainText_answerRender _ _

/-- The HTML of a token list holds the characters of its literal text in their order, and so the two
formats of a message agree, for every run of the command. -/
theorem plainText_toHtml_eq_literalText :
    (∀ classes ts, plainText (toHtml ts classes) = literalText ts) ∧
    (∀ config text, plainText (Cli.answerRender .html config text).output =
      (Cli.answerRender .text config text).output) ∧
    ∀ (inv : Cli.Invocation) (around : Cli.Surroundings),
      plainText (Cli.run { inv with command := .render .html } around).stdout =
        (Cli.run { inv with command := .render .text } around).stdout :=
  ⟨plainText_toHtml, plainText_answerRender, plainText_run⟩

end ChatMarkup.Html
