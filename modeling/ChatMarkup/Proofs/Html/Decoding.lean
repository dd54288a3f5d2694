import ChatMarkup.Proofs.Html.Reading
import ChatMarkup.Proofs.Token.Normal

/-! # Tokens from an HTML fragment

The tags of a fragment and the texts between them are read from the last to the first. A stack holds
the tokens that stand behind what is read, one list for each element that is open there, so a token
always goes in front of a list. Whatever the class names are, the tokens that are read from the HTML of
a token list are its normal form, and token lists have the same HTML if and only if they have the same
normal form.
-/
namespace ChatMarkup.Html
open Text

/-- The tokens of an element around tokens. A wrapper adds nothing to what it holds. -/
def Element.tokens : Element → List Token → List Token
  | .span, ts => ts
  | .strong, ts => [.styled .bold ts]
  | .em, ts => [.styled .italic ts]
  | .del, ts => [.styled .strikethrough ts]
  | .code, ts => [.monospace (literalText ts)]
  | .blockquote, ts => [.quote ts]

def readPart : Part → List (List Token) → List (List Token)
  | .text s, ts :: stack => prependToken (.text s) ts :: stack
  | .lineBreak, ts :: stack => (.lineBreak :: ts) :: stack
  | .closing _, stack => [] :: stack
  | .opening e _, inner :: ts :: stack => (e.tokens inner ++ ts) :: stack
  | _, stack => stack

def readPiece : Piece (List Char) → List (List Token) → List (List Token)
  | .plain run => readPart (.text (String.ofList (unescape run)))
  | .found inside =>
    match Part.ofTag? inside with
    | some p => readPart p
    | none => id

def readTokens (html : String) : List Token :=
  ((tagRecogniser.scan html.toList).foldr readPiece [[]]).headD []

theorem Element.tokens_ofStyle (style : Style) (ts : List Token) :
    (Element.ofStyle style).tokens ts = [.styled style ts] := by
  cases style <;> rfl

theorem readPart_text_append (s t : String) (stack : List (List Token)) :
    readPart (.text (s ++ t)) stack = readPart (.text s) (readPart (.text t) stack) := by
  cases stack with
  | nil => rfl
  | cons ts stack => rw [readPart, prependToken_text_append]; rfl

theorem readPart_text_empty (stack : List (List Token)) : readPart (.text "") stack = stack := by
  cases stack with
  | nil => rfl
  | cons ts stack => rw [readPart, prependToken_empty]

theorem readPiece_inside {p : Part} (h : p.isTag = true) :
    readPiece (.found p.inside) = readPart p := by
  rw [readPiece, Part.ofTag?_inside h]

theorem readPiece_plain_nil (stack : List (List Token)) : readPiece (.plain []) stack = stack :=
  readPart_text_empty stack

/-- An escaped text goes in front of what follows as the text that it stands for. -/
theorem readPiece_escape_append (s : String) (run : List Char) (stack : List (List Token)) :
    readPiece (.plain (escape s.toList ++ run)) stack =
      readPart (.text s) (readPiece (.plain run) stack) := by
  have htext : String.ofList (unescape (escape s.toList ++ run)) =
      s ++ String.ofList (unescape run) := by
    rw [unescape_escape_append, String.ofList_append, String.ofList_toList]
  rw [readPiece, htext, readPart_text_append]
  rfl

theorem readPiece_escape (s : String) (stack : List (List Token)) :
    readPiece (.plain (escape s.toList)) stack = readPart (.text s) stack := by
  have h := readPiece_escape_append s [] stack
  rwa [List.append_nil, readPiece_plain_nil] at h

theorem foldr_readPiece_plainPieces (run : List Char) (stack : List (List Token)) :
    (Recogniser.plainPieces run).foldr readPiece stack = readPiece (.plain run) stack := by
  by_cases h : run = []
  · rw [h, readPiece_plain_nil]
    rfl
  · rw [Recogniser.plainPieces_of_ne_nil h]
    rfl

theorem foldr_readPiece_text (s : String) (ps : List (Piece (List Char)))
    (stack : List (List Token)) :
    ((escape s.toList).foldr Piece.prepend ps).foldr readPiece stack =
      readPart (.text s) (ps.foldr readPiece stack) := by
  cases hstart : Recogniser.startsPlain ps with
  | false =>
    rw [Recogniser.foldr_prepend hstart, List.foldr_append, foldr_readPiece_plainPieces,
      readPiece_escape]
  | true =>
    -- The text is not alone: it is read together with the run that it stands in front of.
    match ps, hstart with
    | .plain run :: qs, _ =>
      rw [Recogniser.foldr_prepend_plain, List.foldr_cons, readPiece_escape_append]
      rfl

/-- The reader answers to a written fragment as it answers to the parts that were written. -/
theorem foldr_readPiece_scan_writeParts (ps : List Part) (stack : List (List Token)) :
    (tagRecogniser.scan (writeParts ps)).foldr readPiece stack = ps.foldr readPart stack := by
  induction ps with
  | nil => rw [writeParts, List.flatMap_nil, Recogniser.scan_nil]; rfl
  | cons p ps ih =>
    rw [writeParts_cons, List.foldr_cons, ← ih]
    rcases p.text_or_isTag with ⟨s, rfl⟩ | htag
    · rw [scan_write_text, foldr_readPiece_text]
    · rw [scan_write_of_isTag htag, List.foldr_cons, readPiece_inside htag]

theorem foldr_readPart_enclose {e : Element} {className : String} {inner : List Part}
    {ts us : List Token} {stack : List (List Token)}
    (h : inner.foldr readPart ([] :: us :: stack) = ts :: us :: stack) :
    (enclose e className inner).foldr readPart (us :: stack) = (e.tokens ts ++ us) :: stack := by
  rw [enclose, List.foldr_cons, List.foldr_append]
  simp only [List.foldr_cons, List.foldr_nil, readPart, h]

theorem literalText_prependToken_nil (s : String) :
    literalText (prependToken (.text s) []) = s := by
  rw [literalText, literals_prependToken, literals, List.append_nil]
  exact String.ofList_toList

/-- The tokens of parts are put in front of those behind them, all in normal form. -/
theorem foldr_readPart_tokensParts (classes : ClassNames) (ts us : List Token)
    (stack : List (List Token)) :
    (tokensParts classes ts).foldr readPart (normalize us :: stack) =
      normalize (ts ++ us) :: stack := by
  induction ts using tokensInduction generalizing us stack with
  | nil => rfl
  | text s ts ih => rw [tokensParts, List.foldr_append, ih]; rfl
  | styled style inner ts hinner ih =>
    have h := hinner [] (normalize (ts ++ us) :: stack)
    rw [List.append_nil] at h
    rw [tokensParts, List.foldr_append, ih, tokenParts, foldr_readPart_enclose h,
      Element.tokens_ofStyle]
    rfl
  | monospace s ts ih =>
    have h : [Part.text s].foldr readPart ([] :: normalize (ts ++ us) :: stack) =
      prependToken (.text s) [] :: normalize (ts ++ us) :: stack := rfl
    rw [tokensParts, List.foldr_append, ih, tokenParts, foldr_readPart_enclose h,
      Element.tokens, literalText_prependToken_nil]
    rfl
  | quote inner ts hinner ih =>
    have h := hinner [] (normalize (ts ++ us) :: stack)
    rw [List.append_nil] at h
    rw [tokensParts, List.foldr_append, ih, tokenParts, foldr_readPart_enclose h]
    rfl
  | lineBreak ts ih => rw [tokensParts, List.foldr_append, ih]; rfl

theorem foldr_readPart_messageParts (classes : ClassNames) (ts : List Token) :
    (messageParts classes ts).foldr readPart [[]] = [normalize ts] := by
  have h := foldr_readPart_tokensParts classes ts []
  rw [List.append_nil] at h
  unfold messageParts
  split
  · exact h []
  · rw [foldr_readPart_enclose (h [[]]), Element.tokens, List.append_nil]

/-- The tokens read from the HTML are the normal form; neither the class names nor a wrapper need to be
known. -/
theorem readTokens_toHtml (classes : ClassNames) (ts : List Token) :
    readTokens (toHtml ts classes) = normalize ts := by
  rw [readTokens, toHtml, String.toList_ofList, foldr_readPiece_scan_writeParts,
    foldr_readPart_messageParts]
  rfl

theorem writeParts_enclose (e : Element) (className : String) (inner : List Part) :
    writeParts (enclose e className inner) =
      (Part.opening e className).write ++ (writeParts inner ++ (Part.closing e).write) := by
  rw [enclose, writeParts, List.flatMap_cons, List.flatMap_append, List.flatMap_singleton]
  rfl

theorem writeParts_tokensParts (classes : ClassNames) (ts : List Token) :
    writeParts (tokensParts classes ts) =
      ts.flatMap fun t => writeParts (tokenParts classes t) := by
  induction ts with
  | nil => rfl
  | cons t ts ih => rw [tokensParts, writeParts_append, ih, List.flatMap_cons]

theorem writeParts_prependToken (classes : ClassNames) (t : Token) (ts : List Token) :
    writeParts (tokensParts classes (prependToken t ts)) =
      writeParts (tokenParts classes t) ++ writeParts (tokensParts classes ts) := by
  have htext : ∀ s : String, writeParts (tokenParts classes (.text s)) = escape s.toList := by
    intro s
    exact List.flatMap_singleton ..
  have happend : ∀ s t : String, writeParts (tokenParts classes (.text (s ++ t))) =
      writeParts (tokenParts classes (.text s)) ++ writeParts (tokenParts classes (.text t)) := by
    intro s t
    rw [htext, htext, htext, String.toList_append, escape, List.flatMap_append]
    rfl
  rw [writeParts_tokensParts, writeParts_tokensParts, flatMap_prependToken rfl happend]

theorem writeParts_normalize_cons {classes : ClassNames} {t : Token} {ts : List Token}
    (ht : writeParts (tokenParts classes t.normal) = writeParts (tokenParts classes t))
    (hts : writeParts (tokensParts classes (normalize ts)) = writeParts (tokensParts classes ts)) :
    writeParts (tokensParts classes (normalize (t :: ts))) =
      writeParts (tokensParts classes (t :: ts)) := by
  rw [normalize, writeParts_prependToken, ht, hts, tokensParts, writeParts_append]

theorem writeParts_normalize (classes : ClassNames) (ts : List Token) :
    writeParts (tokensParts classes (normalize ts)) = writeParts (tokensParts classes ts) := by
  induction ts using tokensInduction with
  | nil => rfl
  | text s ts ih => exact writeParts_normalize_cons rfl ih
  | styled style inner ts hinner ih =>
    refine writeParts_normalize_cons ?_ ih
    rw [Token.normal, tokenParts, tokenParts, writeParts_enclose, writeParts_enclose, hinner]
  | monospace s ts ih => exact writeParts_normalize_cons rfl ih
  | quote inner ts hinner ih =>
    refine writeParts_normalize_cons ?_ ih
    rw [Token.normal, tokenParts, tokenParts, writeParts_enclose, writeParts_enclose, hinner]
  | lineBreak ts ih => exact writeParts_normalize_cons rfl ih

theorem toHtml_normalize (classes : ClassNames) (ts : List Token) :
    toHtml (normalize ts) classes = toHtml ts classes := by
  have h := writeParts_normalize classes ts
  unfold toHtml messageParts
  split
  · rw [h]
  · rw [writeParts_enclose, writeParts_enclose, h]

/-- The HTML shows all of a token list but empty texts and the places where texts meet. -/
theorem toHtml_eq_iff_normalize_eq (classes : ClassNames) (a b : List Token) :
    toHtml a classes = toHtml b classes ↔ normalize a = normalize b := by
  constructor
  · intro h
    calc normalize a = readTokens (toHtml a classes) := (readTokens_toHtml classes a).symm
      _ = readTokens (toHtml b classes) := congrArg readTokens h
      _ = normalize b := readTokens_toHtml classes b
  · intro h
    calc toHtml a classes = toHtml (normalize a) classes := (toHtml_normalize classes a).symm
      _ = toHtml (normalize b) classes := congrArg (toHtml · classes) h
      _ = toHtml b classes := toHtml_normalize classes b

end ChatMarkup.Html
