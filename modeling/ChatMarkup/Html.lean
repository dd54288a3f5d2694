import ChatMarkup.Token

/-! # The HTML fragment of a token list

Tokens become a sequence of parts: opening and closing tags, line breaks and runs of text. Only then
is each part written, and writing escapes every character that HTML gives a meaning. An empty class
name leaves the attribute out; an empty class of the wrapper leaves the wrapper out.
-/
namespace ChatMarkup.Html

inductive Element where
  | span
  | strong
  | em
  | del
  | code
  | blockquote
  deriving DecidableEq, Repr

def Element.name : Element → List Char
  | .span => ['s', 'p', 'a', 'n']
  | .strong => ['s', 't', 'r', 'o', 'n', 'g']
  | .em => ['e', 'm']
  | .del => ['d', 'e', 'l']
  | .code => ['c', 'o', 'd', 'e']
  | .blockquote => ['b', 'l', 'o', 'c', 'k', 'q', 'u', 'o', 't', 'e']

def Element.ofStyle : Style → Element
  | .bold => .strong
  | .italic => .em
  | .strikethrough => .del

structure ClassNames where
  wrapper : String := "wa-message"
  quote : String := "wa-quote"
  code : String := "wa-code"
  deriving DecidableEq, Repr

inductive Part where
  | opening (element : Element) (className : String)
  | closing (element : Element)
  | lineBreak
  | text (content : String)
  deriving DecidableEq, Repr

/-- An element around parts that are already there. -/
def enclose (element : Element) (className : String) (inner : List Part) : List Part :=
  .opening element className :: (inner ++ [.closing element])

mutual
def tokenParts (classes : ClassNames) : Token → List Part
  | .text s => [.text s]
  | .styled style ts => enclose (.ofStyle style) "" (tokensParts classes ts)
  | .monospace s => enclose .code classes.code [.text s]
  | .quote ts => enclose .blockquote classes.quote (tokensParts classes ts)
  | .lineBreak => [.lineBreak]
def tokensParts (classes : ClassNames) : List Token → List Part
  | [] => []
  | t :: ts => tokenParts classes t ++ tokensParts classes ts
end

def messageParts (classes : ClassNames) (ts : List Token) : List Part :=
  if classes.wrapper = "" then tokensParts classes ts
  else enclose .span classes.wrapper (tokensParts classes ts)

def escapeChar : Char → List Char
  | '&' => ['&', 'a', 'm', 'p', ';']
  | '<' => ['&', 'l', 't', ';']
  | '>' => ['&', 'g', 't', ';']
  | '"' => ['&', 'q', 'u', 'o', 't', ';']
  | '\'' => ['&', '#', '3', '9', ';']
  | c => [c]

def escape (s : List Char) : List Char := s.flatMap escapeChar

def classAttribute (className : String) : List Char :=
  if className = "" then []
  else [' ', 'c', 'l', 'a', 's', 's', '=', '"'] ++ escape className.toList ++ ['"']

def Part.write : Part → List Char
  | .opening e className => '<' :: (e.name ++ classAttribute className ++ ['>'])
  | .closing e => '<' :: '/' :: (e.name ++ ['>'])
  | .lineBreak => ['<', 'b', 'r', '>']
  | .text s => escape s.toList

def writeParts (ps : List Part) : List Char := ps.flatMap Part.write

theorem tokensParts_append (classes : ClassNames) (ts us : List Token) :
    tokensParts classes (ts ++ us) = tokensParts classes ts ++ tokensParts classes us := by
  induction ts with
  | nil => rfl
  | cons t ts ih => simp [tokensParts, ih]

theorem writeParts_append (ps qs : List Part) :
    writeParts (ps ++ qs) = writeParts ps ++ writeParts qs := by
  simp [writeParts]

/-- Nothing that an escaped text holds can start or end a tag or an attribute value. -/
theorem not_mem_escape {c : Char} (h : c ∈ ['<', '>', '"', '\'']) (s : List Char) :
    c ∉ escape s := by
  unfold escape
  rw [List.mem_flatMap]
  rintro ⟨d, _, hd⟩
  simp only [List.mem_cons, List.not_mem_nil, or_false] at h
  unfold escapeChar at hd
  split at hd
  case h_6 => simp_all
  all_goals rcases h with rfl | rfl | rfl | rfl <;> simp at hd

end ChatMarkup.Html

namespace ChatMarkup

def toHtml (ts : List Token) (classes : Html.ClassNames) : String :=
  String.ofList (Html.writeParts (Html.messageParts classes ts))

end ChatMarkup
