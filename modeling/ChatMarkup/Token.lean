/-! # Tokens of a message

A rendered message is a list of tokens. Styles and quotes hold tokens again; monospace content is
verbatim text. `literalText` keeps the characters and forgets the styling; `Token.source` writes a
token back as markup.
-/
namespace ChatMarkup

inductive Style where
  | bold
  | italic
  | strikethrough
  deriving DecidableEq, Repr

def Style.delimiter : Style → Char
  | .bold => '*'
  | .italic => '_'
  | .strikethrough => '~'

def Style.ofDelimiter? (c : Char) : Option Style :=
  if c = '*' then some .bold
  else if c = '_' then some .italic
  else if c = '~' then some .strikethrough
  else none

theorem Style.ofDelimiter?_delimiter (s : Style) : ofDelimiter? s.delimiter = some s := by
  cases s <;> rfl

theorem Style.delimiter_injective {s t : Style} (h : s.delimiter = t.delimiter) : s = t := by
  have hs := ofDelimiter?_delimiter s
  rw [h, ofDelimiter?_delimiter] at hs
  exact (Option.some.inj hs).symm

theorem Style.ofDelimiter?_eq_some_iff {c : Char} {s : Style} :
    ofDelimiter? c = some s ↔ c = s.delimiter := by
  constructor
  · intro h
    unfold ofDelimiter? at h
    split at h
    · cases h; assumption
    · split at h
      · cases h; assumption
      · split at h
        · cases h; assumption
        · cases h
  · rintro rfl
    exact ofDelimiter?_delimiter s

/-- The mark in front of and behind monospace content. -/
def fence : List Char := ['`', '`', '`']

/-- The mark at the start of a quoted line. -/
def quoteMark : List Char := ['>', ' ']

inductive Token where
  | text (content : String)
  | styled (style : Style) (inner : List Token)
  | monospace (content : String)
  | quote (inner : List Token)
  | lineBreak

mutual
def Token.literal : Token → List Char
  | .text s | .monospace s => s.toList
  | .styled _ ts | .quote ts => literals ts
  | .lineBreak => ['\n']
def literals : List Token → List Char
  | [] => []
  | t :: ts => t.literal ++ literals ts
end

def literalText (ts : List Token) : String := String.ofList (literals ts)

mutual
def Token.source : Token → List Char
  | .text s => s.toList
  | .styled style ts => style.delimiter :: (sources ts ++ [style.delimiter])
  | .monospace s => fence ++ s.toList ++ fence
  | .quote ts => quoteMark ++ sources ts
  | .lineBreak => ['\n']
def sources : List Token → List Char
  | [] => []
  | t :: ts => t.source ++ sources ts
end

/-- Induction over a token list and all lists inside its tokens at once. -/
@[elab_as_elim]
theorem tokensInduction {P : List Token → Prop} (nil : P [])
    (text : ∀ s ts, P ts → P (.text s :: ts))
    (styled : ∀ style inner ts, P inner → P ts → P (.styled style inner :: ts))
    (monospace : ∀ s ts, P ts → P (.monospace s :: ts))
    (quote : ∀ inner ts, P inner → P ts → P (.quote inner :: ts))
    (lineBreak : ∀ ts, P ts → P (.lineBreak :: ts)) (ts : List Token) : P ts :=
  @Token.rec_1 (fun t => ∀ ts, P ts → P (t :: ts)) P text
    (fun style inner hinner ts hts => styled style inner ts hinner hts) monospace
    (fun inner hinner ts hts => quote inner ts hinner hts) lineBreak nil
    (fun _ ts ht hts => ht ts hts) ts

/-- The markup that a token list stands for. -/
def markup (ts : List Token) : String := String.ofList (sources ts)

@[simp] theorem literals_append (ts us : List Token) :
    literals (ts ++ us) = literals ts ++ literals us := by
  induction ts with
  | nil => rfl
  | cons t ts ih => simp [literals, ih]

@[simp] theorem sources_append (ts us : List Token) :
    sources (ts ++ us) = sources ts ++ sources us := by
  induction ts with
  | nil => rfl
  | cons t ts ih => simp [sources, ih]

theorem literals_eq_flatMap (ts : List Token) : literals ts = ts.flatMap Token.literal := by
  induction ts with
  | nil => rfl
  | cons t ts ih => simp [literals, ih]

theorem sources_eq_flatMap (ts : List Token) : sources ts = ts.flatMap Token.source := by
  induction ts with
  | nil => rfl
  | cons t ts ih => simp [sources, ih]

end ChatMarkup
