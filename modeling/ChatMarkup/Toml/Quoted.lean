import ChatMarkup.Toml.Number
import ChatMarkup.Toml.Reader

/-! # Quoted strings

There are four forms: basic strings with escapes and literal strings without, each on one line or on
several. A line end directly behind the opening of a form on several lines is dropped. Up to two
quotation marks may stand directly in front of the three that close it. In a basic string on several
lines a backslash at a line's end drops all blanks and line ends that follow.
-/
namespace ChatMarkup.Toml

/-- A character that a string on several lines may hold; a carriage return only in a line end. -/
def isMultilineChar (c : Char) (behind : List Char) : Bool :=
  isPrintable c || c = '\n' || (c = '\r' && behind.head? = some '\n')

def literalBody : Lexer (List Char)
  | [] => none
  | c :: s =>
    if c = '\'' then some ([], s)
    else if isPrintable c then (literalBody s).map fun (cs, rest) => (c :: cs, rest)
    else none

/-- What three marks `q` in a row close, with the marks directly in front of them. -/
def closeMultiline? (q : Char) : Lexer (List Char)
  | a :: b :: c :: d :: e :: s =>
    if a = q && b = q && c = q then
      if d = q then if e = q then some ([q, q], s) else some ([q], e :: s)
      else some ([], d :: e :: s)
    else none
  | [a, b, c, d] =>
    if a = q && b = q && c = q then if d = q then some ([q], []) else some ([], [d]) else none
  | [a, b, c] => if a = q && b = q && c = q then some ([], []) else none
  | _ => none

def multilineLiteralBody : Lexer (List Char)
  | [] => none
  | c :: s =>
    match closeMultiline? '\'' (c :: s) with
    | some closed => some closed
    | none =>
      if isMultilineChar c s then
        (multilineLiteralBody s).map fun (cs, rest) => (c :: cs, rest)
      else none

def simpleEscape? (c : Char) : Option Char :=
  if c = 'b' then some '\x08'
  else if c = 't' then some '\t'
  else if c = 'n' then some '\n'
  else if c = 'f' then some '\x0c'
  else if c = 'r' then some '\r'
  else if c = 'e' then some '\x1b'
  else if c = '"' then some '"'
  else if c = '\\' then some '\\'
  else none

/-- The number of hexadecimal digits that an escape takes. -/
def hexEscapeLength? (c : Char) : Option Nat :=
  if c = 'x' then some 2
  else if c = 'u' then some 4
  else if c = 'U' then some 8
  else none

/-- The character of a code point that is one: surrogates and numbers out of range are not. -/
def scalar? (n : Nat) : Option Char :=
  if h : n.isValidChar then some (Char.ofNatAux n h) else none

/-- Where the reading of a basic string stands. -/
inductive BasicState where
  | text
  | escape
  /-- `missing + 1` digits of an escape are still to come. -/
  | hex (missing : Nat) (value : Nat)
  /-- Behind a backslash at a line's end, and whether the line end has been met. -/
  | joining (lineEnd : Bool)

def isSpace (c : Char) (behind : List Char) : Bool :=
  isBlank c || c = '\n' || (c = '\r' && behind.head? = some '\n')

def basicBody (multiline : Bool) (state : BasicState) : Lexer (List Char)
  | [] => none
  | c :: s =>
    let add (d : Char) (tail : Option (List Char × List Char)) :=
      tail.map fun (cs, rest) => (d :: cs, rest)
    let inText :=
      match if multiline then closeMultiline? '"' (c :: s)
        else if c = '"' then some ([], s) else none with
      | some closed => some closed
      | none =>
        if c = '\\' then basicBody multiline .escape s
        else if isPrintable c || (multiline && isMultilineChar c s) then
          add c (basicBody multiline .text s)
        else none
    match state with
    | .text => inText
    | .escape =>
      match simpleEscape? c with
      | some d => add d (basicBody multiline .text s)
      | none =>
        match hexEscapeLength? c with
        | some n => basicBody multiline (.hex (n - 1) 0) s
        | none =>
          if multiline && isSpace c s then basicBody multiline (.joining (c = '\n')) s
          else none
    | .hex missing value =>
      match digitValue? 16 c with
      | none => none
      | some d =>
        match missing with
        | 0 =>
          match scalar? (16 * value + d) with
          | some e => add e (basicBody multiline .text s)
          | none => none
        | missing + 1 => basicBody multiline (.hex missing (16 * value + d)) s
    | .joining lineEnd =>
      if isSpace c s then basicBody multiline (.joining (lineEnd || c = '\n')) s
      else if lineEnd then inText
      else none

def dropLineEnd : List Char → List Char
  | '\n' :: s => s
  | '\r' :: '\n' :: s => s
  | s => s

/-- A string of any of the four forms. -/
def quotedString : Lexer String
  | '"' :: '"' :: '"' :: s => finish (basicBody true .text (dropLineEnd s))
  | '"' :: s => finish (basicBody false .text s)
  | '\'' :: '\'' :: '\'' :: s => finish (multilineLiteralBody (dropLineEnd s))
  | '\'' :: s => finish (literalBody s)
  | _ => none
where
  finish (body : Option (List Char × List Char)) : Option (String × List Char) :=
    body.map fun (cs, rest) => (String.ofList cs, rest)

/-- A key between quotation marks, which stands on one line. -/
def quotedKey : Lexer String
  | '"' :: s => quotedString.finish (basicBody false .text s)
  | '\'' :: s => quotedString.finish (literalBody s)
  | _ => none

end ChatMarkup.Toml
