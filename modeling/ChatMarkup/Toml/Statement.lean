import ChatMarkup.Toml.Moment
import ChatMarkup.Toml.Quoted

/-! # Reading TOML statements

A document is a list of statements: key-values and headers. Values are read here as they are
written; an inline table is handed over as the list of its key-values, and which tables the
statements of a document make is decided later.
-/
namespace ChatMarkup.Toml

abbrev Key := Located String

/-- A dotted key: the keys on the way and the last one. -/
structure Path where
  parents : List Key
  last : Key

structure KeyValue (α : Type) where
  path : Path
  value : Located α

structure Header where
  path : Path
  range : Range
  /-- Written in double brackets: each such header adds an element to an array. -/
  isElement : Bool

/-- A value whose inline tables are still lists of key-values. -/
inductive Written where
  | leaf (value : Value)
  | array (items : List (Located Written))
  | inline (entries : List (KeyValue Written))

inductive Statement where
  | keyValue (kv : KeyValue Written)
  | header (h : Header)

namespace Reader

/-- How deep arrays and inline tables may be nested, and of how many keys a dotted key may consist. -/
def maxDepth : Nat := 80

def isBareKeyChar (c : Char) : Bool := c.isAlphanum || c = '_' || c = '-'

def key : Reader Key := located do
  match ← peek with
  | some '"' | some '\'' => ofLexer quotedKey
  | _ => ofLexer fun s =>
    match s.takeWhile isBareKeyChar with
    | [] => none
    | cs => some (String.ofList cs, s.dropWhile isBareKeyChar)

/-- The keys behind the first one of a dotted key, fewer than the given number. -/
def moreKeys : Nat → Reader (List Key)
  | 0 => fail
  | fuel + 1 => do
    skipBlanks
    if (← peek) = some '.' then
      expect '.'
      skipBlanks
      let k ← key
      return k :: (← moreKeys fuel)
    else return []

def path : Reader Path := do
  let first ← key
  let more ← moreKeys maxDepth
  let keys := first :: more
  return ⟨keys.dropLast, keys.getLast (by simp [keys])⟩

/-- A character that ends an unquoted value. -/
def endsBare (c : Char) : Bool :=
  isBlank c || c = '\n' || c = '\r' || c = ',' || c = '#' || c = '='
    || c = '[' || c = ']' || c = '\x7b' || c = '\x7d'

/-- The text of an unquoted value. A date may go on, behind one blank, with a time of day. -/
def bareText : Lexer (List Char) := fun s =>
  let word := s.takeWhile fun c => !endsBare c
  match skipDate? word, s.dropWhile fun c => !endsBare c with
  | some [], ' ' :: c :: behind =>
    if c.isDigit then
      let time := (c :: behind).takeWhile fun d => !endsBare d
      some (word ++ ' ' :: time, (c :: behind).dropWhile fun d => !endsBare d)
    else some (word, ' ' :: c :: behind)
  | _, behind => some (word, behind)

def bareValue? (s : List Char) : Option Value :=
  if s = ['t', 'r', 'u', 'e'] then some (.boolean true)
  else if s = ['f', 'a', 'l', 's', 'e'] then some (.boolean false)
  else if isMoment s then some .moment
  else number? s

def bare : Reader Value := ofLexer fun s => do
  let (word, behind) ← bareText s
  return (← bareValue? word, behind)

/-- Items with a comma between two and perhaps one behind the last, up to the closing bracket. -/
def items {α : Type} (item : Reader α) (close : Char) : Nat → Reader (List α)
  | 0 => fail
  | fuel + 1 => do
    skipSpace
    if (← peek) = some close then
      expect close
      return []
    let a ← item
    skipSpace
    if (← peek) = some ',' then
      expect ','
      return a :: (← items item close fuel)
    expect close
    return [a]

/-- A key-value with what may be skipped on both sides of its equals sign. -/
def keyValue (skip : Reader Unit) (value : Reader (Located Written)) :
    Reader (KeyValue Written) := do
  let p ← path
  skip
  expect '='
  skip
  return ⟨p, ← value⟩

/-- A value in which arrays and inline tables are nested at most `depth` deep and have fewer than `size`
items each. -/
def value (size depth : Nat) : Reader (Located Written) := located do
  match ← peek with
  | some '"' | some '\'' => return .leaf (.string (← ofLexer quotedString))
  | some '[' =>
    match depth with
    | 0 => fail
    | depth + 1 =>
      expect '['
      return .array (← items (value size depth) ']' size)
  | some '\x7b' =>
    match depth with
    | 0 => fail
    | depth + 1 =>
      expect '\x7b'
      return .inline (← items (keyValue skipSpace (value size depth)) '\x7d' size)
  | _ => return .leaf (← bare)

def header : Reader Header := do
  let onward ← rest
  expect '['
  let isElement := (← peek) = some '['
  if isElement then expect '['
  skipBlanks
  let p ← path
  skipBlanks
  expect ']'
  if isElement then expect ']'
  return ⟨p, ⟨onward, ← rest⟩, isElement⟩

def statement (size : Nat) : Reader Statement := do
  if (← peek) = some '[' then return .header (← header)
  return .keyValue (← keyValue skipBlanks (value size maxDepth))

def statements (size : Nat) : Nat → Reader (List Statement)
  | 0 => fail
  | fuel + 1 => do
    if (← rest).isEmpty then return []
    let s ← statement size
    endStatement
    return s :: (← statements size fuel)

/-- All statements of a text. There are at most as many as it has characters, and a value has at most
as many items. -/
def document : Reader (List Statement) := do
  let size := (← rest).length + 1
  skipSpace
  statements size size

end Reader

/-- The statements of a document, in which a byte order mark may come first. -/
def readStatements? (text : List Char) : Option (List Statement) :=
  let behindMark :=
    match text with
    | '\ufeff' :: s => s
    | s => s
  (Reader.document behindMark).map (·.1)

end ChatMarkup.Toml
