import ChatMarkup.Toml.Value

/-! # Readers

A lexer splits the head off a text. A reader is a lexer as an action on the text that is still to be read;
what it reads lies between the text before it and the text after it, which is its range. A reader that fails refuses the whole document.
-/
namespace ChatMarkup.Toml

abbrev Lexer (α : Type) := List Char → Option (α × List Char)

abbrev Reader (α : Type) := StateT (List Char) Option α

def isBlank (c : Char) : Bool := c = ' ' || c = '\t'

/-- Neither a control character other than the tab, nor the delete character. -/
def isPrintable (c : Char) : Bool := c = '\t' || (32 ≤ c.toNat && c.toNat ≠ 127)

def startsLineEnd : List Char → Bool
  | '\n' :: _ => true
  | '\r' :: '\n' :: _ => true
  | _ => false

namespace Reader

def fail {α : Type} : Reader α := fun _ => none

def ofLexer {α : Type} (f : Lexer α) : Reader α := fun s => f s

def rest : Reader (List Char) := fun s => some (s, s)

def peek : Reader (Option Char) := fun s => some (s.head?, s)

def located {α : Type} (r : Reader α) : Reader (Located α) := do
  let onward ← rest
  let value ← r
  return ⟨value, ⟨onward, ← rest⟩⟩

def expect (c : Char) : Reader Unit :=
  ofLexer fun
    | d :: s => if d = c then some ((), s) else none
    | [] => none

def skipBlanks : Reader Unit := ofLexer fun s => some ((), s.dropWhile isBlank)

/-- Skips blanks, line ends and comments, and stops at anything else. -/
def skipSpace : Reader Unit := ofLexer fun s => some ((), skip false s)
where
  skip (inComment : Bool) : List Char → List Char
    | [] => []
    | c :: s =>
      if c = '\n' then skip false s
      else if c = '\r' && s.head? = some '\n' then skip false s
      else if inComment then
        if isPrintable c then skip true s else c :: s
      else if isBlank c then skip false s
      else if c = '#' then skip true s
      else c :: s

/-- A statement ends its line, up to blanks and a comment. -/
def endStatement : Reader Unit := do
  skipBlanks
  let s ← rest
  unless s.isEmpty || s.head? = some '#' || startsLineEnd s do fail
  skipSpace

end Reader

end ChatMarkup.Toml
