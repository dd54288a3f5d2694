/-! # JSON values and their indented text

Just the values that are printed: strings, arrays and objects with ordered members. Each nested item
stands on a line of its own, two blanks further in; an array or object without items is written
without a line break. In strings the quotation mark, the backslash and the control characters below
the blank are escaped, and all else stands as it is.
-/
namespace ChatMarkup

inductive Json where
  | string (s : String)
  | array (items : List Json)
  | object (members : List (String × Json))

namespace Json

def hexDigit (n : Nat) : Char := (['0', '1', '2', '3', '4', '5', '6', '7', '8', '9',
  'a', 'b', 'c', 'd', 'e', 'f'][n]?).getD '0'

def escapeChar (c : Char) : List Char :=
  if c = '"' then ['\\', '"']
  else if c = '\\' then ['\\', '\\']
  else if c = '\x08' then ['\\', 'b']
  else if c = '\t' then ['\\', 't']
  else if c = '\n' then ['\\', 'n']
  else if c = '\x0c' then ['\\', 'f']
  else if c = '\r' then ['\\', 'r']
  else if c.toNat < 32 then
    ['\\', 'u', '0', '0', hexDigit (c.toNat / 16), hexDigit (c.toNat % 16)]
  else [c]

def quote (s : List Char) : List Char := '"' :: (s.flatMap escapeChar ++ ['"'])

def newline (depth : Nat) : List Char := '\n' :: List.replicate (2 * depth) ' '

mutual
def write (depth : Nat) : Json → List Char
  | .string s => quote s.toList
  | .array [] => ['[', ']']
  | .array (j :: js) =>
    '[' :: (newline (depth + 1) ++ write (depth + 1) j ++ writeItems (depth + 1) js
      ++ newline depth ++ [']'])
  | .object [] => ['\x7b', '\x7d']
  | .object (m :: ms) =>
    '\x7b' :: (newline (depth + 1) ++ writeMember (depth + 1) m ++ writeMembers (depth + 1) ms
      ++ newline depth ++ ['\x7d'])
def writeItems (depth : Nat) : List Json → List Char
  | [] => []
  | j :: js => ',' :: (newline depth ++ write depth j ++ writeItems depth js)
def writeMember (depth : Nat) : String × Json → List Char
  | (key, j) => quote key.toList ++ [':', ' '] ++ write depth j
def writeMembers (depth : Nat) : List (String × Json) → List Char
  | [] => []
  | m :: ms => ',' :: (newline depth ++ writeMember depth m ++ writeMembers depth ms)
end

def pretty (j : Json) : String := String.ofList (j.write 0)

end Json

end ChatMarkup
