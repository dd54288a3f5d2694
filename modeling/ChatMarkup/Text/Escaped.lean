import ChatMarkup.Text.Unprintable

/-! # Texts quoted in messages

A quoted text stands between double quotation marks. The mark itself, the backslash and the usual
control characters are written with a backslash, and every other character without a shape of its own by
its code point in braces.
-/
namespace ChatMarkup.Text

def lowerHex (n : Nat) : List Char := Nat.toDigits 16 n

def escapeChar (c : Char) : List Char :=
  if c = '"' then ['\\', '"']
  else if c = '\\' then ['\\', '\\']
  else if c = '\t' then ['\\', 't']
  else if c = '\n' then ['\\', 'n']
  else if c = '\r' then ['\\', 'r']
  else if c = '\x00' then ['\\', '0']
  else if isUnprintable c then ['\\', 'u', '\x7b'] ++ lowerHex c.toNat ++ ['\x7d']
  else [c]

def quoted (s : String) : String := String.ofList ('"' :: (s.toList.flatMap escapeChar ++ ['"']))

end ChatMarkup.Text
