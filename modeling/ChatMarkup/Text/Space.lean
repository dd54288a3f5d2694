import ChatMarkup.Text.Ranges

/-! # White space

The blanks, tabs, line ends and separators of Unicode, and a text without those around it.
-/
namespace ChatMarkup.Text

def whiteSpace : Ranges := #[(9, 13), (32, 32), (133, 133), (160, 160), (5760, 5760), (8192, 8202),
  (8232, 8233), (8239, 8239), (8287, 8287), (12288, 12288)]

def isWhiteSpace (c : Char) : Bool := whiteSpace.contains c

def trimLeft (s : List Char) : List Char := s.dropWhile isWhiteSpace

def trim (s : List Char) : List Char := (trimLeft (trimLeft s).reverse).reverse

end ChatMarkup.Text
