import ChatMarkup.Json
import ChatMarkup.Token

/-! # Tokens as JSON

A token is an object with its kind and, a line break apart, its value: a string or an array of tokens.
-/
namespace ChatMarkup

def Style.kind : Style → String
  | .bold => "bold"
  | .italic => "italic"
  | .strikethrough => "strikethrough"

def tagged (kind : String) (value : Json) : Json :=
  .object [("kind", .string kind), ("value", value)]

mutual
def Token.json : Token → Json
  | .text s => tagged "text" (.string s)
  | .styled style ts => tagged style.kind (.array (tokensJson ts))
  | .monospace s => tagged "monospace" (.string s)
  | .quote ts => tagged "quote" (.array (tokensJson ts))
  | .lineBreak => .object [("kind", .string "line_break")]
def tokensJson : List Token → List Json
  | [] => []
  | t :: ts => t.json :: tokensJson ts
end

def toJson (ts : List Token) : Json := .array (tokensJson ts)

end ChatMarkup
