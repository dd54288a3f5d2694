/-! # TOML values

A value carries the range of the text that made it. Integers are unbounded here and floats are
kept as they are written; how large they may be is asked separately. A word may start like an integer
and yet be none; only who asks for its value refuses it. A table remembers how it was
introduced, because that decides whether later statements may add to it, and an array remembers
whether it grew from headers.
-/
namespace ChatMarkup.Toml

/-- A range of a document, given by the text from its first character on and the text behind it. What
stands in front of it need not be known while reading. -/
structure Range where
  onward : List Char
  behind : List Char
  deriving DecidableEq, Repr

structure Located (α : Type) where
  value : α
  range : Range

/-- A float as written: its sign, and a decimal number `digits * 10 ^ exponent`. -/
inductive FloatLiteral where
  | nan
  | infinite (negative : Bool)
  | finite (negative : Bool) (digits : Nat) (exponent : Int)
  deriving DecidableEq, Repr

inductive TableOrigin where
  /-- Named by a header of its own, or the document itself. -/
  | header
  /-- Named only inside a longer header. -/
  | implied
  /-- Named only inside a dotted key. -/
  | dotted
  /-- Written between braces. -/
  | inline
  deriving DecidableEq, Repr

inductive ArrayOrigin where
  | written
  | headers
  deriving DecidableEq, Repr

inductive Value where
  | string (s : String)
  | integer (n : Int)
  | float (x : FloatLiteral)
  /-- Starts like an integer and is none. -/
  | malformed
  | boolean (b : Bool)
  /-- A date, a time of day or both. -/
  | moment
  | array (origin : ArrayOrigin) (items : List (Located Value))
  | table (origin : TableOrigin) (entries : List (String × Located Value))

abbrev Entries := List (String × Located Value)

/-- The entries in the order of their keys. -/
def sortEntries (es : Entries) : Entries := es.mergeSort fun a b => decide (a.1 ≤ b.1)

end ChatMarkup.Toml
