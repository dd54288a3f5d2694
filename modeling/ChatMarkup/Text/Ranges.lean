/-! # Sets of characters as code point ranges

The ranges of a set are disjoint and in ascending order, and both ends of a range belong to it.
-/
namespace ChatMarkup.Text

abbrev Ranges := Array (Nat × Nat)

def Ranges.contains (ranges : Ranges) (c : Char) : Bool :=
  ranges.any fun (first, last) => first ≤ c.toNat && c.toNat ≤ last

end ChatMarkup.Text
