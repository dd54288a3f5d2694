import ChatMarkup.Decimal.Binary64
import ChatMarkup.Toml.Value

/-! # How large the numbers of a document may be

A finite float must not overflow in double precision, and an integer must lie between two bounds. The
bounds of 64-bit signed integers are those of a document that any reader takes; values that are only
passed over may be as large as 128 bits allow.
-/
namespace ChatMarkup.Toml

structure Bounds where
  least : Int
  greatest : Int
  deriving DecidableEq, Repr

/-- The integers of 64 bits with a sign. -/
def signed64 : Bounds := ⟨-9223372036854775808, 9223372036854775807⟩

/-- The integers that 64 bits hold with a sign or without one. -/
def word64 : Bounds := ⟨-9223372036854775808, 18446744073709551615⟩

/-- The integers of 128 bits with a sign. -/
def signed128 : Bounds :=
  ⟨-170141183460469231731687303715884105728, 170141183460469231731687303715884105727⟩

/-- The integers that 128 bits hold with a sign or without one. -/
def word128 : Bounds :=
  ⟨-170141183460469231731687303715884105728, 340282366920938463463374607431768211455⟩

def Bounds.admits (b : Bounds) (n : Int) : Bool := b.least ≤ n && n ≤ b.greatest

def FloatLiteral.isRepresentable : FloatLiteral → Bool
  | .finite _ digits exponent => (Decimal.ofDecimal? digits exponent).isSome
  | .nan | .infinite _ => true

mutual
def Value.isWithin (b : Bounds) : Value → Bool
  | .integer n => b.admits n
  | .float x => x.isRepresentable
  | .malformed => false
  | .string _ | .boolean _ | .moment => true
  | .array _ items => itemsWithin b items
  | .table _ entries => entriesWithin b entries
def itemsWithin (b : Bounds) : List (Located Value) → Bool
  | [] => true
  | ⟨v, _⟩ :: items => v.isWithin b && itemsWithin b items
def entriesWithin (b : Bounds) : List (String × Located Value) → Bool
  | [] => true
  | (_, ⟨v, _⟩) :: entries => v.isWithin b && entriesWithin b entries
end

end ChatMarkup.Toml
