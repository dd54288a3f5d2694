import ChatMarkup.Decimal.Binary64

/-! # The shortest decimal text of a number

Among the decimal numbers that round to a given binary one, those with the fewest digits are looked for on
ever finer decimal grids, and of two on one grid the nearer is taken, in a tie the larger. The text
never has an exponent, and always a point with a digit behind it.
-/
namespace ChatMarkup.Decimal

/-- A ratio of natural numbers lies between two others, the ends counting if `closed`. -/
def within (closed : Bool) (low high x : Nat × Nat) : Bool :=
  let fromLow := low.1 * x.2
  let toHigh := high.1 * x.2
  if closed then fromLow ≤ x.1 * low.2 && x.1 * high.2 ≤ toHigh
  else fromLow < x.1 * low.2 && x.1 * high.2 < toHigh

namespace Binary64

/-- A number of quarters of the unit in the last place, as a ratio. -/
def quarters (x : Binary64) (n : Nat) : Nat × Nat := scale 2 (x.exponent - 2) (n, 1)

/-- The largest and the smallest ratio that may still round to the number. The gap below a power of
two is half as wide as the one above it. -/
def bounds (x : Binary64) : (Nat × Nat) × (Nat × Nat) :=
  let below := if x.mantissa = fullMantissa && minExponent < x.exponent then 1 else 2
  (x.quarters (4 * x.mantissa - below), x.quarters (4 * x.mantissa + 2))

def roundsTo (x : Binary64) (r : Nat × Nat) : Bool :=
  within (x.mantissa % 2 = 0) x.bounds.1 x.bounds.2 r

/-- The power of ten that the ratio reaches. -/
def leadingPower (r : Nat × Nat) : Int :=
  let guess : Int := (Nat.toDigits 10 r.1).length - (Nat.toDigits 10 r.2).length
  let (num, den) := scale 10 (-guess) r
  if den ≤ num then guess else guess - 1

/-- The number on the grid of the power that rounds to `x` and is nearest to it. -/
def onGrid? (x : Binary64) (power : Int) : Option Nat :=
  let (num, den) := scale 10 (-power) (x.quarters (4 * x.mantissa))
  let d := num / den
  let fits (d : Nat) : Bool := x.roundsTo (scale 10 power (d, 1))
  let upper := den ≤ 2 * (num % den)
  if fits d && !(upper && fits (d + 1)) then some d
  else if fits (d + 1) then some (d + 1)
  else none

/-- The first grid with a hit, from the given power downward. -/
def shortestFrom (x : Binary64) (power : Int) : Nat → Nat × Int
  | 0 => ((x.onGrid? power).getD 0, power)
  | finer + 1 =>
    match x.onGrid? power with
    | some d => (d, power)
    | none => x.shortestFrom (power - 1) finer

/-- The digits and the power of ten of the shortest decimal that reads back as the number. A number just
below a power of ten may be rounded up to it, so the search starts one power above the leading digit. -/
def shortest (x : Binary64) : Nat × Int :=
  if x.mantissa = 0 then (0, 0)
  else x.shortestFrom (leadingPower (x.quarters (4 * x.mantissa)) + 1) 18

end Binary64

/-- `digits * 10 ^ power` with a point and without an exponent. -/
def positional (digits : Nat) (power : Int) : List Char :=
  let ds := Nat.toDigits 10 digits
  if 0 ≤ power then
    (if digits = 0 then ds else ds ++ List.replicate power.toNat '0') ++ ['.', '0']
  else
    let places := (-power).toNat
    let padded := List.replicate (places + 1 - ds.length) '0' ++ ds
    let whole := padded.length - places
    padded.take whole ++ '.' :: padded.drop whole

def Binary64.text (x : Binary64) : List Char :=
  let (digits, power) := x.shortest
  positional digits power

end ChatMarkup.Decimal
