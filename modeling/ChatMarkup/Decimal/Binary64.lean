/-! # Binary floating-point numbers of double precision

A finite non-negative number is `mantissa * 2 ^ exponent` with a mantissa below `2 ^ 53` and an exponent
from -1074 to 971. A decimal number is rounded to the nearest of these, a tie to the even mantissa; one
that would need a larger exponent overflows.
-/
namespace ChatMarkup.Decimal

structure Binary64 where
  mantissa : Nat
  exponent : Int
  deriving DecidableEq, Repr

def minExponent : Int := -1074
def maxExponent : Int := 971

/-- Two to the 53rd: a mantissa has at most 53 bits. -/
def mantissaBound : Nat := 9007199254740992

/-- Two to the 52nd: a mantissa below it has fewer than 53 bits. -/
def fullMantissa : Nat := 4503599627370496

/-- The quotient rounded to nearest, a tie to the even number. -/
def roundDiv (num den : Nat) : Nat :=
  let q := num / den
  let twice := 2 * (num % den)
  if twice < den then q
  else if den < twice then q + 1
  else q + q % 2

/-- Multiplies a ratio by a power of a base, which may be negative. -/
def scale (base : Nat) (power : Int) (ratio : Nat × Nat) : Nat × Nat :=
  if 0 ≤ power then (ratio.1 * Nat.pow base power.toNat, ratio.2)
  else (ratio.1, ratio.2 * Nat.pow base (-power).toNat)

/-- The exponent with which the ratio has a mantissa of 53 bits, or the least one. -/
def exponentOf (ratio : Nat × Nat) : Int :=
  let guess : Int := (ratio.1.log2 : Int) - (ratio.2.log2 : Int) - 52
  let (num, den) := scale 2 (-guess) ratio
  max minExponent (if den * fullMantissa ≤ num then guess else guess - 1)

def ofRatio? (ratio : Nat × Nat) : Option Binary64 :=
  if ratio.1 = 0 then some ⟨0, minExponent⟩
  else
    let e := exponentOf ratio
    let (num, den) := scale 2 (-e) ratio
    let m := roundDiv num den
    let (m, e) := if m = mantissaBound then (fullMantissa, e + 1) else (m, e)
    if maxExponent < e then none else some ⟨m, e⟩

/-- The number nearest to `digits * 10 ^ power`; nothing if it overflows. Powers far out of range are
settled by the number of digits alone. -/
def ofDecimal? (digits : Nat) (power : Int) : Option Binary64 :=
  let count : Int := (Nat.toDigits 10 digits).length
  if digits = 0 || count + power < -330 then some ⟨0, minExponent⟩
  else if 330 < count + power then none
  else ofRatio? (scale 10 power (digits, 1))

end ChatMarkup.Decimal
