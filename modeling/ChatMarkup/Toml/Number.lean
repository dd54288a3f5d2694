import ChatMarkup.Toml.Value

/-! # Numbers

The whole text of a number is given. An underscore stands between two digits, or between the sign and
the first digit. A decimal integer has no leading zero; a hexadecimal, octal or binary one has no sign.
A float has a fraction, an exponent or both. For integers the letters of hexadecimal digits count as
digits when underscores are placed, so a word can have the outward form of an integer and no value.
-/
namespace ChatMarkup.Toml

/-- The value of a digit in a base up to sixteen. -/
def digitValue? (base : Nat) (c : Char) : Option Nat :=
  let value? :=
    if '0' ≤ c && c ≤ '9' then some (c.toNat - '0'.toNat)
    else if 'a' ≤ c && c ≤ 'f' then some (c.toNat - 'a'.toNat + 10)
    else if 'A' ≤ c && c ≤ 'F' then some (c.toNat - 'A'.toNat + 10)
    else none
  value?.filter (· < base)

def isDigitOf (base : Nat) (c : Char) : Bool := (digitValue? base c).isSome

/-- Every underscore has a digit on both sides. -/
def underscoresFit (isDigit : Char → Bool) : List Char → Bool
  | '_' :: _ => false
  | c :: '_' :: s => isDigit c && s.head?.any isDigit && underscoresFit isDigit s
  | _ :: s => underscoresFit isDigit s
  | [] => true

def withoutUnderscores (s : List Char) : List Char := s.filter (· ≠ '_')

def digits? (base : Nat) (s : List Char) : Option (List Nat) :=
  if s.isEmpty then none else s.mapM (digitValue? base)

def ofDigits (base : Nat) (ds : List Nat) : Nat := ds.foldl (fun n d => base * n + d) 0

def splitSign : List Char → Option Char × List Char
  | '-' :: s => (some '-', s)
  | '+' :: s => (some '+', s)
  | s => (none, s)

def signed (sign : Option Char) (n : Nat) : Int := if sign = some '-' then - Int.ofNat n else Int.ofNat n

/-- The body of a number whose sign may have an underscore behind it. -/
def dropUnderscore (sign : Option Char) : List Char → List Char
  | '_' :: s => if sign.isSome then s else '_' :: s
  | s => s

/-- An integer in a base other than ten. It may lack all digits, and then has no value. -/
def baseInteger? (base : Nat) (s : List Char) : Option Value :=
  let ds := withoutUnderscores s
  if s = [] then some .malformed
  else if underscoresFit (isDigitOf base) s then
    (digits? base ds).map fun ds => .integer (Int.ofNat (ofDigits base ds))
  else none

def decimalInteger? (sign : Option Char) (s : List Char) : Option Value :=
  let body := dropUnderscore sign s
  let behind := s.dropWhile Char.isDigit
  if (behind = [] || behind.head? = some '_') && (s.head? ≠ some '0' || s = ['0'])
      && body.head?.any (isDigitOf 16) && underscoresFit (isDigitOf 16) body then
    match digits? 10 (withoutUnderscores body) with
    | some ds => some (.integer (signed sign (ofDigits 10 ds)))
    | none => some .malformed
  else none

def isExponentMark (c : Char) : Bool := c = 'e' || c = 'E'

def isFloatMark (c : Char) : Bool := c = '.' || isExponentMark c

/-- The exponent with its mark; a float without one has exponent zero. -/
def exponent? : List Char → Option Int
  | [] => some 0
  | _ :: s =>
    let (sign, s) := splitSign s
    (digits? 10 s).map fun ds => signed sign (ofDigits 10 ds)

/-- The fraction with its point; a float without one has no fraction digits. -/
def fraction? : List Char → Option (List Nat)
  | [] => some []
  | _ :: s => digits? 10 s

/-- A float that is given by digits. The integer in front has no leading zero. -/
def digitsFloat? (sign : Option Char) (s : List Char) : Option FloatLiteral := do
  let body := dropUnderscore sign s
  guard (underscoresFit Char.isDigit body)
  let plain := withoutUnderscores body
  let mantissa := plain.takeWhile fun c => !isExponentMark c
  let whole ← digits? 10 (mantissa.takeWhile (· ≠ '.'))
  guard (s.head? ≠ some '0' || whole.length = 1)
  let fraction ← fraction? (mantissa.dropWhile (· ≠ '.'))
  let exponent ← exponent? (plain.dropWhile fun c => !isExponentMark c)
  return .finite (sign = some '-') (ofDigits 10 (whole ++ fraction)) (exponent - fraction.length)

/-- The number that a word is, if it has the outward form of one. -/
def number? (word : List Char) : Option Value :=
  let (sign, s) := splitSign word
  if s = ['i', 'n', 'f'] then some (.float (.infinite (sign = some '-')))
  else if s = ['n', 'a', 'n'] then some (.float .nan)
  else
    match s with
    | '0' :: 'x' :: ds => if sign.isSome then none else baseInteger? 16 ds
    | '0' :: 'o' :: ds => if sign.isSome then none else baseInteger? 8 ds
    | '0' :: 'b' :: ds => if sign.isSome then none else baseInteger? 2 ds
    | s =>
      if (s.dropWhile Char.isDigit).any isFloatMark then (digitsFloat? sign s).map .float
      else decimalInteger? sign s

end ChatMarkup.Toml
