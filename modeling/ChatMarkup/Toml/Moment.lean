import ChatMarkup.Toml.Number

/-! # Dates and times of day

A moment is a date, a time of day, or both, and then with or without an offset. Dates are those of
the Gregorian calendar, hours go to 23, minutes to 59 and seconds to 60, for leap seconds. Seconds may
be left out, and with them the fraction.
-/
namespace ChatMarkup.Toml

/-- A number of exactly this many decimal digits. -/
def fixed? (count : Nat) (s : List Char) : Option (Nat × List Char) := do
  let ds ← (s.take count).mapM (digitValue? 10)
  if ds.length = count then return (ofDigits 10 ds, s.drop count) else none

def skip? (c : Char) (s : List Char) : Option (List Char) :=
  match s with
  | d :: s => if d = c then some s else none
  | [] => none

def isLeapYear (year : Nat) : Bool := year % 4 = 0 && (year % 100 ≠ 0 || year % 400 = 0)

def daysInMonth (year month : Nat) : Nat :=
  if month = 2 then if isLeapYear year then 29 else 28
  else if month = 4 || month = 6 || month = 9 || month = 11 then 30
  else 31

/-- Drops a date from the head of a text. -/
def skipDate? (s : List Char) : Option (List Char) := do
  let (year, s) ← fixed? 4 s
  let (month, s) ← fixed? 2 (← skip? '-' s)
  let (day, s) ← fixed? 2 (← skip? '-' s)
  if 1 ≤ month && month ≤ 12 && 1 ≤ day && day ≤ daysInMonth year month then return s else none

def skipFraction? (s : List Char) : Option (List Char) :=
  match s with
  | '.' :: c :: s =>
    if c.isDigit then some (s.dropWhile Char.isDigit) else none
  | '.' :: [] => none
  | s => some s

def skipSeconds? (s : List Char) : Option (List Char) :=
  match s with
  | ':' :: s => do
    let (second, s) ← fixed? 2 s
    if second ≤ 60 then skipFraction? s else none
  | s => some s

def skipClock? (s : List Char) : Option (List Char) := do
  let (hour, s) ← fixed? 2 s
  let (minute, s) ← fixed? 2 (← skip? ':' s)
  if hour ≤ 23 && minute ≤ 59 then return s else none

def skipTime? (s : List Char) : Option (List Char) := (skipClock? s).bind skipSeconds?

/-- Drops an offset; a moment may go without one. -/
def skipOffset? (s : List Char) : Option (List Char) :=
  match s with
  | 'Z' :: s | 'z' :: s => some s
  | '+' :: s | '-' :: s => skipClock? s
  | s => some s

/-- The mark between date and time, where a blank does as well as the letter. -/
def isTimeMark (c : Char) : Bool := c = 'T' || c = 't' || c = ' '

def isMoment (s : List Char) : Bool :=
  match skipDate? s with
  | some [] => true
  | some (c :: time) => isTimeMark c && (skipTime? time).bind skipOffset? = some []
  | none => skipTime? s = some []

end ChatMarkup.Toml
