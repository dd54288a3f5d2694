import ChatMarkup.Log
import ChatMarkup.Text.Alphanumeric
import ChatMarkup.Text.Bytes
import ChatMarkup.Text.Space
import ChatMarkup.Text.Split

/-! # Directives of a log filter

A directive is a level, or a target with an optional selection in brackets and an optional level behind
an equals sign. The selection names a span, or a field in braces that a record must have, perhaps with a
value, or both. White space around a directive is passed over when it is cut into its parts; the parts
are then taken out of the directive with its white space, at the same byte positions.
-/
namespace ChatMarkup

/-- A field that is asked for, and the value it must have if one is given. -/
structure FieldPattern where
  name : List Char
  value : Option (List Char)
  deriving DecidableEq, Repr

/-- The threshold `none` lets nothing through. -/
structure Directive where
  target : List Char
  span : Option (List Char)
  field : Option FieldPattern
  threshold : Option LogLevel
  deriving DecidableEq, Repr

/-- No record is written inside a span, and fields are looked for by their names alone. -/
def Directive.decidesRecords (d : Directive) : Bool :=
  d.span.isNone && d.field.all (·.value.isNone)

namespace Directive

def levelOfNumber? (n : Nat) : Option (Option LogLevel) :=
  match n with
  | 0 => some none
  | 1 => some (some .error)
  | 2 => some (some .warn)
  | 3 => some (some .info)
  | 4 => some (some .debug)
  | 5 => some (some .trace)
  | _ => none

def levelOfName? (name : List Char) : Option (Option LogLevel) :=
  let name := String.ofList (name.map Char.toLower)
  if name = "off" then some none
  else if name = "error" then some (some .error)
  else if name = "warn" then some (some .warn)
  else if name = "info" then some (some .info)
  else if name = "debug" then some (some .debug)
  else if name = "trace" then some (some .trace)
  else none

/-- A threshold by name, in any case, or by number. -/
def threshold? (s : List Char) : Option (Option LogLevel) :=
  let digits := match s with
    | '+' :: ds => ds
    | ds => ds
  if !digits.isEmpty && digits.all Char.isDigit then
    levelOfNumber? (digits.foldl (fun n c => 10 * n + (c.toNat - '0'.toNat)) 0)
  else levelOfName? s

/-- A level left out, behind its equals sign or with it, means the most verbose one. -/
def thresholdOrAll? (s : List Char) : Option (Option LogLevel) :=
  if s.isEmpty then some (some .trace) else threshold? s

/-- A level, or the target of a directive without one. -/
def ofWord (s : List Char) : Directive :=
  match threshold? s with
  | some t => ⟨[], none, none, t⟩
  | none => ⟨s, none, none, some .trace⟩

def isFirstChar (c : Char) : Bool := c = '-' || c = ':' || c = '_' || Text.isAlphanumeric c

/-- Byte positions: where a part starts and the first one behind it. -/
structure Cut where
  start : Nat
  stop : Nat
  deriving DecidableEq, Repr

/-- The parts of a directive that is more than a word. -/
structure Cuts where
  target : Option Cut := none
  span : Option Cut := none
  field : Option Cut := none
  /-- Where the level starts; it reaches to the end. -/
  level : Option Nat := none
  deriving DecidableEq, Repr

/-- What is behind a selection: nothing, or an equals sign and a level. -/
def cutLevel? (cuts : Cuts) (offset : Nat) : List Char → Option Cuts
  | [] => some cuts
  | '=' :: _ => some { cuts with level := some (offset + 1) }
  | _ => none

def cutField? (cuts : Cuts) (offset : Nat) (s : List Char) : Option Cuts := do
  let (name, behind) ← Text.splitAt? '\x7d' s
  guard !name.isEmpty
  let stop := offset + Text.byteLength name
  match behind with
  | ']' :: behind => cutLevel? { cuts with field := some ⟨offset, stop⟩ } (stop + 2) behind
  | _ => none

/-- A selection behind its opening bracket. An empty name in front of a field names no span. -/
def cutSelection? (cuts : Cuts) (offset : Nat) (s : List Char) : Option Cuts :=
  let name := s.takeWhile fun c => c ≠ ']' && c ≠ '\x7b'
  let stop := offset + Text.byteLength name
  match s.dropWhile fun c => c ≠ ']' && c ≠ '\x7b' with
  | ']' :: behind => cutLevel? { cuts with span := some ⟨offset, stop⟩ } (stop + 1) behind
  | '\x7b' :: behind =>
    cutField? (if name.isEmpty then cuts else { cuts with span := some ⟨offset, stop⟩ }) (stop + 1)
      behind
  | _ => none

/-- The cuts of a directive without white space around it; nothing if it is malformed. A directive that is
a word has no cuts. -/
def cuts? (s : List Char) : Option Cuts :=
  match s with
  | [] => none
  | '[' :: behind => cutSelection? {} 1 behind
  | c :: _ =>
    if !isFirstChar c then none
    else
      let target := s.takeWhile fun c => c ≠ '=' && c ≠ '['
      let stop := Text.byteLength target
      match s.dropWhile fun c => c ≠ '=' && c ≠ '[' with
      | '=' :: _ => some { target := some ⟨0, stop⟩, level := some (stop + 1) }
      | '[' :: behind => cutSelection? { target := some ⟨0, stop⟩ } (stop + 1) behind
      | _ => some {}

def fieldPattern (s : List Char) : FieldPattern :=
  match s.splitOn '=' with
  | name :: value :: _ => ⟨name, some value⟩
  | _ => ⟨s, none⟩

/-- Takes a part out of a directive. -/
def part? (s : List Char) : Option Cut → Option (Option (List Char))
  | none => some none
  | some cut => (Text.slice? cut.start cut.stop s).map some

def parse? (s : List Char) : Option Directive := do
  let cuts ← cuts? (Text.trim s)
  if cuts = {} then return ofWord s
  let target ← part? s cuts.target
  let span ← part? s cuts.span
  let field ← part? s cuts.field
  let level ← part? s (cuts.level.map fun start => ⟨start, Text.byteLength s⟩)
  let threshold ← thresholdOrAll? (level.getD [])
  return ⟨target.getD [], span, field.map fieldPattern, threshold⟩

end Directive

end ChatMarkup
