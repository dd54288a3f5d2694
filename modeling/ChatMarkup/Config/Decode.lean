import ChatMarkup.Config
import ChatMarkup.Decimal.Shortest
import ChatMarkup.Text.Escaped
import ChatMarkup.Toml.Limits

/-! # Settings from a TOML table

Each setting that the table gives replaces its default. A section is a table, or an array that gives its
settings in the order of their declaration. A section that is a date or a time gives nothing. The entries of a
table are visited in the order of their keys. A key that names no setting is passed over, but its value is read
all the same, and must not hold a number that is too large for any reader. The first wrong value is reported.
-/
namespace ChatMarkup
open Toml (Located Value Entries)

/-- What a value has to be. -/
inductive Wanted where
  | string
  | size
  | htmlSection
  | templateSection
  /-- The value is passed over. -/
  | anything
  deriving DecidableEq, Repr

structure WrongValue where
  found : Located Value
  wanted : Wanted

def decodeString (v : Located Value) : Except WrongValue String :=
  match v.value with
  | .string s => .ok s
  | _ => .error ⟨v, .string⟩

def decodeSize (v : Located Value) : Except WrongValue Nat :=
  match v.value with
  | .integer n =>
    if 0 ≤ n ∧ n ≤ (maxTruncateAt : Int) then .ok n.toNat else .error ⟨v, .size⟩
  | _ => .error ⟨v, .size⟩

def passOver (v : Located Value) : Except WrongValue Unit :=
  if v.value.isWithin Toml.word128 then .ok () else .error ⟨v, .anything⟩

section Fields
variable {α : Type}

/-- The fields of a structure in the order of their declaration, and how each of them takes in its value. -/
abbrev FieldDecoders (α : Type) := List (String × (Located Value → α → Except WrongValue α))

def decodeEntry (fields : FieldDecoders α) (a : α) (e : String × Located Value) : Except WrongValue α :=
  match fields.lookup e.1 with
  | some take => take e.2 a
  | none => do
    passOver e.2
    return a

def decodeEntries (fields : FieldDecoders α) (default : α) (es : Entries) : Except WrongValue α :=
  (Toml.sortEntries es).foldlM (decodeEntry fields) default

/-- The items of an array are the values of the fields as they are declared. -/
def decodeItems (fields : FieldDecoders α) (default : α) (items : List (Located Value)) :
    Except WrongValue α :=
  ((fields.map Prod.fst).zip items).foldlM (decodeEntry fields) default

def decodeSection (wanted : Wanted) (fields : FieldDecoders α) (default : α) (v : Located Value) :
    Except WrongValue α :=
  match v.value with
  | .table _ es => decodeEntries fields default es
  | .array _ items => decodeItems fields default items
  | .moment => .ok default
  | _ => .error ⟨v, wanted⟩

end Fields

def htmlFields : FieldDecoders Html.ClassNames := [
  ("wrapper_class", fun v classes => return { classes with wrapper := ← decodeString v }),
  ("quote_class", fun v classes => return { classes with quote := ← decodeString v }),
  ("code_class", fun v classes => return { classes with code := ← decodeString v })]

def templateFields : FieldDecoders TemplateSettings := [
  ("truncate_at", fun v settings => return { settings with truncateAt := ← decodeSize v }),
  ("empty_preview", fun v settings => return { settings with emptyPreview := ← decodeString v })]

def decodeHtml : Located Value → Except WrongValue Html.ClassNames :=
  decodeSection .htmlSection htmlFields {}

def decodeTemplate : Located Value → Except WrongValue TemplateSettings :=
  decodeSection .templateSection templateFields {}

def configFields : FieldDecoders Config := [
  ("html", fun v config => return { config with html := ← decodeHtml v }),
  ("template", fun v config => return { config with template := ← decodeTemplate v })]

def decodeConfig (es : Entries) : Except WrongValue Config := decodeEntries configFields {} es

def Wanted.describe : Wanted → String
  | .string => "a string"
  | .size => "usize"
  | .htmlSection => "struct HtmlConfig"
  | .templateSection => "struct TemplateConfig"
  | .anything => "anything"

/-- An integer in decimal digits; one of more than 64 bits names the width it needs. -/
def describeInteger (n : Int) : String :=
  let text := "integer `" ++ toString n ++ "`"
  if Toml.word64.admits n then text
  else if Toml.signed128.admits n then text ++ " as i128"
  else text ++ " as u128"

def floatText : Toml.FloatLiteral → String
  | .nan => "NaN"
  | .infinite negative => if negative then "-inf" else "inf"
  | .finite negative digits exponent =>
    let text :=
      match Decimal.ofDecimal? digits exponent with
      | some x => String.ofList x.text
      | none => "inf"
    if negative then "-" ++ text else text

def describeValue : Toml.Value → String
  | .string s => "string " ++ Text.quoted s
  | .integer n => describeInteger n
  | .float x => "floating point `" ++ floatText x ++ "`"
  | .boolean b => "boolean `" ++ (if b then "true" else "false") ++ "`"
  | .malformed => "malformed number"
  | .array _ _ => "sequence"
  | .moment | .table _ _ => "map"

/-- An integer of 64 bits has the right type for a size, even if its value is wrong. -/
def WrongValue.isWrongSize (w : WrongValue) : Bool :=
  match w.found.value, w.wanted with
  | .integer n, .size => Toml.word64.admits n
  | _, _ => false

def WrongValue.message (w : WrongValue) : String :=
  (if w.isWrongSize then "invalid value: " else "invalid type: ")
    ++ describeValue w.found.value ++ ", expected " ++ w.wanted.describe

end ChatMarkup
