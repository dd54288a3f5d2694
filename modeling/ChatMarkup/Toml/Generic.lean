import ChatMarkup.Toml.Limits
import ChatMarkup.Toml.Moment

/-! # Documents as values without a schema

A document that is read without a schema must hold values that any reader takes: integers have 64 bits
with a sign, and no float overflows. There is one reserved key: a table inside the document whose least
key it is stands for the moment that is written there as a string, and its other entries are not read.
-/
namespace ChatMarkup.Toml

/-- The key under which a table hands on a moment. -/
def momentKey : String := "$__toml_private_datetime"

def isMomentString : Value → Bool
  | .string s => isMoment s.toList
  | _ => false

/-- The value under the reserved key of a table that stands for a moment. -/
def reserved? (es : Entries) : Option Value :=
  match (sortEntries es).head? with
  | some (key, v) => if key = momentKey then some v.value else none
  | none => none

mutual
def Value.generic? : Value → Option Value
  | .integer n => if signed64.admits n then some (.integer n) else none
  | .float x => if x.isRepresentable then some (.float x) else none
  | .malformed => none
  | .string s => some (.string s)
  | .boolean b => some (.boolean b)
  | .moment => some .moment
  | .array origin items => (genericItems? items).map (.array origin)
  | .table origin entries =>
    match reserved? entries with
    | some v => if isMomentString v then some .moment else none
    | none => (genericEntries? entries).map (.table origin)
def genericItems? : List (Located Value) → Option (List (Located Value))
  | [] => some []
  | ⟨v, range⟩ :: items => do
    let v ← v.generic?
    return ⟨v, range⟩ :: (← genericItems? items)
def genericEntries? : List (String × Located Value) → Option (List (String × Located Value))
  | [] => some []
  | (key, ⟨v, range⟩) :: entries => do
    let v ← v.generic?
    return (key, ⟨v, range⟩) :: (← genericEntries? entries)
end

end ChatMarkup.Toml
