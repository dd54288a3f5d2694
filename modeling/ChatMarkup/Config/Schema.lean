import ChatMarkup.Toml.Value

/-! # The strict check of a settings table

Unlike reading settings, the check passes nothing over: every section and every key must be known, a
section must be a table, and each value must be of its kind. Of several offences the first one in the
order of section names and keys is reported, wherever it stands in the document.
-/
namespace ChatMarkup.Schema

inductive Kind where
  | string
  | integer
  deriving DecidableEq, Repr

def Kind.name : Kind → String
  | .string => "string"
  | .integer => "integer"

abbrev Fields := List (String × Kind)

def sections : List (String × Fields) := [
  ("html", [("wrapper_class", .string), ("quote_class", .string), ("code_class", .string)]),
  ("template", [("truncate_at", .integer), ("empty_preview", .string)])]

/-- An integer field takes no negative number. -/
def Kind.admits : Kind → Toml.Value → Bool
  | .string, .string _ => true
  | .integer, .integer n => decide (0 ≤ n)
  | _, _ => false

inductive Offence where
  | unknownSection (name : String)
  | notTable (name : String)
  | unknownKey (name key : String)
  | wrongKind (name key : String) (kind : Kind)
  deriving DecidableEq, Repr

def Offence.message : Offence → String
  | .unknownSection name => "unknown section [" ++ name ++ "]"
  | .notTable name => "[" ++ name ++ "] must be a table"
  | .unknownKey name key => "unknown key " ++ name ++ "." ++ key
  | .wrongKind name key kind => name ++ "." ++ key ++ " must be a " ++ kind.name

def fieldOffence? (name : String) (fields : Fields)
    (entry : String × Toml.Located Toml.Value) : Option Offence :=
  match fields.lookup entry.1 with
  | none => some (.unknownKey name entry.1)
  | some kind => if kind.admits entry.2.value then none else some (.wrongKind name entry.1 kind)

def sectionOffence? (entry : String × Toml.Located Toml.Value) : Option Offence :=
  match sections.lookup entry.1 with
  | none => some (.unknownSection entry.1)
  | some fields =>
    match entry.2.value with
    | .table _ es => (Toml.sortEntries es).findSome? (fieldOffence? entry.1 fields)
    | _ => some (.notTable entry.1)

/-- The first offence of a table against the schema. -/
def offence? (es : Toml.Entries) : Option Offence :=
  (Toml.sortEntries es).findSome? sectionOffence?

/-- A table passes, or is refused with the message of its first offence. -/
def check (es : Toml.Entries) : Except String Unit :=
  match offence? es with
  | none => .ok ()
  | some o => .error o.message

end ChatMarkup.Schema
