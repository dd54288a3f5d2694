import ChatMarkup.Log.Directive

/-! # Filtering log records

A filter is a list of directives between commas. A directive sets a threshold for all records whose target
starts with its own and which have the field it asks for; one without a target sets it for all targets.
Of the directives that apply the one with the longest target decides, of these one that asks for a field,
of these the one whose field is last in alphabetical order, and of several equal ones the last. Where none
applies nothing is let through. A filter without directives lets errors through. A filter with a
malformed directive is no filter.
-/
namespace ChatMarkup

abbrev LogFilter := List Directive

def LogFilter.parse? (text : String) : Option LogFilter := do
  let parts := (text.toList.splitOn ',').filter (!·.isEmpty)
  if parts.isEmpty then return [⟨[], none, none, some .error⟩]
  parts.mapM Directive.parse?

/-- The filter that a count of `-v` stands for. -/
def LogFilter.ofVerbosity (count : Nat) : LogFilter :=
  let threshold : LogLevel :=
    match count with
    | 0 => .warn
    | 1 => .info
    | 2 => .debug
    | _ => .trace
  [⟨[], none, none, some threshold⟩]

def Directive.appliesTo (d : Directive) (r : LogRecord) : Bool :=
  d.decidesRecords && d.target.isPrefixOf r.target.toList
    && d.field.all fun f => r.fields.contains (String.ofList f.name)

def Directive.fieldName (d : Directive) : String :=
  match d.field with
  | some f => String.ofList f.name
  | none => ""

/-- The second directive is at least as specific as the first one. -/
def Directive.yieldsTo (a b : Directive) : Bool :=
  a.target.length < b.target.length
    || (a.target.length = b.target.length && decide (a.fieldName ≤ b.fieldName))

def LogFilter.deciding? (filter : LogFilter) (r : LogRecord) : Option Directive :=
  (filter.filter (·.appliesTo r)).foldl (fun best d =>
    match best with
    | some b => if b.yieldsTo d then some d else some b
    | none => some d) none

def LogFilter.admits (filter : LogFilter) (r : LogRecord) : Bool :=
  match (LogFilter.deciding? filter r).bind (·.threshold) with
  | some threshold => r.level.rank ≤ threshold.rank
  | none => false

end ChatMarkup
