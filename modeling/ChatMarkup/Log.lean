/-! # Log records

A record has a level, the target it comes from, a message and one measured field. Its line gives the level
in five columns, right-aligned.
-/
namespace ChatMarkup

inductive LogLevel where
  | error
  | warn
  | info
  | debug
  | trace
  deriving DecidableEq, Repr

/-- The more a level lets through, the higher its rank. -/
def LogLevel.rank : LogLevel → Nat
  | .error => 1
  | .warn => 2
  | .info => 3
  | .debug => 4
  | .trace => 5

def LogLevel.label : LogLevel → String
  | .error => "ERROR"
  | .warn => " WARN"
  | .info => " INFO"
  | .debug => "DEBUG"
  | .trace => "TRACE"

structure LogRecord where
  level : LogLevel
  target : String
  message : String
  field : String
  value : String
  deriving DecidableEq, Repr

/-- The names of a record's fields; the message is one of them. -/
def LogRecord.fields (r : LogRecord) : List String := ["message", r.field]

def LogRecord.line (r : LogRecord) : String :=
  r.level.label ++ " " ++ r.target ++ ": " ++ r.message ++ " " ++ r.field ++ "=" ++ r.value ++ "\n"

end ChatMarkup
