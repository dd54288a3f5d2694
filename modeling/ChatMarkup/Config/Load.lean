import ChatMarkup.Config.Decode
import ChatMarkup.Files
import ChatMarkup.Toml.Document
import ChatMarkup.Toml.Generic
import ChatMarkup.Toml.Report

/-! # Loading settings

Settings are read from the text of a file. A missing file gives the defaults, which are written in a document
of their own; a file that cannot be read, is no TOML document or gives a wrong value is an error, and then there
are no settings at all.
-/
namespace ChatMarkup

inductive LoadError where
  | unreadable (cause : ReadError)
  /-- The text is no TOML document, or a number in it is too large for any reader. -/
  | malformed
  | wrongValue (text : String) (w : WrongValue)

/-- The cause of the failure alone. -/
def LoadError.cause : LoadError → String
  | .unreadable cause => cause.message
  | .malformed => "TOML parse error\n"
  | .wrongValue text w => Toml.report text w.found.range w.message

def LoadError.message (path : String) : LoadError → String
  | .unreadable cause => "failed to read config " ++ path ++ ": " ++ cause.message
  | e => "invalid config " ++ path ++ ": " ++ e.cause

/-- A value that is passed over is wrong only if it holds a number that nothing can read. -/
def WrongValue.loadError (text : String) (w : WrongValue) : LoadError :=
  match w.wanted with
  | .anything => .malformed
  | .string | .size | .htmlSection | .templateSection => .wrongValue text w

def parseConfig (text : String) : Except LoadError Config :=
  match Toml.parse? text with
  | none => .error .malformed
  | some es => (decodeConfig es).mapError (WrongValue.loadError text)

def defaultConfigLines : List String := [
  "# Defaults for wa-markup. Copy to wa-markup.toml and edit to override.",
  "",
  "[html]",
  "# Class on the <span> wrapping a rendered message. Empty disables the wrapper.",
  "wrapper_class = \"wa-message\"",
  "quote_class = \"wa-quote\"",
  "code_class = \"wa-code\"",
  "",
  "[template]",
  "# Card summaries are cut after this many characters.",
  "truncate_at = 120",
  "empty_preview = \"Your message preview will appear here...\""]

/-- The document of the defaults. -/
def defaultConfigText : String :=
  String.ofList (defaultConfigLines.flatMap fun line => line.toList ++ ['\n'])

/-- The settings of that document, or the default of each setting if it cannot be read. -/
def compiledDefault : Config := (parseConfig defaultConfigText).toOption.getD {}

def loadConfig (file : Except ReadError String) : Except LoadError Config :=
  match file with
  | .ok text => parseConfig text
  | .error .notFound => .ok compiledDefault
  | .error cause => .error (.unreadable cause)

/-- The table of a document that is read without a schema. -/
def parseTable? (text : String) : Option Toml.Entries :=
  (Toml.parse? text).bind Toml.genericEntries?

end ChatMarkup
