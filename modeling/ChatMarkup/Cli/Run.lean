import ChatMarkup.Cli.Invocation
import ChatMarkup.Config.Load
import ChatMarkup.Log.Filter
import ChatMarkup.Message
import ChatMarkup.Template.Preview
import ChatMarkup.Text.Truncate
import ChatMarkup.Token.Json

/-! # Running a command

A run loads the settings, then reads its input, then answers. If one of the first two fails the run ends
with an error report and nothing on standard output. The only answer with a failing status is that of a
template which uses names that are not declared.
-/
namespace ChatMarkup.Cli

/-- What a run finds around it. -/
structure Surroundings where
  files : Files
  stdin : ByteArray
  /-- The text of a log filter, which then counts more than the verbosity. -/
  logSetting : Option String

structure Outcome where
  status : Nat
  stdout : String
  stderr : String
  deriving DecidableEq, Repr

/-- One line end at the end of the input, with or without a carriage return, is not part of the message. -/
def trimLineEnd (s : List Char) : List Char :=
  match s.reverse with
  | '\n' :: '\r' :: r => r.reverse
  | '\n' :: r => r.reverse
  | _ => s

def readInput (around : Surroundings) (input : Option String) : Except ReadError String :=
  let text :=
    match input with
    | some path => around.files.readText path
    | none => decodeText around.stdin
  text.map fun t => String.ofList (trimLineEnd t.toList)

/-- What a command answers to a text. -/
structure Answer where
  output : String
  status : Nat
  records : List LogRecord
  deriving DecidableEq, Repr

def mainTarget : String := "wa_markup"
def configTarget : String := "wa_markup::config"

def asLines (ls : List String) : String := String.join (ls.map (· ++ "\n"))

theorem asLines_singleton (s : String) : asLines [s] = s ++ "\n" := by
  simp [asLines, String.join]

def answerRender (format : Format) (config : Config) (text : String) : Answer :=
  let ts := render text
  let output :=
    match format with
    | .html => toHtml ts config.html
    | .json => (toJson ts).pretty
    | .text => literalText ts
  ⟨asLines [output], 0,
    [⟨.info, mainTarget, "rendered message", "tokens", toString ts.length⟩]⟩

def answerPreview (config : Config) (text : String) : Answer :=
  let output := if text = "" then config.template.emptyPreview else Template.preview text
  ⟨asLines [output], 0, []⟩

def reportLines (r : Template.VariableReport) : List String :=
  r.missing.map ("missing: " ++ ·) ++ r.unused.map ("unused: " ++ ·)

def answerVariables (declared : Option (List String)) (text : String) : Answer :=
  match declared with
  | none => ⟨asLines (Template.variableNames text), 0, []⟩
  | some names =>
    let r := Template.checkVariables text names
    if r.missing.isEmpty then ⟨asLines (reportLines r), 0, []⟩
    else
      ⟨asLines (reportLines r), 1,
        [⟨.warn, mainTarget, "template uses undeclared variables", "missing",
          toString r.missing.length⟩]⟩

def answerSummary (config : Config) (text : String) : Answer :=
  ⟨asLines [Text.truncate text config.template.truncateAt], 0, []⟩

def answer (command : Command) (config : Config) (text : String) : Answer :=
  match command with
  | .render format => answerRender format config text
  | .preview => answerPreview config text
  | .listVariables declared => answerVariables declared text
  | .summary => answerSummary config text

inductive Failure where
  | config (path : String) (e : LoadError)
  | input (path : Option String) (e : ReadError)

def Failure.message : Failure → String
  | .config path e => e.message path
  | .input (some path) _ => "reading " ++ path
  | .input none _ => "reading stdin"

def Failure.cause : Failure → String
  | .config _ e => e.cause
  | .input _ e => e.message

/-- The message and, indented, its cause. -/
def Failure.report (f : Failure) : String :=
  let cause := (Text.lines f.cause.toList).map fun l => String.ofList ("    ".toList ++ l)
  "Error: " ++ f.message ++ "\n\nCaused by:\n" ++ asLines cause

/-- The record of loading settings that did load. -/
def configRecord (path : String) (file : Except ReadError String) : LogRecord :=
  match file with
  | .ok _ => ⟨.debug, configTarget, "loaded config", "path", path⟩
  | .error _ => ⟨.debug, configTarget, "no config file, using defaults", "path", path⟩

def inputRecord (text : String) : LogRecord :=
  ⟨.debug, mainTarget, "read input", "bytes", toString text.utf8ByteSize⟩

def logFilter (setting : Option String) (verbosity : Nat) : LogFilter :=
  (setting.bind LogFilter.parse?).getD (LogFilter.ofVerbosity verbosity)

def logText (filter : LogFilter) (records : List LogRecord) : String :=
  String.join ((records.filter filter.admits).map LogRecord.line)

def run (inv : Invocation) (around : Surroundings) : Outcome :=
  let log := logText (logFilter around.logSetting inv.verbosity)
  let file := around.files.readText inv.configPath
  match loadConfig file with
  | .error e => ⟨1, "", (Failure.config inv.configPath e).report⟩
  | .ok config =>
    let loaded := configRecord inv.configPath file
    match readInput around inv.input with
    | .error e => ⟨1, "", log [loaded] ++ (Failure.input inv.input e).report⟩
    | .ok text =>
      let a := answer inv.command config text
      ⟨a.status, a.output, log ([loaded, inputRecord text] ++ a.records)⟩

end ChatMarkup.Cli
