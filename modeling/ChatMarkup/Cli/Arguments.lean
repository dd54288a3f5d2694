import ChatMarkup.Cli.Invocation

/-! # Reading the arguments of the command line

The options in front of the command name come first, then the command's own with at most one input file. A
long option takes its value behind an equals sign or as the next argument, a short one also without the
sign. Short options without a value may share one hyphen. Behind two hyphens all arguments are words.
-/
namespace ChatMarkup.Cli

inductive CommandName where
  | render
  | preview
  | listVariables
  | summary
  deriving DecidableEq, Repr

def CommandName.text : CommandName → String
  | .render => "render"
  | .preview => "preview"
  | .listVariables => "variables"
  | .summary => "summary"

def CommandName.ofText? (s : String) : Option CommandName :=
  [CommandName.render, .preview, .listVariables, .summary].find? (·.text = s)

inductive OptionName where
  | config
  | verbose
  | help
  | format
  | declared
  deriving DecidableEq, Repr

def OptionName.long : OptionName → String
  | .config => "config"
  | .verbose => "verbose"
  | .help => "help"
  | .format => "format"
  | .declared => "declared"

def OptionName.short : OptionName → Char
  | .config => 'c'
  | .verbose => 'v'
  | .help => 'h'
  | .format => 'f'
  | .declared => 'd'

def OptionName.takesValue : OptionName → Bool
  | .config | .format | .declared => true
  | .verbose | .help => false

/-- The options in front of the command name, or of a command. -/
def optionsOf : Option CommandName → List OptionName
  | some .render => [.config, .verbose, .help, .format]
  | some .listVariables => [.config, .verbose, .help, .declared]
  | _ => [.config, .verbose, .help]

inductive UsageError where
  | noCommand
  | unknownCommand (name : String)
  | unknownOption (name : String)
  | missingValue (option : OptionName)
  | emptyValue (option : OptionName)
  | unexpectedValue (option : OptionName)
  | repeatedOption (option : OptionName)
  | unknownFormat (name : String)
  | emptyInput
  | secondInput (path : String)
  deriving DecidableEq, Repr

def UsageError.message : UsageError → String
  | .noCommand => "a command is missing"
  | .unknownCommand name => "unknown command " ++ name
  | .unknownOption name => "unknown option " ++ name
  | .missingValue option => "the option --" ++ option.long ++ " needs a value"
  | .emptyValue option => "the value of --" ++ option.long ++ " is empty"
  | .unexpectedValue option => "the option --" ++ option.long ++ " takes no value"
  | .repeatedOption option => "the option --" ++ option.long ++ " is given twice"
  | .unknownFormat name => "unknown format " ++ name
  | .emptyInput => "the name of the input file is empty"
  | .secondInput path => "a second input file " ++ path

/-- Why the arguments are not read to their end. -/
inductive Stop where
  | help
  | usage (e : UsageError)
  deriving DecidableEq, Repr

/-- What has been given so far, in front of the command name or behind it. -/
structure Given where
  config : Option String := none
  verbosity : Nat := 0
  format : Option Format := none
  declared : Option (List String) := none
  input : Option String := none
  deriving DecidableEq, Repr

def splitCommas (value : String) : List String :=
  (value.toList.splitOn ',').map String.ofList

def refuse {α : Type} (e : UsageError) : Except Stop α := .error (.usage e)

namespace Given

def withValue (g : Given) (option : OptionName) (value : String) : Except Stop Given :=
  match option with
  | .config =>
    if g.config.isSome then refuse (.repeatedOption option)
    else if value = "" then refuse (.emptyValue option)
    else .ok { g with config := some value }
  | .format =>
    if g.format.isSome then refuse (.repeatedOption option)
    else match Format.ofName? value with
      | some format => .ok { g with format := some format }
      | none => refuse (.unknownFormat value)
  | .declared => .ok { g with declared := some (g.declared.getD [] ++ splitCommas value) }
  | .verbose | .help => refuse (.unexpectedValue option)

def withFlag (g : Given) (option : OptionName) : Except Stop Given :=
  match option with
  | .verbose => .ok { g with verbosity := g.verbosity + 1 }
  | .help => .error .help
  | _ => refuse (.missingValue option)

def withInput (g : Given) (path : String) : Except Stop Given :=
  if path = "" then refuse .emptyInput
  else if g.input.isSome then refuse (.secondInput path)
  else .ok { g with input := some path }

end Given

inductive Argument where
  /-- Two hyphens alone. -/
  | separator
  | long (name : String) (value : Option String)
  | short (cluster : List Char)
  | word (text : String)
  deriving DecidableEq, Repr

def Argument.ofText (s : String) : Argument :=
  match s.toList with
  | ['-', '-'] => .separator
  | '-' :: '-' :: cs =>
    match Text.splitAt? '=' cs with
    | some (name, value) => .long (String.ofList name) (some (String.ofList value))
    | none => .long (String.ofList cs) none
  | '-' :: c :: cs => .short (c :: cs)
  | _ => .word s

/-- Reads a cluster of short options. An option that takes a value takes the rest of the cluster; if there is
none, it is handed back to take the next argument. -/
def readCluster (options : List OptionName) (g : Given) :
    List Char → Except Stop (Given × Option OptionName)
  | [] => .ok (g, none)
  | c :: cs =>
    match options.find? (·.short = c) with
    | none => refuse (.unknownOption ("-" ++ String.singleton c))
    | some option =>
      if option.takesValue then
        match cs with
        | [] => .ok (g, some option)
        | '=' :: value => (g.withValue option (String.ofList value)).map (·, none)
        | value => (g.withValue option (String.ofList value)).map (·, none)
      else do readCluster options (← g.withFlag option) cs

/-- Reads the options up to the first word; the arguments from there on are handed back. With
`takesInput` a word is the input file instead, and the reading goes on. An option that awaits its value
takes the next argument only if that is a word. -/
def readOptions (options : List OptionName) (takesInput : Bool) (awaiting : Option OptionName)
    (g : Given) : List String → Except Stop (Given × List String)
  | [] =>
    match awaiting with
    | some option => refuse (.missingValue option)
    | none => .ok (g, [])
  | s :: rest =>
    match awaiting, Argument.ofText s with
    | some option, .word value => do
      readOptions options takesInput none (← g.withValue option value) rest
    | some option, _ => refuse (.missingValue option)
    | none, .separator =>
      if takesInput then do return (← rest.foldlM Given.withInput g, [])
      else refuse .noCommand
    | none, .word text =>
      if takesInput then do readOptions options takesInput none (← g.withInput text) rest
      else .ok (g, s :: rest)
    | none, .long name value =>
      match options.find? (·.long = name), value with
      | none, _ => refuse (.unknownOption s)
      | some option, some value =>
        if option.takesValue then do
          readOptions options takesInput none (← g.withValue option value) rest
        else refuse (.unexpectedValue option)
      | some option, none =>
        if option.takesValue then readOptions options takesInput (some option) g rest
        else do readOptions options takesInput none (← g.withFlag option) rest
    | none, .short cluster => do
      let (g, awaiting) ← readCluster options g cluster
      readOptions options takesInput awaiting g rest

def commandOf (name : CommandName) (g : Given) : Command :=
  match name with
  | .render => .render (g.format.getD .html)
  | .preview => .preview
  | .listVariables => .listVariables g.declared
  | .summary => .summary

def invocation (name : CommandName) (before behind : Given) : Invocation where
  configPath := (behind.config.or before.config).getD defaultConfigPath
  verbosity := if behind.verbosity = 0 then before.verbosity else behind.verbosity
  command := commandOf name behind
  input := behind.input

/-- The help on the program, on a command, or on the help itself. -/
def helpOn : List String → Stop
  | [] => .help
  | [name] =>
    if name = "help" || (CommandName.ofText? name).isSome then .help
    else .usage (.unknownCommand name)
  | name :: next :: _ =>
    if (CommandName.ofText? name).isSome then .usage (.unknownCommand next)
    else .usage (.unknownCommand name)

def parseArguments (args : List String) : Except Stop Invocation := do
  match ← readOptions (optionsOf none) false none {} args with
  | (_, []) => refuse .noCommand
  | (before, word :: rest) =>
    if word = "help" then .error (helpOn rest)
    else match CommandName.ofText? word with
      | none => refuse (.unknownCommand word)
      | some name => do
        let (behind, _) ← readOptions (optionsOf (some name)) true none {} rest
        return invocation name before behind

end ChatMarkup.Cli
