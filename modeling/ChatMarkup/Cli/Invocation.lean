import ChatMarkup.Text.Split

/-! # What a command line asks for

The command, its options, the settings file and the verbosity, as far as they are given. An option that is
given at the command counts more than the same one in front of it.
-/
namespace ChatMarkup.Cli

inductive Format where
  | html
  | json
  | text
  deriving DecidableEq, Repr

def Format.ofName? (name : String) : Option Format :=
  if name = "html" then some .html
  else if name = "json" then some .json
  else if name = "text" then some .text
  else none

inductive Command where
  | render (format : Format)
  | preview
  | listVariables (declared : Option (List String))
  | summary
  deriving DecidableEq, Repr

def defaultConfigPath : String := "wa-markup.toml"

structure Invocation where
  configPath : String
  verbosity : Nat
  command : Command
  /-- The file to read; standard input if there is none. -/
  input : Option String
  deriving DecidableEq, Repr

end ChatMarkup.Cli
