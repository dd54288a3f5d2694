import ChatMarkup.Cli.Arguments
import ChatMarkup.Cli.Run

/-! # The command line program

Reads the arguments, the two files that a run may ask for, the standard input and the log setting, and
writes what the run answers.
-/
namespace ChatMarkup

def readCause : IO.Error → ReadError
  | .inappropriateType _ code _ => if code = 20 then .notDirectory else .isDirectory
  | .permissionDenied _ _ _ => .permissionDenied
  | .invalidArgument _ code _ => if code = 36 then .nameTooLong else .notFound
  | _ => .notFound

def readFile (path : String) : IO (Except ReadError ByteArray) := do
  try return .ok (← IO.FS.readBinFile path)
  catch e => return .error (readCause e)

/-- Reads the settings file and the input, and shows them to the run as its whole file system. The
input is left alone if the settings do not load. -/
def surroundings (inv : Cli.Invocation) : IO Cli.Surroundings := do
  let logSetting ← IO.getEnv "WA_MARKUP_LOG"
  let configFile ← readFile inv.configPath
  let loads := (loadConfig (configFile.bind decodeText)).isOk
  let mut inputFile : Except ReadError ByteArray := .error .notFound
  let mut stdin := ByteArray.empty
  if loads then
    match inv.input with
    | some path => inputFile ← readFile path
    | none => stdin ← (← IO.getStdin).readBinToEnd
  let files : Files := fun path => if path = inv.configPath then configFile else inputFile
  return ⟨files, stdin, logSetting⟩

def helpText : String :=
  "Usage: wa-markup [OPTIONS] <COMMAND>\n\nCommands: render, preview, variables, summary, help\n"

def runProgram (args : List String) : IO UInt32 := do
  match Cli.parseArguments args with
  | .error .help =>
    IO.print helpText
    return 0
  | .error (.usage e) =>
    IO.eprint ("error: " ++ e.message ++ "\n")
    return 2
  | .ok inv =>
    let outcome := Cli.run inv (← surroundings inv)
    IO.eprint outcome.stderr
    IO.print outcome.stdout
    return outcome.status.toUInt32

end ChatMarkup

def main (args : List String) : IO UInt32 := ChatMarkup.runProgram args
