import ChatMarkup.Cli.Run
import ChatMarkup.Proofs.Template.Declared

/-! # How a run ends

A run reads its settings first and its input after that. If one of them cannot be read, the run reports that
and writes no output. Any other run succeeds, unless it checks a template that uses a name which is not
declared. Then it fails after its output is written.
-/
namespace ChatMarkup.Cli
open Template (StrictAt variableNames checkVariables)

/-- The bytes of the chosen input. -/
def inputBytes (around : Surroundings) : Option String → Except ReadError ByteArray
  | some path => around.files path
  | none => .ok around.stdin

def inputText (around : Surroundings) (input : Option String) : Except ReadError String :=
  (inputBytes around input).bind decodeText

def settings (inv : Invocation) (around : Surroundings) : Except LoadError Config :=
  loadConfig (around.files.readText inv.configPath)

def trimmed (text : String) : String := String.ofList (trimLineEnd text.toList)

theorem fromUTF8?_eq_some_iff {bytes : ByteArray} {text : String} :
    String.fromUTF8? bytes = some text ↔ bytes = text.toUTF8 := by
  unfold String.fromUTF8?
  constructor
  · intro h
    split at h
    · cases h
      rfl
    · cases h
  · rintro rfl
    exact dif_pos text.isValidUTF8

theorem decodeText_eq_ok_iff {bytes : ByteArray} {text : String} :
    decodeText bytes = .ok text ↔ bytes = text.toUTF8 := by
  rw [← fromUTF8?_eq_some_iff, decodeText]
  cases String.fromUTF8? bytes <;> simp

/-- An input can be read exactly when its bytes are those of a text. -/
theorem inputText_eq_ok_iff {around : Surroundings} {input : Option String} {text : String} :
    inputText around input = .ok text ↔ inputBytes around input = .ok text.toUTF8 := by
  rw [inputText]
  cases inputBytes around input with
  | error e => simp [Except.bind]
  | ok bytes => simp [Except.bind, decodeText_eq_ok_iff]

theorem readInput_eq (around : Surroundings) (input : Option String) :
    readInput around input = (inputText around input).map trimmed := by
  cases input <;> rfl

theorem run_of_input_ok {inv : Invocation} {around : Surroundings} {config : Config} {text : String}
    (hconfig : settings inv around = .ok config) (h : inputText around inv.input = .ok text) :
    ∃ log, run inv around = ⟨(answer inv.command config (trimmed text)).status,
      (answer inv.command config (trimmed text)).output, log⟩ := by
  have hread : readInput around inv.input = .ok (trimmed text) := by
    rw [readInput_eq, h]
    rfl
  rw [settings] at hconfig
  simp only [run, hconfig, hread]
  exact ⟨_, rfl⟩

/-- The run ends with the report of that failure, behind what it has logged. -/
def Outcome.Reports (o : Outcome) (f : Failure) : Prop :=
  o.status = 1 ∧ o.stdout = "" ∧ ∃ log, o.stderr = log ++ f.report

theorem answerVariables_some (declared : List String) (text : String) :
    (answerVariables (some declared) text).output = asLines (reportLines (checkVariables text declared)) ∧
    (answerVariables (some declared) text).status =
      if (checkVariables text declared).missing = [] then 0 else 1 := by
  simp only [answerVariables, List.isEmpty_iff]
  split
  · exact ⟨rfl, rfl⟩
  · exact ⟨rfl, rfl⟩

end ChatMarkup.Cli
