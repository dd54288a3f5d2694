import ChatMarkup.Cli.Arguments

/-! # Declared names on the command line

Names that are declared stand in front of those that later arguments declare, and change nothing else of what
is read from these. So the arguments of a command can be given again with the names in front of them.
-/
namespace ChatMarkup.Cli

/-- The same with some names declared first. -/
def Given.declaring (names : List String) (g : Given) : Given :=
  { g with declared := some (names ++ g.declared.getD []) }

variable (names : List String) (g : Given)

theorem withValue_declaring (option : OptionName) (value : String) :
    (g.declaring names).withValue option value =
      (g.withValue option value).map (Given.declaring names) := by
  cases option with
  | config =>
    rw [Given.withValue, Given.withValue, apply_ite (Except.map _), apply_ite (Except.map _)]
    rfl
  | format =>
    rw [Given.withValue, Given.withValue, apply_ite (Except.map _)]
    cases Format.ofName? value <;> rfl
  | declared => simp [Given.withValue, Given.declaring, Except.map, List.append_assoc]
  | verbose => rfl
  | help => rfl

theorem withFlag_declaring (option : OptionName) :
    (g.declaring names).withFlag option = (g.withFlag option).map (Given.declaring names) := by
  cases option <;> rfl

theorem withInput_declaring (path : String) :
    (g.declaring names).withInput path = (g.withInput path).map (Given.declaring names) := by
  rw [Given.withInput, Given.withInput, apply_ite (Except.map _), apply_ite (Except.map _)]
  rfl

/-- A step that goes along with a change of what it starts from. -/
theorem map_bind_of_commutes {ε α β : Type} {change : α → α} {change' : β → β} {f : α → Except ε β}
    (hf : ∀ a, f (change a) = (f a).map change') (x : Except ε α) :
    (x.map change >>= f) = (x >>= f).map change' := by
  cases x with
  | error e => rfl
  | ok a => exact hf a

theorem foldlM_withInput_declaring (paths : List String) :
    paths.foldlM Given.withInput (g.declaring names) =
      (paths.foldlM Given.withInput g).map (Given.declaring names) := by
  induction paths generalizing g with
  | nil => rfl
  | cons path paths ih =>
    rw [List.foldlM_cons, List.foldlM_cons, withInput_declaring]
    exact map_bind_of_commutes ih _

theorem readCluster_declaring (options : List OptionName) (cs : List Char) :
    readCluster options (g.declaring names) cs =
      (readCluster options g cs).map (Prod.map (Given.declaring names) id) := by
  induction cs generalizing g with
  | nil => rfl
  | cons c cs ih =>
    rw [readCluster, readCluster]
    split
    · rfl
    · rename_i option _
      split
      · split
        · rfl
        · rw [withValue_declaring]
          cases g.withValue option _ <;> rfl
        · rw [withValue_declaring]
          cases g.withValue option _ <;> rfl
      · rw [withFlag_declaring]
        exact map_bind_of_commutes ih _

theorem readOptions_declaring (options : List OptionName) (takesInput : Bool)
    (awaiting : Option OptionName) (args : List String) :
    readOptions options takesInput awaiting (g.declaring names) args =
      (readOptions options takesInput awaiting g args).map (Prod.map (Given.declaring names) id) := by
  induction args generalizing g awaiting with
  | nil => cases awaiting <;> rfl
  | cons s args ih =>
    have hrest : ∀ given, readOptions options takesInput none (given.declaring names) args =
        (readOptions options takesInput none given args).map (Prod.map (Given.declaring names) id) :=
      fun given => ih given none
    unfold readOptions
    split
    · rw [withValue_declaring]
      exact map_bind_of_commutes hrest _
    · rfl
    · split
      · rw [foldlM_withInput_declaring]
        cases args.foldlM Given.withInput g <;> rfl
      · rfl
    · split
      · rw [withInput_declaring]
        exact map_bind_of_commutes hrest _
      · rfl
    · split
      · rfl
      · split
        · rw [withValue_declaring]
          exact map_bind_of_commutes hrest _
        · rfl
      · split
        · exact ih _ _
        · rw [withFlag_declaring]
          exact map_bind_of_commutes hrest _
    · rw [readCluster_declaring]
      exact map_bind_of_commutes (fun p => ih p.1 p.2) _

/-- These arguments are options in front of the name of the command, each with its value. -/
def LeadsTo (front : List String) (before : Given) : Prop :=
  ∀ args, readOptions (optionsOf none) false none {} (front ++ "variables" :: args) =
    .ok (before, "variables" :: args)

theorem parseArguments_variables {front : List String} {before : Given} (h : LeadsTo front before)
    (args : List String) : parseArguments (front ++ "variables" :: args) =
      (readOptions (optionsOf (some .listVariables)) true none {} args).map
        fun p => invocation .listVariables before p.1 := by
  have hname : CommandName.ofText? "variables" = some .listVariables := rfl
  have hhelp : "variables" ≠ "help" := by decide
  simp only [parseArguments, h args, hname, hhelp, bind, Except.bind, if_false]
  cases readOptions (optionsOf (some .listVariables)) true none {} args <;> rfl

theorem readOptions_declared {value : String} (hvalue : Argument.ofText value = .word value)
    (args : List String) :
    readOptions (optionsOf (some .listVariables)) true none {} ("--declared" :: value :: args) =
      readOptions (optionsOf (some .listVariables)) true none
        (Given.declaring (splitCommas value) {}) args := by
  have hlong : Argument.ofText "--declared" = .long "declared" none := rfl
  have hfind : (optionsOf (some .listVariables)).find? (·.long = "declared") = some .declared := rfl
  have htakes : OptionName.declared.takesValue = true := rfl
  have hgiven : Given.withValue {} .declared value = .ok (Given.declaring (splitCommas value) {}) := by
    simp [Given.withValue, Given.declaring]
  rw [readOptions.eq_def]
  simp only [hlong, hfind, htakes, if_true]
  rw [readOptions.eq_def]
  simp only [hvalue, hgiven]
  rfl

/-- The same question with some names declared first. -/
def Invocation.declaring (names : List String) (inv : Invocation) : Invocation :=
  match inv.command with
  | .listVariables declared => { inv with command := .listVariables (some (names ++ declared.getD [])) }
  | _ => inv

/-- Names that are given right behind the name of the command. -/
theorem parseArguments_declared {front : List String} {before : Given} (h : LeadsTo front before)
    {value : String} (hvalue : Argument.ofText value = .word value) (args : List String) :
    parseArguments (front ++ "variables" :: "--declared" :: value :: args) =
      (parseArguments (front ++ "variables" :: args)).map
        (Invocation.declaring (splitCommas value)) := by
  rw [parseArguments_variables h, parseArguments_variables h, readOptions_declared hvalue,
    readOptions_declaring]
  cases readOptions (optionsOf (some .listVariables)) true none {} args <;> rfl

end ChatMarkup.Cli
