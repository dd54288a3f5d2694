import ChatMarkup.Proofs.Cli.Declaring
import ChatMarkup.Proofs.Cli.Status
import ChatMarkup.Proofs.Config.Default

/-! # Listing names and checking them

The names that a run lists are the ones that it accepts: joined by commas and declared for the same template
they pass, each of them that is left out is reported as missing, and a name that is put behind them is
reported as unused and changes nothing else.
-/
namespace ChatMarkup.Cli
open Template (IsName StrictAt variableNames checkVariables)

/-- The lines of an output, each of which ends with a line feed. -/
def printedLines (output : String) : List String :=
  (Text.lines output.toList).dropLast.map String.ofList

theorem lines_asLines {ls : List String} (h : ∀ l ∈ ls, '\n' ∉ l.toList) :
    Text.lines (asLines ls).toList = ls.map String.toList ++ [[]] := by
  induction ls with
  | nil => rfl
  | cons l ls ih =>
    have hlist : (asLines (l :: ls)).toList = l.toList ++ '\n' :: (asLines ls).toList := by
      simp [asLines, String.toList_join]
    have hhead : l.toList.splitOn '\n' = [l.toList] :=
      List.splitOn_eq_singleton (h l List.mem_cons_self)
    have hrest := ih fun m hm => h m (List.mem_cons_of_mem l hm)
    rw [Text.lines] at hrest
    rw [hlist, Text.lines, List.splitOn_append_cons_self, hhead, hrest]
    rfl

theorem printedLines_asLines {ls : List String} (h : ∀ l ∈ ls, '\n' ∉ l.toList) :
    printedLines (asLines ls) = ls := by
  rw [printedLines, lines_asLines h, List.dropLast_concat, List.map_map]
  exact List.map_id'' (fun _ => String.ofList_toList) ls

theorem exists_trimLineEnd_append (s : List Char) :
    ∃ behind, s = trimLineEnd s ++ behind ∧ ∀ c ∈ behind, c = '\n' ∨ c = '\r' := by
  have hrev : s = s.reverse.reverse := s.reverse_reverse.symm
  unfold trimLineEnd
  split
  · rename_i r hr
    rw [hr] at hrev
    exact ⟨['\r', '\n'], by simpa using hrev, by simp⟩
  · rename_i r _ hr
    rw [hr] at hrev
    exact ⟨['\n'], by simpa using hrev, by simp⟩
  · exact ⟨[], (List.append_nil s).symm, by simp⟩

/-- The end of the last line belongs to no placeholder. -/
theorem variableNames_trimmed (text : String) : variableNames (trimmed text) = variableNames text := by
  obtain ⟨behind, htext, hbehind⟩ := exists_trimLineEnd_append text.toList
  have habsent : ∀ name, IsName name → ∀ c ∈ Template.braced name, c ∉ behind := by
    intro name hname c hc hmem
    rcases hbehind c hmem with rfl | rfl
    · exact hname.not_mem_braced (by decide) (by decide) (by decide) hc
    · exact hname.not_mem_braced (by decide) (by decide) (by decide) hc
  rw [variableNames, variableNames, trimmed, String.toList_ofList, htext,
    Template.names_append_of_absent habsent, ← htext]

theorem checkVariables_trimmed (text : String) (declared : List String) :
    checkVariables (trimmed text) declared = checkVariables text declared := by
  simp only [checkVariables, variableNames_trimmed]

def joinCommas (names : List String) : String := ",".intercalate names

theorem toList_joinCommas (names : List String) :
    (joinCommas names).toList = [','].intercalate (names.map String.toList) := by
  rw [joinCommas, String.toList_intercalate]
  rfl

theorem splitCommas_joinCommas_of_commaFree {names : List String} (hne : names ≠ [])
    (h : ∀ name ∈ names, ',' ∉ name.toList) : splitCommas (joinCommas names) = names := by
  have hsplit : ([','].intercalate (names.map String.toList)).splitOn ',' =
      names.map String.toList := by
    refine List.splitOn_intercalate ',' ?_ (mt List.map_eq_nil_iff.1 hne)
    intro part hpart
    obtain ⟨name, hname, rfl⟩ := List.mem_map.1 hpart
    exact h name hname
  rw [splitCommas, toList_joinCommas, hsplit, List.map_map]
  exact List.map_id'' (fun _ => String.ofList_toList) names

/-- Names that can be given as one argument: none has a comma, and the first one does not look like an
option. -/
structure Declarable (names : List String) : Prop where
  startsWithName : ∃ first rest, names = first :: rest ∧ IsName first.toList
  commaFree : ∀ name ∈ names, ',' ∉ name.toList

theorem declarable_of_isName {names : List String} (hne : names ≠ [])
    (h : ∀ name ∈ names, IsName name.toList) : Declarable names where
  startsWithName := by
    obtain ⟨first, rest, rfl⟩ := List.exists_cons_of_ne_nil hne
    exact ⟨first, rest, rfl, h first List.mem_cons_self⟩
  commaFree name hname := (h name hname).not_mem (by decide)

theorem declarable_variableNames {text : String}
    (hused : ∃ start name, StrictAt text.toList start name) : Declarable (variableNames text) := by
  obtain ⟨start, name, hstrict⟩ := hused
  have hmem : String.ofList name ∈ variableNames text :=
    Template.mem_variableNames_iff.2 ⟨start, by rwa [String.toList_ofList]⟩
  exact declarable_of_isName (List.ne_nil_of_mem hmem)
    fun _ hname => Template.isName_of_mem_variableNames hname

theorem declarable_erase {text name : String} (hname : name ∈ variableNames text)
    (hlen : 2 ≤ (variableNames text).length) : Declarable ((variableNames text).erase name) := by
  have hlength := List.length_erase_of_mem hname
  have hne : (variableNames text).erase name ≠ [] := List.ne_nil_of_length_pos (by omega)
  exact declarable_of_isName hne
    fun _ hother => Template.isName_of_mem_variableNames (List.mem_of_mem_erase hother)

theorem Declarable.append {names : List String} (h : Declarable names) {extra : String}
    (hextra : ',' ∉ extra.toList) : Declarable (names ++ [extra]) where
  startsWithName := by
    obtain ⟨first, rest, rfl, hfirst⟩ := h.startsWithName
    exact ⟨first, rest ++ [extra], rfl, hfirst⟩
  commaFree := by
    intro name hname
    rcases List.mem_append.1 hname with hname | hname
    · exact h.commaFree name hname
    · rw [List.mem_singleton.1 hname]
      exact hextra

theorem Declarable.splitCommas_joinCommas {names : List String} (h : Declarable names) :
    splitCommas (joinCommas names) = names := by
  obtain ⟨first, rest, rfl, -⟩ := h.startsWithName
  exact splitCommas_joinCommas_of_commaFree (List.cons_ne_nil first rest) h.commaFree

theorem Declarable.ofText_joinCommas {names : List String} (h : Declarable names) :
    Argument.ofText (joinCommas names) = .word (joinCommas names) := by
  obtain ⟨first, rest, rfl, hfirst⟩ := h.startsWithName
  obtain ⟨c, cs, hcs⟩ := List.exists_cons_of_ne_nil hfirst.1
  have hhyphen : '-' ∉ first.toList := hfirst.not_mem (by decide)
  have hc : c ≠ '-' := by
    rintro rfl
    exact hhyphen (by simp [hcs])
  have hjoin : ∃ ds, (joinCommas (first :: rest)).toList = c :: ds := by
    rw [toList_joinCommas, List.map_cons, hcs]
    cases rest with
    | nil => exact ⟨cs, List.intercalate_singleton⟩
    | cons next rest => exact ⟨_, Text.intercalate_singleton_cons_cons ',' (c :: cs) next.toList _⟩
  obtain ⟨ds, hds⟩ := hjoin
  rw [Argument.ofText, hds]
  split <;> simp_all

/-- The command line that lists names, with arguments in front of the command and behind it. -/
def listingArguments (front args : List String) : List String := front ++ "variables" :: args

/-- The same command line with names to check. -/
def checkingArguments (front names args : List String) : List String :=
  front ++ "variables" :: "--declared" :: joinCommas names :: args

/-- The arguments are accepted, and their run ends with that status and prints these lines. -/
def Prints (around : Surroundings) (args : List String) (status : Nat) (ls : List String) : Prop :=
  ∃ inv, parseArguments args = .ok inv ∧ (run inv around).status = status ∧
    (run inv around).stdout = asLines ls ∧ printedLines (run inv around).stdout = ls

/-- The arguments ask for the names of this text: they declare none, the settings load, and the text is the
input. -/
def AsksForNames (around : Surroundings) (front args : List String) (text : String) : Prop :=
  ∃ before inv config, LeadsTo front before ∧ parseArguments (listingArguments front args) = .ok inv ∧
    inv.command = .listVariables none ∧ settings inv around = .ok config ∧
    inputBytes around inv.input = .ok text.toUTF8

theorem prints_of_run {around : Surroundings} {args : List String} {inv : Invocation} {status : Nat}
    {ls : List String} {log : String} (hargs : parseArguments args = .ok inv)
    (hrun : run inv around = ⟨status, asLines ls, log⟩) (h : ∀ l ∈ ls, '\n' ∉ l.toList) :
    Prints around args status ls := by
  refine ⟨inv, hargs, ?_⟩
  rw [hrun]
  exact ⟨rfl, rfl, printedLines_asLines h⟩

/-- Missing names come from the text, so only the unused ones could break a line. -/
theorem newline_not_mem_reportLines {text : String} {declared : List String}
    (h : ∀ name ∈ (checkVariables text declared).unused, '\n' ∉ name.toList) :
    ∀ l ∈ reportLines (checkVariables text declared), '\n' ∉ l.toList := by
  intro l hl
  rcases List.mem_append.1 hl with hl | hl
  · obtain ⟨name, hname, rfl⟩ := List.mem_map.1 hl
    have hused : name ∈ variableNames text := List.mem_of_mem_filter hname
    simpa using (Template.isName_of_mem_variableNames hused).not_mem (by decide)
  · obtain ⟨name, hname, rfl⟩ := List.mem_map.1 hl
    simpa using h name hname

section
variable {around : Surroundings} {front args : List String} {text : String}

theorem AsksForNames.prints_names (h : AsksForNames around front args text) :
    Prints around (listingArguments front args) 0 (variableNames text) := by
  obtain ⟨before, inv, config, -, hargs, hcommand, hconfig, htext⟩ := h
  obtain ⟨log, hrun⟩ := run_of_input_ok hconfig (inputText_eq_ok_iff.2 htext)
  rw [hcommand] at hrun
  have hlines : ∀ name ∈ variableNames text, '\n' ∉ name.toList :=
    fun name hname => (Template.isName_of_mem_variableNames hname).not_mem (by decide)
  rw [← variableNames_trimmed] at hlines ⊢
  exact prints_of_run hargs hrun hlines

theorem run_declaring {inv : Invocation} {config : Config} (hcommand : inv.command = .listVariables none)
    (hconfig : settings inv around = .ok config) (htext : inputText around inv.input = .ok text)
    (declared : List String) :
    ∃ log, run (inv.declaring declared) around =
      ⟨if (checkVariables text declared).missing = [] then 0 else 1,
        asLines (reportLines (checkVariables text declared)), log⟩ := by
  have hinv : inv.declaring declared = { inv with command := .listVariables (some declared) } := by
    simp [Invocation.declaring, hcommand]
  obtain ⟨houtput, hstatus⟩ := answerVariables_some declared (trimmed text)
  rw [checkVariables_trimmed] at houtput hstatus
  rw [hinv, ← houtput, ← hstatus]
  have hrun : ∃ log, run { inv with command := .listVariables (some declared) } around =
      ⟨_, _, log⟩ := run_of_input_ok hconfig htext
  exact hrun

theorem AsksForNames.prints_report (h : AsksForNames around front args text) {declared : List String}
    (hdeclared : Declarable declared) {missing unused : List String}
    (hreport : checkVariables text declared = ⟨missing, unused⟩)
    (hunused : ∀ name ∈ unused, '\n' ∉ name.toList) :
    Prints around (checkingArguments front declared args) (if missing = [] then 0 else 1)
      (missing.map ("missing: " ++ ·) ++ unused.map ("unused: " ++ ·)) := by
  obtain ⟨before, inv, config, hfront, hargs, hcommand, hconfig, htext⟩ := h
  have hparse : parseArguments (checkingArguments front declared args) =
      .ok (inv.declaring declared) := by
    rw [listingArguments] at hargs
    rw [checkingArguments, parseArguments_declared hfront hdeclared.ofText_joinCommas, hargs,
      hdeclared.splitCommas_joinCommas]
    rfl
  obtain ⟨log, hrun⟩ := run_declaring hcommand hconfig (inputText_eq_ok_iff.2 htext) declared
  have hlines : ∀ l ∈ reportLines ⟨missing, unused⟩, '\n' ∉ l.toList := by
    rw [← hreport]
    apply newline_not_mem_reportLines
    rwa [hreport]
  rw [hreport] at hrun
  exact prints_of_run hparse hrun hlines

/-- One more name behind the declared ones. -/
theorem AsksForNames.prints_unused (h : AsksForNames around front args text) {declared : List String}
    (hdeclared : Declarable declared) (hsub : ∀ name ∈ declared, name ∈ variableNames text)
    {missing : List String} (hreport : checkVariables text declared = ⟨missing, []⟩) {extra : String}
    (hcomma : ',' ∉ extra.toList) (hline : '\n' ∉ extra.toList) (hextra : extra ∉ variableNames text) :
    Prints around (checkingArguments front (declared ++ [extra]) args) (if missing = [] then 0 else 1)
      (missing.map ("missing: " ++ ·) ++ ["unused: " ++ extra]) := by
  have hmore := Template.checkVariables_append_unused hsub hextra
  rw [hreport] at hmore
  exact h.prints_report (hdeclared.append hcomma) hmore (by simpa using hline)

/-- What a template lists passes its own check. Each name that is left out is missed, and one more name is
reported as unused, without a change to the rest. -/
theorem listed_names_pass (h : AsksForNames around front args text)
    (hused : ∃ start name, StrictAt text.toList start name) :
    (∀ name, name ∈ variableNames text ↔ ∃ start, StrictAt text.toList start name.toList) ∧
    (variableNames text).Nodup ∧
    Prints around (listingArguments front args) 0 (variableNames text) ∧
    Prints around (checkingArguments front (variableNames text) args) 0 [] ∧
    (∀ extra, ',' ∉ extra.toList → '\n' ∉ extra.toList → extra ∉ variableNames text →
      Prints around (checkingArguments front (variableNames text ++ [extra]) args) 0
        ["unused: " ++ extra]) ∧
    ∀ name ∈ variableNames text, 2 ≤ (variableNames text).length →
      Prints around (checkingArguments front ((variableNames text).erase name) args) 1
        ["missing: " ++ name] ∧
      ∀ extra, ',' ∉ extra.toList → '\n' ∉ extra.toList → extra ∉ variableNames text →
        Prints around (checkingArguments front ((variableNames text).erase name ++ [extra]) args) 1
          ["missing: " ++ name, "unused: " ++ extra] := by
  have hall : Declarable (variableNames text) := declarable_variableNames hused
  have hpass := Template.checkVariables_variableNames text
  refine ⟨fun name => Template.mem_variableNames_iff, Template.nodup_variableNames text,
    h.prints_names, h.prints_report hall hpass (by simp), ?_, ?_⟩
  · intro extra hcomma hline hextra
    exact h.prints_unused hall (fun _ hm => hm) hpass hcomma hline hextra
  · intro name hname hlen
    have hrest : Declarable ((variableNames text).erase name) := declarable_erase hname hlen
    have hmiss := Template.checkVariables_erase hname
    refine ⟨h.prints_report hrest hmiss (by simp), ?_⟩
    intro extra hcomma hline hextra
    exact h.prints_unused hrest (fun _ hm => List.mem_of_mem_erase hm) hmiss hcomma hline hextra

end

/-- Two names on standard input, of which the second is left out and an empty one put behind the first. -/
theorem listed_names_pass_two_names :
    let around : Surroundings :=
      ⟨fun _ => .error .notFound, "\x7b\x7bb\x7d\x7d \x7b\x7ba\x7d\x7d\n".toUTF8, none⟩
    AsksForNames around ["-v"] [] "\x7b\x7bb\x7d\x7d \x7b\x7ba\x7d\x7d\n" ∧
    Prints around ["-v", "variables"] 0 ["b", "a"] ∧
    Prints around ["-v", "variables", "--declared", "b,a"] 0 [] ∧
    Prints around ["-v", "variables", "--declared", "b,"] 1 ["missing: a", "unused: "] := by
  intro around
  have hasks : AsksForNames around ["-v"] [] "\x7b\x7bb\x7d\x7d \x7b\x7ba\x7d\x7d\n" :=
    ⟨{ verbosity := 1 }, ⟨"wa-markup.toml", 1, .listVariables none, none⟩, {}, fun _ => rfl, rfl, rfl,
      loadConfig_notFound, rfl⟩
  have hused : StrictAt "\x7b\x7bb\x7d\x7d \x7b\x7ba\x7d\x7d\n".toList 0 ['b'] := by
    refine ⟨⟨List.cons_ne_nil 'b' [], ?_⟩, " \x7b\x7ba\x7d\x7d\n".toList, rfl⟩
    exact List.forall_mem_singleton.2 rfl
  obtain ⟨-, -, hlisted, hpassed, -, herased⟩ := listed_names_pass hasks ⟨0, ['b'], hused⟩
  have hnames : variableNames "\x7b\x7bb\x7d\x7d \x7b\x7ba\x7d\x7d\n" = ["b", "a"] := by
    decide +kernel
  rw [hnames] at hlisted hpassed herased
  obtain ⟨-, hextra⟩ := herased "a" (by decide) (by decide)
  exact ⟨hasks, hlisted, hpassed, hextra "" (by decide) (by decide) (by decide)⟩

end ChatMarkup.Cli
