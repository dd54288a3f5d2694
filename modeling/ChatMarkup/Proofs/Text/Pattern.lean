/-! # Patterns and their preferred matches

A pattern can match the head of a text in several ways. `ways` lists them in the order in which a
backtracking search tries them: all ways of the first alternative before those of the second, and
of a run of characters the longer ones first or the shorter ones first. The match is the first way
that goes through to the end of the pattern.
-/
namespace ChatMarkup.Text

inductive Preference where
  | longest
  | shortest
  deriving DecidableEq

inductive Pattern where
  | literal (cs : List Char)
  | oneOrMore (preference : Preference) (accepts : Char → Bool)
  | group (index : Nat) (inner : Pattern)
  | seq (first second : Pattern)
  | orElse (first second : Pattern)

structure Match where
  matched : List Char
  groups : List (Nat × List Char)
  rest : List Char

def Match.append (m n : Match) : Match := ⟨m.matched ++ n.matched, m.groups ++ n.groups, n.rest⟩

/-- The non-empty runs of accepted characters at the head of a text, each with what is left. -/
def runs (preference : Preference) (accepts : Char → Bool) : List Char → List (List Char × List Char)
  | [] => []
  | c :: s =>
    if accepts c then
      let longer := (runs preference accepts s).map fun (run, rest) => (c :: run, rest)
      match preference with
      | .longest => longer ++ [([c], s)]
      | .shortest => ([c], s) :: longer
    else []

def Pattern.ways : Pattern → List Char → List Match
  | .literal cs, s => if cs.isPrefixOf s then [⟨cs, [], s.drop cs.length⟩] else []
  | .oneOrMore preference accepts, s =>
    (runs preference accepts s).map fun (run, rest) => ⟨run, [], rest⟩
  | .group index inner, s =>
    (inner.ways s).map fun m => { m with groups := (index, m.matched) :: m.groups }
  | .seq first second, s => (first.ways s).flatMap fun m => (second.ways m.rest).map m.append
  | .orElse first second, s => first.ways s ++ second.ways s

def Pattern.match? (p : Pattern) (s : List Char) : Option Match := (p.ways s).head?

/-- Accepted characters between two marks, as a group. -/
def Pattern.bracketed (opening closing : List Char) (index : Nat) (preference : Preference)
    (accepts : Char → Bool) : Pattern :=
  .seq (.literal opening) (.seq (.group index (.oneOrMore preference accepts)) (.literal closing))

theorem Pattern.match?_orElse (p q : Pattern) (s : List Char) :
    (p.orElse q).match? s = (p.match? s).or (q.match? s) := by
  rw [match?, ways, List.head?_append]
  rfl

/-- The closing mark behind the preferred run that it stands behind. -/
def closedRun? (closing : List Char) (preference : Preference) (accepts : Char → Bool)
    (s : List Char) : Option (List Char × List Char) :=
  (runs preference accepts s).findSome? fun (run, rest) =>
    if closing.isPrefixOf rest then some (run, rest.drop closing.length) else none

/-- Only the choice of the run is left to the search. -/
theorem Pattern.match?_bracketed (opening closing : List Char) (index : Nat)
    (preference : Preference) (accepts : Char → Bool) (s : List Char) :
    (bracketed opening closing index preference accepts).match? (opening ++ s) =
      (closedRun? closing preference accepts s).map fun (run, rest) =>
        ⟨opening ++ (run ++ closing), [(index, run)], rest⟩ := by
  have hopening : opening.isPrefixOf (opening ++ s) = true :=
    List.isPrefixOf_iff_prefix.2 (List.prefix_append opening s)
  simp only [match?, bracketed, ways, hopening, if_true, List.flatMap_singleton,
    List.drop_left, List.head?_map, List.head?_flatMap, List.findSome?_map, closedRun?]
  rw [List.map_findSome?, List.map_findSome?]
  congr 1
  funext p
  simp only [Function.comp_apply]
  split <;> rfl

theorem Pattern.match?_bracketed_of_not_prefix {opening : List Char} (closing : List Char)
    (index : Nat) (preference : Preference) (accepts : Char → Bool) {s : List Char}
    (h : ¬ opening <+: s) : (bracketed opening closing index preference accepts).match? s = none := by
  have hopening : opening.isPrefixOf s = false := by
    rw [← Bool.not_eq_true, List.isPrefixOf_iff_prefix]
    exact h
  simp [match?, bracketed, ways, hopening]

/-- A run can stop behind its first character or go on; the preference says what is tried first. -/
theorem closedRun?_cons (closing : List Char) (preference : Preference) (accepts : Char → Bool)
    (c : Char) (s : List Char) : closedRun? closing preference accepts (c :: s) =
      if accepts c then
        let stop := if closing.isPrefixOf s then some ([c], s.drop closing.length) else none
        let longer := (closedRun? closing preference accepts s).map fun (run, rest) => (c :: run, rest)
        match preference with
        | .longest => longer.or stop
        | .shortest => stop.or longer
      else none := by
  have hlonger : ((runs preference accepts s).map fun (run, rest) => (c :: run, rest)).findSome?
      (fun (run, rest) =>
        if closing.isPrefixOf rest then some (run, rest.drop closing.length) else none) =
      (closedRun? closing preference accepts s).map fun (run, rest) => (c :: run, rest) := by
    rw [List.findSome?_map, closedRun?, List.map_findSome?]
    congr 1
    funext p
    simp only [Function.comp_apply]
    split <;> rfl
  rw [closedRun?, runs]
  split
  · cases preference with
    | longest =>
      rw [List.findSome?_append, hlonger]
      cases hstop : closing.isPrefixOf s <;> simp only [List.findSome?_cons, hstop] <;> rfl
    | shortest =>
      rw [List.findSome?_cons, hlonger]
      cases hstop : closing.isPrefixOf s <;> simp only [hstop] <;> rfl
  · rfl

end ChatMarkup.Text
