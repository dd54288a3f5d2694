import ChatMarkup.Proofs.Config.Strictness
import ChatMarkup.Proofs.Text.ByteOrder

/-! # The first offence against the schema

What the strict check objects to is said without the check: a section that is not known, one that is no
table, a key that is not known, a value that is not what its key takes. An offence has a place, which is its
section or its section and its key. Places are ordered by their sections first and their keys second, byte by
byte. The check refuses a table exactly when there is an offence, and reports the one at the first place,
however the table was written down.
-/
namespace ChatMarkup.Schema
open Toml (Located Value Entries EntriesDistinct sortEntries)

section Offences

/-- An offence of a value under a key of a known section, with its message. -/
inductive FieldOffends (s : ConfigSection) (key : String) (v : Value) : String → Prop
  | unknownKey : (∀ f ∈ s.settings, f.key ≠ key) →
      FieldOffends s key v ("unknown key " ++ s.name ++ "." ++ key)
  | notString {f : Setting} : f ∈ s.settings → f.key = key → f ≠ .truncateAt →
      (∀ text, v ≠ .string text) → FieldOffends s key v (s.name ++ "." ++ key ++ " must be a string")
  | notNatural : .truncateAt ∈ s.settings → Setting.truncateAt.key = key →
      (∀ n : Nat, v ≠ .integer n) → FieldOffends s key v (s.name ++ "." ++ key ++ " must be a integer")

/-- An offence in the entry of a table, with its place and its message. -/
inductive EntryOffends (name : String) (v : Value) : List String → String → Prop
  | unknownSection : (∀ s : ConfigSection, s.name ≠ name) →
      EntryOffends name v [name] ("unknown section [" ++ name ++ "]")
  | notTable {s : ConfigSection} : s.name = name → (∀ origin inner, v ≠ .table origin inner) →
      EntryOffends name v [name] ("[" ++ name ++ "] must be a table")
  | field {s : ConfigSection} {origin : Toml.TableOrigin} {inner : Entries} {key : String}
      {w : Located Value} {message : String} : s.name = name → v = .table origin inner →
      (key, w) ∈ inner → FieldOffends s key w.value message → EntryOffends name v [name, key] message

def Offends (es : Entries) (place : List String) (message : String) : Prop :=
  ∃ e ∈ es, EntryOffends e.1 e.2.value place message

/-- Of two places the first one in the order of their names, which are compared byte by byte. A section comes in
front of its keys. -/
def Before (place other : List String) : Prop :=
  place.map Text.utf8Bytes < other.map Text.utf8Bytes

/-- It is one of the offences, and all others are behind it. -/
def IsFirst (offends : List String → String → Prop) (place : List String) (message : String) : Prop :=
  offends place message ∧
    ∀ other text, offends other text → (other = place ∧ text = message) ∨ Before place other

end Offences

theorem before_of_head {name other : String} (h : name < other) (rest rest' : List String) :
    Before (name :: rest) (other :: rest') :=
  .rel (Text.utf8Bytes_lt_iff.2 h)

theorem Before.cons {place other : List String} (h : Before place other) (name : String) :
    Before (name :: place) (name :: other) :=
  List.Lex.cons h

theorem Before.asymm {place other : List String} (h : Before place other) : ¬ Before other place :=
  List.lt_asymm h

def Offence.place : Offence → List String
  | .unknownSection name | .notTable name => [name]
  | .unknownKey name key | .wrongKind name key _ => [name, key]

/-- The outcome of a search for offences: there are none, or this one is the first. -/
def Reports (offends : List String → String → Prop) : Option Offence → Prop
  | none => ∀ place message, ¬ offends place message
  | some o => IsFirst offends o.place o.message

theorem Reports.congr {offends other : List String → String → Prop} {o? : Option Offence}
    (h : Reports offends o?) (hiff : ∀ place message, offends place message ↔ other place message) :
    Reports other o? := by
  obtain rfl : offends = other := funext₂ fun place message => propext (hiff place message)
  exact h

theorem IsFirst.message_eq {offends : List String → String → Prop} {place other : List String}
    {message text : String} (h : IsFirst offends place message) (h' : IsFirst offends other text) :
    message = text := by
  rcases h.2 other text h'.1 with ⟨-, hmessage⟩ | hbefore
  · exact hmessage.symm
  · rcases h'.2 place message h.1 with ⟨-, hmessage⟩ | hbefore'
    · exact hmessage
    · exact absurd hbefore' hbefore.asymm

/-- There is only one outcome, apart from how the offence is represented. -/
theorem Reports.message_eq {offends : List String → String → Prop} {o? other? : Option Offence}
    (h : Reports offends o?) (h' : Reports offends other?) :
    o?.map Offence.message = other?.map Offence.message := by
  cases o? with
  | none =>
    cases other? with
    | none => rfl
    | some other => exact absurd h'.1 (h _ _)
  | some o =>
    cases other? with
    | none => exact absurd h.1 (h' _ _)
    | some other => exact congrArg some (IsFirst.message_eq h h')

/-- A search through the entries in the order of their keys finds the first offence of all, if it finds the
first one of each entry and the places of the entries are in that order. -/
theorem reports_search {es : Entries} (hes : (es.map Prod.fst).Nodup)
    {offends : String × Located Value → List String → String → Prop}
    {f : String × Located Value → Option Offence} (hf : ∀ e ∈ es, Reports (offends e) (f e))
    (hplaces : ∀ {e e' place message other text}, e.1 < e'.1 → offends e place message →
      offends e' other text → Before place other) :
    Reports (fun place message => ∃ e ∈ es, offends e place message)
      ((sortEntries es).findSome? f) := by
  cases hfind : (sortEntries es).findSome? f with
  | none =>
    rw [List.findSome?_eq_none_iff] at hfind
    rintro place message ⟨e, he, hoffends⟩
    have hnone := hf e he
    rw [hfind e (Toml.mem_sortEntries.2 he)] at hnone
    exact hnone place message hoffends
  | some o =>
    obtain ⟨front, e, behind, hsorted, hfe, hfront⟩ := List.findSome?_eq_some_iff.1 hfind
    have hmem : ∀ e', e' ∈ es ↔ e' ∈ front ∨ e' = e ∨ e' ∈ behind := by
      intro e'
      rw [← Toml.mem_sortEntries, hsorted, List.mem_append, List.mem_cons]
    have hpairs := Toml.sortEntries_pairwise hes
    rw [hsorted, List.pairwise_append, List.pairwise_cons] at hpairs
    have he : e ∈ es := (hmem e).2 (.inr (.inl rfl))
    have hfirst := hf e he
    rw [hfe] at hfirst
    refine ⟨⟨e, he, hfirst.1⟩, ?_⟩
    rintro other text ⟨e', he', hoffends⟩
    rcases (hmem e').1 he' with hbefore | rfl | hbehind
    · have hnone := hf e' he'
      rw [hfront e' hbefore] at hnone
      exact absurd hoffends (hnone other text)
    · exact hfirst.2 other text hoffends
    · exact .inr (hplaces (hpairs.2.1.1 e' hbehind) hfirst.1 hoffends)

section Fields
variable {s : ConfigSection} {key : String} {v : Value} {message : String}

theorem fieldOffends_iff_of_unknown (h : ∀ f ∈ s.settings, f.key ≠ key) :
    FieldOffends s key v message ↔ message = "unknown key " ++ s.name ++ "." ++ key := by
  constructor
  · intro hoffends
    cases hoffends with
    | unknownKey _ => rfl
    | notString hf hkey _ _ => exact absurd hkey (h _ hf)
    | notNatural hf hkey _ => exact absurd hkey (h _ hf)
  · rintro rfl
    exact .unknownKey h

theorem kind_of_ne {f : Setting} (h : f ≠ .truncateAt) : f.kind = .string := by
  cases f with
  | truncateAt => exact absurd rfl h
  | wrapperClass | quoteClass | codeClass | emptyPreview => rfl

theorem message_wrongKind (name key : String) (kind : Kind) : (Offence.wrongKind name key kind).message =
    name ++ "." ++ key ++ (" must be a " ++ kind.name) := String.append_assoc

theorem kind_refuses_iff {f : Setting} : f.kind.admits v = false ↔
    (f ≠ .truncateAt ∧ ∀ text, v ≠ .string text) ∨ (f = .truncateAt ∧ ∀ n : Nat, v ≠ .integer n) := by
  rw [Bool.eq_false_iff, Ne]
  by_cases htruncate : f = .truncateAt
  · have hkind : f.kind = .integer := by rw [htruncate]; rfl
    rw [hkind, kind_integer_admits_iff]
    simp [htruncate]
  · rw [kind_of_ne htruncate, kind_string_admits_iff]
    simp [htruncate]

theorem fieldOffends_iff_of_setting {f : Setting} (hf : f ∈ s.settings) :
    FieldOffends s f.key v message ↔
      f.kind.admits v = false ∧ message = (Offence.wrongKind s.name f.key f.kind).message := by
  rw [kind_refuses_iff, message_wrongKind]
  constructor
  · intro hoffends
    cases hoffends with
    | unknownKey h => exact absurd rfl (h f hf)
    | notString _ hkey hne hvalue =>
      obtain rfl := Setting.eq_of_key hkey
      exact ⟨.inl ⟨hne, hvalue⟩, by rw [kind_of_ne hne]; rfl⟩
    | notNatural _ hkey hvalue =>
      obtain rfl := Setting.eq_of_key hkey
      exact ⟨.inr ⟨rfl, hvalue⟩, rfl⟩
  · rintro ⟨⟨hne, hvalue⟩ | ⟨rfl, hvalue⟩, rfl⟩
    · rw [kind_of_ne hne]
      exact .notString hf rfl hne hvalue
    · exact .notNatural hf rfl hvalue

theorem reports_fieldOffence (s : ConfigSection) (entry : String × Located Value) :
    Reports (fun place message => place = [s.name, entry.1] ∧
      FieldOffends s entry.1 entry.2.value message) (fieldOffence? s.name s.fields entry) := by
  obtain ⟨key, v⟩ := entry
  rw [fieldOffence?, lookup_fields]
  cases hsetting : s.settingNamed? key with
  | none =>
    have hunknown : ∀ f ∈ s.settings, f.key ≠ key := fun f hf =>
      settingNamed?_eq_none_iff.1 hsetting f (mem_settings.1 hf)
    refine ⟨⟨rfl, .unknownKey hunknown⟩, ?_⟩
    rintro other text ⟨rfl, hoffends⟩
    exact .inl ⟨rfl, (fieldOffends_iff_of_unknown hunknown).1 hoffends⟩
  | some f =>
    obtain ⟨hhome, rfl⟩ := settingNamed?_eq_some_iff.1 hsetting
    have hf : f ∈ s.settings := mem_settings.2 hhome
    simp only [Option.map_some]
    split
    · rename_i hadmits
      rintro place message ⟨-, hoffends⟩
      have hrefused := ((fieldOffends_iff_of_setting hf).1 hoffends).1
      rw [hadmits] at hrefused
      cases hrefused
    · rename_i hrefused
      refine ⟨⟨rfl, (fieldOffends_iff_of_setting hf).2 ⟨by simpa using hrefused, rfl⟩⟩, ?_⟩
      rintro other text ⟨rfl, hoffends⟩
      exact .inl ⟨rfl, ((fieldOffends_iff_of_setting hf).1 hoffends).2⟩

end Fields

section Sections

theorem entryOffends_iff_of_unknown {name : String} (h : ∀ s : ConfigSection, s.name ≠ name)
    {v : Value} {place : List String} {message : String} : EntryOffends name v place message ↔
      place = [name] ∧ message = (Offence.unknownSection name).message := by
  constructor
  · intro hoffends
    cases hoffends with
    | unknownSection _ => exact ⟨rfl, rfl⟩
    | notTable hname _ => exact absurd hname (h _)
    | field hname _ _ _ => exact absurd hname (h _)
  · rintro ⟨rfl, rfl⟩
    exact .unknownSection h

theorem entryOffends_iff_of_section {s : ConfigSection} {v : Value} {place : List String}
    {message : String} : EntryOffends s.name v place message ↔
      ((∀ origin inner, v ≠ .table origin inner) ∧
        place = [s.name] ∧ message = (Offence.notTable s.name).message) ∨
      ∃ origin inner, v = .table origin inner ∧ ∃ entry ∈ inner,
        place = [s.name, entry.1] ∧ FieldOffends s entry.1 entry.2.value message := by
  constructor
  · intro hoffends
    cases hoffends with
    | unknownSection h => exact absurd rfl (h s)
    | notTable _ hvalue => exact .inl ⟨hvalue, rfl, rfl⟩
    | field hname hvalue hmem hoffends =>
      obtain rfl := ConfigSection.eq_of_name hname
      exact .inr ⟨_, _, hvalue, _, hmem, rfl, hoffends⟩
  · rintro (⟨hvalue, rfl, rfl⟩ | ⟨origin, inner, hvalue, ⟨key, w⟩, hmem, rfl, hoffends⟩)
    · exact .notTable rfl hvalue
    · exact .field rfl hvalue hmem hoffends

theorem reports_sectionOffence {e : String × Located Value} (he : e.2.value.KeysDistinct) :
    Reports (EntryOffends e.1 e.2.value) (sectionOffence? e) := by
  obtain ⟨name, v, range⟩ := e
  rw [sectionOffence?, lookup_sections]
  cases hsection : sectionNamed? name with
  | none =>
    have hunknown := sectionNamed?_eq_none_iff.1 hsection
    refine ⟨.unknownSection hunknown, fun other text hoffends => .inl ?_⟩
    exact (entryOffends_iff_of_unknown hunknown).1 hoffends
  | some s =>
    obtain rfl := sectionNamed?_eq_some_iff.1 hsection
    cases v with
    | table origin inner =>
      have hkeys : (inner.map Prod.fst).Nodup := (Toml.entriesDistinct_iff.1 he).1
      refine (reports_search hkeys (fun entry _ => reports_fieldOffence s entry) ?_).congr ?_
      · rintro e e' place message other text hlt ⟨rfl, -⟩ ⟨rfl, -⟩
        exact (before_of_head hlt [] []).cons s.name
      · intro place message
        rw [entryOffends_iff_of_section]
        simp
    | _ =>
      refine ⟨.notTable rfl fun _ _ => Value.noConfusion, fun other text hoffends => .inl ?_⟩
      rcases entryOffends_iff_of_section.1 hoffends with ⟨-, h⟩ | ⟨_, _, hvalue, _⟩
      · exact h
      · cases hvalue

theorem EntryOffends.exists_place {name : String} {v : Value} {place : List String} {message : String}
    (h : EntryOffends name v place message) : ∃ rest, place = name :: rest := by
  cases h with
  | unknownSection _ => exact ⟨[], rfl⟩
  | notTable _ _ => exact ⟨[], rfl⟩
  | field _ _ _ _ => exact ⟨_, rfl⟩

theorem reports_offence {es : Entries} (hes : EntriesDistinct es) :
    Reports (Offends es) (offence? es) := by
  obtain ⟨hkeys, hinner⟩ := Toml.entriesDistinct_iff.1 hes
  refine reports_search hkeys (fun e he => reports_sectionOffence (hinner e he)) ?_
  intro e e' place message other text hlt hoffends hoffends'
  obtain ⟨rest, rfl⟩ := hoffends.exists_place
  obtain ⟨rest', rfl⟩ := hoffends'.exists_place
  exact before_of_head hlt rest rest'

end Sections

section Order

/-- The same value, but for where it is written and for the order of the keys of tables, at any depth. -/
inductive Reordered : Value → Value → Prop
  | same (v : Value) : Reordered v v
  | array {origin origin' : Toml.ArrayOrigin} {items items' : List (Located Value)} :
      items.length = items'.length →
      (∀ (i : Nat) (v w : Located Value), items[i]? = some v → items'[i]? = some w →
        Reordered v.value w.value) →
      Reordered (.array origin items) (.array origin' items')
  | table {origin origin' : Toml.TableOrigin} {es es' : Entries} :
      (es.map Prod.fst).Perm (es'.map Prod.fst) →
      (∀ key v w, (key, v) ∈ es → (key, w) ∈ es' → Reordered v.value w.value) →
      Reordered (.table origin es) (.table origin' es')

theorem Reordered.symm {v w : Value} (h : Reordered v w) : Reordered w v := by
  induction h with
  | same v => exact .same v
  | array hlength _ ih => exact .array hlength.symm fun i v w hv hw => ih i w v hw hv
  | table hkeys _ ih => exact .table hkeys.symm fun key v w hv hw => ih key w v hw hv

theorem Reordered.exists_entry {origin origin' : Toml.TableOrigin} {es es' : Entries}
    (h : Reordered (.table origin es) (.table origin' es')) {e : String × Located Value} (he : e ∈ es) :
    ∃ e' ∈ es', e'.1 = e.1 ∧ Reordered e.2.value e'.2.value := by
  cases h with
  | same _ => exact ⟨e, he, rfl, .same _⟩
  | table hkeys hvalues =>
    obtain ⟨e', he', hkey⟩ := List.mem_map.1 (hkeys.mem_iff.1 (List.mem_map_of_mem he))
    exact ⟨e', he', hkey, hvalues e.1 e.2 e'.2 he (hkey ▸ he')⟩

theorem FieldOffends.reordered {s : ConfigSection} {key : String} {v w : Value} {message : String}
    (h : FieldOffends s key v message) (hvw : Reordered v w) : FieldOffends s key w message := by
  cases h with
  | unknownKey hunknown => exact .unknownKey hunknown
  | notString hf hkey hne hvalue =>
    refine .notString hf hkey hne ?_
    rintro text rfl
    cases hvw
    exact hvalue text rfl
  | notNatural hf hkey hvalue =>
    refine .notNatural hf hkey ?_
    rintro n rfl
    cases hvw
    exact hvalue n rfl

theorem EntryOffends.reordered {name : String} {v w : Value} {place : List String} {message : String}
    (h : EntryOffends name v place message) (hvw : Reordered v w) :
    EntryOffends name w place message := by
  cases h with
  | unknownSection hunknown => exact .unknownSection hunknown
  | notTable hname hvalue =>
    refine .notTable hname ?_
    rintro origin inner rfl
    cases hvw with
    | same _ => exact hvalue _ _ rfl
    | table _ _ => exact hvalue _ _ rfl
  | field hname hvalue hmem hoffends =>
    subst hvalue
    have hinner : ∃ origin inner, w = .table origin inner := by
      cases hvw with
      | same _ => exact ⟨_, _, rfl⟩
      | table _ _ => exact ⟨_, _, rfl⟩
    obtain ⟨origin, inner, rfl⟩ := hinner
    obtain ⟨⟨key, u⟩, hmem', rfl, hreordered⟩ := hvw.exists_entry hmem
    exact .field hname rfl hmem' (hoffends.reordered hreordered)

theorem Offends.reordered {es es' : Entries} {place : List String} {message : String}
    (h : Offends es place message) (hes : Reordered (.table .header es) (.table .header es')) :
    Offends es' place message := by
  obtain ⟨e, he, hoffends⟩ := h
  obtain ⟨e', he', hkey, hvalue⟩ := hes.exists_entry he
  exact ⟨e', he', hkey ▸ hoffends.reordered hvalue⟩

end Order

section Check
variable {es : Entries}

theorem check_eq (es : Entries) : check es =
    ((offence? es).map Offence.message).elim (.ok ()) .error := by
  rw [check]
  cases offence? es <;> rfl

theorem check_ok_iff (hes : EntriesDistinct es) :
    check es = .ok () ↔ ∀ place message, ¬ Offends es place message := by
  have hreports := reports_offence hes
  rw [check]
  cases hoffence : offence? es with
  | none =>
    rw [hoffence] at hreports
    exact iff_of_true rfl hreports
  | some o =>
    rw [hoffence] at hreports
    exact iff_of_false (by simp) fun hnone => hnone _ _ hreports.1

theorem check_error_iff (hes : EntriesDistinct es) {message : String} :
    check es = .error message ↔ ∃ place, IsFirst (Offends es) place message := by
  have hreports := reports_offence hes
  rw [check]
  cases hoffence : offence? es with
  | none =>
    rw [hoffence] at hreports
    refine iff_of_false (by simp) ?_
    rintro ⟨place, hfirst⟩
    exact hreports _ _ hfirst.1
  | some o =>
    rw [hoffence] at hreports
    constructor
    · rintro ⟨⟩
      exact ⟨o.place, hreports⟩
    · rintro ⟨place, hfirst⟩
      exact congrArg Except.error (IsFirst.message_eq hreports hfirst)

theorem check_reordered {es' : Entries} (hes : EntriesDistinct es) (hes' : EntriesDistinct es')
    (h : Reordered (.table .header es) (.table .header es')) : check es' = check es := by
  have hreports : Reports (Offends es) (offence? es') :=
    (reports_offence hes').congr fun _ _ =>
      ⟨fun hoffends => hoffends.reordered h.symm, fun hoffends => hoffends.reordered h⟩
  rw [check_eq, check_eq, hreports.message_eq (reports_offence hes)]

/-- The check passes a table if there is no offence, and otherwise refuses it with the message of the first
one. In which order the keys are written makes no difference. -/
theorem check_first_offence (hes : EntriesDistinct es) :
    (check es = .ok () ↔ ∀ place message, ¬ Offends es place message) ∧
    (∀ message, check es = .error message ↔ ∃ place, IsFirst (Offends es) place message) ∧
    ∀ es', EntriesDistinct es' → Reordered (.table .header es) (.table .header es') →
      check es' = check es :=
  ⟨check_ok_iff hes, fun _ => check_error_iff hes, fun _ hes' h => check_reordered hes hes' h⟩

/-- Of a negative limit and a class that is a number, the class is reported, although it is written last. -/
theorem check_first_offence_unsorted :
    ∃ place, IsFirst (Offends [
      ("template", ⟨.table .header [("truncate_at", ⟨.integer (-1), ⟨[], []⟩⟩)], ⟨[], []⟩⟩),
      ("html", ⟨.table .header [("quote_class", ⟨.string "q", ⟨[], []⟩⟩),
        ("code_class", ⟨.integer 1, ⟨[], []⟩⟩)], ⟨[], []⟩⟩)])
      place "html.code_class must be a string" := by
  refine ((check_first_offence ?_).2.1 _).1 ?_
  · simp [EntriesDistinct, Value.KeysDistinct]
  · have hsorted : ∀ {a b : String × Located Value}, a.1 < b.1 → sortEntries [b, a] = [a, b] := by
      intro a b hlt
      simp [sortEntries, List.mergeSort, List.MergeSort.Internal.splitInTwo, hlt]
    rw [check, offence?, hsorted (by decide)]
    simp only [List.findSome?_cons, sectionOffence?, sections]
    rw [hsorted (by decide)]
    rfl

end Check

end ChatMarkup.Schema
