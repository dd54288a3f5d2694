import ChatMarkup.Config.Decode
import ChatMarkup.Proofs.Toml.Sorted
import Mathlib.Data.List.Nodup

/-! # What is read of the settings

A table gives a setting under its key, an array at its position in the declaration of the section. The
values of a document are visited in a fixed order: the keys of a table as they are sorted, also those that
name nothing, and the items of an array as the settings are declared.
-/
namespace ChatMarkup
open Toml (Located Value Entries sortEntries EntriesDistinct)

inductive ConfigSection where
  | html
  | template
  deriving DecidableEq, Repr

inductive Setting where
  | wrapperClass
  | quoteClass
  | codeClass
  | truncateAt
  | emptyPreview
  deriving DecidableEq, Repr

namespace ConfigSection

def name : ConfigSection → String
  | html => "html"
  | template => "template"

def wanted : ConfigSection → Wanted
  | html => .htmlSection
  | template => .templateSection

/-- The settings of a section in the order of their declaration. -/
def settings : ConfigSection → List Setting
  | html => [.wrapperClass, .quoteClass, .codeClass]
  | template => [.truncateAt, .emptyPreview]

end ConfigSection

namespace Setting

def home : Setting → ConfigSection
  | wrapperClass | quoteClass | codeClass => .html
  | truncateAt | emptyPreview => .template

def key : Setting → String
  | wrapperClass => "wrapper_class"
  | quoteClass => "quote_class"
  | codeClass => "code_class"
  | truncateAt => "truncate_at"
  | emptyPreview => "empty_preview"

def wanted : Setting → Wanted
  | wrapperClass | quoteClass | codeClass | emptyPreview => .string
  | truncateAt => .size

/-- What a section gives for the setting. -/
def givenIn? (f : Setting) (v : Located Value) : Option (Located Value) :=
  match v.value with
  | .table _ es => es.lookup f.key
  | .array _ items => items[f.home.settings.idxOf f]?
  | _ => none

/-- What a document gives for the setting. -/
def given? (f : Setting) (es : Entries) : Option (Located Value) :=
  (es.lookup f.home.name).bind f.givenIn?

end Setting

/-- A setting as a TOML value. -/
def Config.get (c : Config) : Setting → Value
  | .wrapperClass => .string c.html.wrapper
  | .quoteClass => .string c.html.quote
  | .codeClass => .string c.html.code
  | .truncateAt => .integer c.template.truncateAt
  | .emptyPreview => .string c.template.emptyPreview

/-- A size is an integer of 64 bits without a sign, a section a table or an array. What is passed over may be
anything, but its integers are of at most 128 bits and its floats of double precision. -/
def Wanted.Admits : Wanted → Value → Prop
  | .string, v => ∃ s, v = .string s
  | .size, v => ∃ n : Int, v = .integer n ∧ 0 ≤ n ∧ n ≤ 18446744073709551615
  | .htmlSection, v | .templateSection, v =>
    (∃ origin es, v = .table origin es) ∨ ∃ origin items, v = .array origin items
  | .anything, v => v.isWithin Toml.word128 = true

/-- A value that is visited, and what it has to be. -/
structure Visit where
  found : Located Value
  wanted : Wanted

def Visit.IsRight (w : Visit) : Prop := w.wanted.Admits w.found.value

section Names

def sectionNamed? (name : String) : Option ConfigSection :=
  [.html, .template].find? fun s : ConfigSection => s.name == name

def ConfigSection.settingNamed? (s : ConfigSection) (key : String) : Option Setting :=
  s.settings.find? fun f => f.key == key

theorem mem_settings {s : ConfigSection} {f : Setting} : f ∈ s.settings ↔ f.home = s := by
  cases s <;> cases f <;> decide

theorem sectionNamed?_eq_some_iff {name : String} {s : ConfigSection} :
    sectionNamed? name = some s ↔ s.name = name := by
  constructor
  · intro h
    simpa using List.find?_some h
  · rintro rfl
    cases s <;> decide

theorem sectionNamed?_eq_none_iff {name : String} :
    sectionNamed? name = none ↔ ∀ s : ConfigSection, s.name ≠ name := by
  rw [Option.eq_none_iff_forall_ne_some]
  exact forall_congr' fun s => not_congr sectionNamed?_eq_some_iff

theorem ConfigSection.eq_of_name {s t : ConfigSection} (h : s.name = t.name) : s = t := by
  cases s <;> cases t <;> first | rfl | exact absurd h (by decide)

theorem settingNamed?_eq_some_iff {s : ConfigSection} {key : String} {f : Setting} :
    s.settingNamed? key = some f ↔ f.home = s ∧ f.key = key := by
  constructor
  · intro h
    exact ⟨mem_settings.mp (List.mem_of_find?_eq_some h), by simpa using List.find?_some h⟩
  · rintro ⟨rfl, rfl⟩
    cases f <;> decide

theorem settingNamed?_eq_none_iff {s : ConfigSection} {key : String} :
    s.settingNamed? key = none ↔ ∀ f : Setting, f.home = s → f.key ≠ key := by
  rw [Option.eq_none_iff_forall_ne_some]
  refine forall_congr' fun f => ?_
  rw [Ne, settingNamed?_eq_some_iff, not_and]

theorem Setting.eq_of_key {f g : Setting} (h : f.key = g.key) : f = g := by
  cases f <;> cases g <;> first | rfl | exact absurd h (by decide)

end Names

section Order

/-- What the value of a key in a section has to be. -/
def ConfigSection.wantedAt (s : ConfigSection) (key : String) : Wanted :=
  ((s.settingNamed? key).map Setting.wanted).getD .anything

/-- The entries of a section in the order in which they are visited. The items of an array are those of the
settings as they are declared. -/
def ConfigSection.entries (s : ConfigSection) : Value → Entries
  | .table _ es => sortEntries es
  | .array _ items => (s.settings.map Setting.key).zip items
  | _ => []

def ConfigSection.entryVisit (s : ConfigSection) (e : String × Located Value) : Visit :=
  ⟨e.2, s.wantedAt e.1⟩

/-- A section is visited before what it gives. -/
def ConfigSection.visits (s : ConfigSection) (v : Located Value) : List Visit :=
  ⟨v, s.wanted⟩ :: (s.entries v.value).map s.entryVisit

def entryVisits (e : String × Located Value) : List Visit :=
  match sectionNamed? e.1 with
  | some s => s.visits e.2
  | none => [⟨e.2, .anything⟩]

/-- The values of a document in the order in which they are visited. -/
def visits (es : Entries) : List Visit := (sortEntries es).flatMap entryVisits

/-- The values that are passed over: those of keys that name no section, and in the table of a section those
of keys that name no setting of it. -/
inductive PassedOver (es : Entries) : Located Value → Prop where
  | unknownSection {name : String} {v : Located Value} :
      (name, v) ∈ es → (∀ s : ConfigSection, s.name ≠ name) → PassedOver es v
  | unknownKey {s : ConfigSection} {t : Located Value} {origin : Toml.TableOrigin} {inner : Entries}
      {key : String} {v : Located Value} : (s.name, t) ∈ es → t.value = .table origin inner →
      (key, v) ∈ inner → (∀ f : Setting, f.home = s → f.key ≠ key) → PassedOver es v

end Order

section Entries

theorem wantedAt_key {s : ConfigSection} {f : Setting} (h : f.home = s) : s.wantedAt f.key = f.wanted := by
  rw [ConfigSection.wantedAt, settingNamed?_eq_some_iff.mpr ⟨h, rfl⟩]
  rfl

theorem wantedAt_of_unknown {s : ConfigSection} {key : String}
    (h : ∀ f : Setting, f.home = s → f.key ≠ key) : s.wantedAt key = .anything := by
  rw [ConfigSection.wantedAt, settingNamed?_eq_none_iff.mpr h]
  rfl

/-- The items of a list are given to as many keys. -/
theorem lookup_zip_map_key (items : List (Located Value)) {fs : List Setting} {f : Setting}
    (hf : f ∈ fs) : ((fs.map Setting.key).zip items).lookup f.key = items[fs.idxOf f]? := by
  induction fs generalizing items with
  | nil => cases hf
  | cons g fs ih =>
    cases items with
    | nil => rfl
    | cons item items =>
      rw [List.map_cons, List.zip_cons_cons, List.lookup_cons]
      by_cases hg : g = f
      · simp [hg]
      · have hkey : f.key ≠ g.key := fun h => hg (Setting.eq_of_key h).symm
        rw [List.idxOf_cons_ne fs hg, beq_false_of_ne hkey]
        exact ih items ((List.mem_cons.mp hf).resolve_left (Ne.symm hg))

theorem keys_zip_sublist (keys : List String) (items : List (Located Value)) :
    ((keys.zip items).map Prod.fst).Sublist keys := by
  induction keys generalizing items with
  | nil => exact List.Sublist.slnil
  | cons key keys ih =>
    cases items with
    | nil => exact List.nil_sublist _
    | cons item items => exact (ih items).cons_cons key

variable {s : ConfigSection} {v : Located Value} (hv : v.value.KeysDistinct)
include hv

theorem nodup_keys_entries : ((s.entries v.value).map Prod.fst).Nodup := by
  obtain ⟨v, range⟩ := v
  cases v with
  | table origin es => exact Toml.nodup_keys_sortEntries (Toml.entriesDistinct_iff.mp hv).1
  | array origin items =>
    have hkeys : (s.settings.map Setting.key).Nodup := by cases s <;> decide
    exact hkeys.sublist (keys_zip_sublist _ items)
  | _ => exact .nil

theorem lookup_entries {f : Setting} (hf : f.home = s) :
    (s.entries v.value).lookup f.key = f.givenIn? v := by
  obtain ⟨v, range⟩ := v
  cases v with
  | table origin es => exact Toml.lookup_sortEntries (Toml.entriesDistinct_iff.mp hv).1 f.key
  | array origin items =>
    rw [ConfigSection.entries, lookup_zip_map_key items (mem_settings.mpr hf), ← hf]
    rfl
  | _ => rfl

omit hv in
/-- The entries of a section with keys that name no setting are all in tables. -/
theorem mem_entries_of_unknown {key : String} {w : Located Value}
    (hkey : ∀ f : Setting, f.home = s → f.key ≠ key) : (key, w) ∈ s.entries v.value ↔
      ∃ origin inner, v.value = .table origin inner ∧ (key, w) ∈ inner := by
  obtain ⟨v, range⟩ := v
  cases v with
  | table origin es => simp [ConfigSection.entries]
  | array origin items =>
    refine iff_of_false (fun hmem => ?_) (by simp)
    obtain ⟨f, hf, rfl⟩ := List.mem_map.mp (List.of_mem_zip hmem).1
    exact hkey f (mem_settings.mp hf) rfl
  | _ => simp [ConfigSection.entries]

theorem ConfigSection.forall_visits : (∀ w ∈ s.visits v, w.IsRight) ↔ s.wanted.Admits v.value ∧
    (∀ f : Setting, f.home = s → ∀ w, f.givenIn? v = some w → f.wanted.Admits w.value) ∧
    ∀ origin inner key w, v.value = .table origin inner → (key, w) ∈ inner →
      (∀ f : Setting, f.home = s → f.key ≠ key) → Wanted.anything.Admits w.value := by
  have hgiven : ∀ {f : Setting}, f.home = s → ∀ w,
      f.givenIn? v = some w ↔ (f.key, w) ∈ s.entries v.value := fun hf w => by
    rw [← lookup_entries hv hf, Toml.lookup_eq_some_iff (nodup_keys_entries hv)]
  rw [ConfigSection.visits, List.forall_mem_cons, List.forall_mem_map]
  refine and_congr Iff.rfl ⟨fun h => ⟨fun f hf w hw => ?_, ?_⟩, ?_⟩
  · have hright := h _ ((hgiven hf w).mp hw)
    rwa [Visit.IsRight, ConfigSection.entryVisit, wantedAt_key hf] at hright
  · intro origin inner key w hvalue hmem hkey
    have hright := h _ ((mem_entries_of_unknown hkey).mpr ⟨origin, inner, hvalue, hmem⟩)
    rwa [Visit.IsRight, ConfigSection.entryVisit, wantedAt_of_unknown hkey] at hright
  · rintro ⟨hsettings, hunknown⟩ ⟨key, w⟩ hmem
    rw [Visit.IsRight, ConfigSection.entryVisit]
    cases hnamed : s.settingNamed? key with
    | some f =>
      obtain ⟨hf, rfl⟩ := settingNamed?_eq_some_iff.mp hnamed
      rw [wantedAt_key hf]
      exact hsettings f hf w ((hgiven hf w).mpr hmem)
    | none =>
      have hkey := settingNamed?_eq_none_iff.mp hnamed
      obtain ⟨origin, inner, hvalue, hmem⟩ := (mem_entries_of_unknown hkey).mp hmem
      rw [wantedAt_of_unknown hkey]
      exact hunknown origin inner key w hvalue hmem hkey

end Entries

/-- All visited values are right if and only if the sections are, all that is given for a setting, and all that
is passed over. -/
theorem forall_visits {es : Entries} (hes : EntriesDistinct es) :
    (∀ w ∈ visits es, w.IsRight) ↔
      (∀ (s : ConfigSection) v, es.lookup s.name = some v → s.wanted.Admits v.value) ∧
      (∀ (f : Setting) v, f.given? es = some v → f.wanted.Admits v.value) ∧
      ∀ v, PassedOver es v → Wanted.anything.Admits v.value := by
  obtain ⟨hkeys, hvalues⟩ := Toml.entriesDistinct_iff.mp hes
  have hentries : (∀ w ∈ visits es, w.IsRight) ↔ ∀ e ∈ es, ∀ w ∈ entryVisits e, w.IsRight := by
    rw [visits, List.forall_mem_flatMap]
    simp only [Toml.mem_sortEntries]
  have hsection : ∀ {s : ConfigSection} {v}, entryVisits (s.name, v) = s.visits v := by
    intro s v
    rw [entryVisits, sectionNamed?_eq_some_iff.mpr rfl]
  rw [hentries]
  constructor
  · intro h
    have hvisits : ∀ {s : ConfigSection} {v}, (s.name, v) ∈ es → ∀ w ∈ s.visits v, w.IsRight :=
      fun hmem => hsection ▸ h _ hmem
    refine ⟨fun s v hv => ?_, fun f w hw => ?_, fun v hv => ?_⟩
    · exact hvisits (Toml.mem_of_lookup hv) _ List.mem_cons_self
    · obtain ⟨v, hv, hw⟩ := Option.bind_eq_some_iff.mp hw
      have hright := (ConfigSection.forall_visits (hes.lookup hv)).mp (hvisits (Toml.mem_of_lookup hv))
      exact hright.2.1 f rfl w hw
    · cases hv with
      | @unknownSection name v hmem hname =>
        have hright := h _ hmem
        rw [entryVisits, sectionNamed?_eq_none_iff.mpr hname] at hright
        exact hright _ List.mem_cons_self
      | unknownKey hmem hvalue hinner hkey =>
        have hright := (ConfigSection.forall_visits (hvalues _ hmem)).mp (hvisits hmem)
        exact hright.2.2 _ _ _ _ hvalue hinner hkey
  · rintro ⟨hsections, hsettings, hpassed⟩ ⟨name, v⟩ hmem
    cases hnamed : sectionNamed? name with
    | none =>
      rw [entryVisits, hnamed]
      refine List.forall_mem_singleton.mpr (hpassed v ?_)
      exact .unknownSection hmem (sectionNamed?_eq_none_iff.mp hnamed)
    | some s =>
      obtain rfl := sectionNamed?_eq_some_iff.mp hnamed
      have hlookup := (Toml.lookup_eq_some_iff hkeys).mpr hmem
      rw [hsection, ConfigSection.forall_visits (hvalues _ hmem)]
      refine ⟨hsections s v hlookup, ?_, fun _ _ _ _ hvalue hinner hkey => ?_⟩
      · rintro f rfl w hw
        exact hsettings f w (Option.bind_eq_some_iff.mpr ⟨v, hlookup, hw⟩)
      · exact hpassed _ (.unknownKey hmem hvalue hinner hkey)

end ChatMarkup
