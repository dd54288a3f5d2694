import ChatMarkup.Config.Load
import ChatMarkup.Config.Schema
import ChatMarkup.Proofs.Config.Decoding
import ChatMarkup.Proofs.Toml.Generic
import ChatMarkup.Proofs.Toml.Yields

/-! # The strict check and the decoder

The schema names the sections and keys that the decoder knows, and asks of a value what the decoder asks
of it, as long as no integer has more than 64 bits with a sign. So what passes the check is decoded, and
every value of it is the one of a setting.
-/
namespace ChatMarkup
open Toml (Located Value Entries IsGeneric)

/-- The kind that the schema gives to a setting. -/
def Setting.kind : Setting → Schema.Kind
  | wrapperClass | quoteClass | codeClass | emptyPreview => .string
  | truncateAt => .integer

def ConfigSection.fields (s : ConfigSection) : Schema.Fields :=
  s.settings.map fun f => (f.key, f.kind)

/-- What is read without a schema is a table for the check. -/
theorem isGeneric_of_parseTable? {text : String} {es : Entries} (h : parseTable? text = some es) :
    IsGeneric es := by
  obtain ⟨fs, hparse, hes⟩ := Option.bind_eq_some_iff.mp h
  exact Toml.isGeneric_of_genericEntries? (Toml.parse?_distinct hparse) hes

section Schema

theorem lookup_map {α β : Type} (l : List α) (key : α → String) (value : α → β) (name : String) :
    (l.map fun a => (key a, value a)).lookup name = (l.find? fun a => key a == name).map value := by
  induction l with
  | nil => rfl
  | cons a l ih =>
    rw [List.map_cons, List.lookup_cons, List.find?_cons, ih, BEq.comm]
    cases key a == name <;> rfl

/-- The schema is made of the sections and settings that are decoded. -/
theorem lookup_sections (name : String) :
    Schema.sections.lookup name = (sectionNamed? name).map ConfigSection.fields :=
  lookup_map [ConfigSection.html, .template] ConfigSection.name ConfigSection.fields name

theorem lookup_fields (s : ConfigSection) (key : String) :
    s.fields.lookup key = (s.settingNamed? key).map Setting.kind :=
  lookup_map s.settings Setting.key Setting.kind key

theorem Schema.kind_string_admits_iff {v : Value} :
    Kind.string.admits v = true ↔ ∃ text, v = .string text := by
  cases v with
  | string text => exact ⟨fun _ => ⟨text, rfl⟩, fun _ => rfl⟩
  | _ => simp [Kind.admits]

theorem Schema.kind_integer_admits_iff {v : Value} :
    Kind.integer.admits v = true ↔ ∃ n : Nat, v = .integer n := by
  cases v with
  | integer n =>
    constructor
    · intro h
      obtain ⟨m, rfl⟩ := Int.eq_ofNat_of_zero_le (of_decide_eq_true h)
      exact ⟨m, rfl⟩
    · rintro ⟨m, hm⟩
      cases hm
      exact decide_eq_true (Int.natCast_nonneg m)
  | _ => simp [Kind.admits]

/-- Of a value with an integer of at most 64 bits with a sign, the schema and the decoder ask the same. -/
theorem kind_admits_iff {f : Setting} {v : Value} (hv : v.isWithin Toml.signed64 = true) :
    f.kind.admits v = true ↔ f.wanted.Admits v := by
  have hsize : Schema.Kind.integer.admits v = true ↔ Wanted.size.Admits v := by
    rw [Schema.kind_integer_admits_iff]
    constructor
    · rintro ⟨n, rfl⟩
      rw [Value.isWithin, Toml.Bounds.admits, Bool.and_eq_true] at hv
      have hn : (n : Int) ≤ 9223372036854775807 := of_decide_eq_true hv.2
      exact ⟨n, rfl, by omega, by omega⟩
    · rintro ⟨n, rfl, hnonneg, -⟩
      exact ⟨n.toNat, congrArg Value.integer (Int.toNat_of_nonneg hnonneg).symm⟩
  cases f with
  | truncateAt => exact hsize
  | wrapperClass | quoteClass | codeClass | emptyPreview => exact Schema.kind_string_admits_iff

theorem fieldOffence?_eq_none_iff {name : String} {s : ConfigSection}
    {entry : String × Located Value} :
    Schema.fieldOffence? name s.fields entry = none ↔
      ∃ f, s.settingNamed? entry.1 = some f ∧ f.kind.admits entry.2.value = true := by
  rw [Schema.fieldOffence?, lookup_fields]
  cases s.settingNamed? entry.1 with
  | none => simp
  | some f => simp

theorem sectionOffence?_eq_none_iff {entry : String × Located Value} :
    Schema.sectionOffence? entry = none ↔ ∃ s, sectionNamed? entry.1 = some s ∧
      ∃ origin inner, entry.2.value = .table origin inner ∧ ∀ e ∈ inner,
        ∃ f, s.settingNamed? e.1 = some f ∧ f.kind.admits e.2.value = true := by
  rw [Schema.sectionOffence?, lookup_sections]
  cases sectionNamed? entry.1 with
  | none => simp
  | some s =>
    cases entry.2.value with
    | table origin inner =>
      simp [List.findSome?_eq_none_iff, fieldOffence?_eq_none_iff]
    | _ => simp

/-- A value that is admitted has not changed on the way to the check. -/
theorem eq_of_generic?_of_admits {k : Schema.Kind} {v w : Value} (hw : k.admits w = true)
    (h : v.generic? = some w) : v = w := by
  obtain rfl | rfl | ⟨_, _, _, -, rfl⟩ | ⟨_, _, _, -, rfl, -⟩ := Toml.generic?_cases h
  · cases k <;> cases hw
  · rfl
  · cases k <;> cases hw
  · cases k <;> cases hw

end Schema

section Table

/-- The value stands under the key in the table of the given name. -/
def WrittenAt (es : Entries) (name key : String) (v : Located Value) : Prop :=
  ∃ t, (name, t) ∈ es ∧ ∃ origin inner, t.value = .table origin inner ∧ (key, v) ∈ inner

/-- Every entry of the document is the table of a section. -/
def OnlySections (es : Entries) : Prop :=
  ∀ e ∈ es, ∃ s : ConfigSection, s.name = e.1 ∧ ∃ origin inner, e.2.value = .table origin inner

theorem offence?_eq_none_iff {es : Entries} :
    Schema.offence? es = none ↔ OnlySections es ∧ ∀ name key v, WrittenAt es name key v →
      ∃ f : Setting, f.home.name = name ∧ f.key = key ∧ f.kind.admits v.value = true := by
  rw [Schema.offence?, List.findSome?_eq_none_iff]
  simp only [Toml.mem_sortEntries, sectionOffence?_eq_none_iff, sectionNamed?_eq_some_iff,
    settingNamed?_eq_some_iff]
  constructor
  · intro h
    refine ⟨fun e he => ?_, ?_⟩
    · obtain ⟨s, hname, origin, inner, hvalue, -⟩ := h e he
      exact ⟨s, hname, origin, inner, hvalue⟩
    · rintro name key v ⟨t, ht, origin, inner, hvalue, hv⟩
      obtain ⟨s, hname, origin', inner', hvalue', hinner⟩ := h _ ht
      obtain ⟨-, rfl⟩ := Value.table.inj (hvalue.symm.trans hvalue')
      obtain ⟨f, ⟨rfl, hkey⟩, hadmits⟩ := hinner _ hv
      exact ⟨f, hname, hkey, hadmits⟩
  · rintro ⟨honly, hwritten⟩ e he
    obtain ⟨s, hname, origin, inner, hvalue⟩ := honly e he
    refine ⟨s, hname, origin, inner, hvalue, fun entry hentry => ?_⟩
    obtain ⟨f, hhome, hkey, hadmits⟩ :=
      hwritten e.1 entry.1 entry.2 ⟨e.2, he, origin, inner, hvalue, hentry⟩
    exact ⟨f, ⟨ConfigSection.eq_of_name (hhome.trans hname.symm), hkey⟩, hadmits⟩

/-- What a document of tables gives for a setting is what is written under its key. -/
theorem given?_eq_some_iff {es : Entries} (hes : Toml.EntriesDistinct es) (honly : OnlySections es)
    {f : Setting} {v : Located Value} :
    f.given? es = some v ↔ WrittenAt es f.home.name f.key v := by
  rw [Setting.given?, Option.bind_eq_some_iff]
  have hlookup : ∀ t, es.lookup f.home.name = some t ↔ (f.home.name, t) ∈ es := fun t =>
    Toml.lookup_eq_some_iff (Toml.entriesDistinct_iff.mp hes).1
  refine exists_congr fun t => ?_
  rw [hlookup]
  refine and_congr_right fun ht => ?_
  obtain ⟨s, hname, origin, inner, hvalue⟩ := honly _ ht
  have hinner : (inner.map Prod.fst).Nodup := by
    have hdistinct := (Toml.entriesDistinct_iff.mp hes).2 _ ht
    rw [hvalue] at hdistinct
    exact (Toml.entriesDistinct_iff.mp hdistinct).1
  rw [Setting.givenIn?, hvalue]
  exact (Toml.lookup_eq_some_iff hinner).trans (by simp)

theorem WrittenAt.isWithin {es : Entries} {name key : String} {v : Located Value} {b : Toml.Bounds}
    (hes : Toml.entriesWithin b es = true) (h : WrittenAt es name key v) :
    v.value.isWithin b = true := by
  obtain ⟨t, ht, origin, inner, hvalue, hv⟩ := h
  have hinner := Toml.entriesWithin_iff.mp hes _ ht
  rw [hvalue] at hinner
  exact Toml.entriesWithin_iff.mp hinner _ hv

theorem OnlySections.admits {es : Entries} (h : OnlySections es) {s : ConfigSection}
    {v : Located Value} (hv : es.lookup s.name = some v) : s.wanted.Admits v.value := by
  obtain ⟨_, -, origin, inner, hvalue⟩ := h _ (Toml.mem_of_lookup hv)
  cases s <;> exact .inl ⟨origin, inner, hvalue⟩

end Table

theorem PassedOver.isWithin {es : Entries} {v : Located Value} {b : Toml.Bounds}
    (hes : Toml.entriesWithin b es = true) (h : PassedOver es v) : v.value.isWithin b = true := by
  cases h with
  | unknownSection hmem _ => exact Toml.entriesWithin_iff.mp hes _ hmem
  | unknownKey hmem hvalue hinner _ =>
    exact WrittenAt.isWithin hes ⟨_, hmem, _, _, hvalue, hinner⟩

theorem check_eq_ok_iff {es : Entries} : Schema.check es = .ok () ↔ Schema.offence? es = none := by
  rw [Schema.check]
  cases Schema.offence? es <;> simp

section Agreement
variable {es : Entries} (hes : IsGeneric es)
include hes

section Sections
variable (honly : OnlySections es)
include honly

/-- What is decoded of a document of sections that are tables. -/
theorem checked_tables : Checked (visits es) (setBy fun f => f.given? es) (decodeConfig es) := by
  refine checked_config hes.distinct fun s v hv hmoment => ?_
  obtain ⟨_, -, origin, inner, hvalue⟩ := honly _ (Toml.mem_of_lookup hv)
  rw [hvalue] at hmoment
  cases hmoment

theorem decodes_iff : (∃ c, decodeConfig es = .ok c) ↔
    ∀ (f : Setting) v, WrittenAt es f.home.name f.key v → f.kind.admits v.value = true := by
  have hpassed : ∀ v, PassedOver es v → Wanted.anything.Admits v.value := fun v hv =>
    Value.isWithin_mono (fun _ => Toml.word128_admits) (hv.isWithin hes.within)
  rw [(checked_tables hes honly).isOk_iff, forall_visits hes.distinct]
  simp only [given?_eq_some_iff hes.distinct honly]
  constructor
  · rintro ⟨-, h, -⟩ f v hv
    exact (kind_admits_iff (hv.isWithin hes.within)).mpr (h f v hv)
  · intro h
    refine ⟨fun s v hv => honly.admits hv, fun f v hv => ?_, hpassed⟩
    exact (kind_admits_iff (hv.isWithin hes.within)).mp (h f v hv)

end Sections

theorem check_ok_iff_decodes : Schema.check es = .ok () ↔ OnlySections es ∧
    (∀ name key v, WrittenAt es name key v → ∃ f : Setting, f.home.name = name ∧ f.key = key) ∧
    ∃ c, decodeConfig es = .ok c := by
  rw [check_eq_ok_iff, offence?_eq_none_iff]
  refine and_congr_right fun honly => ?_
  rw [decodes_iff hes honly]
  constructor
  · intro h
    refine ⟨fun name key v hv => ?_, fun f v hv => ?_⟩
    · obtain ⟨f, hname, hkey, -⟩ := h name key v hv
      exact ⟨f, hname, hkey⟩
    · obtain ⟨g, -, hkey, hadmits⟩ := h _ _ v hv
      exact Setting.eq_of_key hkey ▸ hadmits
  · rintro ⟨hknown, hadmits⟩ name key v hv
    obtain ⟨f, rfl, rfl⟩ := hknown name key v hv
    exact ⟨f, rfl, rfl, hadmits f v hv⟩

/-- A table that passes gives every setting that is written in it, and the others have their defaults. -/
theorem exists_decoded_of_check (hcheck : Schema.check es = .ok ()) : ∃ c, decodeConfig es = .ok c ∧
    (∀ name key v, WrittenAt es name key v →
      ∃ f : Setting, f.home.name = name ∧ f.key = key ∧ c.get f = v.value) ∧
    ∀ f : Setting, (∀ v, ¬ WrittenAt es f.home.name f.key v) → c.get f = ({} : Config).get f := by
  obtain ⟨honly, hknown, c, hc⟩ := (check_ok_iff_decodes hes).mp hcheck
  have hchecked := checked_tables hes honly
  rw [hc] at hchecked
  cases hchecked with
  | right hright =>
    have hget : ∀ f : Setting, (setBy fun f => f.given? es).get f =
        ((f.given? es).map Located.value).getD (({} : Config).get f) := fun f =>
      get_setBy (((forall_visits hes.distinct).mp hright).2.1 f)
    refine ⟨_, hc, fun name key v hv => ?_, fun f hf => ?_⟩
    · obtain ⟨f, rfl, rfl⟩ := hknown name key v hv
      refine ⟨f, rfl, rfl, ?_⟩
      rw [hget, (given?_eq_some_iff hes.distinct honly).mpr hv]
      rfl
    · have hnone : f.given? es = none := by
        rw [Option.eq_none_iff_forall_ne_some]
        intro v hv
        exact hf v ((given?_eq_some_iff hes.distinct honly).mp hv)
      rw [hget, hnone]
      rfl

end Agreement

/-- The strict check passes a table if and only if all its keys are those of settings and it can be
decoded; then each written value is the one of its setting, and the other settings have their defaults. -/
theorem check_agrees_decodeConfig {es : Entries} (hes : IsGeneric es) :
    (Schema.check es = .ok () ↔
      OnlySections es ∧
      (∀ name key v, WrittenAt es name key v → ∃ f : Setting, f.home.name = name ∧ f.key = key) ∧
      ∃ c, decodeConfig es = .ok c) ∧
    (Schema.check es = .ok () → ∃ c, decodeConfig es = .ok c ∧
      (∀ name key v, WrittenAt es name key v →
        ∃ f : Setting, f.home.name = name ∧ f.key = key ∧ c.get f = v.value) ∧
      ∀ f : Setting, (∀ v, ¬ WrittenAt es f.home.name f.key v) → c.get f = ({} : Config).get f) :=
  ⟨check_ok_iff_decodes hes, exists_decoded_of_check hes⟩

/-- A table that writes the greatest integer of 64 bits with a sign. -/
theorem check_agrees_decodeConfig_greatest :
    ∃ c, decodeConfig [("template",
        ⟨.table .header [("truncate_at", ⟨.integer 9223372036854775807, ⟨[], []⟩⟩)],
          ⟨[], []⟩⟩)] = .ok c ∧
      ∃ f : Setting, f.home.name = "template" ∧ f.key = "truncate_at" ∧
        c.get f = .integer 9223372036854775807 := by
  have hgeneric : IsGeneric [("template",
      ⟨.table .header [("truncate_at", ⟨.integer 9223372036854775807, ⟨[], []⟩⟩)], ⟨[], []⟩⟩)] :=
    ⟨by simp [Toml.EntriesDistinct, Value.KeysDistinct], rfl⟩
  obtain ⟨c, hc, hwritten, -⟩ := (check_agrees_decodeConfig hgeneric).2 (check_eq_ok_iff.mpr (by decide +kernel))
  refine ⟨c, hc, hwritten "template" "truncate_at" ⟨_, ⟨[], []⟩⟩ ?_⟩
  exact ⟨_, List.mem_singleton_self _, _, _, rfl, List.mem_singleton_self _⟩

section Text
variable {text : String} {es : Entries} (htable : parseTable? text = some es)
  (hcheck : Schema.check es = .ok ())
include htable hcheck

/-- A table that passes is the one that is read with a schema, too. -/
theorem parse?_of_check : Toml.parse? text = some es := by
  obtain ⟨fs, hparse, hgeneric⟩ := Option.bind_eq_some_iff.mp htable
  obtain ⟨honly, hwritten⟩ := offence?_eq_none_iff.mp (check_eq_ok_iff.mp hcheck)
  have hsame : fs = es := by
    refine Toml.eq_of_genericEntries? hgeneric fun e he v hv => ?_
    obtain ⟨-, -, origin, inner, hvalue⟩ := honly e he
    rw [hvalue] at hv ⊢
    obtain h | h | ⟨_, _, _, -, h⟩ | ⟨_, es', _, rfl, h, hes'⟩ := Toml.generic?_cases hv
    · cases h
    · exact h
    · cases h
    · cases h
      refine congrArg (Value.table origin) (Toml.eq_of_genericEntries? hes' fun entry hentry w hw => ?_)
      obtain ⟨f, -, -, hadmits⟩ :=
        hwritten e.1 entry.1 entry.2 ⟨e.2, he, origin, inner, hvalue, hentry⟩
      exact eq_of_generic?_of_admits hadmits hw
  rw [hparse, hsame]

/-- Settings are read from every text whose table passes, and each of them is what is written there or else
its default. -/
theorem exists_parseConfig_of_check : ∃ c, parseConfig text = .ok c ∧
    (∀ name key v, WrittenAt es name key v →
      ∃ f : Setting, f.home.name = name ∧ f.key = key ∧ c.get f = v.value) ∧
    ∀ f : Setting, (∀ v, ¬ WrittenAt es f.home.name f.key v) → c.get f = ({} : Config).get f := by
  obtain ⟨c, hc, hsettings⟩ := exists_decoded_of_check (isGeneric_of_parseTable? htable) hcheck
  refine ⟨c, ?_, hsettings⟩
  simp only [parseConfig, parse?_of_check htable hcheck, hc, Except.mapError]

end Text

end ChatMarkup
