import ChatMarkup.Proofs.Config.Strictness

/-! # Documents that write out all settings

A document that writes out all settings and nothing else passes the strict check and is read as these settings.
The document of the defaults is one that writes out the default of each setting. So the settings of a missing
file are those that a file may leave out.
-/
namespace ChatMarkup
open Toml (Entries Range TableOrigin)

theorem Config.eq_of_get {c d : Config} (h : ∀ f : Setting, c.get f = d.get f) : c = d := by
  obtain ⟨⟨wrapper, quote, code⟩, ⟨truncateAt, emptyPreview⟩⟩ := c
  obtain ⟨⟨wrapper', quote', code'⟩, ⟨truncateAt', emptyPreview'⟩⟩ := d
  obtain rfl : wrapper = wrapper' := Toml.Value.string.inj (h .wrapperClass)
  obtain rfl : quote = quote' := Toml.Value.string.inj (h .quoteClass)
  obtain rfl : code = code' := Toml.Value.string.inj (h .codeClass)
  obtain rfl : truncateAt = truncateAt' := Int.ofNat.inj (Toml.Value.integer.inj (h .truncateAt))
  obtain rfl : emptyPreview = emptyPreview' := Toml.Value.string.inj (h .emptyPreview)
  rfl

theorem kind_admits_get (c : Config) (f : Setting) : f.kind.admits (c.get f) = true := by
  cases f with
  | truncateAt => exact decide_eq_true (Int.natCast_nonneg c.template.truncateAt)
  | wrapperClass | quoteClass | codeClass | emptyPreview => rfl

theorem generic?_get {c : Config} (hsize : c.template.truncateAt ≤ 9223372036854775807) (f : Setting) :
    (c.get f).generic? = some (c.get f) := by
  cases f with
  | truncateAt =>
    refine if_pos ?_
    rw [Toml.Bounds.admits, Bool.and_eq_true, decide_eq_true_iff, decide_eq_true_iff]
    simp only [Toml.signed64]
    omega
  | wrapperClass | quoteClass | codeClass | emptyPreview => rfl

/-- The tables of a document write all settings as they are in `c`, and nothing else. -/
structure Config.WrittenOut (c : Config) (es : Entries) : Prop where
  sections : OnlySections es
  written : ∀ name key v, WrittenAt es name key v →
    ∃ f : Setting, f.home.name = name ∧ f.key = key ∧ v.value = c.get f
  complete : ∀ f : Setting, ∃ v, WrittenAt es f.home.name f.key v

section WrittenOut
variable {c : Config} {es : Entries} (h : c.WrittenOut es)
include h

theorem Config.WrittenOut.check_eq_ok : Schema.check es = .ok () := by
  refine check_eq_ok_iff.mpr (offence?_eq_none_iff.mpr ⟨h.sections, fun name key v hv => ?_⟩)
  obtain ⟨f, hname, hkey, hvalue⟩ := h.written name key v hv
  exact ⟨f, hname, hkey, hvalue ▸ kind_admits_get c f⟩

theorem Config.WrittenOut.genericEntries?_eq (hsize : c.template.truncateAt ≤ 9223372036854775807) :
    Toml.genericEntries? es = some es := by
  refine Toml.genericEntries?_self fun e he => ?_
  obtain ⟨-, -, origin, inner, hvalue⟩ := h.sections e he
  have hinner : ∀ entry ∈ inner, ∃ f : Setting, f.key = entry.1 ∧ entry.2.value = c.get f := by
    intro entry hentry
    obtain ⟨f, -, hkey, hget⟩ :=
      h.written e.1 entry.1 entry.2 ⟨e.2, he, origin, inner, hvalue, hentry⟩
    exact ⟨f, hkey, hget⟩
  have hreserved : Toml.reserved? inner = none := by
    refine Toml.reserved?_eq_none fun entry hentry => ?_
    obtain ⟨f, hkey, -⟩ := hinner entry hentry
    rw [← hkey]
    cases f <;> decide
  have hself : Toml.genericEntries? inner = some inner := by
    refine Toml.genericEntries?_self fun entry hentry => ?_
    obtain ⟨f, -, hget⟩ := hinner entry hentry
    rw [hget, generic?_get hsize]
  rw [hvalue, Toml.Value.generic?, hreserved, hself]
  rfl

end WrittenOut

/-- A text that writes out all settings passes the strict check, and it is read as these settings. -/
theorem parseConfig_of_writtenOut {text : String} {es : Entries} {c : Config}
    (hparse : Toml.parse? text = some es) (h : c.WrittenOut es)
    (hsize : c.template.truncateAt ≤ 9223372036854775807) :
    parseTable? text = some es ∧ Schema.check es = .ok () ∧ parseConfig text = .ok c := by
  have htable : parseTable? text = some es :=
    Option.bind_eq_some_iff.mpr ⟨es, hparse, h.genericEntries?_eq hsize⟩
  refine ⟨htable, h.check_eq_ok, ?_⟩
  obtain ⟨d, hd, hwritten, -⟩ := exists_parseConfig_of_check htable h.check_eq_ok
  have hget : ∀ f : Setting, d.get f = c.get f := fun f => by
    obtain ⟨v, hv⟩ := h.complete f
    obtain ⟨g, -, hg, hgd⟩ := hwritten _ _ v hv
    obtain ⟨g', -, hg', hgc⟩ := h.written _ _ v hv
    obtain rfl := Setting.eq_of_key hg
    obtain rfl := Setting.eq_of_key hg'
    rw [hgd, hgc]
  rw [hd, Config.eq_of_get hget]

section Default

/-- Two tables that write out the defaults, wherever they stand in a text. -/
def writesDefaults : Entries → Bool
  | [("html", ⟨.table _ [("wrapper_class", ⟨.string "wa-message", _⟩),
        ("quote_class", ⟨.string "wa-quote", _⟩), ("code_class", ⟨.string "wa-code", _⟩)], _⟩),
      ("template", ⟨.table _ [("truncate_at", ⟨.integer 120, _⟩),
        ("empty_preview", ⟨.string "Your message preview will appear here...", _⟩)], _⟩)] => true
  | _ => false

theorem writtenAt_pair {a b : String} {o o' : TableOrigin} {xs ys : Entries} {r r' : Range}
    {name key : String} {v : Toml.Located Toml.Value} :
    WrittenAt [(a, ⟨.table o xs, r⟩), (b, ⟨.table o' ys, r'⟩)] name key v ↔
      (name = a ∧ (key, v) ∈ xs) ∨ (name = b ∧ (key, v) ∈ ys) := by
  simp [WrittenAt, or_and_right, exists_or]

theorem writtenOut_of_writesDefaults {es : Entries} (h : writesDefaults es = true) :
    ({} : Config).WrittenOut es := by
  unfold writesDefaults at h
  split at h
  case h_2 => cases h
  case h_1 =>
    refine ⟨?_, ?_, ?_⟩
    · refine List.forall_mem_cons.mpr ⟨⟨.html, rfl, _, _, rfl⟩, ?_⟩
      exact List.forall_mem_singleton.mpr ⟨.template, rfl, _, _, rfl⟩
    · intro name key v hv
      simp only [writtenAt_pair, List.mem_cons, Prod.mk.injEq, List.not_mem_nil, or_false] at hv
      obtain ⟨rfl, ⟨rfl, rfl⟩ | ⟨rfl, rfl⟩ | ⟨rfl, rfl⟩⟩ | ⟨rfl, ⟨rfl, rfl⟩ | ⟨rfl, rfl⟩⟩ := hv
      · exact ⟨.wrapperClass, rfl, rfl, rfl⟩
      · exact ⟨.quoteClass, rfl, rfl, rfl⟩
      · exact ⟨.codeClass, rfl, rfl, rfl⟩
      · exact ⟨.truncateAt, rfl, rfl, rfl⟩
      · exact ⟨.emptyPreview, rfl, rfl, rfl⟩
    · intro f
      cases f <;> simp [writtenAt_pair, Setting.home, Setting.key, ConfigSection.name]

theorem any_writesDefaults : (Toml.parse? defaultConfigText).any writesDefaults = true := by
  -- Without this step the text would be decoded from its bytes again for every character that is read.
  have htext : defaultConfigText.toList = _ := String.toList_ofList
  rw [Toml.parse?, htext]
  decide +kernel

theorem exists_writtenOut_defaultConfigText :
    ∃ es, Toml.parse? defaultConfigText = some es ∧ ({} : Config).WrittenOut es := by
  obtain ⟨es, hparse, hes⟩ := (Option.any_eq_true _ _).mp any_writesDefaults
  exact ⟨es, hparse, writtenOut_of_writesDefaults hes⟩

/-- The document of the defaults passes the strict check, and it gives each setting its default. -/
theorem parseConfig_defaultConfigText :
    (∃ es, parseTable? defaultConfigText = some es ∧ Schema.check es = .ok ()) ∧
      parseConfig defaultConfigText = .ok {} := by
  obtain ⟨es, hparse, hes⟩ := exists_writtenOut_defaultConfigText
  obtain ⟨htable, hcheck, hconfig⟩ := parseConfig_of_writtenOut hparse hes (by decide)
  exact ⟨⟨es, htable, hcheck⟩, hconfig⟩

theorem compiledDefault_eq : compiledDefault = {} := by
  rw [compiledDefault, parseConfig_defaultConfigText.2]
  rfl

theorem loadConfig_notFound : loadConfig (.error .notFound) = .ok {} := by
  rw [loadConfig, compiledDefault_eq]

end Default

end ChatMarkup
