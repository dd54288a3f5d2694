import ChatMarkup.Proofs.Config.Settings

/-! # Decoding the settings of a document

The values of a document are visited up to the first one that is not what it has to be. If none is wrong,
the settings are the given values over the defaults.
-/
namespace ChatMarkup
open Toml (Located Value Entries EntriesDistinct)

section Checked
variable {α β : Type}

/-- The result of visiting values until one is wrong. -/
inductive Checked (ws : List Visit) (a : α) : Except WrongValue α → Prop where
  | right (h : ∀ w ∈ ws, w.IsRight) : Checked ws a (.ok a)
  | wrong (before : List Visit) (w : Visit) (after : List Visit)
      (hsplit : ws = before ++ w :: after) (hbefore : ∀ b ∈ before, b.IsRight) (hw : ¬ w.IsRight) :
      Checked ws a (.error ⟨w.found, w.wanted⟩)

theorem Checked.pure (a : α) : Checked [] a (.ok a) := .right (by simp)

theorem Checked.bind {ws ts : List Visit} {a : α} {b : β} {x : Except WrongValue α}
    {f : α → Except WrongValue β} (hx : Checked ws a x) (hf : Checked ts b (f a)) :
    Checked (ws ++ ts) b (x >>= f) := by
  cases hx with
  | wrong before w after hsplit hbefore hw =>
    exact .wrong before w (after ++ ts) (by simp [hsplit]) hbefore hw
  | right hws =>
    change Checked _ _ (f a)
    generalize f a = y at hf
    cases hf with
    | right hts => exact .right (List.forall_mem_append.mpr ⟨hws, hts⟩)
    | wrong before w after hsplit hbefore hw =>
      refine .wrong (ws ++ before) w after (by simp [hsplit]) ?_ hw
      exact List.forall_mem_append.mpr ⟨hws, hbefore⟩

theorem Checked.map {ws : List Visit} {a : α} {x : Except WrongValue α} (hx : Checked ws a x) (f : α → β) :
    Checked ws (f a) (do return f (← x)) := by
  have hbind := hx.bind (f := fun a => .ok (f a)) (.pure (f a))
  rwa [List.append_nil] at hbind

theorem Checked.cons {w : Visit} {ws : List Visit} {a : α} {x : Except WrongValue α}
    (hw : w.IsRight) (hx : Checked ws a x) : Checked (w :: ws) a x :=
  Checked.bind (a := ()) (f := fun _ => x) (.right (List.forall_mem_singleton.mpr hw)) hx

theorem Checked.single {w : Visit} (ws : List Visit) (a : α) (hw : ¬ w.IsRight) :
    Checked (w :: ws) a (.error ⟨w.found, w.wanted⟩) :=
  .wrong [] w ws rfl (by simp) hw

theorem Checked.isOk_iff {ws : List Visit} {a : α} {x : Except WrongValue α}
    (h : Checked ws a x) : (∃ b, x = .ok b) ↔ ∀ w ∈ ws, w.IsRight := by
  cases h with
  | right h => exact ⟨fun _ => h, fun _ => ⟨a, rfl⟩⟩
  | wrong before w after hsplit _ hw =>
    refine ⟨nofun, fun h => absurd (h w ?_) hw⟩
    simp [hsplit]

end Checked

section Values

/-- The given text, or else the default. -/
def textOr (default : String) : Option (Located Value) → String
  | some ⟨.string s, _⟩ => s
  | _ => default

/-- The given number, or else the default. -/
def sizeOr (default : Nat) : Option (Located Value) → Nat
  | some ⟨.integer n, _⟩ => n.toNat
  | _ => default

theorem checked_string (default : String) (v : Located Value) :
    Checked [⟨v, .string⟩] (textOr default (some v)) (decodeString v) := by
  obtain ⟨v, range⟩ := v
  cases v with
  | string s => exact .right (List.forall_mem_singleton.mpr ⟨s, rfl⟩)
  | _ => exact .single [] _ nofun

theorem checked_size (default : Nat) (v : Located Value) :
    Checked [⟨v, .size⟩] (sizeOr default (some v)) (decodeSize v) := by
  obtain ⟨v, range⟩ := v
  cases v with
  | integer n =>
    change Checked _ _ (if 0 ≤ n ∧ n ≤ (maxTruncateAt : Int) then .ok n.toNat
      else .error ⟨⟨.integer n, range⟩, .size⟩)
    split
    · next hn => exact .right (List.forall_mem_singleton.mpr ⟨n, rfl, hn⟩)
    · next hn =>
      refine .single [] _ ?_
      rintro ⟨m, hm, hbounds⟩
      cases hm
      exact hn hbounds
  | _ => exact .single [] _ nofun

theorem checked_passOver (v : Located Value) : Checked [⟨v, .anything⟩] () (passOver v) := by
  rw [passOver]
  split
  · next hv => exact .right (List.forall_mem_singleton.mpr hv)
  · next hv => exact .single [] _ hv

end Values

section Entries
variable {α : Type} {fields : FieldDecoders α}

/-- What the keys are given after one more entry. -/
def assign (g : String → Option (Located Value)) (e : String × Located Value) :
    String → Option (Located Value) := Function.update g e.1 (some e.2)

theorem foldl_assign {l : Entries} (hl : (l.map Prod.fst).Nodup) (g : String → Option (Located Value)) :
    l.foldl assign g = fun key => (l.lookup key).or (g key) := by
  induction l generalizing g with
  | nil => rfl
  | cons e l ih =>
    rw [List.map_cons, List.nodup_cons] at hl
    rw [List.foldl_cons, ih hl.2]
    funext key
    rw [List.lookup_cons, assign]
    by_cases hkey : key = e.1
    · have hnone : l.lookup e.1 = none := by
        rw [Option.eq_none_iff_forall_ne_some]
        exact fun v hv => hl.1 (List.mem_map.mpr ⟨(e.1, v), Toml.mem_of_lookup hv, rfl⟩)
      simp [hkey, hnone]
    · rw [beq_false_of_ne hkey, Function.update_of_ne hkey]

/-- What has been decoded depends on what the keys have been given so far. If that goes for a single entry it
goes for a list of them. -/
theorem checked_entries (build : (String → Option (Located Value)) → α)
    {visitsOf : String × Located Value → List Visit} {l : Entries} (hl : (l.map Prod.fst).Nodup)
    (hentry : ∀ e ∈ l, ∀ g, Checked (visitsOf e) (build (assign g e)) (decodeEntry fields (build g) e)) :
    Checked (l.flatMap visitsOf) (build fun key => l.lookup key)
      (l.foldlM (decodeEntry fields) (build fun _ => none)) := by
  have hfold : ∀ g, Checked (l.flatMap visitsOf) (build (l.foldl assign g))
      (l.foldlM (decodeEntry fields) (build g)) := by
    clear hl
    induction l with
    | nil => exact fun g => .pure _
    | cons e l ih =>
      intro g
      rw [List.flatMap_cons, List.foldlM_cons]
      exact (hentry e List.mem_cons_self g).bind
        (ih (fun e he => hentry e (List.mem_cons_of_mem _ he)) (assign g e))
  have hbuild := hfold fun _ => none
  simpa only [foldl_assign hl, Option.or_none] using hbuild

/-- An entry of a key that names no field changes nothing. -/
theorem checked_unknownEntry {e : String × Located Value} (h : e.1 ∉ fields.map Prod.fst) (a : α) :
    Checked [⟨e.2, .anything⟩] a (decodeEntry fields a e) := by
  have hlookup : fields.lookup e.1 = none :=
    List.lookup_eq_none_iff.mpr fun p hp => by
      simpa using fun he => h (List.mem_map.mpr ⟨p, hp, he.symm⟩)
  rw [decodeEntry, hlookup]
  exact (checked_passOver e.2).map fun _ => a

end Entries

section Sections

/-- What a document that gives each setting as in `given?` sets. -/
def setBy (given? : Setting → Option (Located Value)) : Config :=
  let default : Config := {}
  { html :=
      { wrapper := textOr default.html.wrapper (given? .wrapperClass)
        quote := textOr default.html.quote (given? .quoteClass)
        code := textOr default.html.code (given? .codeClass) }
    template :=
      { truncateAt := sizeOr default.template.truncateAt (given? .truncateAt)
        emptyPreview := textOr default.template.emptyPreview (given? .emptyPreview) } }

/-- What has been decoded of a section depends on what its settings are given. If each setting is taken in as
it should be, the section is. -/
theorem checked_section {α : Type} {s : ConfigSection} {fields : FieldDecoders α}
    (set : (Setting → Option (Located Value)) → α)
    (hset : ∀ {g g'}, (∀ f : Setting, f.home = s → g f = g' f) → set g = set g')
    (hkeys : fields.map Prod.fst = s.settings.map Setting.key)
    (hfield : ∀ f : Setting, f.home = s → ∀ v g, Checked [⟨v, f.wanted⟩]
      (set fun h => assign g (f.key, v) h.key) (decodeEntry fields (set fun h => g h.key) (f.key, v)))
    {v : Located Value} (hv : v.value.KeysDistinct) (hmoment : v.value ≠ .moment) :
    Checked (s.visits v) (set fun f => f.givenIn? v)
      (decodeSection s.wanted fields (set fun _ => none) v) := by
  have hentry : ∀ e g, Checked [s.entryVisit e] (set fun f => assign g e f.key)
      (decodeEntry fields (set fun f => g f.key) e) := by
    rintro ⟨key, w⟩ g
    rw [ConfigSection.entryVisit]
    cases hnamed : s.settingNamed? key with
    | some f =>
      obtain ⟨hf, rfl⟩ := settingNamed?_eq_some_iff.mp hnamed
      rw [wantedAt_key hf]
      exact hfield f hf w g
    | none =>
      have hkey := settingNamed?_eq_none_iff.mp hnamed
      have hunknown : key ∉ fields.map Prod.fst := by
        rw [hkeys, List.mem_map]
        rintro ⟨f, hf, hfkey⟩
        exact hkey f (mem_settings.mp hf) hfkey
      have hsame : (set fun f => assign g (key, w) f.key) = set fun f => g f.key :=
        hset fun f hf => Function.update_of_ne (hkey f hf) _ _
      rw [wantedAt_of_unknown hkey, hsame]
      exact checked_unknownEntry hunknown _
  have hentries : Checked ((s.entries v.value).map s.entryVisit) (set fun f => f.givenIn? v)
      ((s.entries v.value).foldlM (decodeEntry fields) (set fun _ => none)) := by
    have hgiven : (set fun f => (s.entries v.value).lookup f.key) = set fun f => f.givenIn? v :=
      hset fun f hf => lookup_entries hv hf
    rw [← hgiven, List.map_eq_flatMap]
    exact checked_entries (fun g => set fun f => g f.key) (nodup_keys_entries hv)
      fun e _ g => hentry e g
  obtain ⟨v, range⟩ := v
  cases v with
  | table origin es => exact hentries.cons (by cases s <;> exact .inl ⟨origin, es, rfl⟩)
  | array origin items =>
    rw [ConfigSection.entries, ← hkeys] at hentries
    rw [ConfigSection.visits, ConfigSection.entries, ← hkeys]
    exact hentries.cons (by cases s <;> exact .inr ⟨origin, items, rfl⟩)
  | moment => exact absurd rfl hmoment
  | _ => exact .single _ _ (by cases s <;> rintro (⟨_, _, h⟩ | ⟨_, _, h⟩) <;> cases h)

theorem checked_html {v : Located Value} (hv : v.value.KeysDistinct) (hmoment : v.value ≠ .moment) :
    Checked (ConfigSection.html.visits v) (setBy fun f => f.givenIn? v).html (decodeHtml v) := by
  refine checked_section (fun g => (setBy g).html) ?_ rfl ?_ hv hmoment
  · intro g g' h
    simp only [setBy, h .wrapperClass rfl, h .quoteClass rfl, h .codeClass rfl]
  · intro f hf v g
    cases f with
    | wrapperClass => exact (checked_string _ v).map fun s => { (setBy fun h => g h.key).html with wrapper := s }
    | quoteClass => exact (checked_string _ v).map fun s => { (setBy fun h => g h.key).html with quote := s }
    | codeClass => exact (checked_string _ v).map fun s => { (setBy fun h => g h.key).html with code := s }
    | truncateAt | emptyPreview => cases hf

theorem checked_template {v : Located Value} (hv : v.value.KeysDistinct)
    (hmoment : v.value ≠ .moment) :
    Checked (ConfigSection.template.visits v) (setBy fun f => f.givenIn? v).template
      (decodeTemplate v) := by
  refine checked_section (fun g => (setBy g).template) ?_ rfl ?_ hv hmoment
  · intro g g' h
    simp only [setBy, h .truncateAt rfl, h .emptyPreview rfl]
  · intro f hf v g
    cases f with
    | truncateAt =>
      exact (checked_size _ v).map fun n => { (setBy fun h => g h.key).template with truncateAt := n }
    | emptyPreview =>
      exact (checked_string _ v).map fun s => { (setBy fun h => g h.key).template with emptyPreview := s }
    | wrapperClass | quoteClass | codeClass => cases hf

/-- The values of a document are visited until one is wrong; else each setting is what is given. -/
theorem checked_config {es : Entries} (hes : EntriesDistinct es)
    (hmoment : ∀ (s : ConfigSection) v, es.lookup s.name = some v → v.value ≠ .moment) :
    Checked (visits es) (setBy fun f => f.given? es) (decodeConfig es) := by
  obtain ⟨hkeys, hvalues⟩ := Toml.entriesDistinct_iff.mp hes
  have hgiven : ∀ f : Setting, f.given? es =
      ((Toml.sortEntries es).lookup f.home.name).bind f.givenIn? := fun f => by
    rw [Toml.lookup_sortEntries hkeys, Setting.given?]
  simp only [hgiven]
  refine checked_entries (fun g => setBy fun f => (g f.home.name).bind f.givenIn?)
    (Toml.nodup_keys_sortEntries hkeys) ?_
  rintro ⟨name, v⟩ he g
  rw [Toml.mem_sortEntries] at he
  have hv := hvalues _ he
  rw [entryVisits]
  cases hnamed : sectionNamed? name with
  | none =>
    have hname := sectionNamed?_eq_none_iff.mp hnamed
    have hunknown : name ∉ configFields.map Prod.fst := by
      intro hmem
      rcases List.mem_pair.mp hmem with rfl | rfl
      · exact hname .html rfl
      · exact hname .template rfl
    have hsame : ∀ f : Setting, assign g (name, v) f.home.name = g f.home.name :=
      fun f => Function.update_of_ne (hname f.home) _ _
    simp only [hsame]
    exact checked_unknownEntry (e := (name, v)) hunknown _
  | some s =>
    obtain rfl := sectionNamed?_eq_some_iff.mp hnamed
    have hsection := hmoment s v ((Toml.lookup_eq_some_iff hkeys).mpr he)
    cases s with
    | html =>
      exact (checked_html hv hsection).map fun html =>
        { (setBy fun f => (g f.home.name).bind f.givenIn?) with html }
    | template =>
      exact (checked_template hv hsection).map fun template =>
        { (setBy fun f => (g f.home.name).bind f.givenIn?) with template }

end Sections

section Given

theorem string_textOr {default : String} {v? : Option (Located Value)}
    (h : ∀ v, v? = some v → Wanted.string.Admits v.value) :
    Value.string (textOr default v?) = (v?.map Located.value).getD (.string default) := by
  cases v? with
  | none => rfl
  | some v =>
    obtain ⟨v, range⟩ := v
    obtain ⟨s, rfl⟩ := h _ rfl
    rfl

theorem integer_sizeOr {default : Nat} {v? : Option (Located Value)}
    (h : ∀ v, v? = some v → Wanted.size.Admits v.value) :
    Value.integer (sizeOr default v?) = (v?.map Located.value).getD (.integer default) := by
  cases v? with
  | none => rfl
  | some v =>
    obtain ⟨v, range⟩ := v
    obtain ⟨n, rfl, hn, _⟩ := h _ rfl
    exact congrArg Value.integer (Int.toNat_of_nonneg hn)

theorem get_setBy {given? : Setting → Option (Located Value)} {f : Setting}
    (h : ∀ v, given? f = some v → f.wanted.Admits v.value) :
    (setBy given?).get f = ((given? f).map Located.value).getD (({} : Config).get f) := by
  cases f with
  | truncateAt => exact integer_sizeOr h
  | wrapperClass | quoteClass | codeClass | emptyPreview => exact string_textOr h

end Given

end ChatMarkup
