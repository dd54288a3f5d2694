import ChatMarkup.Toml.Document

/-! # Distinct keys

The tables that the statements of a document make give no key twice, at any depth. Every change to a
table either replaces the value of a key or adds a key that is missing, so it is enough to follow one
change along its path, and to ask of a written value what the tables in it are.
-/
namespace ChatMarkup.Toml

mutual
/-- No table in the value gives a key twice. -/
def Value.KeysDistinct : Value → Prop
  | .array _ items => ItemsDistinct items
  | .table _ entries => EntriesDistinct entries
  | .string _ | .integer _ | .float _ | .malformed | .boolean _ | .moment => True
def ItemsDistinct : List (Located Value) → Prop
  | [] => True
  | ⟨v, _⟩ :: items => v.KeysDistinct ∧ ItemsDistinct items
def EntriesDistinct : List (String × Located Value) → Prop
  | [] => True
  | (key, ⟨v, _⟩) :: entries =>
    key ∉ entries.map Prod.fst ∧ v.KeysDistinct ∧ EntriesDistinct entries
end

theorem itemsDistinct_iff {items : List (Located Value)} :
    ItemsDistinct items ↔ ∀ item ∈ items, item.value.KeysDistinct := by
  induction items with
  | nil => simp [ItemsDistinct]
  | cons item items ih => simp [ItemsDistinct, ih]

theorem entriesDistinct_iff {es : Entries} :
    EntriesDistinct es ↔ (es.map Prod.fst).Nodup ∧ ∀ e ∈ es, e.2.value.KeysDistinct := by
  induction es with
  | nil => simp [EntriesDistinct]
  | cons e es ih =>
    rw [EntriesDistinct, ih, List.map_cons, List.nodup_cons, List.forall_mem_cons, and_assoc,
      and_left_comm (a := (es.map Prod.fst).Nodup)]

theorem entriesDistinct_nil : EntriesDistinct [] := trivial

theorem mem_of_lookup {es : Entries} {name : String} {v : Located Value}
    (h : es.lookup name = some v) : (name, v) ∈ es := by
  induction es with
  | nil => simp at h
  | cons e es ih =>
    by_cases hname : name = e.1
    · subst hname
      rw [List.lookup_cons_self] at h
      obtain rfl := Option.some.inj h
      exact List.mem_cons_self
    · rw [List.lookup_cons, beq_false_of_ne hname] at h
      exact List.mem_cons_of_mem _ (ih h)

theorem notMem_of_lookup {es : Entries} {name : String} (h : es.lookup name = none) :
    name ∉ es.map Prod.fst := by
  intro hmem
  obtain ⟨e, he, rfl⟩ := List.mem_map.mp hmem
  simpa using List.lookup_eq_none_iff.mp h e he

section Change

theorem keys_setEntry {name key : String} {v : Located Value} {es : Entries} :
    key ∈ (setEntry name v es).map Prod.fst ↔ key = name ∨ key ∈ es.map Prod.fst := by
  induction es with
  | nil => simp [setEntry]
  | cons e es ih =>
    rw [setEntry]
    split
    · next hname => simp [← hname]
    · rw [List.map_cons, List.map_cons, List.mem_cons, List.mem_cons, ih]
      exact or_left_comm

theorem setEntry_distinct {name : String} {v : Located Value} {es : Entries}
    (hv : v.value.KeysDistinct) (hes : EntriesDistinct es) :
    EntriesDistinct (setEntry name v es) := by
  induction es with
  | nil => exact ⟨List.not_mem_nil, hv, trivial⟩
  | cons e es ih =>
    obtain ⟨hkey, he, hes⟩ := hes
    rw [setEntry]
    split
    · exact ⟨hkey, hv, hes⟩
    · next hname =>
      refine ⟨?_, he, ih hes⟩
      rw [keys_setEntry]
      exact not_or.mpr ⟨hname, hkey⟩

theorem append_distinct {name : String} {v : Located Value} {es : Entries}
    (hv : v.value.KeysDistinct) (hes : EntriesDistinct es) (hname : name ∉ es.map Prod.fst) :
    EntriesDistinct (es ++ [(name, v)]) := by
  induction es with
  | nil => exact ⟨List.not_mem_nil, hv, trivial⟩
  | cons e es ih =>
    obtain ⟨hkey, he, hes⟩ := hes
    rw [List.map_cons, List.mem_cons, not_or] at hname
    refine ⟨?_, he, ih hes hname.2⟩
    change e.1 ∉ (es ++ [(name, v)]).map Prod.fst
    rw [List.map_append, List.mem_append, List.map_singleton, List.mem_singleton]
    exact not_or.mpr ⟨hkey, Ne.symm hname.1⟩

theorem EntriesDistinct.lookup {es : Entries} {name : String} {v : Located Value}
    (h : EntriesDistinct es) (hv : es.lookup name = some v) : v.value.KeysDistinct :=
  (entriesDistinct_iff.mp h).2 _ (mem_of_lookup hv)

theorem changeLast?_forall {α : Type} {P : α → Prop} {f : α → Option α}
    (hf : ∀ a b, P a → f a = some b → P b) {as bs : List α} (has : ∀ a ∈ as, P a)
    (h : changeLast? f as = some bs) : ∀ b ∈ bs, P b := by
  fun_induction changeLast? f as generalizing bs with
  | case1 => cases h
  | case2 a =>
    obtain ⟨b, hb, rfl⟩ := Option.map_eq_some_iff.mp h
    rw [List.forall_mem_singleton] at has ⊢
    exact hf a b has hb
  | case3 a as hne ih =>
    obtain ⟨cs, hcs, rfl⟩ := Option.map_eq_some_iff.mp h
    rw [List.forall_mem_cons] at has ⊢
    exact ⟨has.1, ih has.2 hcs⟩

/-- A change keeps keys distinct in the whole table if it does so where it is made. -/
theorem changeAt?_distinct {made : TableOrigin} {enter : TableOrigin → Bool}
    {change : TableOrigin → Entries → Option Entries}
    (hchange : ∀ origin es es', EntriesDistinct es → change origin es = some es' →
      EntriesDistinct es')
    {ks : List Key} {origin : TableOrigin} {es es' : Entries} (hes : EntriesDistinct es)
    (h : changeAt? made enter change ks origin es = some es') : EntriesDistinct es' := by
  induction ks generalizing origin es es' with
  | nil => exact hchange origin es es' hes h
  | cons k ks ih =>
    rw [changeAt?] at h
    split at h
    · -- The table on the way is missing.
      obtain ⟨inner, hinner, h⟩ := Option.bind_eq_some_iff.mp h
      cases h
      exact setEntry_distinct (ih entriesDistinct_nil hinner) hes
    · next hv =>
      split at h
      · obtain ⟨inner, hinner, h⟩ := Option.bind_eq_some_iff.mp h
        cases h
        exact setEntry_distinct (ih (hes.lookup hv) hinner) hes
      · cases h
    · next hv =>
      obtain ⟨items, hitems, h⟩ := Option.bind_eq_some_iff.mp h
      cases h
      have hbefore := itemsDistinct_iff.mp (hes.lookup hv)
      refine setEntry_distinct (itemsDistinct_iff.mpr ?_) hes
      refine changeLast?_forall ?_ hbefore hitems
      intro item changed hitem hchanged
      split at hchanged
      · obtain ⟨inner, hinner, h⟩ := Option.bind_eq_some_iff.mp hchanged
        cases h
        exact ih hitem hinner
      · cases hchanged
    · cases h

theorem addKeyValue?_distinct {path : Path} {v : Located Value} {es es' : Entries}
    (hv : v.value.KeysDistinct) (hes : EntriesDistinct es)
    (h : addKeyValue? path v es = some es') : EntriesDistinct es' := by
  refine changeAt?_distinct ?_ hes h
  intro origin inner inner' hinner hchange
  split at hchange
  · next hfree =>
    cases hchange
    rw [Bool.and_eq_true, Option.isNone_iff_eq_none] at hfree
    exact append_distinct hv hinner (notMem_of_lookup hfree.2)
  · cases hchange

end Change

section Written

/-- No table that the written value stands for gives a key twice. -/
def Written.KeysDistinct (w : Written) : Prop := ∀ v, w.value? = some v → v.KeysDistinct

theorem itemValues?_distinct {items : List (Located Written)} {vs : List (Located Value)}
    (hitems : ∀ item ∈ items, item.value.KeysDistinct) (h : itemValues? items = some vs) :
    ItemsDistinct vs := by
  induction items generalizing vs with
  | nil => cases h; trivial
  | cons item items ih =>
    rw [itemValues?] at h
    obtain ⟨v, hv, h⟩ := Option.bind_eq_some_iff.mp h
    obtain ⟨rest, hrest, h⟩ := Option.bind_eq_some_iff.mp h
    cases h
    rw [List.forall_mem_cons] at hitems
    exact ⟨hitems.1 v hv, ih hitems.2 hrest⟩

theorem addWritten?_distinct {kvs : List (KeyValue Written)} {es es' : Entries}
    (hkvs : ∀ kv ∈ kvs, kv.value.value.KeysDistinct) (hes : EntriesDistinct es)
    (h : addWritten? kvs es = some es') : EntriesDistinct es' := by
  induction kvs generalizing es with
  | nil => cases h; exact hes
  | cons kv kvs ih =>
    rw [addWritten?] at h
    obtain ⟨v, hv, h⟩ := Option.bind_eq_some_iff.mp h
    obtain ⟨changed, hchanged, h⟩ := Option.bind_eq_some_iff.mp h
    rw [List.forall_mem_cons] at hkvs
    exact ih hkvs.2 (addKeyValue?_distinct (hkvs.1 v hv) hes hchanged) h

theorem addSection?_distinct {s : Section} {es es' : Entries}
    (hs : ∀ kv ∈ s.entries, kv.value.value.KeysDistinct) (hes : EntriesDistinct es)
    (h : addSection? es s = some es') : EntriesDistinct es' := by
  refine changeAt?_distinct ?_ hes h
  intro _ parent parent' hparent hchange
  split at hchange
  · obtain ⟨inner, hinner, hchange⟩ := Option.bind_eq_some_iff.mp hchange
    have helement := addWritten?_distinct hs entriesDistinct_nil hinner
    split at hchange
    · cases hchange
      exact setEntry_distinct ⟨helement, trivial⟩ hparent
    · next hitems =>
      cases hchange
      have hbefore := itemsDistinct_iff.mp (hparent.lookup hitems)
      refine setEntry_distinct (itemsDistinct_iff.mpr ?_) hparent
      exact List.forall_mem_append.mpr ⟨hbefore, List.forall_mem_singleton.mpr helement⟩
    · cases hchange
  · have hnamed : ∀ {before inner : Entries}, EntriesDistinct before →
        addWritten? s.entries before = some inner →
        EntriesDistinct (setEntry s.header.path.last.value
          ⟨.table .header inner, s.header.range⟩ parent) := by
      intro before inner hbefore hinner
      exact setEntry_distinct (addWritten?_distinct hs hbefore hinner) hparent
    dsimp only at hchange
    split at hchange
    · obtain ⟨_, hbefore, hchange⟩ := Option.bind_eq_some_iff.mp hchange
      cases hbefore
      obtain ⟨inner, hinner, hchange⟩ := Option.bind_eq_some_iff.mp hchange
      cases hchange
      exact hnamed entriesDistinct_nil hinner
    · next himplied =>
      obtain ⟨_, hbefore, hchange⟩ := Option.bind_eq_some_iff.mp hchange
      cases hbefore
      obtain ⟨inner, hinner, hchange⟩ := Option.bind_eq_some_iff.mp hchange
      cases hchange
      exact hnamed (hparent.lookup himplied) hinner
    · cases hchange

end Written

end ChatMarkup.Toml
