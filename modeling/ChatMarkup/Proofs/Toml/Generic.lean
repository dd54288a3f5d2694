import ChatMarkup.Proofs.Toml.Sorted
import ChatMarkup.Toml.Generic

/-! # Documents without a schema

What is handed on of a document without a schema is a table in which no table gives a key twice, and
whose numbers are those that any reader takes.
-/
namespace ChatMarkup.Toml

/-- A table as it is handed on without a schema. -/
structure IsGeneric (es : Entries) : Prop where
  distinct : EntriesDistinct es
  within : entriesWithin signed64 es = true

theorem entriesWithin_iff {b : Bounds} {es : Entries} :
    entriesWithin b es = true ↔ ∀ e ∈ es, e.2.value.isWithin b = true := by
  induction es with
  | nil => simp [entriesWithin]
  | cons e es ih => simp [entriesWithin, ih]

mutual
theorem Value.isWithin_mono {b c : Bounds} (h : ∀ n, b.admits n = true → c.admits n = true) :
    ∀ {v : Value}, v.isWithin b = true → v.isWithin c = true
  | .integer n, hv => h n hv
  | .float _, hv | .malformed, hv => hv
  | .string _, _ | .boolean _, _ | .moment, _ => rfl
  | .array _ _, hv => itemsWithin_mono h hv
  | .table _ _, hv => entriesWithin_mono h hv

theorem itemsWithin_mono {b c : Bounds} (h : ∀ n, b.admits n = true → c.admits n = true) :
    ∀ {items : List (Located Value)}, itemsWithin b items = true → itemsWithin c items = true
  | [], _ => rfl
  | ⟨_, _⟩ :: _, hitems => by
    obtain ⟨hv, hitems⟩ := Bool.and_eq_true_iff.mp hitems
    exact Bool.and_eq_true_iff.mpr ⟨Value.isWithin_mono h hv, itemsWithin_mono h hitems⟩

theorem entriesWithin_mono {b c : Bounds} (h : ∀ n, b.admits n = true → c.admits n = true) :
    ∀ {es : Entries}, entriesWithin b es = true → entriesWithin c es = true
  | [], _ => rfl
  | (_, ⟨_, _⟩) :: _, hes => by
    obtain ⟨hv, hes⟩ := Bool.and_eq_true_iff.mp hes
    exact Bool.and_eq_true_iff.mpr ⟨Value.isWithin_mono h hv, entriesWithin_mono h hes⟩
end

theorem word128_admits {n : Int} (h : signed64.admits n = true) : word128.admits n = true := by
  rw [Bounds.admits, Bool.and_eq_true, decide_eq_true_iff, decide_eq_true_iff] at h ⊢
  simp only [signed64, word128] at h ⊢
  omega

mutual
theorem generic?_spec : ∀ {v w : Value}, v.generic? = some w →
    w.isWithin signed64 = true ∧ (v.KeysDistinct → w.KeysDistinct)
  | .string _, _, h | .boolean _, _, h | .moment, _, h => by
    cases h
    exact ⟨rfl, id⟩
  | .malformed, _, h => by cases h
  | .integer n, _, h => by
    rw [Value.generic?] at h
    split at h
    · next hn =>
      cases h
      exact ⟨hn, id⟩
    · cases h
  | .float x, _, h => by
    rw [Value.generic?] at h
    split at h
    · next hx =>
      cases h
      exact ⟨hx, id⟩
    · cases h
  | .array origin items, _, h => by
    obtain ⟨vs, hvs, rfl⟩ := Option.map_eq_some_iff.mp h
    exact genericItems?_spec hvs
  | .table origin es, _, h => by
    rw [Value.generic?] at h
    split at h
    · split at h
      · cases h
        exact ⟨rfl, fun _ => trivial⟩
      · cases h
    · obtain ⟨fs, hfs, rfl⟩ := Option.map_eq_some_iff.mp h
      obtain ⟨-, hwithin, hdistinct⟩ := genericEntries?_spec hfs
      exact ⟨hwithin, hdistinct⟩

theorem genericItems?_spec : ∀ {items vs : List (Located Value)}, genericItems? items = some vs →
    itemsWithin signed64 vs = true ∧ (ItemsDistinct items → ItemsDistinct vs)
  | [], _, h => by
    cases h
    exact ⟨rfl, id⟩
  | ⟨v, range⟩ :: items, _, h => by
    obtain ⟨w, hw, h⟩ := Option.bind_eq_some_iff.mp h
    obtain ⟨ws, hws, h⟩ := Option.bind_eq_some_iff.mp h
    cases h
    have hhead := generic?_spec hw
    have htail := genericItems?_spec hws
    exact ⟨by rw [itemsWithin, hhead.1, htail.1]; rfl, fun h => ⟨hhead.2 h.1, htail.2 h.2⟩⟩

theorem genericEntries?_spec : ∀ {es fs : Entries}, genericEntries? es = some fs →
    fs.map Prod.fst = es.map Prod.fst ∧
      entriesWithin signed64 fs = true ∧ (EntriesDistinct es → EntriesDistinct fs)
  | [], _, h => by
    cases h
    exact ⟨rfl, rfl, id⟩
  | (key, ⟨v, range⟩) :: es, _, h => by
    obtain ⟨w, hw, h⟩ := Option.bind_eq_some_iff.mp h
    obtain ⟨fs, hfs, h⟩ := Option.bind_eq_some_iff.mp h
    cases h
    have hhead := generic?_spec hw
    obtain ⟨hkeys, hwithin, hdistinct⟩ := genericEntries?_spec hfs
    refine ⟨congrArg (key :: ·) hkeys, ?_, fun ⟨hkey, hv, hes⟩ => ?_⟩
    · rw [entriesWithin, hhead.1, hwithin]
      rfl
    · exact ⟨hkeys ▸ hkey, hhead.2 hv, hdistinct hes⟩
end

section Unchanged

/-- A value that is handed on is of the kind it has been, unless it is a moment. -/
theorem generic?_cases {v w : Value} (h : v.generic? = some w) : w = .moment ∨ v = w ∨
    (∃ origin items vs, v = .array origin items ∧ w = .array origin vs) ∨
    ∃ origin es fs, v = .table origin es ∧ w = .table origin fs ∧ genericEntries? es = some fs := by
  cases v with
  | string s => exact .inr (.inl (Option.some.inj h))
  | boolean b => exact .inr (.inl (Option.some.inj h))
  | moment => exact .inr (.inl (Option.some.inj h))
  | malformed => cases h
  | integer n =>
    rw [Value.generic?] at h
    split at h
    · exact .inr (.inl (Option.some.inj h))
    · cases h
  | float x =>
    rw [Value.generic?] at h
    split at h
    · exact .inr (.inl (Option.some.inj h))
    · cases h
  | array origin items =>
    obtain ⟨vs, -, rfl⟩ := Option.map_eq_some_iff.mp h
    exact .inr (.inr (.inl ⟨origin, items, vs, rfl, rfl⟩))
  | table origin es =>
    rw [Value.generic?] at h
    split at h
    · split at h
      · exact .inl (Option.some.inj h).symm
      · cases h
    · obtain ⟨fs, hfs, rfl⟩ := Option.map_eq_some_iff.mp h
      exact .inr (.inr (.inr ⟨origin, es, fs, rfl, rfl, hfs⟩))

theorem reserved?_eq_none {es : Entries} (h : ∀ e ∈ es, e.1 ≠ momentKey) : reserved? es = none := by
  rw [reserved?]
  split
  · next key v hhead =>
    exact if_neg (h (key, v) (mem_sortEntries.mp (List.mem_of_head? hhead)))
  · rfl

theorem genericEntries?_self {es : Entries} (h : ∀ e ∈ es, e.2.value.generic? = some e.2.value) :
    genericEntries? es = some es := by
  induction es with
  | nil => rfl
  | cons e es ih =>
    obtain ⟨key, v, range⟩ := e
    obtain ⟨hv, hes⟩ := List.forall_mem_cons.mp h
    rw [genericEntries?, hv, ih hes]
    rfl

/-- Entries are handed on as they are if each value is. -/
theorem eq_of_genericEntries? {es fs : Entries} (h : genericEntries? es = some fs)
    (hvalues : ∀ e ∈ fs, ∀ v : Value, v.generic? = some e.2.value → v = e.2.value) : es = fs := by
  induction es generalizing fs with
  | nil =>
    cases h
    rfl
  | cons e es ih =>
    obtain ⟨key, v, range⟩ := e
    obtain ⟨w, hw, h⟩ := Option.bind_eq_some_iff.mp h
    obtain ⟨rest, hrest, h⟩ := Option.bind_eq_some_iff.mp h
    cases h
    obtain ⟨hhead, htail⟩ := List.forall_mem_cons.mp hvalues
    rw [hhead v hw, ih hrest htail]

end Unchanged

theorem isGeneric_of_genericEntries? {es fs : Entries} (hes : EntriesDistinct es)
    (hfs : genericEntries? es = some fs) : IsGeneric fs := by
  obtain ⟨-, hwithin, hdistinct⟩ := genericEntries?_spec hfs
  exact ⟨hdistinct hes, hwithin⟩

end ChatMarkup.Toml
