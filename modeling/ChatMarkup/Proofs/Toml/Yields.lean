import ChatMarkup.Proofs.Toml.Distinct

/-! # What a document gives

A postcondition of a reader is about what it reads, whatever stands before and behind it. Values without
parts are all that is read unquoted, so the arrays and inline tables of a document are the only ones
with keys; hence no table of a document gives a key twice.
-/
namespace ChatMarkup.Toml

namespace Reader
variable {α β : Type}

/-- Whatever the reader reads has the property. -/
def Yields (r : Reader α) (P : α → Prop) : Prop := ∀ s a s', r s = some (a, s') → P a

theorem Yields.bind {r : Reader α} {f : α → Reader β} {P : α → Prop} {Q : β → Prop}
    (hr : r.Yields P) (hf : ∀ a, P a → (f a).Yields Q) : (r >>= f).Yields Q := by
  intro s b s' h
  obtain ⟨⟨a, t⟩, ha, hb⟩ := Option.bind_eq_some_iff.mp h
  exact hf a (hr s a t ha) t b s' hb

theorem Yields.pure {P : α → Prop} {a : α} (ha : P a) : Yields (Pure.pure a) P := by
  rintro s _ _ ⟨⟩
  exact ha

theorem yields_true (r : Reader α) : r.Yields fun _ => True := fun _ _ _ _ => trivial

/-- A step of which nothing has to be known. -/
theorem Yields.skip {r : Reader α} {f : α → Reader β} {Q : β → Prop}
    (hf : ∀ a, (f a).Yields Q) : (r >>= f).Yields Q :=
  (yields_true r).bind fun a _ => hf a

theorem yields_fail (P : α → Prop) : (fail : Reader α).Yields P := nofun

theorem Yields.ite {c : Prop} [Decidable c] {r t : Reader α} {P : α → Prop} (hr : r.Yields P)
    (ht : t.Yields P) : (if c then r else t).Yields P := by
  split
  · exact hr
  · exact ht

theorem Yields.located {r : Reader α} {P : α → Prop} (hr : r.Yields P) :
    (located r).Yields fun a => P a.value :=
  .skip fun _ => hr.bind fun _ ha => .skip fun _ => .pure ha

theorem Yields.items {item : Reader α} {P : α → Prop} (hitem : item.Yields P) (close : Char)
    (fuel : Nat) : (items item close fuel).Yields fun as => ∀ a ∈ as, P a := by
  induction fuel with
  | zero => exact yields_fail _
  | succ fuel ih =>
    refine .skip fun _ => .skip fun _ => .ite (.skip fun _ => .pure (by simp)) ?_
    refine hitem.bind fun a ha => .skip fun _ => .skip fun _ => .ite ?_ ?_
    · refine .skip fun _ => ih.bind fun as has => .pure ?_
      exact List.forall_mem_cons.mpr ⟨ha, has⟩
    · refine .skip fun _ => .pure ?_
      exact List.forall_mem_singleton.mpr ha

end Reader

section Leaf

/-- A value that holds no others. -/
def Value.IsLeaf : Value → Prop
  | .array _ _ | .table _ _ => False
  | .string _ | .integer _ | .float _ | .malformed | .boolean _ | .moment => True

theorem Value.IsLeaf.keysDistinct {v : Value} (h : v.IsLeaf) : v.KeysDistinct := by
  cases v with
  | array | table => exact h.elim
  | string | integer | float | malformed | boolean | moment => trivial

theorem Written.keysDistinct_leaf {v : Value} (h : v.IsLeaf) : (Written.leaf v).KeysDistinct := by
  rintro _ ⟨⟩
  exact h.keysDistinct

theorem baseInteger?_isLeaf {base : Nat} {s : List Char} {v : Value}
    (h : baseInteger? base s = some v) : v.IsLeaf := by
  rw [baseInteger?] at h
  split at h
  · cases h; trivial
  · split at h
    · obtain ⟨_, _, rfl⟩ := Option.map_eq_some_iff.mp h
      trivial
    · cases h

theorem decimalInteger?_isLeaf {sign : Option Char} {s : List Char} {v : Value}
    (h : decimalInteger? sign s = some v) : v.IsLeaf := by
  rw [decimalInteger?] at h
  split at h
  · split at h <;> cases h <;> trivial
  · cases h

theorem number?_isLeaf {word : List Char} {v : Value} (h : number? word = some v) : v.IsLeaf := by
  have hbase : ∀ {sign : Option Char} {base : Nat} {s : List Char},
      (if sign.isSome then none else baseInteger? base s) = some v → v.IsLeaf := by
    intro sign base s h
    split at h
    · cases h
    · exact baseInteger?_isLeaf h
  simp only [number?] at h
  split at h
  · cases h; trivial
  split at h
  · cases h; trivial
  split at h
  · exact hbase h
  · exact hbase h
  · exact hbase h
  · split at h
    · obtain ⟨_, _, rfl⟩ := Option.map_eq_some_iff.mp h
      trivial
    · exact decimalInteger?_isLeaf h

theorem Reader.bareValue?_isLeaf {word : List Char} {v : Value} (h : bareValue? word = some v) :
    v.IsLeaf := by
  rw [bareValue?] at h
  split at h
  · cases h; trivial
  split at h
  · cases h; trivial
  split at h
  · cases h; trivial
  · exact number?_isLeaf h

end Leaf

namespace Reader

theorem bare_yields : bare.Yields Value.IsLeaf := by
  intro s v s' h
  obtain ⟨⟨word, behind⟩, _, h⟩ := Option.bind_eq_some_iff.mp h
  obtain ⟨w, hw, h⟩ := Option.bind_eq_some_iff.mp h
  cases h
  exact bareValue?_isLeaf hw

theorem Yields.keyValue {value : Reader (Located Written)} {P : Located Written → Prop}
    (hvalue : value.Yields P) (skip : Reader Unit) :
    (keyValue skip value).Yields fun kv => P kv.value :=
  .skip fun _ => .skip fun _ => .skip fun _ => .skip fun _ => hvalue.bind fun _ hv => .pure hv

theorem value_yields (size depth : Nat) :
    (value size depth).Yields fun w => w.value.KeysDistinct := by
  -- Only an opening bracket leads to other values, and they may be nested less deep.
  induction depth using Nat.strongRecOn with | ind depth ih =>
  unfold value
  refine .located (.skip fun next => ?_)
  split
  · exact .skip fun s => .pure (Written.keysDistinct_leaf trivial)
  · exact .skip fun s => .pure (Written.keysDistinct_leaf trivial)
  · split
    · exact yields_fail _
    · next depth =>
      have hitems := (ih depth (Nat.lt_succ_self _)).items ']' size
      refine .skip fun _ => hitems.bind fun items hitems => .pure ?_
      intro v hv
      obtain ⟨vs, hvs, rfl⟩ := Option.map_eq_some_iff.mp hv
      exact itemValues?_distinct hitems hvs
  · split
    · exact yields_fail _
    · next depth =>
      have hkvs := ((ih depth (Nat.lt_succ_self _)).keyValue skipSpace).items '\x7d' size
      refine .skip fun _ => hkvs.bind fun kvs hkvs => .pure ?_
      intro v hv
      obtain ⟨es, hes, rfl⟩ := Option.map_eq_some_iff.mp hv
      exact addWritten?_distinct hkvs entriesDistinct_nil hes
  · exact bare_yields.bind fun v hv => .pure (Written.keysDistinct_leaf hv)

end Reader

section Document

/-- No table that the statement writes gives a key twice. -/
def Statement.KeysDistinct : Statement → Prop
  | .keyValue kv => kv.value.value.KeysDistinct
  | .header _ => True

namespace Reader

theorem statement_yields (size : Nat) : (statement size).Yields Statement.KeysDistinct := by
  refine .skip fun _ => .ite (.skip fun _ => .pure trivial) ?_
  exact ((value_yields size maxDepth).keyValue skipBlanks).bind fun _ hkv => .pure hkv

theorem statements_yields (size fuel : Nat) :
    (statements size fuel).Yields fun ss => ∀ s ∈ ss, s.KeysDistinct := by
  induction fuel with
  | zero => exact yields_fail _
  | succ fuel ih =>
    refine .skip fun _ => .ite (.pure (by simp)) ?_
    refine (statement_yields size).bind fun s hs => .skip fun _ => ih.bind fun ss hss => .pure ?_
    exact List.forall_mem_cons.mpr ⟨hs, hss⟩

end Reader

theorem readStatements?_distinct {text : List Char} {ss : List Statement}
    (h : readStatements? text = some ss) : ∀ s ∈ ss, s.KeysDistinct := by
  obtain ⟨⟨_, s'⟩, hread, rfl⟩ := Option.map_eq_some_iff.mp h
  have hdocument : Reader.document.Yields fun ss => ∀ s ∈ ss, s.KeysDistinct :=
    .skip fun _ => .skip fun _ => Reader.statements_yields _ _
  exact hdocument _ _ s' hread

theorem sections_distinct {ss : List Statement} (h : ∀ s ∈ ss, s.KeysDistinct) :
    (∀ kv ∈ (sections ss).1, kv.value.value.KeysDistinct) ∧
      ∀ part ∈ (sections ss).2, ∀ kv ∈ part.entries, kv.value.value.KeysDistinct := by
  induction ss with
  | nil => simp [sections]
  | cons s ss ih =>
    rw [List.forall_mem_cons] at h
    obtain ⟨hkvs, hparts⟩ := ih h.2
    cases s with
    | keyValue kv => exact ⟨List.forall_mem_cons.mpr ⟨h.1, hkvs⟩, hparts⟩
    | header => exact ⟨by simp [sections], List.forall_mem_cons.mpr ⟨hkvs, hparts⟩⟩

theorem addSections_distinct {parts : List Section} {es es' : Entries}
    (hparts : ∀ part ∈ parts, ∀ kv ∈ part.entries, kv.value.value.KeysDistinct)
    (hes : EntriesDistinct es) (h : parts.foldlM addSection? es = some es') :
    EntriesDistinct es' := by
  induction parts generalizing es with
  | nil => cases h; exact hes
  | cons part parts ih =>
    rw [List.foldlM_cons] at h
    obtain ⟨changed, hchanged, h⟩ := Option.bind_eq_some_iff.mp h
    rw [List.forall_mem_cons] at hparts
    exact ih hparts.2 (addSection?_distinct hparts.1 hes hchanged) h

/-- No table of a document gives a key twice. -/
theorem parse?_distinct {text : String} {es : Entries} (h : parse? text = some es) :
    EntriesDistinct es := by
  obtain ⟨ss, hss, h⟩ := Option.bind_eq_some_iff.mp h
  obtain ⟨before, hbefore, h⟩ := Option.bind_eq_some_iff.mp h
  obtain ⟨hkvs, hparts⟩ := sections_distinct (readStatements?_distinct hss)
  exact addSections_distinct hparts (addWritten?_distinct hkvs entriesDistinct_nil hbefore) h

end Document

end ChatMarkup.Toml
