import ChatMarkup.Json
import ChatMarkup.Proofs.Json.Grammar

/-! # Printed values are read back

The indented text of a value is a JSON text of that value and of no other, at every depth and whatever
stands behind it. The one induction is on the value. What is between the brackets of an array and between
the braces of an object is read in the same way, so one lemma about texts with commas between them serves
both.
-/
namespace ChatMarkup.Json

mutual
/-- The same value among those of all JSON texts. -/
def value : Json → Value
  | .string s => .string s
  | .array items => .array (itemValues items)
  | .object members => .object (memberValues members)
def itemValues : List Json → List Value
  | [] => []
  | j :: js => j.value :: itemValues js
def memberValues : List (String × Json) → List (String × Value)
  | [] => []
  | (key, j) :: ms => (key, j.value) :: memberValues ms
end

theorem itemValues_eq_map (js : List Json) : itemValues js = js.map value := by
  induction js with
  | nil => rfl
  | cons j js ih => rw [itemValues, ih, List.map_cons]

theorem memberValues_eq_map (ms : List (String × Json)) :
    memberValues ms = ms.map fun m => (m.1, m.2.value) := by
  induction ms with
  | nil => rfl
  | cons m ms ih => rw [memberValues, ih, List.map_cons]

@[elab_as_elim]
theorem jsonInduction {P : Json → Prop} (string : ∀ s, P (.string s))
    (array : ∀ items, (∀ j ∈ items, P j) → P (.array items))
    (object : ∀ members, (∀ m ∈ members, P m.2) → P (.object members)) (j : Json) : P j :=
  @Json.rec P (fun js => ∀ j ∈ js, P j) (fun ms => ∀ m ∈ ms, P m.2) (fun m => P m.2) string array object
    (fun _ h => absurd h List.not_mem_nil) (fun _ _ hj hjs => List.forall_mem_cons.2 ⟨hj, hjs⟩)
    (fun _ h => absurd h List.not_mem_nil) (fun _ _ hm hms => List.forall_mem_cons.2 ⟨hm, hms⟩)
    (fun _ _ h => h) j

theorem hexValue?_hexDigit : ∀ n < 16, hexValue? (hexDigit n) = some n := by decide

theorem readsCode_escape {c : Char} (h : c.toNat < 32) (rest : List Char) :
    ReadsCode ('\\' :: 'u' :: '0' :: '0' :: hexDigit (c.toNat / 16) :: hexDigit (c.toNat % 16) :: rest)
      c.toNat rest := by
  have hzero : hexValue? '0' = some 0 := rfl
  have hhigh := hexValue?_hexDigit (c.toNat / 16) (by omega)
  have hlow := hexValue?_hexDigit (c.toNat % 16) (by omega)
  have hsum : 16 * (16 * (16 * 0 + 0) + c.toNat / 16) + c.toNat % 16 = c.toNat := by omega
  have hread : ReadsCode _ _ rest := .mk hzero hzero hhigh hlow
  rwa [hsum] at hread

theorem escapeChar_short {c : Char} (h : c ∈ ['"', '\\', '\x08', '\t', '\n', '\x0c', '\r']) :
    ∃ letter, escapeChar c = ['\\', letter] ∧ shortEscape? letter = some c := by
  simp only [List.mem_cons, List.not_mem_nil, or_false] at h
  rcases h with rfl | rfl | rfl | rfl | rfl | rfl | rfl <;> exact ⟨_, rfl, rfl⟩

theorem readsChar_escapeChar {c d : Char} {rest t : List Char} :
    ReadsChar (escapeChar c ++ rest) d t ↔ d = c ∧ t = rest := by
  by_cases hshort : c ∈ ['"', '\\', '\x08', '\t', '\n', '\x0c', '\r']
  · obtain ⟨letter, htext, hletter⟩ := escapeChar_short hshort
    rw [htext]
    exact readsChar_short_iff hletter
  · simp only [List.mem_cons, List.not_mem_nil, or_false, not_or] at hshort
    obtain ⟨hquote, hbackslash, hbell, htab, hfeed, hform, hreturn⟩ := hshort
    rw [escapeChar, if_neg hquote, if_neg hbackslash, if_neg hbell, if_neg htab, if_neg hfeed,
      if_neg hform, if_neg hreturn]
    by_cases hcontrol : c.toNat < 32
    · have hhigh : ¬ IsHighSurrogate c.toNat := fun hs => by
        have := hs.1
        omega
      have hlow : ¬ IsLowSurrogate c.toNat := fun hs => by
        have := hs.1
        omega
      have hiff := readsChar_code_iff (d := d) (t := t) (readsCode_escape hcontrol rest) hhigh hlow
      rw [Char.ofNat_toNat] at hiff
      rw [if_pos hcontrol]
      exact hiff
    · rw [if_neg hcontrol, List.singleton_append, readsChar_plain_iff hbackslash]
      exact and_iff_right ⟨hquote, Nat.le_of_not_lt hcontrol⟩

theorem readsChars_flatMap_escapeChar {cs ds rest t : List Char} :
    ReadsChars (cs.flatMap escapeChar ++ '"' :: rest) ds t ↔ ds = cs ∧ t = rest := by
  constructor
  · intro h
    induction cs generalizing ds with
    | nil =>
      cases h with
      | close => exact ⟨rfl, rfl⟩
      | cons hc _ => exact absurd hc (not_readsChar_quote _ _ _)
    | cons c cs ih =>
      rw [List.flatMap_cons, List.append_assoc] at h
      generalize hs : escapeChar c ++ (cs.flatMap escapeChar ++ '"' :: rest) = s at h
      cases h with
      | close =>
        have hread : ReadsChar (escapeChar c ++ (cs.flatMap escapeChar ++ '"' :: rest)) c _ :=
          readsChar_escapeChar.2 ⟨rfl, rfl⟩
        rw [hs] at hread
        exact absurd hread (not_readsChar_quote _ _ _)
      | cons hc hcs =>
        rw [← hs] at hc
        obtain ⟨rfl, rfl⟩ := readsChar_escapeChar.1 hc
        obtain ⟨rfl, rfl⟩ := ih hcs
        exact ⟨rfl, rfl⟩
  · rintro ⟨rfl, rfl⟩
    induction ds with
    | nil => exact .close
    | cons d ds ih =>
      rw [List.flatMap_cons, List.append_assoc]
      exact .cons (readsChar_escapeChar.2 ⟨rfl, rfl⟩) ih

theorem readsString_quote {s text : String} {rest t : List Char} :
    ReadsString (quote s.toList ++ rest) text t ↔ text = s ∧ t = rest := by
  have hquote : quote s.toList ++ rest = '"' :: (s.toList.flatMap escapeChar ++ '"' :: rest) := by
    simp [quote]
  rw [hquote]
  constructor
  · intro h
    cases h with
    | mk h =>
      obtain ⟨rfl, rfl⟩ := readsChars_flatMap_escapeChar.1 h
      exact ⟨String.ofList_toList, rfl⟩
  · rintro ⟨rfl, rfl⟩
    have hread := ReadsString.mk (readsChars_flatMap_escapeChar.2 ⟨Eq.refl text.toList, Eq.refl t⟩)
    rwa [String.ofList_toList] at hread

/-- Whatever solid text follows, with or without blanks in front of it, this text is read as that value
and no other. -/
def Determined {α : Type} (Reads : List Char → α → List Char → Prop) (text : List Char) (a : α) : Prop :=
  ∀ ⦃blanks s t : List Char⦄ ⦃b : α⦄, blanks.all isBlank = true → StartsSolid s → StartsSolid t →
    (Reads (text ++ (blanks ++ s)) b t ↔ b = a ∧ s = t)

theorem Determined.solid_iff {α : Type} {Reads : List Char → α → List Char → Prop}
    {text s t : List Char} {a b : α} (h : Determined Reads text a) (hs : StartsSolid s)
    (ht : StartsSolid t) : Reads (text ++ s) b t ↔ b = a ∧ s = t :=
  h List.all_nil hs ht

/-- What is printed behind an opening bracket, each item with the line break in front of it. -/
def listText (depth : Nat) (close : Char) : List (List Char) → List Char
  | [] => [close]
  | text :: texts => text ++ (texts.flatMap (',' :: ·) ++ (newline depth ++ [close]))

theorem isBlank_newline (depth : Nat) : (newline depth).all isBlank = true := by
  simp [newline, isBlank]

theorem writeItems_eq_flatMap (depth : Nat) (js : List Json) :
    writeItems depth js = js.flatMap fun j => ',' :: (newline depth ++ write depth j) := by
  induction js with
  | nil => rfl
  | cons j js ih => simp [writeItems, ih]

theorem writeMembers_eq_flatMap (depth : Nat) (ms : List (String × Json)) :
    writeMembers depth ms = ms.flatMap fun m => ',' :: (newline depth ++ writeMember depth m) := by
  induction ms with
  | nil => rfl
  | cons m ms ih => simp [writeMembers, ih]

theorem write_array (depth : Nat) (items : List Json) : write depth (.array items) = '[' ::
    listText depth ']' (items.map fun j => newline (depth + 1) ++ j.write (depth + 1)) := by
  cases items with
  | nil => rfl
  | cons j js => simp [write, listText, writeItems_eq_flatMap, List.flatMap_map]

theorem write_object (depth : Nat) (members : List (String × Json)) :
    write depth (.object members) = '\x7b' :: listText depth '\x7d'
      (members.map fun m => newline (depth + 1) ++ writeMember (depth + 1) m) := by
  cases members with
  | nil => rfl
  | cons m ms => simp [write, listText, writeMembers_eq_flatMap, List.flatMap_map]

section List
variable {α β : Type} {Reads : List Char → β → List Char → Prop} {close : Char}
  (hsolid : isBlank close = false)
  (hclose : ∀ {s t u : List Char} {b : β}, Reads s b t → ¬ ReadsBlanks s (close :: u))
include hsolid hclose

theorem readsList_nil_iff {bs : List β} {rest t : List Char} :
    ReadsList Reads close (close :: rest) bs t ↔ bs = [] ∧ t = rest := by
  have hblanks : ReadsBlanks (close :: rest) (close :: rest) := ⟨[], rfl, rfl⟩
  constructor
  · intro h
    cases h with
    | empty h =>
      have heq := hblanks.unique h (startsSolid_cons hsolid rest) (startsSolid_cons hsolid t)
      exact ⟨rfl, (List.cons.inj heq).2.symm⟩
    | last h => exact absurd hblanks (hclose h)
    | cons h _ _ => exact absurd hblanks (hclose h)
  · rintro ⟨rfl, rfl⟩
    exact .empty hblanks

theorem readsList_cons_iff (hcomma : close ≠ ',') {text : α → List Char} {f : α → β} {a : α}
    {as : List α} (h : ∀ a' ∈ a :: as, Determined Reads (text a') (f a')) {blanks : List Char}
    (hblanks : blanks.all isBlank = true) {bs : List β} {rest t : List Char} :
    ReadsList Reads close
      (text a ++ (as.flatMap (fun a' => ',' :: text a') ++ (blanks ++ close :: rest))) bs t ↔
        bs = (a :: as).map f ∧ t = rest := by
  have hmark : ∀ s, StartsSolid (',' :: s) := startsSolid_cons rfl
  have hend : ∀ s, StartsSolid (close :: s) := startsSolid_cons hsolid
  induction as generalizing a bs with
  | nil =>
    have ha := h a List.mem_cons_self
    constructor
    · intro hread
      cases hread with
      | empty hread => exact absurd hread (hclose ((ha hblanks (hend rest) (hend rest)).2 ⟨rfl, rfl⟩))
      | last hread =>
        obtain ⟨rfl, heq⟩ := (ha hblanks (hend rest) (hend t)).1 hread
        exact ⟨rfl, (List.cons.inj heq).2.symm⟩
      | cons hread _ _ =>
        obtain ⟨-, heq⟩ := (ha hblanks (hend rest) (hmark _)).1 hread
        exact absurd (List.cons.inj heq).1 hcomma
    · rintro ⟨rfl, rfl⟩
      exact .last ((ha hblanks (hend t) (hend t)).2 ⟨rfl, rfl⟩)
  | cons next as ih =>
    have ha := h a List.mem_cons_self
    have hnext : ∀ a' ∈ next :: as, Determined Reads (text a') (f a') :=
      fun a' ha' => h a' (List.mem_cons_of_mem a ha')
    rw [List.flatMap_cons, List.cons_append, List.cons_append, List.append_assoc]
    constructor
    · intro hread
      cases hread with
      | empty hread => exact absurd hread (hclose ((ha.solid_iff (hmark _) (hmark _)).2 ⟨rfl, rfl⟩))
      | last hread =>
        obtain ⟨-, heq⟩ := (ha.solid_iff (hmark _) (hend t)).1 hread
        exact absurd (List.cons.inj heq).1.symm hcomma
      | cons hread hreads _ =>
        obtain ⟨rfl, heq⟩ := (ha.solid_iff (hmark _) (hmark _)).1 hread
        rw [← (List.cons.inj heq).2] at hreads
        obtain ⟨rfl, rfl⟩ := (ih hnext).1 hreads
        exact ⟨rfl, rfl⟩
    · rintro ⟨rfl, rfl⟩
      exact .cons ((ha.solid_iff (hmark _) (hmark _)).2 ⟨rfl, rfl⟩) ((ih hnext).2 ⟨rfl, rfl⟩)
        (List.cons_ne_nil _ _)

theorem readsList_listText_iff (hcomma : close ≠ ',') {text : α → List Char} {f : α → β}
    {as : List α} (h : ∀ a ∈ as, Determined Reads (text a) (f a)) {depth : Nat} {bs : List β}
    {rest t : List Char} :
    ReadsList Reads close (listText depth close (as.map text) ++ rest) bs t ↔
      bs = as.map f ∧ t = rest := by
  cases as with
  | nil => exact readsList_nil_iff hsolid hclose
  | cons a as =>
    have htext : listText depth close ((a :: as).map text) ++ rest =
        text a ++ (as.flatMap (fun a' => ',' :: text a') ++ (newline depth ++ close :: rest)) := by
      simp [listText, List.flatMap_map]
    rw [htext]
    exact readsList_cons_iff hsolid hclose hcomma h (isBlank_newline depth)

end List

/-- What the induction shows of a value. -/
def IsReadBack (j : Json) : Prop := ∀ ⦃depth : Nat⦄ ⦃rest t : List Char⦄ ⦃v : Value⦄,
  ReadsValue (j.write depth ++ rest) v t ↔ v = j.value ∧ t = rest

theorem IsReadBack.startsSolid {j : Json} (h : IsReadBack j) (depth : Nat) (rest : List Char) :
    StartsSolid (j.write depth ++ rest) :=
  (h.2 ⟨rfl, rfl⟩).startsSolid

theorem IsReadBack.determined {j : Json} (h : IsReadBack j) {front : List Char}
    (hfront : front.all isBlank = true) (depth : Nat) :
    Determined ReadsItem (front ++ j.write depth) j.value := by
  intro blanks s t v hblanks hs ht
  rw [List.append_assoc]
  constructor
  · intro hread
    cases hread with
    | mk hbefore hvalue hbehind =>
      obtain rfl := (readsBlanks_iff hfront (h.startsSolid depth _) hvalue.startsSolid).1 hbefore
      obtain ⟨rfl, rfl⟩ := h.1 hvalue
      exact ⟨rfl, (readsBlanks_iff hblanks hs ht).1 hbehind⟩
  · rintro ⟨rfl, rfl⟩
    have hsolid := h.startsSolid depth (blanks ++ s)
    exact .mk ((readsBlanks_iff hfront hsolid hsolid).2 rfl) (h.2 ⟨rfl, rfl⟩)
      ((readsBlanks_iff hblanks hs hs).2 rfl)

theorem IsReadBack.determined_member {j : Json} (h : IsReadBack j) (key : String) (depth : Nat) :
    Determined ReadsMember (newline depth ++ writeMember depth (key, j)) (key, j.value) := by
  intro blanks s t m hblanks hs ht
  have htext : newline depth ++ writeMember depth (key, j) ++ (blanks ++ s) = newline depth ++
      (quote key.toList ++ ([] ++ ':' :: ([' '] ++ j.write depth ++ (blanks ++ s)))) := by
    simp [writeMember]
  have hquote : ∀ r, StartsSolid (quote key.toList ++ r) := fun r => startsSolid_cons rfl _
  have hcolon : ∀ r, StartsSolid (':' :: r) := startsSolid_cons rfl
  have hvalue : Determined ReadsItem ([' '] ++ j.write depth) j.value := h.determined rfl depth
  rw [htext]
  constructor
  · intro hread
    cases hread with
    | mk hbefore hkey hmark hitem =>
      obtain rfl := (readsBlanks_iff (isBlank_newline depth) (hquote _) hkey.startsSolid).1 hbefore
      obtain ⟨rfl, rfl⟩ := readsString_quote.1 hkey
      have hrest := (readsBlanks_solid_iff (hcolon _) (hcolon _)).1 hmark
      rw [← (List.cons.inj hrest).2] at hitem
      obtain ⟨rfl, rfl⟩ := (hvalue hblanks hs ht).1 hitem
      exact ⟨rfl, rfl⟩
  · rintro ⟨rfl, rfl⟩
    exact .mk ((readsBlanks_iff (isBlank_newline depth) (hquote _) (hquote _)).2 rfl)
      (readsString_quote.2 ⟨rfl, rfl⟩) ((readsBlanks_solid_iff (hcolon _) (hcolon _)).2 rfl)
      ((hvalue hblanks hs hs).2 ⟨rfl, rfl⟩)

theorem isReadBack_string (s : String) : IsReadBack (.string s) := by
  intro depth rest t v
  have hquote : write depth (.string s) ++ rest = '"' :: (s.toList.flatMap escapeChar ++ '"' :: rest) := by
    simp [write, quote]
  rw [hquote, readsValue_quote_iff, ← hquote]
  constructor
  · rintro ⟨text, hread, rfl⟩
    obtain ⟨rfl, rfl⟩ := readsString_quote.1 hread
    exact ⟨rfl, rfl⟩
  · rintro ⟨rfl, rfl⟩
    exact ⟨s, readsString_quote.2 ⟨rfl, rfl⟩, rfl⟩

theorem isReadBack_array {items : List Json} (h : ∀ j ∈ items, IsReadBack j) :
    IsReadBack (.array items) := by
  intro depth rest t v
  have hitem : ∀ j ∈ items, Determined ReadsItem (newline (depth + 1) ++ j.write (depth + 1)) j.value :=
    fun j hj => (h j hj).determined (isBlank_newline _) _
  simp only [write_array, List.cons_append, readsValue_bracket_iff, value, itemValues_eq_map,
    readsList_listText_iff rfl ReadsItem.not_readsBlanks (by decide) hitem]
  constructor
  · rintro ⟨values, ⟨rfl, rfl⟩, rfl⟩
    exact ⟨rfl, rfl⟩
  · rintro ⟨rfl, rfl⟩
    exact ⟨_, ⟨rfl, rfl⟩, rfl⟩

theorem isReadBack_object {members : List (String × Json)} (h : ∀ m ∈ members, IsReadBack m.2) :
    IsReadBack (.object members) := by
  intro depth rest t v
  have hmember : ∀ m ∈ members,
      Determined ReadsMember (newline (depth + 1) ++ writeMember (depth + 1) m) (m.1, m.2.value) :=
    fun m hm => (h m hm).determined_member m.1 _
  simp only [write_object, List.cons_append, readsValue_brace_iff, value, memberValues_eq_map,
    readsList_listText_iff rfl ReadsMember.not_readsBlanks (by decide) hmember]
  constructor
  · rintro ⟨values, ⟨rfl, rfl⟩, rfl⟩
    exact ⟨rfl, rfl⟩
  · rintro ⟨rfl, rfl⟩
    exact ⟨_, ⟨rfl, rfl⟩, rfl⟩

theorem isReadBack (j : Json) : IsReadBack j := by
  induction j using jsonInduction with
  | string s => exact isReadBack_string s
  | array items ih => exact isReadBack_array ih
  | object members ih => exact isReadBack_object ih

/-- The printed text, with or without blanks behind it, is a JSON text of that value and of no other. -/
theorem isText_pretty_append_iff {j : Json} {blanks : String} (h : blanks.toList.all isBlank = true)
    {v : Value} : IsText (j.pretty ++ blanks) v ↔ v = j.value := by
  have hread := isReadBack j
  rw [IsText, String.toList_append, pretty, String.toList_ofList]
  constructor
  · rintro ⟨hbefore, hvalue, -⟩
    obtain rfl := (readsBlanks_solid_iff (hread.startsSolid 0 _) hvalue.startsSolid).1 hbefore
    exact (hread.1 hvalue).1
  · rintro rfl
    have hbehind : ReadsBlanks blanks.toList [] := ⟨_, (List.append_nil _).symm, h⟩
    exact .mk ⟨[], rfl, rfl⟩ (hread.2 ⟨rfl, rfl⟩) hbehind

end ChatMarkup.Json
