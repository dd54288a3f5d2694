import Mathlib.Data.List.Basic

/-! # The grammar of JSON

Each relation here says that a text starts with a spelling of something, and what is left of the text
behind it. The grammar is that of all JSON texts: blanks may stand around every value and mark, a character
of a string may be written in several ways, and there are numbers, truth values and null, which tokens do
not use. A number is kept as it is written, and an object keeps its members in their order.
-/
namespace ChatMarkup.Json

inductive Value where
  | null
  | boolean (b : Bool)
  | number (text : List Char)
  | string (s : String)
  | array (items : List Value)
  | object (members : List (String × Value))

def isBlank (c : Char) : Bool := c = ' ' || c = '\t' || c = '\n' || c = '\r'

def ReadsBlanks (s rest : List Char) : Prop := ∃ blanks, s = blanks ++ rest ∧ blanks.all isBlank = true

def Digits (s : List Char) : Prop := s ≠ [] ∧ s.all Char.isDigit = true

/-- Without a zero in front of other digits. -/
def IsInteger (s : List Char) : Prop := s = ['0'] ∨ Digits s ∧ s.head? ≠ some '0'

def IsFraction (s : List Char) : Prop := ∃ digits, s = '.' :: digits ∧ Digits digits

def IsExponent (s : List Char) : Prop := ∃ mark sign digits, s = mark :: (sign ++ digits) ∧
  mark ∈ ['e', 'E'] ∧ sign ∈ [[], ['+'], ['-']] ∧ Digits digits

def IsNumber (s : List Char) : Prop := ∃ sign int fraction exponent,
  s = sign ++ (int ++ (fraction ++ exponent)) ∧ sign ∈ [[], ['-']] ∧ IsInteger int ∧
    (fraction = [] ∨ IsFraction fraction) ∧ (exponent = [] ∨ IsExponent exponent)

/-- The character that a letter stands for behind a backslash. -/
def shortEscape? (letter : Char) : Option Char :=
  [('"', '"'), ('\\', '\\'), ('/', '/'), ('b', '\x08'), ('f', '\x0c'), ('n', '\n'), ('r', '\r'),
    ('t', '\t')].lookup letter

def hexValue? (c : Char) : Option Nat :=
  if '0' ≤ c ∧ c ≤ '9' then some (c.toNat - '0'.toNat)
  else if 'a' ≤ c ∧ c ≤ 'f' then some (c.toNat - 'a'.toNat + 10)
  else if 'A' ≤ c ∧ c ≤ 'F' then some (c.toNat - 'A'.toNat + 10)
  else none

/-- Four hexadecimal digits with their mark. -/
inductive ReadsCode : List Char → Nat → List Char → Prop
  | mk {a b c d : Char} {i j k l : Nat} {rest : List Char} :
      hexValue? a = some i → hexValue? b = some j → hexValue? c = some k → hexValue? d = some l →
      ReadsCode ('\\' :: 'u' :: a :: b :: c :: d :: rest) (16 * (16 * (16 * i + j) + k) + l) rest

def IsHighSurrogate (n : Nat) : Prop := 0xD800 ≤ n ∧ n < 0xDC00
def IsLowSurrogate (n : Nat) : Prop := 0xDC00 ≤ n ∧ n < 0xE000

/-- A character above U+FFFF takes two codes. -/
inductive ReadsChar : List Char → Char → List Char → Prop
  | plain {c : Char} {rest : List Char} :
      c ≠ '"' → c ≠ '\\' → 32 ≤ c.toNat → ReadsChar (c :: rest) c rest
  | short {letter c : Char} {rest : List Char} :
      shortEscape? letter = some c → ReadsChar ('\\' :: letter :: rest) c rest
  | code {s rest : List Char} {n : Nat} :
      ReadsCode s n rest → ¬ IsHighSurrogate n → ¬ IsLowSurrogate n →
      ReadsChar s (Char.ofNat n) rest
  | codes {s t rest : List Char} {high low : Nat} :
      ReadsCode s high t → IsHighSurrogate high → ReadsCode t low rest → IsLowSurrogate low →
      ReadsChar s (Char.ofNat (0x10000 + 0x400 * (high - 0xD800) + (low - 0xDC00))) rest

/-- The characters of a string up to the quotation mark that ends it. -/
inductive ReadsChars : List Char → List Char → List Char → Prop
  | close {rest : List Char} : ReadsChars ('"' :: rest) [] rest
  | cons {s t rest : List Char} {c : Char} {cs : List Char} :
      ReadsChar s c t → ReadsChars t cs rest → ReadsChars s (c :: cs) rest

inductive ReadsString : List Char → String → List Char → Prop
  | mk {s rest cs : List Char} : ReadsChars s cs rest → ReadsString ('"' :: s) (String.ofList cs) rest

/-- What stands between two brackets, up to and with the closing one. There is a comma between any two,
and none behind the last. -/
inductive ReadsList {α : Type} (Reads : List Char → α → List Char → Prop) (close : Char) :
    List Char → List α → List Char → Prop
  | empty {s rest : List Char} : ReadsBlanks s (close :: rest) → ReadsList Reads close s [] rest
  | last {s rest : List Char} {a : α} : Reads s a (close :: rest) → ReadsList Reads close s [a] rest
  | cons {s t rest : List Char} {a : α} {as : List α} :
      Reads s a (',' :: t) → ReadsList Reads close t as rest → as ≠ [] →
      ReadsList Reads close s (a :: as) rest

mutual
inductive ReadsValue : List Char → Value → List Char → Prop
  | null {rest : List Char} : ReadsValue ('n' :: 'u' :: 'l' :: 'l' :: rest) .null rest
  | trueWord {rest : List Char} : ReadsValue ('t' :: 'r' :: 'u' :: 'e' :: rest) (.boolean true) rest
  | falseWord {rest : List Char} :
      ReadsValue ('f' :: 'a' :: 'l' :: 's' :: 'e' :: rest) (.boolean false) rest
  | number {text rest : List Char} : IsNumber text → ReadsValue (text ++ rest) (.number text) rest
  | string {s rest : List Char} {text : String} :
      ReadsString s text rest → ReadsValue s (.string text) rest
  | array {s rest : List Char} {items : List Value} :
      ReadsList ReadsItem ']' s items rest → ReadsValue ('[' :: s) (.array items) rest
  | object {s rest : List Char} {members : List (String × Value)} :
      ReadsList ReadsMember '\x7d' s members rest → ReadsValue ('\x7b' :: s) (.object members) rest
/-- A value with blanks on both sides. -/
inductive ReadsItem : List Char → Value → List Char → Prop
  | mk {s t u rest : List Char} {v : Value} :
      ReadsBlanks s t → ReadsValue t v u → ReadsBlanks u rest → ReadsItem s v rest
inductive ReadsMember : List Char → String × Value → List Char → Prop
  | mk {s t u w rest : List Char} {key : String} {v : Value} :
      ReadsBlanks s t → ReadsString t key u → ReadsBlanks u (':' :: w) → ReadsItem w v rest →
      ReadsMember s (key, v) rest
end

/-- The text is one JSON text, and this is its value. -/
def IsText (text : String) (v : Value) : Prop := ReadsItem text.toList v []

def StartsSolid (s : List Char) : Prop := ∃ c t, s = c :: t ∧ isBlank c = false

theorem startsSolid_cons {c : Char} (h : isBlank c = false) (s : List Char) : StartsSolid (c :: s) :=
  ⟨c, s, rfl, h⟩

theorem ReadsString.startsSolid {s rest : List Char} {text : String} (h : ReadsString s text rest) :
    StartsSolid s := by
  cases h
  exact startsSolid_cons rfl _

/-- Blanks are read up to where they end. -/
theorem readsBlanks_iff {blanks s t : List Char} (hblanks : blanks.all isBlank = true)
    (hs : StartsSolid s) (ht : StartsSolid t) : ReadsBlanks (blanks ++ s) t ↔ s = t := by
  obtain ⟨c, s, rfl, hc⟩ := hs
  obtain ⟨d, t, rfl, hd⟩ := ht
  constructor
  · rintro ⟨others, heq, hothers⟩
    induction blanks generalizing others with
    | nil =>
      cases others with
      | nil => exact heq
      | cons b others =>
        have hb : isBlank b = true := List.all_eq_true.1 hothers b List.mem_cons_self
        rw [← (List.cons.inj heq).1, hc] at hb
        cases hb
    | cons b blanks ih =>
      obtain ⟨hb, hrest⟩ : isBlank b = true ∧ blanks.all isBlank = true := by simpa using hblanks
      cases others with
      | nil =>
        rw [(List.cons.inj heq).1, hd] at hb
        cases hb
      | cons b' others =>
        have htail : others.all isBlank = true := by
          rw [List.all_cons, Bool.and_eq_true] at hothers
          exact hothers.2
        exact ih hrest others (List.cons.inj heq).2 htail
  · intro heq
    exact ⟨blanks, by rw [heq], hblanks⟩

theorem readsBlanks_solid_iff {s t : List Char} (hs : StartsSolid s) (ht : StartsSolid t) :
    ReadsBlanks s t ↔ s = t :=
  readsBlanks_iff List.all_nil hs ht

theorem ReadsBlanks.unique {s t u : List Char} (ht : ReadsBlanks s t) (hu : ReadsBlanks s u)
    (htsolid : StartsSolid t) (husolid : StartsSolid u) : t = u := by
  obtain ⟨blanks, rfl, hblanks⟩ := ht
  exact (readsBlanks_iff hblanks htsolid husolid).1 hu

theorem IsNumber.exists_head {s : List Char} (h : IsNumber s) :
    ∃ c t, s = c :: t ∧ (c = '-' ∨ c.isDigit = true) := by
  obtain ⟨sign, int, fraction, exponent, rfl, hsign, hint, -, -⟩ := h
  have hdigit : ∃ c t, int = c :: t ∧ c.isDigit = true := by
    rcases hint with rfl | ⟨⟨hne, hall⟩, -⟩
    · exact ⟨'0', [], rfl, rfl⟩
    · obtain ⟨c, t, rfl⟩ := List.exists_cons_of_ne_nil hne
      exact ⟨c, t, rfl, List.all_eq_true.1 hall c List.mem_cons_self⟩
  rcases List.mem_pair.1 hsign with rfl | rfl
  · obtain ⟨c, t, rfl, hc⟩ := hdigit
    exact ⟨c, _, rfl, Or.inr hc⟩
  · exact ⟨'-', _, rfl, Or.inl rfl⟩

/-- The characters with which a value can start. -/
def isValueHead (c : Char) : Bool :=
  c = '"' || c = '[' || c = '\x7b' || c = 'n' || c = 't' || c = 'f' || c = '-' || c.isDigit

theorem ReadsValue.exists_head {s rest : List Char} {v : Value} (h : ReadsValue s v rest) :
    ∃ c t, s = c :: t ∧ isValueHead c = true := by
  cases h with
  | number h =>
    obtain ⟨c, t, rfl, hc⟩ := h.exists_head
    refine ⟨c, _, rfl, ?_⟩
    rcases hc with rfl | hc
    · rfl
    · simp [isValueHead, hc]
  | string h =>
    cases h
    exact ⟨_, _, rfl, rfl⟩
  | null => exact ⟨_, _, rfl, rfl⟩
  | trueWord => exact ⟨_, _, rfl, rfl⟩
  | falseWord => exact ⟨_, _, rfl, rfl⟩
  | array => exact ⟨_, _, rfl, rfl⟩
  | object => exact ⟨_, _, rfl, rfl⟩

theorem isBlank_of_isValueHead {c : Char} (h : isValueHead c = true) : isBlank c = false := by
  rw [Bool.eq_false_iff]
  intro hblank
  simp only [isBlank, Bool.or_eq_true, decide_eq_true_eq] at hblank
  rcases hblank with ((rfl | rfl) | rfl) | rfl <;> cases h

theorem ReadsValue.startsSolid {s rest : List Char} {v : Value} (h : ReadsValue s v rest) :
    StartsSolid s := by
  obtain ⟨c, t, rfl, hc⟩ := h.exists_head
  exact startsSolid_cons (isBlank_of_isValueHead hc) t

theorem not_readsValue_of_head {c : Char} (hc : isValueHead c = false) {s rest : List Char}
    {v : Value} : ¬ ReadsValue (c :: s) v rest := by
  intro h
  obtain ⟨d, t, heq, hd⟩ := h.exists_head
  rw [(List.cons.inj heq).1, hd] at hc
  cases hc

theorem not_number_of_head {c : Char} (hc : ¬ (c = '-' ∨ c.isDigit = true)) {text rest s : List Char}
    (heq : c :: s = text ++ rest) : ¬ IsNumber text := by
  intro h
  obtain ⟨d, t, rfl, hd⟩ := h.exists_head
  rw [(List.cons.inj heq).1] at hc
  exact hc hd

theorem readsValue_quote_iff {s rest : List Char} {v : Value} : ReadsValue ('"' :: s) v rest ↔
    ∃ text, ReadsString ('"' :: s) text rest ∧ v = .string text := by
  constructor
  · intro h
    generalize hs : '"' :: s = t at h
    cases h with
    | string h => exact ⟨_, h, rfl⟩
    | number h => exact absurd h (not_number_of_head (by decide) hs)
    | _ => cases hs
  · rintro ⟨text, h, rfl⟩
    exact .string h

theorem readsValue_bracket_iff {s rest : List Char} {v : Value} : ReadsValue ('[' :: s) v rest ↔
    ∃ items, ReadsList ReadsItem ']' s items rest ∧ v = .array items := by
  constructor
  · intro h
    generalize hs : '[' :: s = t at h
    cases h with
    | array h =>
      cases hs
      exact ⟨_, h, rfl⟩
    | string h =>
      cases h
      cases hs
    | number h => exact absurd h (not_number_of_head (by decide) hs)
    | _ => cases hs
  · rintro ⟨items, h, rfl⟩
    exact .array h

theorem readsValue_brace_iff {s rest : List Char} {v : Value} : ReadsValue ('\x7b' :: s) v rest ↔
    ∃ members, ReadsList ReadsMember '\x7d' s members rest ∧ v = .object members := by
  constructor
  · intro h
    generalize hs : '\x7b' :: s = t at h
    cases h with
    | object h =>
      cases hs
      exact ⟨_, h, rfl⟩
    | string h =>
      cases h
      cases hs
    | number h => exact absurd h (not_number_of_head (by decide) hs)
    | _ => cases hs
  · rintro ⟨members, h, rfl⟩
    exact .object h

theorem ReadsItem.not_readsBlanks {s t u : List Char} {v : Value} (h : ReadsItem s v t) :
    ¬ ReadsBlanks s (']' :: u) := by
  intro hclose
  cases h with
  | mk hbefore hvalue _ =>
    obtain rfl := hbefore.unique hclose hvalue.startsSolid (startsSolid_cons rfl u)
    exact not_readsValue_of_head rfl hvalue

theorem ReadsMember.not_readsBlanks {s t u : List Char} {m : String × Value}
    (h : ReadsMember s m t) : ¬ ReadsBlanks s ('\x7d' :: u) := by
  intro hclose
  cases h with
  | mk hbefore hkey _ _ =>
    obtain rfl := hbefore.unique hclose hkey.startsSolid (startsSolid_cons rfl u)
    cases hkey

theorem not_readsChar_quote (rest : List Char) (c : Char) (t : List Char) :
    ¬ ReadsChar ('"' :: rest) c t := by
  intro h
  generalize hs : '"' :: rest = s at h
  cases h with
  | plain hc => exact hc (List.cons.inj hs).1.symm
  | short _ => cases hs
  | code h =>
    cases h
    cases hs
  | codes h =>
    cases h
    cases hs

theorem readsChar_plain_iff {c : Char} (hc : c ≠ '\\') {d : Char} {rest t : List Char} :
    ReadsChar (c :: rest) d t ↔ (c ≠ '"' ∧ 32 ≤ c.toNat) ∧ d = c ∧ t = rest := by
  constructor
  · intro h
    generalize hs : c :: rest = s at h
    cases h with
    | plain hquote _ hcontrol =>
      cases hs
      exact ⟨⟨hquote, hcontrol⟩, rfl, rfl⟩
    | short _ => exact absurd (List.cons.inj hs).1 hc
    | code h =>
      cases h
      exact absurd (List.cons.inj hs).1 hc
    | codes h =>
      cases h
      exact absurd (List.cons.inj hs).1 hc
  · rintro ⟨⟨hquote, hcontrol⟩, rfl, rfl⟩
    exact .plain hquote hc hcontrol

theorem readsChar_short_iff {letter c : Char} (h : shortEscape? letter = some c) {d : Char}
    {rest t : List Char} : ReadsChar ('\\' :: letter :: rest) d t ↔ d = c ∧ t = rest := by
  have hletter : letter ≠ 'u' := by
    rintro rfl
    cases h
  constructor
  · intro hread
    generalize hs : '\\' :: letter :: rest = s at hread
    cases hread with
    | plain _ hc _ => exact absurd (List.cons.inj hs).1.symm hc
    | short hshort =>
      cases hs
      rw [h] at hshort
      cases hshort
      exact ⟨rfl, rfl⟩
    | code hcode =>
      cases hcode
      exact absurd (List.cons.inj (List.cons.inj hs).2).1 hletter
    | codes hcode =>
      cases hcode
      exact absurd (List.cons.inj (List.cons.inj hs).2).1 hletter
  · rintro ⟨rfl, rfl⟩
    exact .short h

theorem ReadsCode.unique {s t u : List Char} {m n : Nat} (hm : ReadsCode s m t)
    (hn : ReadsCode s n u) : m = n ∧ t = u := by
  cases hm with
  | mk ha hb hc hd =>
    cases hn with
    | mk ha' hb' hc' hd' =>
      rw [ha] at ha'
      rw [hb] at hb'
      rw [hc] at hc'
      rw [hd] at hd'
      cases ha'
      cases hb'
      cases hc'
      cases hd'
      exact ⟨rfl, rfl⟩

theorem readsChar_code_iff {s rest t : List Char} {n : Nat} {d : Char} (h : ReadsCode s n rest)
    (hhigh : ¬ IsHighSurrogate n) (hlow : ¬ IsLowSurrogate n) :
    ReadsChar s d t ↔ d = Char.ofNat n ∧ t = rest := by
  constructor
  · intro hread
    cases hread with
    | plain _ hc _ =>
      cases h
      exact absurd rfl hc
    | short hshort =>
      cases h
      cases hshort
    | code hcode =>
      obtain ⟨rfl, rfl⟩ := h.unique hcode
      exact ⟨rfl, rfl⟩
    | codes hcode hsurrogate =>
      obtain ⟨rfl, rfl⟩ := h.unique hcode
      exact absurd hsurrogate hhigh
  · rintro ⟨rfl, rfl⟩
    exact .code h hhigh hlow

end ChatMarkup.Json
