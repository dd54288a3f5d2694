import Mathlib.Data.String.Basic

/-! # The order of texts and the order of their bytes

Texts are ordered by their characters. Their UTF-8 encodings, byte by byte, have the same order: of two
characters the greater one has the greater byte at the first place where their encodings differ, and there is
such a place, since no encoding of a character starts with another one.
-/
namespace ChatMarkup.Text

def utf8Bytes (text : String) : List UInt8 := text.toUTF8.data.toList

theorem utf8Bytes_eq_flatMap (text : String) :
    utf8Bytes text = text.toList.flatMap String.utf8EncodeChar := by
  have htext : text.toUTF8 = text.toList.utf8Encode := by
    rw [← String.toByteArray_ofList, String.ofList_toList]
    rfl
  rw [utf8Bytes, htext, List.utf8Encode, List.toList_data_toByteArray]

/-- The bytes differ at some place, and at the first such place the left one is less. -/
inductive BelowBytes : List UInt8 → List UInt8 → Prop
  | head {a b : UInt8} {s t : List UInt8} : a < b → BelowBytes (a :: s) (b :: t)
  | tail {a : UInt8} {s t : List UInt8} : BelowBytes s t → BelowBytes (a :: s) (a :: t)

/-- What stands behind the first difference does not matter. -/
theorem BelowBytes.append_lt {s t : List UInt8} (h : BelowBytes s t) (u v : List UInt8) :
    s ++ u < t ++ v := by
  induction h with
  | head h => exact .rel h
  | tail _ ih => exact .cons ih

theorem BelowBytes.ofNat {m n : Nat} {s t : List UInt8} (h : m < n ∨ m = n ∧ BelowBytes s t)
    (hn : n < 256) : BelowBytes (UInt8.ofNat m :: s) (UInt8.ofNat n :: t) := by
  rcases h with h | ⟨rfl, h⟩
  · refine .head ?_
    rw [UInt8.lt_iff_toNat_lt, UInt8.toNat_ofNat_of_lt' (h.trans hn), UInt8.toNat_ofNat_of_lt' hn]
    exact h
  · exact .tail h

/-- The bytes behind the first one of an encoding: so many digits of the number to the base 64, the last
one last. -/
def continuation : Nat → Nat → List UInt8
  | 0, _ => []
  | k + 1, m => UInt8.ofNat (m / 64 ^ k % 64 + 128) :: continuation k m

theorem belowBytes_continuation {k m n : Nat} (h : m % 64 ^ k < n % 64 ^ k) :
    BelowBytes (continuation k m) (continuation k n) := by
  induction k with
  | zero => simp [Nat.mod_one] at h
  | succ k ih =>
    rw [Nat.mod_pow_succ, Nat.mod_pow_succ] at h
    have hm : m / 64 ^ k % 64 < 64 := Nat.mod_lt _ (by decide)
    have hn : n / 64 ^ k % 64 < 64 := Nat.mod_lt _ (by decide)
    refine .ofNat ?_ (by omega)
    rcases Nat.lt_trichotomy (m / 64 ^ k % 64) (n / 64 ^ k % 64) with hlt | heq | hgt
    · exact .inl (by omega)
    · rw [heq] at h ⊢
      exact .inr ⟨rfl, ih (Nat.lt_of_add_lt_add_right h)⟩
    · have hpow : n % 64 ^ k < 64 ^ k := Nat.mod_lt _ (Nat.pow_pos (by decide))
      have hstep : 64 ^ k * (n / 64 ^ k % 64 + 1) ≤ 64 ^ k * (m / 64 ^ k % 64) :=
        Nat.mul_le_mul_left _ hgt
      rw [Nat.mul_add_one] at hstep
      omega

/-- An encoding: a first byte with what the other bytes do not hold, and these. -/
def encoding (k lead m : Nat) : List UInt8 :=
  UInt8.ofNat (m / 64 ^ k + lead) :: continuation k m

/-- How many bytes are behind the first one in the encoding of a number, and what is added to the first one. -/
inductive Layout : Nat → Nat → Nat → Prop
  | one {m : Nat} : m ≤ 127 → Layout m 0 0
  | two {m : Nat} : 127 < m → m ≤ 2047 → Layout m 1 192
  | three {m : Nat} : 2047 < m → m ≤ 65535 → Layout m 2 224
  | four {m : Nat} : 65535 < m → m < 1114112 → Layout m 3 240

theorem exists_layout (c : Char) :
    ∃ k lead, Layout c.toNat k lead ∧ String.utf8EncodeChar c = encoding k lead c.toNat := by
  have hvalid : c.toNat < 1114112 := by
    rcases c.valid with h | ⟨-, h⟩
    · exact Nat.lt_trans h (by decide)
    · exact h
  have htoNat : c.val.toNat = c.toNat := rfl
  simp only [String.utf8EncodeChar, htoNat]
  generalize c.toNat = m at hvalid
  split
  · rename_i h1
    exact ⟨0, 0, .one h1, by simp [encoding, continuation]⟩
  · rename_i h1
    split
    · rename_i h2
      have hlead : m / 64 % 32 = m / 64 := Nat.mod_eq_of_lt (by omega)
      exact ⟨1, 192, .two (by omega) h2, by simp [encoding, continuation, hlead]⟩
    · rename_i h2
      split
      · rename_i h3
        have hlead : m / 4096 % 16 = m / 4096 := Nat.mod_eq_of_lt (by omega)
        exact ⟨2, 224, .three (by omega) h3, by simp [encoding, continuation, hlead]⟩
      · have hlead : m / 262144 % 8 = m / 262144 := Nat.mod_eq_of_lt (by omega)
        exact ⟨3, 240, .four (by omega) hvalid, by simp [encoding, continuation, hlead]⟩

/-- A greater number has as many bytes, or its first byte is greater already. -/
theorem Layout.lead_lt {m n j k first lead : Nat} (hm : Layout m j first) (hn : Layout n k lead)
    (h : m < n) : n / 64 ^ k + lead < 256 ∧
      (j = k ∧ first = lead ∨ m / 64 ^ j + first < n / 64 ^ k + lead) := by
  cases hm <;> cases hn <;> omega

theorem belowBytes_encoding {m n j k first lead : Nat} (hm : Layout m j first)
    (hn : Layout n k lead) (h : m < n) :
    BelowBytes (encoding j first m) (encoding k lead n) := by
  obtain ⟨hbyte, ⟨rfl, rfl⟩ | hlt⟩ := hm.lead_lt hn h
  · refine .ofNat ?_ hbyte
    rcases Nat.lt_or_eq_of_le (Nat.div_le_div_right (c := 64 ^ j) (Nat.le_of_lt h)) with hdiv | hdiv
    · exact .inl (by omega)
    · have hmdiv := Nat.div_add_mod m (64 ^ j)
      have hndiv := Nat.div_add_mod n (64 ^ j)
      rw [hdiv] at hmdiv ⊢
      exact .inr ⟨rfl, belowBytes_continuation (by omega)⟩
  · exact .ofNat (.inl hlt) hbyte

theorem belowBytes_utf8EncodeChar {c d : Char} (h : c < d) :
    BelowBytes (String.utf8EncodeChar c) (String.utf8EncodeChar d) := by
  obtain ⟨j, first, hc, hcbytes⟩ := exists_layout c
  obtain ⟨k, lead, hd, hdbytes⟩ := exists_layout d
  rw [hcbytes, hdbytes]
  exact belowBytes_encoding hc hd h

theorem flatMap_utf8EncodeChar_lt {s t : List Char} (h : s < t) :
    s.flatMap String.utf8EncodeChar < t.flatMap String.utf8EncodeChar := by
  induction h with
  | @nil c t =>
    obtain ⟨k, lead, -, hbytes⟩ := exists_layout c
    rw [List.flatMap_cons, hbytes]
    exact .nil
  | cons _ ih =>
    rw [List.flatMap_cons, List.flatMap_cons]
    exact List.append_left_lt ih
  | rel h =>
    rw [List.flatMap_cons, List.flatMap_cons]
    exact (belowBytes_utf8EncodeChar h).append_lt _ _

theorem utf8Bytes_lt_iff {s t : String} : utf8Bytes s < utf8Bytes t ↔ s < t := by
  have hmono : ∀ {u v : String}, u < v → utf8Bytes u < utf8Bytes v := by
    intro u v h
    rw [utf8Bytes_eq_flatMap, utf8Bytes_eq_flatMap]
    exact flatMap_utf8EncodeChar_lt h
  refine ⟨fun h => ?_, hmono⟩
  rcases lt_trichotomy s t with hlt | rfl | hgt
  · exact hlt
  · exact absurd h (List.lt_irrefl _)
  · exact absurd h (List.lt_asymm (hmono hgt))

end ChatMarkup.Text
