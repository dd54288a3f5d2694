import ChatMarkup.Text.Truncate

/-! # Truncating twice

A text that is cut has three characters more than the limit, so a second cut can go into the dots of the
first one. At a lower limit the first cut leaves no trace, and at the same limit or from three more on the
second one changes nothing. A cut keeps whole characters: the bytes in front of it are the UTF-8
encoding of the characters that are kept.
-/
namespace ChatMarkup.Text

theorem length_ellipsis : ellipsis.length = 3 := rfl

theorem ofList_ellipsis : String.ofList ellipsis = "..." := by
  decide

theorem byteLength_eq_utf8ByteSize (s : List Char) :
    byteLength s = (String.ofList s).utf8ByteSize := by
  induction s with
  | nil => rfl
  | cons c s ih =>
    have hcons : String.ofList (c :: s) = String.singleton c ++ String.ofList s := by
      rw [String.singleton_eq_ofList, ← String.ofList_append]
      rfl
    rw [byteLength, ih, hcons, String.utf8ByteSize_append, String.utf8ByteSize_singleton]

/-- The bytes in front of the byte position behind a part of a text are those of that part. -/
theorem extract_toUTF8_append (s t : List Char) :
    (String.ofList (s ++ t)).toUTF8.extract 0 (byteLength s) = (String.ofList s).toUTF8 := by
  rw [String.toUTF8, String.ofList_append, String.toByteArray_append, byteLength_eq_utf8ByteSize]
  exact ByteArray.extract_append_eq_left rfl

theorem isSome_cut?_iff {text : String} {limit : Nat} :
    (cut? limit text.toList).isSome = true ↔ limit < text.length := by
  rw [cut?_eq, String.length_toList]
  split <;> simp_all

section Twice
variable {text : String} {n m : Nat}

theorem toList_truncate_of_lt (h : n < text.length) :
    (truncate text n).toList = text.toList.take n ++ ellipsis := by
  rw [truncate_of_lt h, String.toList_ofList]

theorem length_truncate_of_lt (h : n < text.length) : (truncate text n).length = n + 3 := by
  rw [← String.length_toList] at h
  rw [← String.length_toList, toList_truncate_of_lt (by rwa [← String.length_toList]),
    List.length_append, List.length_take_of_le (Nat.le_of_lt h), length_ellipsis]

theorem truncate_truncate_of_le (h : m ≤ n) : truncate (truncate text n) m = truncate text m := by
  rcases Nat.lt_or_ge n text.length with hcut | hfit
  · have hlong : m < (truncate text n).length := by
      rw [length_truncate_of_lt hcut]
      omega
    have hkept : m ≤ (text.toList.take n).length := by
      rw [List.length_take, String.length_toList]
      omega
    rw [truncate_of_lt hlong, truncate_of_lt (Nat.lt_of_le_of_lt h hcut),
      toList_truncate_of_lt hcut, List.take_append_of_le_length hkept, List.take_take,
      Nat.min_eq_left h]
  · rw [truncate_of_le hfit]

theorem truncate_truncate_of_fits (h : n + 3 ≤ m) :
    truncate (truncate text n) m = truncate text n := by
  rcases Nat.lt_or_ge n text.length with hcut | hfit
  · exact truncate_of_le (by rw [length_truncate_of_lt hcut]; exact h)
  · rw [truncate_of_le hfit, truncate_of_le (by omega)]

/-- The cut is made at the byte position where the encoding of the kept characters ends. -/
theorem exists_stop_of_lt (h : n < text.length) : ∃ stop, charPosition? n text.toList = some stop ∧
    splitAtByte? stop text.toList = some (text.toList.take n, text.toList.drop n) ∧
    text.toUTF8.extract 0 stop = (String.ofList (text.toList.take n)).toUTF8 ∧
    (truncate text n).toUTF8 = text.toUTF8.extract 0 stop ++ "...".toUTF8 := by
  have hstop := charPosition?_of_lt (String.length_toList ▸ h : n < text.toList.length)
  have hbytes := extract_toUTF8_append (text.toList.take n) (text.toList.drop n)
  rw [List.take_append_drop, String.ofList_toList] at hbytes
  refine ⟨_, hstop, splitAtByte?_charPosition hstop, hbytes, ?_⟩
  rw [hbytes, truncate_of_lt h, String.ofList_append, ofList_ellipsis]
  exact String.toByteArray_append

end Twice

/-- A text with no more characters than the limit stays as it is. Any other text is cut in front of the first
character too many, at the byte position where the encoding of the characters that are kept ends. Of two cuts
the second one counts if its limit is not above the first one, and it changes nothing if its limit is the same or
leaves room for the dots. -/
theorem truncate_twice (text : String) (n m : Nat) :
    ((cut? n text.toList).isSome = true ↔ n < text.length) ∧
    (text.length ≤ n → truncate text n = text) ∧
    (n < text.length → ∃ stop, charPosition? n text.toList = some stop ∧
      splitAtByte? stop text.toList = some (text.toList.take n, text.toList.drop n) ∧
      text.toUTF8.extract 0 stop = (String.ofList (text.toList.take n)).toUTF8 ∧
      (truncate text n).toUTF8 = text.toUTF8.extract 0 stop ++ "...".toUTF8) ∧
    (m ≤ n → truncate (truncate text n) m = truncate text m) ∧
    (m = n ∨ n + 3 ≤ m → truncate (truncate text n) m = truncate text n) := by
  refine ⟨isSome_cut?_iff, truncate_of_le, exists_stop_of_lt, truncate_truncate_of_le, ?_⟩
  rintro (rfl | h)
  · exact truncate_truncate_of_le (Nat.le_refl m)
  · exact truncate_truncate_of_fits h

-- Between the two limits the second cut goes into the dots of the first one.
example : truncate (truncate "abcdef" 3) 4 = "abc...." := by
  decide +kernel

end ChatMarkup.Text
