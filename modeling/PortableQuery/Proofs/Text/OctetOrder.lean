import Mathlib.Data.Char
import Mathlib.Data.String.Basic

/-!
# The order of texts by octets

A store compares texts octet by octet in their UTF-8 form. The forms of two characters differ first in
an octet that is greater for the greater character, so this is the order of the characters themselves.
-/

namespace PortableQuery.Text

/-- The octets of a text in UTF-8. -/
def octets (text : String) : List UInt8 := text.toUTF8.data.toList

theorem octets_eq_flatMap (text : String) : octets text = text.toList.flatMap String.utf8EncodeChar := by
  rw [octets, String.toUTF8_eq_toByteArray, ← String.utf8Encode_toList, List.utf8Encode,
    List.toList_data_toByteArray]

theorem append_lt_append_left_iff {α : Type} [LT α] [Std.Irrefl (α := α) (· < ·)]
    (front back back' : List α) : front ++ back < front ++ back' ↔ back < back' := by
  induction front with
  | nil => rfl
  | cons c front ih => simp [ih]

section Forms

variable {c d : Char}

/-- Whatever stands behind them, the forms of two characters are ordered like the characters. -/
theorem utf8EncodeChar_append_lt (h : c < d) (rest rest' : List UInt8) :
    String.utf8EncodeChar c ++ rest < String.utf8EncodeChar d ++ rest' := by
  have hlt : c.val.toNat < d.val.toNat := h
  have hbound : d.val.toNat < 1114112 := by
    have := d.valid
    omega
  unfold String.utf8EncodeChar
  simp only
  generalize c.val.toNat = n at hlt
  generalize d.val.toNat = m at hlt hbound
  -- An octet behind the first one holds six bits.
  have hbehind (k : Nat) : (k % 64 + 128) % 2 ^ 8 = k % 64 + 128 := by omega
  split_ifs <;>
    simp (disch := omega) only [List.cons_append, List.nil_append, List.cons_lt_cons_iff,
      UInt8.lt_iff_toNat_lt, ← UInt8.toNat_inj, UInt8.toNat_ofNat', hbehind, Nat.mod_eq_of_lt,
      Nat.add_lt_add_iff_right, Nat.add_right_cancel_iff] <;>
    omega

theorem utf8EncodeChar_append_lt_iff (rest rest' : List UInt8) :
    String.utf8EncodeChar c ++ rest < String.utf8EncodeChar d ++ rest' ↔ c < d ∨ c = d ∧ rest < rest' := by
  rcases lt_trichotomy c d with hlt | rfl | hgt
  · exact iff_of_true (utf8EncodeChar_append_lt hlt rest rest') (.inl hlt)
  · simp [append_lt_append_left_iff]
  · have hnot : ¬ (c < d ∨ c = d ∧ rest < rest') := by
      rintro (hlt | ⟨rfl, -⟩)
      · exact lt_asymm hgt hlt
      · exact lt_irrefl _ hgt
    exact iff_of_false (List.lt_asymm (utf8EncodeChar_append_lt hgt rest' rest)) hnot

end Forms

/-- The order by octets is the order by characters. -/
theorem octets_lt_iff {text other : String} : octets text < octets other ↔ text < other := by
  rw [octets_eq_flatMap, octets_eq_flatMap, String.lt_iff]
  generalize text.toList = chars
  generalize other.toList = others
  induction chars generalizing others with
  | nil =>
    cases others with
    | nil => simp
    | cons d others =>
      obtain ⟨octet, more, hform⟩ := List.exists_cons_of_ne_nil (String.utf8EncodeChar_ne_nil (c := d))
      simp [hform]
  | cons c chars ih =>
    cases others with
    | nil => simp
    | cons d others =>
      rw [List.flatMap_cons, List.flatMap_cons, utf8EncodeChar_append_lt_iff, ih, List.cons_lt_cons_iff]

theorem octets_inj {text other : String} : octets text = octets other ↔ text = other := by
  refine ⟨fun h ↦ ?_, congrArg octets⟩
  rcases lt_trichotomy text other with hlt | heq | hgt
  · exact absurd (octets_lt_iff.mpr hlt) (h ▸ List.lt_irrefl _)
  · exact heq
  · exact absurd (octets_lt_iff.mpr hgt) (h ▸ List.lt_irrefl _)

end PortableQuery.Text
