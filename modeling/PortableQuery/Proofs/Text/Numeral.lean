import Mathlib.Data.List.TakeDrop
import PortableQuery.Text.Numeral

/-!
# Numerals read back

The digits of a number are a maximal run of digits in front of any text that does not go on with a
digit, their value is the number, and they begin with zero only for zero. Signed integers are read
back from their text, and words of 64 bits survive the way through the integers.
-/

namespace PortableQuery.Text.Numeral

theorem value_eq_ofDigitChars (run : List Char) : value run = Nat.ofDigitChars 10 run 0 := by
  simp only [value, Nat.ofDigitChars_eq_foldl, Nat.mul_comm]

theorem value_digits (n : Nat) : value (digits n) = n := by
  rw [value_eq_ofDigitChars, digits, Nat.ofDigitChars_ten_toDigits]

theorem digits_ne_nil (n : Nat) : digits n ≠ [] := Nat.toDigits_ne_nil

theorem isDigit_of_mem_digits {n : Nat} {c : Char} (h : c ∈ digits n) : c.isDigit = true :=
  Nat.isDigit_of_mem_toDigits (by decide) (by decide) h

theorem digits_of_lt {n : Nat} (h : n < 10) : digits n = [n.digitChar] := Nat.toDigits_of_lt_base h

theorem digits_of_le {n : Nat} (h : 10 ≤ n) : digits n = digits (n / 10) ++ [(n % 10).digitChar] :=
  Nat.toDigits_of_base_le (by decide) h

theorem digits_injective : Function.Injective digits := by
  intro m n h
  rw [← value_digits m, h, value_digits]

/-- Only zero is written with a leading zero. -/
theorem head_digits_ne_zero {n : Nat} (h : 0 < n) : (digits n).head? ≠ some '0' := by
  induction n using Nat.strongRecOn with
  | ind n ih =>
    by_cases hlt : n < 10
    · rw [digits_of_lt hlt]
      have hdigit : ∀ d < 10, 0 < d → [d.digitChar].head? ≠ some '0' := by decide
      exact hdigit n hlt h
    · have hshorter := ih (n / 10) (by omega) (by omega)
      obtain ⟨c, more, hc⟩ := List.exists_cons_of_ne_nil (digits_ne_nil (n / 10))
      rw [hc] at hshorter
      rw [digits_of_le (by omega), hc]
      exact hshorter

theorem length_digits_of_head_zero {n : Nat} (h : (digits n).head? = some '0') :
    (digits n).length = 1 := by
  have hzero : n = 0 := by
    by_contra hne
    exact head_digits_ne_zero (Nat.pos_of_ne_zero hne) h
  subst hzero
  rfl

/-- A text in front of which a run of digits ends. -/
def Stops (rest : List Char) : Prop := ∀ c ∈ rest.head?, c.isDigit = false

theorem stops_cons {c : Char} {rest : List Char} (h : c.isDigit = false) : Stops (c :: rest) := by
  simpa [Stops] using h

theorem spanDigits_append {run rest : List Char} (hrun : ∀ c ∈ run, c.isDigit = true)
    (hrest : Stops rest) : spanDigits (run ++ rest) = (run, rest) := by
  have hnone : rest.takeWhile Char.isDigit = [] ∧ rest.dropWhile Char.isDigit = rest := by
    cases rest with
    | nil => simp
    | cons c more =>
      have hc : c.isDigit = false := hrest c (by simp)
      simp [hc]
  rw [spanDigits, List.span_eq_takeWhile_dropWhile, List.takeWhile_append_of_pos hrun,
    List.dropWhile_append_of_pos hrun, hnone.1, hnone.2, List.append_nil]

/-! ## Signed integers -/

theorem readInt?_of_unsigned {c : Char} (rest : List Char) (hminus : c ≠ '-') (hplus : c ≠ '+') :
    readInt? (c :: rest) =
      if !(c :: rest).all Char.isDigit then none else some (value (c :: rest) : Int) := by
  simp [readInt?, hminus, hplus]

theorem readInt?_intChars (n : Int) : readInt? (intChars n) = some n := by
  have hall (m : Nat) : (digits m).all Char.isDigit = true :=
    List.all_eq_true.mpr fun c ↦ isDigit_of_mem_digits
  cases n with
  | ofNat n =>
    obtain ⟨c, more, hdigits⟩ := List.exists_cons_of_ne_nil (digits_ne_nil n)
    have hc : c.isDigit = true := isDigit_of_mem_digits (by simp [hdigits] : c ∈ digits n)
    have hsign : c ≠ '-' ∧ c ≠ '+' := by
      constructor <;> rintro rfl <;> contradiction
    rw [intChars, hdigits, readInt?_of_unsigned more hsign.1 hsign.2, ← hdigits, hall, value_digits]
    rfl
  | negSucc n =>
    simp [intChars, readInt?, hall, digits_ne_nil, value_digits, Int.negSucc_eq]

theorem isDigit_of_mem_intChars {n : Int} {c : Char} (h : c ∈ intChars n) :
    c.isDigit = true ∨ c = '-' := by
  cases n with
  | ofNat n => exact .inl (isDigit_of_mem_digits h)
  | negSucc n =>
    rcases List.mem_cons.mp h with hminus | hmem
    · exact .inr hminus
    · exact .inl (isDigit_of_mem_digits hmem)

theorem exists_digit_mem_intChars (n : Int) : ∃ c ∈ intChars n, c.isDigit = true := by
  have hsome (m : Nat) : ∃ c ∈ digits m, c.isDigit = true := by
    obtain ⟨c, hmem⟩ := List.exists_mem_of_ne_nil _ (digits_ne_nil m)
    exact ⟨c, hmem, isDigit_of_mem_digits hmem⟩
  cases n with
  | ofNat n => exact hsome n
  | negSucc n =>
    obtain ⟨c, hmem, hc⟩ := hsome (n + 1)
    exact ⟨c, List.mem_cons_of_mem _ hmem, hc⟩

/-- Text that begins neither with a sign nor with a digit is no integer. -/
theorem readInt?_cons_eq_none {c : Char} (rest : List Char) (hdigit : c.isDigit = false)
    (hminus : c ≠ '-') (hplus : c ≠ '+') : readInt? (c :: rest) = none := by
  rw [readInt?_of_unsigned rest hminus hplus, List.all_cons, hdigit, Bool.false_and]
  rfl

/-! ## Words of 64 bits -/

theorem int64?_toInt (word : Int64) : int64? word.toInt = some word := by
  have hlow : Int64.minValue.toInt ≤ word.toInt := Int64.le_iff_toInt_le.mp (Int64.minValue_le word)
  have hhigh : word.toInt ≤ Int64.maxValue.toInt := Int64.le_iff_toInt_le.mp (Int64.le_maxValue word)
  rw [int64?, if_pos ⟨hlow, hhigh⟩, Int64.ofInt_toInt]

theorem toInt_of_int64? {n : Int} {word : Int64} (h : int64? n = some word) : word.toInt = n := by
  unfold int64? at h
  split at h
  case isTrue hrange =>
    obtain rfl := Option.some.inj h
    exact Int64.toInt_ofInt_of_le hrange.1 (by
      have := hrange.2
      change n ≤ 9223372036854775807 at this
      omega)
  case isFalse => contradiction

theorem uint64?_toNat (word : UInt64) : uint64? word.toNat = some word := by
  have hlt := word.toNat_lt
  rw [uint64?, if_pos ⟨by omega, by omega⟩, Int.toNat_natCast, UInt64.ofNat_toNat]

end PortableQuery.Text.Numeral
