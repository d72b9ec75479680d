import Mathlib.Data.List.Forall2
import Mathlib.Data.Nat.Digits.Defs
import PortableQuery.Proofs.Text.Numeral

/-!
# Numbers of fixed width

Numbers that are padded to the same width are ordered like their texts, and so are rows of them in
which every number has its own width and a mark behind it.
-/

namespace PortableQuery.Text

/-- A first difference decides, whatever stands behind it. -/
theorem append_lt_append_of_lt {front front' : List Char} (length : front.length = front'.length)
    (h : front < front') (back back' : List Char) : front ++ back < front' ++ back' := by
  induction front generalizing front' with
  | nil =>
    rw [List.eq_nil_of_length_eq_zero length.symm] at h
    exact absurd h (List.lt_irrefl _)
  | cons c front ih =>
    cases front' with
    | nil => contradiction
    | cons d front' =>
      rw [List.cons_append, List.cons_append, List.cons_lt_cons_iff]
      rcases List.cons_lt_cons_iff.mp h with hlt | ⟨rfl, hmore⟩
      · exact .inl hlt
      · exact .inr ⟨rfl, ih (Nat.succ.inj length) hmore⟩

namespace Numeral

/-- The last digits of a number, as many as there are places. -/
def lastDigits : Nat → Nat → List Char
  | 0, _ => []
  | width + 1, n => lastDigits width (n / 10) ++ [(n % 10).digitChar]

@[simp]
theorem length_lastDigits (width n : Nat) : (lastDigits width n).length = width := by
  induction width generalizing n with
  | zero => rfl
  | succ width ih => simp [lastDigits, ih]

theorem lastDigits_zero (width : Nat) : lastDigits width 0 = List.replicate width '0' := by
  induction width with
  | zero => rfl
  | succ width ih => rw [lastDigits, Nat.zero_div, ih, List.replicate_succ']; rfl

theorem digitChar_lt_digitChar {m n : Nat} (h : m < n) (hn : n < 10) : m.digitChar < n.digitChar := by
  have hdigits : ∀ n < 10, ∀ m < n, m.digitChar < n.digitChar := by decide
  exact hdigits n hn m h

/-- A number that fits is written with its last digits. -/
theorem toList_padded {width n : Nat} (positive : 0 < width) (fits : n < 10 ^ width) :
    (padded width n).toList = lastDigits width n := by
  obtain ⟨width, rfl⟩ := Nat.exists_eq_add_one.mpr positive
  rw [padded, String.toList_ofList]
  induction width generalizing n with
  | zero =>
    have hlt : n < 10 := fits
    rw [digits_of_lt hlt, lastDigits, Nat.mod_eq_of_lt hlt]
    rfl
  | succ width ih =>
    by_cases hlt : n < 10
    · rw [digits_of_lt hlt, lastDigits, Nat.div_eq_of_lt hlt, lastDigits_zero, Nat.mod_eq_of_lt hlt]
      rfl
    · have hfits : n / 10 < 10 ^ (width + 1) := by
        rw [Nat.div_lt_iff_lt_mul (by decide)]
        exact fits
      rw [digits_of_le (Nat.le_of_not_lt hlt), lastDigits, ← ih (Nat.succ_pos _) hfits, List.length_append,
        List.length_singleton, Nat.add_sub_add_right, List.append_assoc]

theorem lastDigits_lt {width m n : Nat} (h : m < n) (fits : n < 10 ^ width) :
    lastDigits width m < lastDigits width n := by
  induction width generalizing m n with
  | zero =>
    rw [Nat.pow_zero] at fits
    omega
  | succ width ih =>
    have hfits : n / 10 < 10 ^ width := by
      rw [Nat.div_lt_iff_lt_mul (by decide)]
      exact fits
    rw [lastDigits, lastDigits]
    rcases Nat.lt_or_ge (m / 10) (n / 10) with hlt | hge
    · exact append_lt_append_of_lt (by simp) (ih hlt hfits) _ _
    · have hfront : m / 10 = n / 10 := by omega
      have hlast : m % 10 < n % 10 := by omega
      rw [hfront]
      refine List.append_left_lt ?_
      exact List.cons_lt_cons_iff.mpr (.inl (digitChar_lt_digitChar hlast (Nat.mod_lt _ (by decide))))

/-- The padding does not change the value. -/
theorem value_padded (width n : Nat) : value (padded width n).toList = n := by
  have hzeros (count : Nat) (run : List Char) : value (List.replicate count '0' ++ run) = value run := by
    induction count with
    | zero => rfl
    | succ count ih => exact ih
  rw [padded, String.toList_ofList, hzeros, value_digits]

theorem isDigit_of_mem_padded {width n : Nat} {c : Char} (h : c ∈ (padded width n).toList) :
    c.isDigit = true := by
  rw [padded, String.toList_ofList] at h
  rcases List.mem_append.mp h with hzero | hdigit
  · rw [List.eq_of_mem_replicate hzero]
    rfl
  · exact isDigit_of_mem_digits hdigit

theorem exists_cons_padded (width n : Nat) : ∃ c more, (padded width n).toList = c :: more := by
  refine List.exists_cons_of_ne_nil ?_
  rw [padded, String.toList_ofList]
  exact List.append_ne_nil_of_right_ne_nil _ (digits_ne_nil n)

/-- Padded numbers are read back, with and without a sign. -/
theorem readInt?_padded (width n : Nat) :
    readInt? (padded width n).toList = some (n : Int) ∧
      readInt? ('+' :: (padded width n).toList) = some (n : Int) ∧
      readInt? ('-' :: (padded width n).toList) = some (-(n : Int)) := by
  have hall : (padded width n).toList.all Char.isDigit = true :=
    List.all_eq_true.mpr fun c ↦ isDigit_of_mem_padded
  obtain ⟨c, more, hchars⟩ := exists_cons_padded width n
  have hc : c.isDigit = true := isDigit_of_mem_padded (hchars ▸ List.mem_cons_self)
  have hminus : c ≠ '-' := by rintro rfl; exact absurd hc (by decide)
  have hplus : c ≠ '+' := by rintro rfl; exact absurd hc (by decide)
  have hvalue := value_padded width n
  rw [hchars] at hall hvalue ⊢
  exact ⟨by rw [readInt?_of_unsigned more hminus hplus, hall, hvalue]; rfl,
    by simp [readInt?, hall, hvalue], by simp [readInt?, hall, hvalue]⟩

end Numeral

/-- The widths of the numbers in a row, each with the mark behind the number. -/
abbrev Layout := List (Nat × Char)

namespace Layout

/-- A row of numbers, padded to their widths and with their marks. -/
def write : Layout → List Nat → List Char
  | (width, mark) :: layout, n :: numbers => (Numeral.padded width n).toList ++ mark :: write layout numbers
  | _, _ => []

/-- Every number has a width that is wide enough for it. -/
def Fits : Layout → List Nat → Prop := List.Forall₂ fun field n ↦ 0 < field.1 ∧ n < 10 ^ field.1

variable {layout : Layout} {numbers others : List Nat}

theorem length_write (fits : layout.Fits numbers) :
    (layout.write numbers).length = (layout.map fun field ↦ field.1 + 1).sum := by
  induction fits with
  | nil => rfl
  | cons hfield hmore ih =>
    simp [write, Numeral.toList_padded hfield.1 hfield.2, ih]
    omega

theorem write_lt (fits : layout.Fits numbers) (fits' : layout.Fits others) (h : numbers < others) :
    layout.write numbers < layout.write others := by
  induction fits generalizing others with
  | nil =>
    cases fits'
    exact absurd h (List.lt_irrefl _)
  | cons hfield hmore ih =>
    cases fits' with
    | cons hfield' hmore' =>
      rw [write, write, Numeral.toList_padded hfield.1 hfield.2, Numeral.toList_padded hfield'.1 hfield'.2]
      rcases List.cons_lt_cons_iff.mp h with hlt | ⟨rfl, hlater⟩
      · exact append_lt_append_of_lt (by simp) (Numeral.lastDigits_lt hlt hfield'.2) _ _
      · refine List.append_left_lt (List.cons_lt_cons_iff.mpr (.inr ⟨rfl, ih hmore' hlater⟩))

end Layout

end PortableQuery.Text
