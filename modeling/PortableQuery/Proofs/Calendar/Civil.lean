import Mathlib.Order.SuccPred.Archimedean
import PortableQuery.Calendar.Civil

/-!
# Days and dates

Days are counted through years of 365 or 366 days and months of 28 to 31 days without a gap, so every
day falls into one month, and the date of a day is the month that it falls into with its place there.
Later days have later dates.
-/

namespace PortableQuery.Calendar.Civil

/-! ## Years -/

/-- Days from 1 March of year zero to 1 March of a year. -/
def yearStart (year : Int) : Int := 365 * year + year / 4 - year / 100 + year / 400

theorem yearStart_add_eras (year era : Int) :
    yearStart (year + era * 400) = yearStart year + era * eraDays := by
  unfold yearStart eraDays
  omega

/-- A day of an era falls into the year that is computed for it. -/
theorem yearOfEra_bounds {day : Int} (low : 0 ≤ day) (high : day < eraDays) :
    0 ≤ yearOfEra day ∧ yearOfEra day < 400 ∧
      yearStart (yearOfEra day) ≤ day ∧ day < yearStart (yearOfEra day + 1) := by
  unfold yearOfEra yearStart eraDays at *
  generalize hyear : (day - day / 1460 + day / 36524 - day / 146096) / 365 = year
  have hrange : 0 ≤ year ∧ year < 400 := by omega
  have hleap : year / 4 ≤ day / 1460 := by omega
  have hnextLeap : day / 1460 ≤ (year + 1) / 4 := by omega
  have hcentury : year / 100 = day / 36524 - day / 146096 := by
    have hcases : day / 36524 = 0 ∨ day / 36524 = 1 ∨ day / 36524 = 2 ∨ day / 36524 = 3 ∨
        day / 36524 = 4 := by omega
    rcases hcases with h | h | h | h | h <;> rw [h] at hyear ⊢ <;> omega
  refine ⟨hrange.1, hrange.2, by omega, ?_⟩
  by_cases hlast : (year + 1) / 100 = year / 100
  · omega
  · -- The last year of a century ends with the century, which is a day longer for the last of an era.
    have hend : year + 1 = 100 * (year / 100 + 1) := by omega
    rw [hend]
    clear hyear hleap hnextLeap
    omega

/-! ## Months -/

/-- The day number on which a month begins. Months are counted from March of year zero. -/
def monthStart (count : Int) : Int :=
  yearStart (count / 12) + (153 * (count % 12) + 2) / 5 - epochShift

/-- The number of a date's month. -/
def monthCount (date : Civil) : Int := 12 * date.year + date.month - 3

/-- A month by its year and its place in the year, both counted from March. -/
theorem monthStart_index (year : Int) {index : Int} (low : 0 ≤ index) (high : index < 12) :
    monthStart (12 * year + index) = yearStart year + (153 * index + 2) / 5 - epochShift := by
  have hyear : (12 * year + index) / 12 = year := by omega
  have hindex : (12 * year + index) % 12 = index := by omega
  rw [monthStart, hyear, hindex]

theorem monthStart_succ (count : Int) :
    monthStart count < monthStart (count + 1) ∧ monthStart (count + 1) ≤ monthStart count + 31 := by
  unfold monthStart
  by_cases hlast : count % 12 = 11
  · have hyear : (count + 1) / 12 = count / 12 + 1 := by omega
    have hindex : (count + 1) % 12 = 0 := by omega
    rw [hyear, hindex, hlast]
    unfold yearStart
    omega
  · have hyear : (count + 1) / 12 = count / 12 := by omega
    have hindex : (count + 1) % 12 = count % 12 + 1 := by omega
    rw [hyear, hindex]
    omega

theorem monthStart_lt_iff {count other : Int} : monthStart count < monthStart other ↔ count < other :=
  (strictMono_int_of_lt_succ fun count ↦ (monthStart_succ count).1).lt_iff_lt

/-- A day of a year falls into the month that is computed for it. -/
theorem monthOfYear_bounds {day : Int} (low : 0 ≤ day) (high : day < 366) :
    0 ≤ (5 * day + 2) / 153 ∧ (5 * day + 2) / 153 < 12 ∧
      (153 * ((5 * day + 2) / 153) + 2) / 5 ≤ day ∧
      day < (153 * ((5 * day + 2) / 153 + 1) + 2) / 5 := by
  omega

/-! ## Dates -/

/-- A date of the calendar and the number of its day. -/
structure IsDateOf (date : Civil) (day : Int) : Prop where
  month_pos : 1 ≤ date.month
  month_le : date.month ≤ 12
  day_pos : 1 ≤ date.day
  day_eq : day = monthStart date.monthCount + date.day - 1
  in_month : day < monthStart (date.monthCount + 1)

/-- A month counted from March, as it is numbered in a date. -/
theorem monthCount_of_index (year : Int) {index : Int} (low : 0 ≤ index) (high : index < 12) (day : Nat) :
    let month := if index < 10 then index + 3 else index - 9
    monthCount ⟨year + (if month ≤ 2 then 1 else 0), month.toNat, day⟩ = 12 * year + index := by
  unfold monthCount
  simp only
  split_ifs <;> omega

theorem isDateOf_ofDays (days : Int) : (ofDays days).IsDateOf days := by
  unfold ofDays
  simp only
  have hera : 0 ≤ days + epochShift - (days + epochShift) / eraDays * eraDays ∧
      days + epochShift - (days + epochShift) / eraDays * eraDays < eraDays := by
    unfold eraDays
    omega
  obtain ⟨hlow, hhigh, hfirst, hlast⟩ := yearOfEra_bounds hera.1 hera.2
  generalize hday : days + epochShift - (days + epochShift) / eraDays * eraDays = dayOfEra at *
  generalize (days + epochShift) / eraDays = era at *
  generalize yearOfEra dayOfEra = year at *
  have hbefore : daysBefore year = yearStart year := by
    unfold daysBefore yearStart
    omega
  have hlength : yearStart (year + 1) ≤ yearStart year + 366 := by
    unfold yearStart
    omega
  rw [hbefore]
  generalize hdayOfYear : dayOfEra - yearStart year = dayOfYear
  obtain ⟨hindexLow, hindexHigh, hmonth, hnext⟩ :=
    @monthOfYear_bounds dayOfYear (by omega) (by omega)
  generalize (5 * dayOfYear + 2) / 153 = index at *
  have hcount := monthCount_of_index (year + era * 400) hindexLow hindexHigh
  constructor
  case month_pos => simp only; split_ifs <;> omega
  case month_le => simp only; split_ifs <;> omega
  case day_pos => simp only; omega
  case day_eq =>
    rw [hcount, monthStart_index _ hindexLow hindexHigh, yearStart_add_eras]
    simp only
    omega
  case in_month =>
    rw [hcount]
    by_cases hinner : index < 11
    · rw [Int.add_assoc, monthStart_index _ (by omega) (by omega), yearStart_add_eras]
      omega
    · -- The last month of a year ends where the next year begins.
      have hsucc : 12 * (year + era * 400) + index + 1 = 12 * (year + 1 + era * 400) + 0 := by omega
      rw [hsucc, monthStart_index _ (by omega) (by omega), yearStart_add_eras]
      omega

/-! ## Order -/

/-- The order of dates by year, month and day. -/
def Before (date later : Civil) : Prop :=
  date.year < later.year ∨ date.year = later.year ∧
    (date.month < later.month ∨ date.month = later.month ∧ date.day < later.day)

namespace IsDateOf

variable {date later : Civil} {day other : Int}

theorem day_le (h : date.IsDateOf day) : date.day ≤ 31 := by
  have hstart := (monthStart_succ date.monthCount).2
  have hday := h.day_eq
  have hend := h.in_month
  omega

theorem monthStart_le (h : date.IsDateOf day) : monthStart date.monthCount ≤ day := by
  have hday := h.day_eq
  have hpos := h.day_pos
  omega

/-- A month that begins on a day or before is not behind the month of the day. -/
theorem le_monthCount (h : date.IsDateOf day) {count : Int} (begun : monthStart count ≤ day) :
    count ≤ date.monthCount := by
  have hlt : monthStart count < monthStart (date.monthCount + 1) := Int.lt_of_le_of_lt begun h.in_month
  exact Int.lt_add_one_iff.mp (monthStart_lt_iff.mp hlt)

/-- A month that begins behind a day is behind the month of the day. -/
theorem monthCount_lt (h : date.IsDateOf day) {count : Int} (later : day < monthStart count) :
    date.monthCount < count :=
  monthStart_lt_iff.mp (Int.lt_of_le_of_lt h.monthStart_le later)

theorem before (h : date.IsDateOf day) (h' : later.IsDateOf other) (lt : day < other) :
    date.Before later := by
  have hmonth : date.monthCount ≤ later.monthCount :=
    h'.le_monthCount (Int.le_of_lt (Int.lt_of_le_of_lt h.monthStart_le lt))
  have hrange := And.intro (And.intro h.month_pos h.month_le) (And.intro h'.month_pos h'.month_le)
  rcases Int.lt_or_eq_of_le hmonth with hlt | heq
  · unfold monthCount at hlt
    unfold Before
    omega
  · have hday := h.day_eq
    have hother := h'.day_eq
    rw [heq] at hday
    unfold monthCount at heq
    unfold Before
    omega

end IsDateOf

theorem ofDays_before {days others : Int} (h : days < others) : (ofDays days).Before (ofDays others) :=
  (isDateOf_ofDays days).before (isDateOf_ofDays others) h

/-- The days from 1 January 0000 to 31 December 9999. -/
theorem year_ofDays_bounds {days : Int} (low : -719528 ≤ days) (high : days < 2932897) :
    0 ≤ (ofDays days).year ∧ (ofDays days).year ≤ 9999 := by
  have hdate := isDateOf_ofDays days
  have hfirst : monthStart (12 * (-1) + 10) = -719528 := by decide
  have hlast : monthStart (12 * 9999 + 10) = 2932897 := by decide
  have hlow := hdate.le_monthCount (hfirst ▸ low)
  have hhigh := hdate.monthCount_lt (hlast ▸ high)
  have hrange := And.intro hdate.month_pos hdate.month_le
  unfold monthCount at hlow hhigh
  omega

end PortableQuery.Calendar.Civil
