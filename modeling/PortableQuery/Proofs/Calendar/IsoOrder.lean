import PortableQuery.Calendar.Instant
import PortableQuery.Proofs.Calendar.Civil
import PortableQuery.Proofs.Text.FixedWidth
import PortableQuery.Proofs.Text.OctetOrder

/-!
# The order of ISO texts

The ISO text of an instant is a row of numbers from the year down to the millisecond. For years of four
digits each number has a fixed width, and so the texts are ordered like the instants. Texts with longer
or negative years are out of this order, but they are still different for different instants.
-/

namespace PortableQuery.Calendar

open Text

namespace Moment

/-! ## Numbers of a moment -/

/-- The numbers behind the year, from the month down to the millisecond. -/
def withinYear (moment : Moment) : List Nat :=
  [moment.date.month, moment.date.day, moment.ofDay / 3600000, moment.ofDay / 60000 % 60,
    moment.ofDay / 1000 % 60, moment.ofDay % 1000]

def withinYearLayout : Layout := [(2, '-'), (2, 'T'), (2, ':'), (2, ':'), (2, '.'), (3, 'Z')]

/-- The layout of a text with a year of four digits. -/
def isoLayout : Layout := (4, '-') :: withinYearLayout

variable {millis others : Int}

theorem ofDay_lt (millis : Int) : (ofMillis millis).ofDay < 86400000 := by
  unfold ofMillis dayMillis
  simp only
  omega

theorem fits_withinYear (millis : Int) : withinYearLayout.Fits (ofMillis millis).withinYear := by
  have hdate : (ofMillis millis).date.IsDateOf (millis / dayMillis) := Civil.isDateOf_ofDays _
  have hmonth := hdate.month_le
  have hday := hdate.day_le
  have hofDay := ofDay_lt millis
  have htime : (ofMillis millis).ofDay / 3600000 < 100 ∧ (ofMillis millis).ofDay / 60000 % 60 < 100 ∧
      (ofMillis millis).ofDay / 1000 % 60 < 100 ∧ (ofMillis millis).ofDay % 1000 < 1000 := by omega
  have hdays : (ofMillis millis).date.month < 100 ∧ (ofMillis millis).date.day < 100 := by omega
  simpa [Layout.Fits, withinYearLayout, withinYear] using And.intro hdays.1 (And.intro hdays.2 htime)

theorem toList_iso (instant : Instant) :
    instant.iso.toList = (yearText (ofMillis instant.millis).date.year).toList ++
      '-' :: withinYearLayout.write (ofMillis instant.millis).withinYear := by
  simp [Instant.iso, dateText, timeText, withinYearLayout, withinYear, Layout.write]

/-- A later moment is in a later year, or its other numbers are greater. -/
theorem year_lt_or_withinYear_lt (h : millis < others) :
    (ofMillis millis).date.year < (ofMillis others).date.year ∨
      (ofMillis millis).date.year = (ofMillis others).date.year ∧
        (ofMillis millis).withinYear < (ofMillis others).withinYear := by
  simp only [withinYear, List.cons_lt_cons_iff]
  rcases Int.lt_or_eq_of_le (Int.ediv_le_ediv (by decide) (Int.le_of_lt h) :
      millis / dayMillis ≤ others / dayMillis) with hlt | heq
  · have hbefore : (ofMillis millis).date.Before (ofMillis others).date := Civil.ofDays_before hlt
    unfold Civil.Before at hbefore
    omega
  · have hdate : (ofMillis millis).date = (ofMillis others).date := congrArg Civil.ofDays heq
    have hofDay : (ofMillis millis).ofDay < (ofMillis others).ofDay := by
      unfold ofMillis dayMillis at *
      simp only
      omega
    rw [hdate]
    omega

/-! ## Years -/

theorem readInt?_yearText (year : Int) : Numeral.readInt? (yearText year).toList = some year := by
  unfold yearText
  split_ifs with hnegative hlong
  · have hread := (Numeral.readInt?_padded 4 year.natAbs).2.2
    rw [String.toList_append]
    refine hread.trans (congrArg some ?_)
    omega
  · have hread := (Numeral.readInt?_padded 5 year.natAbs).2.1
    rw [String.toList_append]
    refine hread.trans (congrArg some ?_)
    omega
  · have hread := (Numeral.readInt?_padded 4 year.natAbs).1
    refine hread.trans (congrArg some ?_)
    omega

theorem yearText_injective : Function.Injective yearText := by
  intro year other h
  have hread := readInt?_yearText year
  rw [h, readInt?_yearText] at hread
  exact (Option.some.inj hread).symm

theorem yearText_of_bounds {year : Int} (low : 0 ≤ year) (high : year ≤ 9999) :
    yearText year = Numeral.padded 4 year.natAbs := by
  rw [yearText, if_neg (by omega), if_neg (by omega)]

end Moment

namespace Instant

variable {first second : Instant}

theorem eq_of_millis (h : first.millis = second.millis) : first = second := by
  cases first
  cases second
  simpa using h

/-- Different instants have different texts. -/
theorem iso_injective : Function.Injective iso := by
  -- Behind the year all texts are equally long, and a later instant has a later year or a later rest.
  have hne {first second : Instant} (h : first.millis < second.millis) : first.iso ≠ second.iso := by
    intro heq
    have hchars := congrArg String.toList heq
    rw [Moment.toList_iso, Moment.toList_iso] at hchars
    have hfirst := Moment.fits_withinYear first.millis
    have hsecond := Moment.fits_withinYear second.millis
    have hlength := (Layout.length_write hfirst).trans (Layout.length_write hsecond).symm
    obtain ⟨hyear, hrest⟩ := List.append_inj' hchars (by simp [hlength])
    have hyear := Moment.yearText_injective (String.toList_inj.mp hyear)
    rcases Moment.year_lt_or_withinYear_lt h with hlt | ⟨-, hlt⟩
    · exact absurd hyear (Int.ne_of_lt hlt)
    · have hwritten := Layout.write_lt hfirst hsecond hlt
      rw [(List.cons.inj hrest).2] at hwritten
      exact List.lt_irrefl _ hwritten
  intro first second heq
  rcases Int.lt_trichotomy first.millis second.millis with hlt | hmillis | hgt
  · exact absurd heq (hne hlt)
  · exact eq_of_millis hmillis
  · exact absurd heq.symm (hne hgt)

/-- The instants of the years 0000 to 9999. -/
def InFourDigitYear (instant : Instant) : Prop :=
  -62167219200000 ≤ instant.millis ∧ instant.millis ≤ 253402300799999

theorem InFourDigitYear.year_bounds {instant : Instant} (h : instant.InFourDigitYear) :
    0 ≤ (Moment.ofMillis instant.millis).date.year ∧
      (Moment.ofMillis instant.millis).date.year ≤ 9999 := by
  obtain ⟨hlow, hhigh⟩ := h
  refine Civil.year_ofDays_bounds ?_ ?_ <;>
  · unfold dayMillis
    omega

theorem InFourDigitYear.toList_iso {instant : Instant} (h : instant.InFourDigitYear) :
    instant.iso.toList = Moment.isoLayout.write
      ((Moment.ofMillis instant.millis).date.year.natAbs :: (Moment.ofMillis instant.millis).withinYear) := by
  obtain ⟨hlow, hhigh⟩ := h.year_bounds
  rw [Moment.toList_iso, Moment.yearText_of_bounds hlow hhigh, Moment.isoLayout, Layout.write]

theorem InFourDigitYear.fits {instant : Instant} (h : instant.InFourDigitYear) :
    Moment.isoLayout.Fits
      ((Moment.ofMillis instant.millis).date.year.natAbs :: (Moment.ofMillis instant.millis).withinYear) := by
  obtain ⟨hlow, hhigh⟩ := h.year_bounds
  have hyear : (Moment.ofMillis instant.millis).date.year.natAbs < 10000 := by omega
  exact List.Forall₂.cons ⟨by decide, hyear⟩ (Moment.fits_withinYear instant.millis)

theorem InFourDigitYear.iso_lt (hfirst : first.InFourDigitYear) (hsecond : second.InFourDigitYear)
    (h : first.millis < second.millis) : first.iso < second.iso := by
  obtain ⟨hlow, -⟩ := hfirst.year_bounds
  obtain ⟨hlow', -⟩ := hsecond.year_bounds
  rw [String.lt_iff, hfirst.toList_iso, hsecond.toList_iso]
  apply Layout.write_lt hfirst.fits hsecond.fits
  rw [List.cons_lt_cons_iff]
  rcases Moment.year_lt_or_withinYear_lt h with hlt | ⟨heq, hlt⟩
  · exact .inl (by omega)
  · exact .inr ⟨congrArg Int.natAbs heq, hlt⟩

/-- The texts of instants in years of four digits are ordered like the instants. -/
theorem InFourDigitYear.octets_iso_lt_iff (hfirst : first.InFourDigitYear)
    (hsecond : second.InFourDigitYear) :
    octets first.iso < octets second.iso ↔ first.millis < second.millis := by
  rw [octets_lt_iff]
  refine ⟨fun h ↦ ?_, hfirst.iso_lt hsecond⟩
  rcases Int.lt_trichotomy first.millis second.millis with hlt | hmillis | hgt
  · exact hlt
  · exact absurd h (eq_of_millis hmillis ▸ lt_irrefl _)
  · exact absurd h (lt_asymm (hsecond.iso_lt hfirst hgt))

end Instant

end PortableQuery.Calendar
