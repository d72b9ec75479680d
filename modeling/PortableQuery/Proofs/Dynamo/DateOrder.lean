import PortableQuery.Proofs.Calendar.IsoOrder
import PortableQuery.Proofs.Dynamo.Addressing
import PortableQuery.Proofs.Dynamo.Allocation

/-!
# Dates in a key-value store

A date is stored as the string of its ISO text, and a store compares strings octet by octet. Within the
years 0000 to 9999 this is the order of time: comparisons and ranges that are compiled for dates decide
as the instants do, and items are sorted by the instants in their keys. Different dates have different
placeholders in any year.
-/

namespace PortableQuery

open Calendar Dynamo Text

/-- Whether a comparison holds of two members of an order. -/
def Comparison.Relates {α : Type} [LT α] [LE α] (operator : Comparison) (a b : α) : Prop :=
  match operator with
  | .eq => a = b
  | .ne => a ≠ b
  | .gt => b < a
  | .lt => a < b
  | .ge => b ≤ a
  | .le => a ≤ b

/-- A store that compares strings octet by octet. -/
def Dynamo.Store.ComparesOctets (store : Store) : Prop :=
  ∀ (operator : Comparison) (text other : String),
    store.compare operator (some (.string text)) (some (.string other)) ↔
      operator.Relates (octets text) (octets other)

theorem Dynamo.comparesOctets_textStore : textStore.ComparesOctets := by
  have hle (text other : String) : octets text ≤ octets other ↔ text ≤ other := by
    rw [← List.not_lt, octets_lt_iff, not_lt]
  have heq (text other : String) : Attribute.string text = .string other ↔ octets text = octets other := by
    rw [Attribute.string.injEq, octets_inj]
  intro operator text other
  cases operator with
  | eq => exact heq text other
  | ne => exact not_congr (heq text other)
  | gt => exact octets_lt_iff.symm
  | lt => exact octets_lt_iff.symm
  | ge => exact (hle other text).symm
  | le => exact (hle text other).symm

namespace Condition

/-- A condition is compiled, and what it is compiled to passes the items with a given attribute under
the key just when a fact holds. -/
def TestsFor (store : Store) (key : Expr) (held : Attribute) (fact : Prop) (test : Condition) : Prop :=
  ∃ phrase, test.phrase = .ok phrase ∧ ∀ before final : Placeholders,
    (before.write phrase).2.Extends final → ∃ found,
      Test.read? final.nameEntries final.valueEntries (before.write phrase).1 = some found ∧
        ∀ item : Item, item key.columnName = some held → (found.Passes store item ↔ fact)

theorem testsFor_of_holds {store : Store} {key : Expr} {held : Attribute} {fact : Prop}
    {test : Condition} {phrase : Phrase} (hphrase : test.phrase = .ok phrase) (grouped : test.Grouped)
    (holds : ∀ item : Item, item key.columnName = some held → (test.Holds store item ↔ fact)) :
    test.TestsFor store key held fact := by
  refine ⟨phrase, hphrase, fun before final later ↦ ?_⟩
  obtain ⟨found, hfound, hmeaning⟩ := exists_read?_write hphrase grouped later
  exact ⟨found, hfound, fun item hitem ↦ (hmeaning store item).trans (holds item hitem)⟩

end Condition

namespace Calendar.Instant

/-- The attribute that a date is stored as. -/
def toAttribute (instant : Instant) : Attribute := .ofLiteral (.date instant)

theorem toAttribute_injective : Function.Injective toAttribute := by
  intro first second h
  exact iso_injective (Attribute.string.inj h)

variable {first second third : Instant}

/-- Octet by octet, the texts of dates compare as the instants. -/
theorem relates_octets_iff (hfirst : first.InFourDigitYear) (hsecond : second.InFourDigitYear)
    (operator : Comparison) :
    operator.Relates (octets first.iso) (octets second.iso) ↔ operator.Relates first.millis second.millis := by
  have hlt := hfirst.octets_iso_lt_iff hsecond
  have hgt := hsecond.octets_iso_lt_iff hfirst
  have heq : octets first.iso = octets second.iso ↔ first.millis = second.millis := by
    rw [octets_inj, iso_injective.eq_iff]
    exact ⟨congrArg millis, eq_of_millis⟩
  cases operator with
  | eq => exact heq
  | ne => exact not_congr heq
  | gt => exact hgt
  | lt => exact hlt
  | ge => exact (List.not_lt.symm.trans (not_congr hlt)).trans Int.not_lt
  | le => exact (List.not_lt.symm.trans (not_congr hgt)).trans Int.not_lt

/-- Dates that a store has in the order of time. -/
structure InOrder (store : Store) (key : Expr) (first second third : Instant) : Prop where
  /-- The strings that are stored are ordered like the instants. -/
  texts : octets first.iso < octets second.iso ↔ first.millis < second.millis
  /-- The store compares the attributes as the instants. -/
  stored (operator : Comparison) :
    store.compare operator (some first.toAttribute) (some second.toAttribute) ↔
      operator.Relates first.millis second.millis
  /-- A comparison of the key with a date compares the instants. -/
  compare (operator : Comparison) :
    (Condition.compare key (.value (.date second)) operator).TestsFor store key first.toAttribute
      (operator.Relates first.millis second.millis)
  /-- A range between two dates is the time between them. -/
  between : (Condition.between key (.value (.date second)) (.value (.date third))).TestsFor store key
    first.toAttribute (second.millis ≤ first.millis ∧ first.millis ≤ third.millis)

/-- Dates of the years 0000 to 9999 are stored, compared and searched for in the order of time, lists
of them are sorted as strings just when they are sorted by time, and no two dates of any year share a
placeholder. -/
theorem inOrder_of_comparesOctets {store : Store} (compares : store.ComparesOctets) (key : Expr)
    (hfirst : first.InFourDigitYear) (hsecond : second.InFourDigitYear) (hthird : third.InFourDigitYear) :
    InOrder store key first second third ∧
    (∀ dates : List Instant, (∀ date ∈ dates, date.InFourDigitYear) →
      ((dates.map fun date ↦ octets date.iso).Pairwise (· ≤ ·) ↔ (dates.map millis).Pairwise (· ≤ ·))) ∧
    ∀ (uses : List Use) (i j : Nat) (date other : Instant), uses[i]? = some (.value (.date date)) →
      uses[j]? = some (.value (.date other)) →
        ((Placeholders.empty.useAll uses).1[i]? = (Placeholders.empty.useAll uses).1[j]? ↔ date = other) := by
  have hstored {first second : Instant} (hfirst : first.InFourDigitYear) (hsecond : second.InFourDigitYear)
      (operator : Comparison) :
      store.compare operator (some first.toAttribute) (some second.toAttribute) ↔
        operator.Relates first.millis second.millis :=
    (compares operator first.iso second.iso).trans (relates_octets_iff hfirst hsecond operator)
  refine ⟨⟨hfirst.octets_iso_lt_iff hsecond, hstored hfirst hsecond, ?_, ?_⟩, ?_, ?_⟩
  · intro operator
    refine Condition.testsFor_of_holds rfl trivial fun item hitem ↦ ?_
    have hvalue : (Expr.value (.date second)).toAttribute = .ok second.toAttribute := rfl
    simp [Condition.Holds, hitem, hvalue, hstored hfirst hsecond operator]
  · refine Condition.testsFor_of_holds rfl trivial fun item hitem ↦ ?_
    have hlow : (Expr.value (.date second)).toAttribute = .ok second.toAttribute := rfl
    have hhigh : (Expr.value (.date third)).toAttribute = .ok third.toAttribute := rfl
    have hge := hstored hfirst hsecond .ge
    have hle := hstored hfirst hthird .le
    simp [Condition.Holds, hitem, hlow, hhigh, hge, hle, Comparison.Relates]
  · intro dates hdates
    rw [List.pairwise_map, List.pairwise_map]
    exact List.Pairwise.iff_of_mem fun hdate hother ↦ relates_octets_iff (hdates _ hdate) (hdates _ hother) .le
  · intro uses i j date other hi hj
    rw [(Placeholders.useAll_empty uses)]
    exact ((Placeholders.allocation_behind uses).value_shared i j _ _ hi hj).trans toAttribute_injective.eq_iff

/-- The last millisecond before the year 1970. -/
def endOf1969 : Instant := ⟨-1, by decide, by decide⟩

def leapDay : Instant := ⟨951782400000, by decide, by decide⟩

/-- The last millisecond of the year 9999. -/
def endOf9999 : Instant := ⟨253402300799999, by decide, by decide⟩

theorem inOrder_of_comparesOctets_leapDay :
    textStore.ComparesOctets ∧ endOf1969.InFourDigitYear ∧ leapDay.InFourDigitYear ∧
      endOf9999.InFourDigitYear ∧
    (endOf1969.iso = "1969-12-31T23:59:59.999Z" ∧ leapDay.iso = "2000-02-29T00:00:00.000Z" ∧
      endOf9999.iso = "9999-12-31T23:59:59.999Z") ∧
    InOrder textStore (.column "created") endOf1969 leapDay endOf9999 ∧
    octets endOf1969.iso < octets leapDay.iso ∧
    (Placeholders.empty.useAll [.value (.date endOf1969), .value (.date leapDay)]).1[0]? ≠
      (Placeholders.empty.useAll [.value (.date endOf1969), .value (.date leapDay)]).1[1]? := by
  have hfirst : endOf1969.InFourDigitYear := by constructor <;> decide
  have hsecond : leapDay.InFourDigitYear := by constructor <;> decide
  have hthird : endOf9999.InFourDigitYear := by constructor <;> decide
  obtain ⟨horder, -, hshared⟩ :=
    inOrder_of_comparesOctets comparesOctets_textStore (.column "created") hfirst hsecond hthird
  refine ⟨comparesOctets_textStore, hfirst, hsecond, hthird, by decide, horder, horder.texts.mpr (by decide), ?_⟩
  exact mt (hshared _ 0 1 endOf1969 leapDay rfl rfl).mp (by decide)

end Calendar.Instant

end PortableQuery
