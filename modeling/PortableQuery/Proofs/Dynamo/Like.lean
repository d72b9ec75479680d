import PortableQuery.Proofs.Dynamo.Addressing
import PortableQuery.Proofs.Dynamo.KeyTest
import PortableQuery.Proofs.Text.Wildcard

/-!
# Patterns on a key-value store

A pattern is reduced to a test for a part, for a start or for equality by its two ends alone. The test
that is compiled from it passes every text that the pattern stands for just when the pattern has no
wildcards but percent signs at its ends: the test would look for any other as for a character.
-/

namespace PortableQuery

open Dynamo Text.Wildcard

namespace Dynamo

namespace LikeTest

/-- The text that a test looks for. -/
def term : LikeTest → String
  | .contains term => term
  | .beginsWith term => term
  | .equals term => term

/-- Whether a text passes a test. -/
def Admits (text : String) : LikeTest → Prop
  | .contains term => term.toList <:+: text.toList
  | .beginsWith term => term.toList <+: text.toList
  | .equals term => text = term

instance (text : String) : DecidablePred (Admits text)
  | .contains term => inferInstanceAs (Decidable (term.toList <:+: text.toList))
  | .beginsWith term => inferInstanceAs (Decidable (term.toList <+: text.toList))
  | .equals term => inferInstanceAs (Decidable (text = term))

/-- The pattern that is reduced to a test. -/
inductive Splits : LikeTest → List Char → Prop
  | part (term : String) : Splits (.contains term) ('%' :: (term.toList ++ ['%']))
  | start (term : String) (first : term.toList.head? ≠ some '%') :
    Splits (.beginsWith term) (term.toList ++ ['%'])
  | ending (term : String) (last : term.toList.getLast? ≠ some '%') :
    Splits (.contains term) ('%' :: term.toList)
  | whole (term : String) (first : term.toList.head? ≠ some '%')
    (last : term.toList.getLast? ≠ some '%') : Splits (.equals term) term.toList

theorem Splits.of_both {chars : List Char} (first : chars.head? = some '%')
    (last : chars.getLast? = some '%') : (contains (String.ofList chars.tail.dropLast)).Splits chars := by
  obtain ⟨others, rfl⟩ := List.head?_eq_some_iff.mp first
  obtain rfl | ⟨term, c, rfl⟩ := List.eq_nil_or_concat' others
  · exact .ending "" (by decide)
  · obtain rfl : c = '%' := by rwa [← List.cons_append, List.getLast?_concat, Option.some.injEq] at last
    simpa using Splits.part (String.ofList term)

theorem Splits.of_first {chars : List Char} (first : chars.head? = some '%')
    (last : chars.getLast? ≠ some '%') : (contains (String.ofList chars.tail)).Splits chars := by
  obtain ⟨term, rfl⟩ := List.head?_eq_some_iff.mp first
  have hterm : term.getLast? ≠ some '%' := fun h ↦ last (by rw [List.getLast?_cons, h]; rfl)
  simpa using Splits.ending (String.ofList term) (by rwa [String.toList_ofList])

theorem Splits.of_last {chars : List Char} (first : chars.head? ≠ some '%')
    (last : chars.getLast? = some '%') : (beginsWith (String.ofList chars.dropLast)).Splits chars := by
  obtain ⟨term, rfl⟩ := List.getLast?_eq_some_iff.mp last
  have hterm : term.head? ≠ some '%' := fun h ↦ first (by rw [List.head?_append, h]; rfl)
  simpa using Splits.start (String.ofList term) (by rwa [String.toList_ofList])

theorem splits_ofPattern (pattern : String) : (ofPattern pattern).Splits pattern.toList := by
  simp only [ofPattern, Bool.and_eq_true, beq_iff_eq]
  split_ifs with hboth hlast hfirst
  · exact .of_both hboth.1 hboth.2
  · exact .of_last (fun h ↦ hboth ⟨h, hlast⟩) hlast
  · exact .of_first hfirst hlast
  · exact .whole pattern hfirst hlast

variable {test : LikeTest} {pattern : List Char} {text : String}

theorem mem_tail_iff {c : Char} {chars : List Char} (first : chars.head? ≠ some c) :
    c ∈ chars.tail ↔ c ∈ chars := by
  cases chars with
  | nil => rfl
  | cons d more =>
    have hne : c ≠ d := fun h ↦ first (by rw [h]; rfl)
    simp [hne]

theorem mem_dropLast_iff {c : Char} {chars : List Char} (last : chars.getLast? ≠ some c) :
    c ∈ chars.dropLast ↔ c ∈ chars := by
  obtain rfl | ⟨more, d, rfl⟩ := List.eq_nil_or_concat' chars
  · rfl
  · have hne : c ≠ d := fun h ↦ last (by rw [h, List.getLast?_concat])
    simp [hne]

/-- The wildcards that are not at the ends of a pattern are left in the text that its test looks
for. -/
theorem plain_term_iff (splits : test.Splits pattern) : Plain test.term.toList ↔ AtEnds pattern := by
  rw [plain_iff, AtEnds]
  cases splits with
  | part term => simp [LikeTest.term]
  | start term first =>
    rw [← List.tail_dropLast, List.dropLast_concat, mem_tail_iff first]
    simp [LikeTest.term]
  | ending term last =>
    rw [List.tail_cons, mem_dropLast_iff last]
    simp [LikeTest.term]
  | whole term first last =>
    have hfirst : term.toList.dropLast.head? ≠ some '%' := by
      rw [List.head?_dropLast]
      split_ifs
      · exact first
      · exact (Option.some_ne_none _).symm
    rw [← List.tail_dropLast, mem_tail_iff hfirst, mem_dropLast_iff last, LikeTest.term]

/-- No text that a pattern stands for is lost. -/
theorem admits_of_accepts (splits : test.Splits pattern) (atEnds : AtEnds pattern)
    (h : accepts pattern text.toList = true) : test.Admits text := by
  have hplain := (plain_term_iff splits).mpr atEnds
  cases splits with
  | part term => exact (accepts_part_iff hplain).mp h
  | start term => exact (accepts_start_iff hplain).mp h
  | ending term => exact ((accepts_end_iff hplain).mp h).isInfix
  | whole term => exact String.toList_inj.mp ((accepts_plain_iff hplain).mp h)

/-- A pattern with no wildcards but percent signs at its ends, and none in front alone, stands for the
very texts that pass its test. -/
theorem admits_iff_accepts (splits : test.Splits pattern) (atEnds : AtEnds pattern)
    (closed : pattern.head? = some '%' → pattern.getLast? = some '%') :
    test.Admits text ↔ accepts pattern text.toList = true := by
  have hplain := (plain_term_iff splits).mpr atEnds
  cases splits with
  | part term => exact (accepts_part_iff hplain).symm
  | start term => exact (accepts_start_iff hplain).symm
  | ending term last =>
    have hnil : term.toList = [] := by
      by_contra hterm
      have hclosed := closed rfl
      rw [List.getLast?_cons_of_ne_nil hterm] at hclosed
      exact last hclosed
    simp [Admits, hnil, accepts_run_alone]
  | whole term => exact String.toList_inj.symm.trans (accepts_plain_iff hplain).symm

/-- A pattern with a run at its end is no test for equality. -/
theorem Splits.ne_equals (splits : test.Splits pattern) (run : pattern.getLast? = some '%')
    (term : String) : test ≠ .equals term := by
  cases splits with
  | part term' => exact LikeTest.noConfusion
  | start term' first => exact LikeTest.noConfusion
  | ending term' last => exact LikeTest.noConfusion
  | whole term' first last => exact absurd run last

theorem Admits.sublist (h : test.Admits text) : test.term.toList.Sublist text.toList := by
  cases test with
  | contains term => exact List.IsInfix.sublist h
  | beginsWith term => exact List.IsPrefix.sublist h
  | equals term => exact (congrArg String.toList h).symm ▸ List.Sublist.refl _

/-- A run at an end of a pattern stands for nothing in the shortest text. -/
theorem Splits.shortest_eq (splits : test.Splits pattern) :
    shortest pattern = shortest test.term.toList := by
  have hnil : shortest [] = [] := rfl
  have hrun (term : List Char) : shortest ('%' :: term) = shortest term := rfl
  cases splits <;> simp only [hrun, shortest_append, hnil, List.append_nil, LikeTest.term]

/-- A pattern with any other wildcard stands for a text that does not pass its test. -/
theorem atEnds_of_admits (splits : test.Splits pattern)
    (h : test.Admits (String.ofList (shortest pattern))) : AtEnds pattern := by
  have hsublist := h.sublist
  rw [String.toList_ofList, splits.shortest_eq] at hsublist
  exact (plain_term_iff splits).mp (plain_of_sublist_shortest hsublist)

/-- The patterns of which no text is lost. -/
theorem admits_of_accepts_iff (pattern : String) :
    (∀ text : String, accepts pattern.toList text.toList = true → (ofPattern pattern).Admits text) ↔
      AtEnds pattern.toList := by
  constructor
  · intro h
    refine atEnds_of_admits (splits_ofPattern pattern) (h _ ?_)
    rw [String.toList_ofList]
    exact accepts_shortest _
  · exact fun hends text ↦ admits_of_accepts (splits_ofPattern pattern) hends

end LikeTest

/-- What a store makes of two texts. -/
structure Store.ComparesText (store : Store) : Prop where
  eq_iff (a b : String) : store.compare .eq (some (.string a)) (some (.string b)) ↔ a = b
  ne_iff (a b : String) : store.compare .ne (some (.string a)) (some (.string b)) ↔ a ≠ b
  contains_iff (text part : String) :
    store.contains (some (.string text)) (some (.string part)) ↔ part.toList <:+: text.toList
  beginsWith_iff (text start : String) :
    store.beginsWith (some (.string text)) (some (.string start)) ↔ start.toList <+: text.toList

theorem comparesText_textStore : textStore.ComparesText where
  eq_iff a b := by simp [textStore]
  ne_iff a b := by simp [textStore]
  contains_iff text part := Iff.rfl
  beginsWith_iff text start := Iff.rfl

theorem LikeTest.passes_toTest_iff {store : Store} {item : Item} (subject : Operand) (isLike : Bool)
    (test : LikeTest) :
    (test.toTest subject isLike).Passes store item ↔ test.Accepts store (subject.read item) isLike := by
  have hread (held : Attribute) : (Operand.value held).read item = some held := rfl
  cases test <;> cases isLike <;> simp [toTest, Test.Passes, Accepts, hread]

theorem LikeTest.accepts_iff_admits {store : Store} (compares : store.ComparesText) (text : String)
    (isLike : Bool) (test : LikeTest) :
    test.Accepts store (some (.string text)) isLike ↔ (test.Admits text ↔ isLike = true) := by
  cases test <;> cases isLike <;>
    simp [Accepts, Admits, compares.eq_iff, compares.ne_iff, compares.contains_iff,
      compares.beginsWith_iff]

end Dynamo

namespace Condition

/-- A condition is compiled, and both compiled forms hold of the items with a given text under the
key just when a fact does. -/
structure Means (store : Store) (key : Expr) (text : String) (fact : Prop) (test : Condition) : Prop where
  request : ∃ phrase, test.phrase = .ok phrase ∧ ∀ before final : Placeholders,
    (before.write phrase).2.Extends final → ∃ found,
      Test.read? final.nameEntries final.valueEntries (before.write phrase).1 = some found ∧
        ∀ item : Item, item key.columnName = some (.string text) → (found.Passes store item ↔ fact)
  partiql : ∀ keyText, key.partiql .identifier = .ok keyText → ∃ compiled,
    test.partiql = .ok compiled ∧ ∃ found, KeyTest.read? keyText compiled = some found ∧
      ∀ item : Item, item keyText = some (.string text) → (found.Passes store item ↔ fact)

variable {store : Store} {key : Expr} {text : String}

theorem Means.congr {fact fact' : Prop} {test : Condition} (means : test.Means store key text fact)
    (same : fact ↔ fact') : test.Means store key text fact' := by
  rwa [← propext same]

theorem means_like (compares : store.ComparesText) (key : Expr) (text pattern : String) (isLike : Bool) :
    (like key pattern isLike).Means store key text
      ((LikeTest.ofPattern pattern).Admits text ↔ isLike = true) where
  request := by
    have hphrase : (like key pattern isLike).phrase = .ok (likePhrase key.columnName pattern isLike) := rfl
    have hgrouped : (like key pattern isLike).Grouped := trivial
    refine ⟨_, hphrase, fun before final later ↦ ?_⟩
    obtain ⟨found, hfound, hmeaning⟩ := exists_read?_write hphrase hgrouped later
    refine ⟨found, hfound, fun item hitem ↦ ?_⟩
    rw [hmeaning, Holds, hitem, LikeTest.accepts_iff_admits compares]
  partiql := by
    intro keyText hkey
    refine ⟨likeText keyText pattern isLike, by rw [Condition.partiql, hkey]; rfl, _,
      KeyTest.read?_likeText pattern isLike, fun item hitem ↦ ?_⟩
    have hread : (Operand.name keyText).read item = some (.string text) := hitem
    rw [LikeTest.passes_toTest_iff, hread, LikeTest.accepts_iff_admits compares]

/-- What a store tests for is what LIKE asks of a text if the pattern has no wildcards but percent
signs at its ends, and none in front alone. -/
theorem holds_like_iff (compares : store.ComparesText) {item : Item} {pattern : String}
    (hitem : item key.columnName = some (.string text)) (atEnds : AtEnds pattern.toList)
    (closed : pattern.toList.head? = some '%' → pattern.toList.getLast? = some '%') (isLike : Bool) :
    (like key pattern isLike).Holds store item ↔
      (accepts pattern.toList text.toList = true ↔ isLike = true) := by
  rw [Holds, hitem, LikeTest.accepts_iff_admits compares,
    LikeTest.admits_iff_accepts (LikeTest.splits_ofPattern pattern) atEnds closed]

/-- A text that a pattern stands for passes the test that is compiled from it, and does not pass the
one that is compiled from its negation, if the pattern has no wildcards but percent signs at its
ends. -/
theorem means_like_of_accepts (compares : store.ComparesText) (key : Expr) {pattern : String}
    (atEnds : AtEnds pattern.toList) (matched : accepts pattern.toList text.toList = true) :
    (like key pattern true).Means store key text True ∧
      (like key pattern false).Means store key text False := by
  have hadmits := LikeTest.admits_of_accepts (LikeTest.splits_ofPattern pattern) atEnds matched
  constructor
  · exact (means_like compares key text pattern true).congr (by simp [hadmits])
  · exact (means_like compares key text pattern false).congr (by simp [hadmits])

theorem means_like_of_accepts_jackson :
    AtEnds "%son".toList ∧ accepts "%son".toList "jackson".toList = true ∧
    (like (.column "name") "%son" true).Means textStore (.column "name") "jackson" True ∧
    (like (.column "name") "%son" false).Means textStore (.column "name") "jackson" False :=
  ⟨by decide, by decide,
    means_like_of_accepts comparesText_textStore (.column "name") (by decide) (by decide)⟩

/-- An underscore in a pattern, or a percent sign inside of it, is looked for as a character. -/
theorem means_like_inner_wildcards :
    (accepts "_son".toList "json".toList = true ∧
      (like (.column "name") "_son" true).Means textStore (.column "name") "json" False ∧
      (like (.column "name") "_son" false).Means textStore (.column "name") "json" True) ∧
    accepts "j%n".toList "json".toList = true ∧
      (like (.column "name") "j%n" true).Means textStore (.column "name") "json" False ∧
      (like (.column "name") "j%n" false).Means textStore (.column "name") "json" True := by
  have hmeans (pattern : String) (isLike : Bool) (lost : ¬ (LikeTest.ofPattern pattern).Admits "json") :
      (like (.column "name") pattern isLike).Means textStore (.column "name") "json" (isLike = false) :=
    (means_like comparesText_textStore _ "json" pattern isLike).congr (by simp [lost])
  refine ⟨⟨by decide, ?_, ?_⟩, by decide, ?_, ?_⟩
  · exact (hmeans "_son" true (by decide)).congr (by simp)
  · exact (hmeans "_son" false (by decide)).congr (by simp)
  · exact (hmeans "j%n" true (by decide)).congr (by simp)
  · exact (hmeans "j%n" false (by decide)).congr (by simp)

end Condition

end PortableQuery
