import Mathlib.Data.List.Forall2
import PortableQuery.Dynamo.Condition
import PortableQuery.Proofs.Dynamo.Placeholder
import PortableQuery.Proofs.Outcome
import PortableQuery.Proofs.Query.Induction

/-!
# What compiled conditions mean

A condition of a WHERE clause holds of an item or does not, by the comparisons of the store. The text
that is compiled from it, read by the grammar of condition expressions, is a test that the same items
pass; only a group without members or a choice without values is not readable at all.
-/

namespace PortableQuery

open Dynamo

namespace Dynamo

/-- Whether an attribute passes the test that a LIKE pattern is reduced to. This is the store's
reading of LIKE: it has tests for a part, for a start and for equality, and no others. -/
def LikeTest.Accepts (store : Store) (held : Option Attribute) (isLike : Bool) : LikeTest → Prop
  | .contains term => store.contains held (some (.string term)) ↔ isLike
  | .beginsWith term => store.beginsWith held (some (.string term)) ↔ isLike
  | .equals term => store.compare (if isLike then .eq else .ne) held (some (.string term))

end Dynamo

namespace Condition

mutual

/-- Whether a condition holds of an item. A key is the attribute of its name, a null check asks
whether the item has the attribute, and LIKE is what the store can test for: `holds_like_iff` says for
which patterns that is all that LIKE asks of a text. -/
def Holds (store : Store) (item : Item) : Condition → Prop
  | .compare key value operator => ∃ held, value.toAttribute = .ok held ∧
    store.compare operator (item key.columnName) (some held)
  | .between key low high => ∃ least most, low.toAttribute = .ok least ∧ high.toAttribute = .ok most ∧
    store.compare .ge (item key.columnName) (some least) ∧
    store.compare .le (item key.columnName) (some most)
  | .oneOf key values => ∃ choices, attributes values = .ok choices ∧
    ∃ choice ∈ choices, store.compare .eq (item key.columnName) (some choice)
  | .noneOf key values => ∃ choices, attributes values = .ok choices ∧
    ∀ choice ∈ choices, ¬ store.compare .eq (item key.columnName) (some choice)
  | .null key isNull => item key.columnName = none ↔ isNull
  | .like key pattern isLike => (LikeTest.ofPattern pattern).Accepts store (item key.columnName) isLike
  | .columns left right operator =>
    store.compare operator (item left.columnName) (item right.columnName)
  | .logical members .and => AllHold store item members
  | .logical members .or => AnyHolds store item members
  | .not inner => ¬ inner.Holds store item

def AllHold (store : Store) (item : Item) : List Condition → Prop
  | [] => True
  | test :: more => test.Holds store item ∧ AllHold store item more

def AnyHolds (store : Store) (item : Item) : List Condition → Prop
  | [] => False
  | test :: more => test.Holds store item ∨ AnyHolds store item more

end

@[simp]
theorem allHold_iff {store : Store} {item : Item} {members : List Condition} :
    AllHold store item members ↔ ∀ member ∈ members, member.Holds store item := by
  induction members with
  | nil => simp [AllHold]
  | cons test more ih => simp [AllHold, ih]

@[simp]
theorem anyHolds_iff {store : Store} {item : Item} {members : List Condition} :
    AnyHolds store item members ↔ ∃ member ∈ members, member.Holds store item := by
  induction members with
  | nil => simp [AnyHolds]
  | cons test more ih => simp [AnyHolds, ih]

mutual

/-- Every group has a member and every choice a value, at any depth. -/
def Grouped : Condition → Prop
  | .oneOf _ values => values ≠ []
  | .noneOf _ values => values ≠ []
  | .logical members _ => members ≠ [] ∧ AllGrouped members
  | .not inner => inner.Grouped
  | _ => True

def AllGrouped : List Condition → Prop
  | [] => True
  | test :: more => test.Grouped ∧ AllGrouped more

end

@[simp]
theorem allGrouped_iff {members : List Condition} :
    AllGrouped members ↔ ∀ member ∈ members, member.Grouped := by
  induction members with
  | nil => simp [AllGrouped]
  | cons test more ih => simp [AllGrouped, ih]

/-- The outcome of reading a condition: a test that the same items pass and the lexemes behind it, or
nothing for a condition with an empty group. -/
def ReadAs (test : Condition) (rest : List Lexeme) : Option (Test × List Lexeme) → Prop
  | some (found, left) => left = rest ∧ ∀ store item, found.Passes store item ↔ test.Holds store item
  | none => ¬ test.Grouped

/-- The phrase of a condition is read back as a factor, whatever stands behind it. -/
def Readable (test : Condition) : Prop :=
  ∀ phrase, test.phrase = .ok phrase → ∃ lexemes, Spells phrase lexemes ∧
    ∀ bound rest, 3 * lexemes.length ≤ bound → test.ReadAs rest (factor? bound (lexemes ++ rest))

end Condition

namespace Dynamo

theorem factor?_of_simple {lexemes : List Lexeme} {outcome : Test × List Lexeme} (bound : Nat)
    (h : simple? lexemes = some outcome) : factor? (bound + 1) lexemes = some outcome := by
  simp only [factor?]
  split
  · simp [simple?] at h
  · simp [simple?] at h
  · exact h

theorem factor?_closing (bound : Nat) (rest : List Lexeme) :
    factor? bound (.closing :: rest) = none := by
  cases bound <;> rfl

theorem conjuncts?_closing (bound : Nat) (rest : List Lexeme) :
    conjuncts? bound (.closing :: rest) = none := by
  cases bound with
  | zero => rfl
  | succ bound => simp [conjuncts?, chain?, factor?_closing]

/-- There is no empty group. -/
theorem alternatives?_closing (bound : Nat) (rest : List Lexeme) :
    alternatives? bound (.closing :: rest) = none := by
  cases bound with
  | zero => rfl
  | succ bound => simp [alternatives?, chain?, conjuncts?_closing]

end Dynamo

/-- A condition that is read as a simple test. -/
theorem Condition.readAs_simple {test : Condition} {lexemes rest : List Lexeme} {found : Test}
    (hsimple : simple? lexemes = some (found, rest))
    (meaning : ∀ store item, found.Passes store item ↔ test.Holds store item) {bound : Nat}
    (enough : 0 < bound) : test.ReadAs rest (factor? bound lexemes) := by
  obtain ⟨bound, rfl⟩ := Nat.exists_eq_add_of_lt enough
  rw [Nat.zero_add, factor?_of_simple bound hsimple]
  exact ⟨rfl, meaning⟩

namespace Condition.ReadAs

variable {test other : Condition} {rest lexemes : List Lexeme} {bound : Nat}

/-- A negation is that of whatever follows it. -/
theorem negated (read : other.ReadAs rest (factor? bound lexemes))
    (meaning : ∀ store item, test.Holds store item ↔ ¬ other.Holds store item)
    (grouped : test.Grouped → other.Grouped) :
    test.ReadAs rest (factor? (bound + 1) (.not :: lexemes)) := by
  simp only [factor?]
  cases houtcome : factor? bound lexemes with
  | none =>
    rw [houtcome] at read
    exact fun h ↦ read (grouped h)
  | some outcome =>
    rw [houtcome] at read
    obtain ⟨hrest, hmeaning⟩ := read
    refine ⟨hrest, fun store item ↦ ?_⟩
    rw [meaning, ← hmeaning, Test.Passes]

/-- Parentheses around a condition. -/
theorem group (read : test.ReadAs (.closing :: rest) (alternatives? bound lexemes)) :
    test.ReadAs rest (factor? (bound + 1) (.opening :: lexemes)) := by
  simp only [factor?]
  cases houtcome : alternatives? bound lexemes with
  | none =>
    rw [houtcome] at read
    exact read
  | some outcome =>
    obtain ⟨found, left⟩ := outcome
    rw [houtcome] at read
    obtain ⟨rfl, hmeaning⟩ := read
    exact ⟨rfl, hmeaning⟩

/-- A chain that has only one part. -/
theorem single {operator : Connective} {part? more? : List Lexeme → Option (Test × List Lexeme)}
    (read : test.ReadAs rest (part? lexemes)) (ends : rest.head? ≠ some (.connective operator)) :
    test.ReadAs rest (chain? operator part? more? lexemes) := by
  unfold chain?
  cases houtcome : part? lexemes with
  | none =>
    rw [houtcome] at read
    exact read
  | some outcome =>
    obtain ⟨found, left⟩ := outcome
    rw [houtcome] at read
    obtain ⟨rfl, hmeaning⟩ := read
    simp only [Option.bind_eq_bind, Option.bind_some]
    split
    · rename_i next more
      have hnext : next ≠ operator := by simpa using ends
      rw [if_neg hnext]
      exact ⟨rfl, hmeaning⟩
    · exact ⟨rfl, hmeaning⟩

/-- A group of one member is read as this member. -/
theorem singleton {outcome : Option (Test × List Lexeme)} (read : test.ReadAs rest outcome)
    (operator : Connective) : (logical [test] operator).ReadAs rest outcome := by
  cases outcome with
  | none => simpa [ReadAs, Grouped] using read
  | some outcome =>
    refine ⟨read.1, fun store item ↦ ?_⟩
    cases operator <;> simp [read.2, Holds]

/-- A part, the connective, and a chain of more parts. -/
theorem cons {operator : Connective} {part? more? : List Lexeme → Option (Test × List Lexeme)}
    {members : List Condition} {others : List Lexeme}
    (first : test.ReadAs (.connective operator :: others) (part? lexemes))
    (second : (logical members operator).ReadAs rest (more? others)) (nonempty : members ≠ []) :
    (logical (test :: members) operator).ReadAs rest (chain? operator part? more? lexemes) := by
  unfold chain?
  cases hfirst : part? lexemes with
  | none =>
    rw [hfirst] at first
    intro hgrouped
    simp only [Grouped, AllGrouped] at hgrouped
    exact first hgrouped.2.1
  | some outcome =>
    obtain ⟨found, left⟩ := outcome
    rw [hfirst] at first
    obtain ⟨rfl, hmeaning⟩ := first
    simp only [Option.bind_eq_bind, Option.bind_some, if_true]
    cases hsecond : more? others with
    | none =>
      rw [hsecond] at second
      intro hgrouped
      simp only [Grouped, AllGrouped] at hgrouped
      exact second (by simpa only [Grouped] using ⟨nonempty, hgrouped.2.2⟩)
    | some outcome =>
      obtain ⟨found', left'⟩ := outcome
      rw [hsecond] at second
      obtain ⟨rfl, hmeaning'⟩ := second
      refine ⟨rfl, fun store item ↦ ?_⟩
      cases operator <;> simp_all [Test.Passes, Holds]

end Condition.ReadAs

namespace Dynamo

theorem reads_comparison (operator : Comparison) :
    lexemes? [] [] (" " ++ operator.angleWord ++ " ").toList = some [.compare operator] := by
  cases operator <;> rfl

theorem closed_comparison (operator : Comparison) : Closed (" " ++ operator.angleWord ++ " ") := by
  cases operator <;> simp [Closed, Comparison.angleWord, Comparison.word, glyph]

theorem apart_comparison (operator : Comparison) (more : Phrase) :
    Phrase.Apart (.word (" " ++ operator.angleWord ++ " ") :: more) := by
  cases operator <;> simp [Phrase.Apart, Apart, Comparison.angleWord, Comparison.word, glyph]

theorem spells_comparison (column : String) (operator : Comparison) (held : Attribute) :
    Spells [.name column, .word (" " ++ operator.angleWord ++ " "), .value held]
      [.operand (.name column), .compare operator, .operand (.value held)] :=
  .name (apart_comparison operator _) (.word (reads_comparison operator) (closed_comparison operator)
    (.value trivial .nil))

/-- A function of an attribute and a value, behind the words that introduce it. -/
theorem spells_function {word : String} {found : List Lexeme}
    (reads : lexemes? [] [] word.toList = some found) (closed : Closed word) (column : String)
    (held : Attribute) :
    Spells [.word word, .name column, .word ", ", .value held, .word ")"]
      (found ++ Lexeme.operand (.name column) ::
        ([Lexeme.comma] ++ Lexeme.operand (.value held) :: ([Lexeme.closing] ++ []))) := by
  refine .word reads closed (.name ?_ (.word rfl ?_ (.value ?_ (.word rfl ?_ .nil)))) <;>
    simp [Phrase.Apart, Apart, Closed, glyph]

theorem spells_closing : Spells [.word ")"] [.closing] := by
  have hreads : lexemes? [] [] ")".toList = some [.closing] := rfl
  exact .word hreads (by simp [Closed, glyph]) .nil

/-- Phrases with a word between them, lexeme by lexeme. -/
theorem spells_joinPhrases {separator : String} {lexeme : Lexeme}
    (reads : lexemes? [] [] separator.toList = some [lexeme]) (closed : Closed separator)
    (apart : ∀ more, Phrase.Apart (.word separator :: more)) {phrases : List Phrase}
    {lists : List (List Lexeme)} (spells : List.Forall₂ Spells phrases lists) :
    Spells (joinPhrases separator phrases) ([lexeme].intercalate lists) := by
  induction spells with
  | nil => exact .nil
  | cons first others ih =>
    cases others with
    | nil => simpa [joinPhrases] using first
    | cons second others =>
      rw [List.intercalate_cons_cons, List.append_assoc]
      exact first.append (.word reads closed ih) (apart _)

/-- The lexemes of a list of values. -/
def listed (values : List Attribute) : List Lexeme :=
  [Lexeme.comma].intercalate (values.map fun held ↦ [.operand (.value held)])

theorem spells_valueList (values : List Attribute) : Spells (valueList values) (listed values) := by
  refine spells_joinPhrases rfl (by simp [Closed, glyph]) (by simp [Phrase.Apart, Apart, glyph]) ?_
  induction values with
  | nil => exact .nil
  | cons held more ih => exact .cons (.value trivial .nil) ih

/-- An attribute among values, up to the word that closes the list. -/
theorem spells_among (column : String) (values : List Attribute) {ending : String}
    {found : List Lexeme} (reads : lexemes? [] [] ending.toList = some found) (closed : Closed ending)
    (apart : Phrase.Apart [.word ending]) :
    Spells (.name column :: .word " IN (" :: (valueList values ++ [.word ending]))
      (.operand (.name column) :: ([Lexeme.among, Lexeme.opening] ++ (listed values ++ found))) := by
  have hrest : Spells (valueList values ++ [.word ending]) (listed values ++ (found ++ [])) :=
    (spells_valueList values).append (.word reads closed .nil) apart
  rw [List.append_nil] at hrest
  refine .name ?_ (.word rfl ?_ hrest)
  · simp [Phrase.Apart, Apart, glyph]
  · simp [Closed, glyph]

theorem choices?_listed {values : List Attribute} (nonempty : values ≠ []) (rest : List Lexeme) :
    choices? (listed values ++ .closing :: rest) = some (values.map .value, rest) := by
  induction values with
  | nil => exact absurd rfl nonempty
  | cons held more ih =>
    cases more with
    | nil => rfl
    | cons next more =>
      have hlisted : listed (held :: next :: more) =
          .operand (.value held) :: .comma :: listed (next :: more) := by
        simp [listed, List.intercalate_cons_cons]
      rw [hlisted, List.cons_append, List.cons_append, choices?, ih (by simp)]
      rfl

end Dynamo

namespace Condition

theorem readable_compare (key value : Expr) (operator : Comparison) :
    (compare key value operator).Readable := by
  intro phrase hphrase
  simp only [Condition.phrase, bind_eq_ok_iff, pure_eq_ok_iff] at hphrase
  obtain ⟨held, hheld, rfl⟩ := hphrase
  refine ⟨_, spells_comparison _ operator held, ?_⟩
  intro bound rest hbound
  refine readAs_simple rfl ?_ (by simp at hbound; omega)
  intro store item
  simp [Test.Passes, Operand.read, Holds, hheld]

theorem readable_columns (left right : Expr) (operator : Comparison) :
    (columns left right operator).Readable := by
  intro phrase hphrase
  simp only [Condition.phrase, Except.ok.injEq] at hphrase
  subst hphrase
  refine ⟨_, .name (apart_comparison operator _) (.word (reads_comparison operator)
    (closed_comparison operator) (.name trivial .nil)), ?_⟩
  intro bound rest hbound
  refine readAs_simple rfl ?_ (by simp at hbound; omega)
  intro store item
  simp [Test.Passes, Operand.read, Holds]

theorem readable_between (key low high : Expr) : (between key low high).Readable := by
  intro phrase hphrase
  simp only [Condition.phrase, bind_eq_ok_iff, pure_eq_ok_iff] at hphrase
  obtain ⟨least, hleast, most, hmost, rfl⟩ := hphrase
  refine ⟨_, .name (by simp [Phrase.Apart, Apart, glyph])
    (.word rfl (by simp [Closed, glyph]) (.value (by simp [Phrase.Apart, Apart, glyph])
      (.word rfl (by simp [Closed, glyph]) (.value trivial .nil)))), ?_⟩
  intro bound rest hbound
  refine readAs_simple rfl ?_ (by simp at hbound; omega)
  intro store item
  simp [Test.Passes, Operand.read, Holds, hleast, hmost]

theorem readable_null (key : Expr) (isNull : Bool) : (null key isNull).Readable := by
  intro phrase hphrase
  simp only [Condition.phrase, Except.ok.injEq] at hphrase
  subst hphrase
  cases isNull with
  | true =>
    refine ⟨_, .word rfl (by simp [Closed, glyph]) (.name (by simp [Phrase.Apart, Apart, glyph])
      (.word rfl (by simp [Closed, glyph]) .nil)), ?_⟩
    intro bound rest hbound
    refine readAs_simple rfl ?_ (by simp at hbound; omega)
    intro store item
    simp [Test.Passes, Operand.read, Holds]
  | false =>
    refine ⟨_, .word rfl (by simp [Closed, glyph]) (.name (by simp [Phrase.Apart, Apart, glyph])
      (.word rfl (by simp [Closed, glyph]) .nil)), ?_⟩
    intro bound rest hbound
    refine readAs_simple rfl ?_ (by simp at hbound; omega)
    intro store item
    simp [Test.Passes, Operand.read, Holds]

/-- A function that tests a column for a text, or the negation of it, is read back. -/
theorem readAs_function {key : Expr} {pattern term word : String} {function : Lexeme} {found : Test}
    {isLike : Bool}
    (reads : lexemes? [] [] ((if isLike then "" else "NOT ") ++ word ++ "(").toList =
      some ((if isLike then [] else [.not]) ++ [function, .opening]))
    (closed : Closed ((if isLike then "" else "NOT ") ++ word ++ "("))
    (hsimple : ∀ rest, simple? (function :: .opening :: .operand (.name key.columnName) :: .comma ::
      .operand (.value (.string term)) :: .closing :: rest) = some (found, rest))
    (meaning : ∀ store item, found.Passes store item ↔ (like key pattern true).Holds store item)
    (opposite : ∀ store item,
      (like key pattern false).Holds store item ↔ ¬ (like key pattern true).Holds store item) :
    ∃ lexemes, Spells [.word ((if isLike then "" else "NOT ") ++ word ++ "("), .name key.columnName,
        .word ", ", .value (.string term), .word ")"] lexemes ∧
      ∀ bound rest, 3 * lexemes.length ≤ bound →
        (like key pattern isLike).ReadAs rest (factor? bound (lexemes ++ rest)) := by
  refine ⟨_, spells_function reads closed _ _, ?_⟩
  intro bound rest hbound
  cases isLike with
  | true => exact readAs_simple (hsimple rest) meaning (by simp at hbound; omega)
  | false =>
    obtain ⟨bound, rfl⟩ := Nat.exists_eq_succ_of_ne_zero (show bound ≠ 0 by simp at hbound; omega)
    have hlike : (like key pattern true).ReadAs rest (factor? bound _) :=
      readAs_simple (hsimple rest) meaning (by simp at hbound; omega)
    exact hlike.negated opposite (by simp [Grouped])

theorem readable_like (key : Expr) (pattern : String) (isLike : Bool) :
    (like key pattern isLike).Readable := by
  intro phrase hphrase
  simp only [Condition.phrase, Except.ok.injEq, likePhrase] at hphrase
  subst hphrase
  cases htest : LikeTest.ofPattern pattern with
  | contains term =>
    apply readAs_function
    · cases isLike <;> rfl
    · cases isLike <;> simp [Closed, glyph]
    · exact fun rest ↦ rfl
    · simp [Test.Passes, Operand.read, Holds, htest, LikeTest.Accepts]
    · simp [Holds, htest, LikeTest.Accepts]
  | beginsWith term =>
    apply readAs_function
    · cases isLike <;> rfl
    · cases isLike <;> simp [Closed, glyph]
    · exact fun rest ↦ rfl
    · simp [Test.Passes, Operand.read, Holds, htest, LikeTest.Accepts]
    · simp [Holds, htest, LikeTest.Accepts]
  | equals term =>
    -- The word between the two is that of an equality or of an inequality.
    cases isLike with
    | true =>
      refine ⟨_, spells_comparison _ .eq _, fun bound rest hbound ↦ ?_⟩
      refine readAs_simple rfl ?_ (by simp at hbound; omega)
      simp [Test.Passes, Operand.read, Holds, htest, LikeTest.Accepts]
    | false =>
      refine ⟨_, spells_comparison _ .ne _, fun bound rest hbound ↦ ?_⟩
      refine readAs_simple rfl ?_ (by simp at hbound; omega)
      simp [Test.Passes, Operand.read, Holds, htest, LikeTest.Accepts]

theorem readAs_oneOf {key : Expr} {values : List Expr} {choices : List Attribute}
    (hchoices : attributes values = .ok choices) (rest : List Lexeme) {bound : Nat}
    (enough : 0 < bound) :
    (oneOf key values).ReadAs rest (factor? bound (.operand (.name key.columnName) ::
      ([Lexeme.among, Lexeme.opening] ++ (listed choices ++ .closing :: rest)))) := by
  obtain ⟨bound, rfl⟩ := Nat.exists_eq_add_of_lt enough
  by_cases hnone : choices = []
  · have hvalues : values = [] := by
      cases values with
      | nil => rfl
      | cons value more => simp [attributes, hnone] at hchoices
    subst hnone hvalues
    simp [factor?, simple?, listed, choices?, ReadAs, Grouped]
  · have hread : simple? (.operand (.name key.columnName) :: ([Lexeme.among, Lexeme.opening] ++
        (listed choices ++ .closing :: rest))) =
        some (.oneOf (.name key.columnName) (choices.map .value), rest) := by
      simp [simple?, choices?_listed hnone]
    refine readAs_simple hread (fun store item ↦ ?_) enough
    simp [Test.Passes, Operand.read, Holds, hchoices]

theorem readable_oneOf (key : Expr) (values : List Expr) : (oneOf key values).Readable := by
  intro phrase hphrase
  simp only [Condition.phrase, bind_eq_ok_iff, pure_eq_ok_iff] at hphrase
  obtain ⟨choices, hchoices, rfl⟩ := hphrase
  have hclosing : lexemes? [] [] ")".toList = some [.closing] := rfl
  refine ⟨_, spells_among _ _ hclosing (by simp [Closed, glyph])
    (by simp [Phrase.Apart, Apart, glyph]), fun bound rest hbound ↦ ?_⟩
  simp only [List.cons_append, List.append_assoc, List.nil_append]
  exact readAs_oneOf hchoices rest (by simp at hbound; omega)

theorem readable_noneOf (key : Expr) (values : List Expr) : (noneOf key values).Readable := by
  intro phrase hphrase
  simp only [Condition.phrase, bind_eq_ok_iff, pure_eq_ok_iff] at hphrase
  obtain ⟨choices, hchoices, rfl⟩ := hphrase
  have hopening : lexemes? [] [] "NOT (".toList = some [.not, .opening] := rfl
  have hclosing : lexemes? [] [] "))".toList = some [.closing, .closing] := rfl
  refine ⟨_, .word hopening (by simp [Closed, glyph]) (spells_among _ _ hclosing
    (by simp [Closed, glyph]) (by simp [Phrase.Apart, Apart, glyph])), fun bound rest hbound ↦ ?_⟩
  obtain ⟨bound, rfl⟩ : ∃ b, bound = b + 1 + 1 + 1 + 1 + 1 := ⟨bound - 5, by simp at hbound; omega⟩
  simp only [List.cons_append, List.append_assoc, List.nil_append]
  have hoptions : (oneOf key values).ReadAs (.closing :: rest) (factor? (bound + 1) _) :=
    readAs_oneOf hchoices (.closing :: rest) (by omega)
  have hgroup : (oneOf key values).ReadAs rest (factor? (bound + 1 + 1 + 1 + 1) (.opening :: _)) :=
    ReadAs.group (.single (.single hoptions (by simp)) (by simp))
  refine hgroup.negated (fun store item ↦ ?_) (by simp [Grouped])
  simp [Holds, hchoices]

theorem readable_not {inner : Condition} (hinner : inner.Readable) : (not inner).Readable := by
  intro phrase hphrase
  simp only [Condition.phrase, bind_eq_ok_iff, pure_eq_ok_iff] at hphrase
  obtain ⟨found, hfound, rfl⟩ := hphrase
  obtain ⟨lexemes, hspells, hread⟩ := hinner found hfound
  have hopening : lexemes? [] [] "NOT (".toList = some [.not, .opening] := rfl
  refine ⟨_, .word hopening (by simp [Closed, glyph]) (hspells.append spells_closing
    (by simp [Phrase.Apart, Apart, glyph])), fun bound rest hbound ↦ ?_⟩
  obtain ⟨bound, rfl⟩ : ∃ b, bound = b + 1 + 1 + 1 + 1 := ⟨bound - 4, by simp at hbound; omega⟩
  simp only [List.cons_append, List.append_assoc, List.nil_append]
  have hgroup : inner.ReadAs rest (factor? (bound + 1 + 1 + 1) (.opening :: _)) :=
    ReadAs.group (.single (.single (hread bound (.closing :: rest) (by simp at hbound; omega))
      (by simp)) (by simp))
  exact hgroup.negated (by simp [Holds]) (by simp [Grouped])

/-- What stands behind a group or a whole expression. -/
def Ends (rest : List Lexeme) : Prop := ∀ lexeme ∈ rest.head?, lexeme = .closing

theorem Ends.head?_ne {rest : List Lexeme} (ends : Ends rest) (operator : Connective) :
    rest.head? ≠ some (.connective operator) := by
  intro h
  have := ends _ h
  simp at this

/-- A chain of members with one connective, whatever reads its parts. -/
theorem readAs_chain {operator : Connective} (slack : Nat)
    {part? whole? : Nat → List Lexeme → Option (Test × List Lexeme)}
    (step : ∀ bound, whole? (bound + 1) = chain? operator (part? bound) (whole? bound))
    {members : List Condition} {lists : List (List Lexeme)}
    (reads : List.Forall₂ (fun member lexemes ↦ ∀ bound rest, 3 * lexemes.length + slack ≤ bound →
      (rest.head? = some (.connective operator) ∨ Ends rest) →
      member.ReadAs rest (part? bound (lexemes ++ rest))) members lists)
    (nonempty : members ≠ []) {bound : Nat} {rest : List Lexeme}
    (enough : 3 * ([.connective operator].intercalate lists).length + slack + 1 ≤ bound)
    (ends : Ends rest) :
    (logical members operator).ReadAs rest
      (whole? bound ([.connective operator].intercalate lists ++ rest)) := by
  induction reads generalizing bound with
  | nil => exact absurd rfl nonempty
  | @cons member lexemes members lists first others ih =>
    obtain ⟨bound, rfl⟩ := Nat.exists_eq_succ_of_ne_zero (show bound ≠ 0 by omega)
    rw [Nat.succ_eq_add_one, step]
    cases others with
    | nil =>
      rw [List.intercalate_singleton] at enough ⊢
      have hread := first bound rest (by omega) (.inr ends)
      exact (hread.single (ends.head?_ne operator)).singleton operator
    | @cons next lexemes' members lists second others =>
      rw [List.intercalate_cons_cons] at enough ⊢
      simp only [List.length_append, List.length_singleton] at enough
      rw [List.append_assoc, List.append_assoc, List.singleton_append]
      refine ReadAs.cons (first bound _ (by omega) (.inl rfl)) ?_ (by simp)
      exact ih (by simp) (by omega)

/-- The lexemes of a list of conditions, and how each of them is read. -/
theorem exists_lexemes {members : List Condition} {phrases : List Phrase}
    (readable : ∀ member ∈ members, member.Readable) (h : Condition.phrases members = .ok phrases) :
    ∃ lists, List.Forall₂ Spells phrases lists ∧
      List.Forall₂ (fun member lexemes ↦ ∀ bound rest, 3 * lexemes.length ≤ bound →
        member.ReadAs rest (factor? bound (lexemes ++ rest))) members lists := by
  induction members generalizing phrases with
  | nil =>
    simp only [Condition.phrases, Except.ok.injEq] at h
    subst h
    exact ⟨[], .nil, .nil⟩
  | cons member more ih =>
    simp only [Condition.phrases, bind_eq_ok_iff, pure_eq_ok_iff] at h
    obtain ⟨first, hfirst, others, hothers, rfl⟩ := h
    obtain ⟨lexemes, hspells, hread⟩ := readable member (by simp) first hfirst
    obtain ⟨lists, hlists, hreads⟩ := ih (fun next hnext ↦ readable next (by simp [hnext])) hothers
    exact ⟨lexemes :: lists, .cons hspells hlists, .cons hread hreads⟩

theorem spells_members (operator : Connective) {phrases : List Phrase} {lists : List (List Lexeme)}
    (spells : List.Forall₂ Spells phrases lists) :
    Spells (joinPhrases (" " ++ operator.word ++ " ") phrases)
      ([.connective operator].intercalate lists) := by
  cases operator with
  | and =>
    refine spells_joinPhrases rfl ?_ ?_ spells <;>
      simp [Closed, Phrase.Apart, Apart, glyph, Connective.word]
  | or =>
    refine spells_joinPhrases rfl ?_ ?_ spells <;>
      simp [Closed, Phrase.Apart, Apart, glyph, Connective.word]

/-- A chain of members up to the end of the expression or of its group. -/
theorem readAs_alternatives (operator : Connective) {members : List Condition}
    {lists : List (List Lexeme)}
    (reads : List.Forall₂ (fun member lexemes ↦ ∀ bound rest, 3 * lexemes.length ≤ bound →
      member.ReadAs rest (factor? bound (lexemes ++ rest))) members lists)
    (nonempty : members ≠ []) {bound : Nat} {rest : List Lexeme}
    (enough : 3 * ([.connective operator].intercalate lists).length + 2 ≤ bound) (ends : Ends rest) :
    (logical members operator).ReadAs rest
      (alternatives? bound ([.connective operator].intercalate lists ++ rest)) := by
  cases operator with
  | and =>
    obtain ⟨bound, rfl⟩ := Nat.exists_eq_succ_of_ne_zero (show bound ≠ 0 by omega)
    have hstep (bound : Nat) : conjuncts? (bound + 1) = chain? .and (factor? bound) (conjuncts? bound) := by
      rw [conjuncts?]
    have hchain : (logical members .and).ReadAs rest (conjuncts? bound _) :=
      readAs_chain 0 hstep (reads.imp fun _ _ read bound rest hbound _ ↦ read bound rest hbound) nonempty
        (by omega) ends
    rw [Nat.succ_eq_add_one, alternatives?]
    exact hchain.single (ends.head?_ne .or)
  | or =>
    have hstep (bound : Nat) :
        alternatives? (bound + 1) = chain? .or (conjuncts? bound) (alternatives? bound) := by
      rw [alternatives?]
    refine readAs_chain 1 hstep (reads.imp ?_) nonempty (by omega) ends
    -- A member of a disjunction is a conjunction of one part.
    intro member lexemes read bound rest hbound hnext
    obtain ⟨bound, rfl⟩ := Nat.exists_eq_succ_of_ne_zero (show bound ≠ 0 by omega)
    have hhead : rest.head? ≠ some (.connective .and) := by
      rcases hnext with hnext | hnext
      · simp [hnext]
      · exact hnext.head?_ne .and
    rw [Nat.succ_eq_add_one, conjuncts?]
    exact (read bound rest (by omega)).single hhead

theorem readable_logical {members : List Condition} (operator : Connective)
    (readable : ∀ member ∈ members, member.Readable) : (logical members operator).Readable := by
  intro phrase hphrase
  simp only [Condition.phrase, bind_eq_ok_iff, pure_eq_ok_iff] at hphrase
  obtain ⟨phrases, hphrases, rfl⟩ := hphrase
  obtain ⟨lists, hspells, hreads⟩ := exists_lexemes readable hphrases
  have hopening : lexemes? [] [] "(".toList = some [.opening] := rfl
  refine ⟨_, .word hopening (by simp [Closed, glyph]) ((spells_members operator hspells).append
    spells_closing (by simp [Phrase.Apart, Apart, glyph])), fun bound rest hbound ↦ ?_⟩
  obtain ⟨bound, rfl⟩ := Nat.exists_eq_succ_of_ne_zero (show bound ≠ 0 by simp at hbound; omega)
  simp only [List.cons_append, List.append_assoc, List.nil_append, Nat.succ_eq_add_one]
  by_cases hnone : members = []
  · subst hnone
    cases hreads
    simp [factor?, alternatives?_closing, ReadAs, Grouped]
  · refine ReadAs.group (readAs_alternatives operator hreads hnone ?_ (by simp [Ends]))
    simp only [List.cons_append, List.nil_append, List.length_cons, List.length_append,
      List.length_nil] at hbound
    omega

theorem readable (test : Condition) : test.Readable := by
  induction test using Condition.induction with
  | compare key value operator => exact readable_compare key value operator
  | between key low high => exact readable_between key low high
  | oneOf key values => exact readable_oneOf key values
  | noneOf key values => exact readable_noneOf key values
  | null key isNull => exact readable_null key isNull
  | like key pattern isLike => exact readable_like key pattern isLike
  | columns left right operator => exact readable_columns left right operator
  | logical _ operator ih => exact readable_logical operator ih
  | not _ ih => exact readable_not ih

end Condition

/-! ## A whole WHERE clause -/

namespace Dynamo

theorem Placeholders.write_append (placeholders : Placeholders) (first second : Phrase) :
    placeholders.write (first ++ second) =
      ((placeholders.write first).1 ++ ((placeholders.write first).2.write second).1,
        ((placeholders.write first).2.write second).2) := by
  induction first generalizing placeholders with
  | nil => simp [Placeholders.write]
  | cons token more ih => cases token <;> simp [Placeholders.write, ih, String.append_assoc]

/-- Phrases written one by one and joined are the joined phrase written at once. -/
theorem Placeholders.writeAll_eq (placeholders : Placeholders) (separator : String)
    (phrases : List Phrase) :
    (String.intercalate separator (placeholders.writeAll phrases).1,
      (placeholders.writeAll phrases).2) = placeholders.write (joinPhrases separator phrases) := by
  induction phrases generalizing placeholders with
  | nil => rfl
  | cons phrase more ih =>
    cases more with
    | nil => simp [Placeholders.writeAll, joinPhrases]
    | cons next more =>
      rw [joinPhrases, write_append, write_word, ← ih]
      · simp [Placeholders.writeAll, String.append_assoc]
      · simp

end Dynamo

namespace Condition

/-- A list of lexemes that is read to its end. -/
theorem readAs_testOf? {test : Condition} {lexemes : List Lexeme}
    (read : test.ReadAs [] (alternatives? (3 * lexemes.length + 3) lexemes)) :
    test.ReadAs [] ((testOf? lexemes).map fun found ↦ (found, [])) := by
  unfold testOf?
  cases houtcome : alternatives? (3 * lexemes.length + 3) lexemes with
  | none =>
    rw [houtcome] at read
    exact read
  | some outcome =>
    obtain ⟨found, left⟩ := outcome
    rw [houtcome] at read
    obtain ⟨rfl, hmeaning⟩ := read
    exact ⟨rfl, hmeaning⟩

/-- The text of conditions joined by AND, under the names and values of its request. -/
theorem readAs_conjunction {tests : List Condition} {phrases : List Phrase}
    (hphrases : Condition.phrases tests = .ok phrases) (nonempty : tests ≠ [])
    {before after : Placeholders} {texts : List String}
    (hwritten : before.writeAll phrases = (texts, after)) :
    (logical tests .and).ReadAs []
      ((Test.read? after.nameEntries after.valueEntries (String.intercalate " AND " texts)).map
        fun found ↦ (found, [])) := by
  obtain ⟨lists, hspells, hreads⟩ := exists_lexemes (fun test _ ↦ readable test) hphrases
  have hwrite : before.write (joinPhrases " AND " phrases) = (String.intercalate " AND " texts, after) := by
    rw [← Placeholders.writeAll_eq, hwritten]
  have hspelled : Spells (joinPhrases " AND " phrases) ([.connective .and].intercalate lists) :=
    spells_members .and hspells
  have hlexemes : lexemes? after.nameEntries after.valueEntries
      (String.intercalate " AND " texts).toList = some ([.connective .and].intercalate lists) := by
    have hread := hspelled.lexemes?_write (Placeholders.Extends.refl (before.write _).2)
    rwa [hwrite] at hread
  rw [Test.read?, hlexemes, Option.bind_some]
  apply readAs_testOf?
  have hchain : (logical tests .and).ReadAs [] (alternatives?
      (3 * ([.connective .and].intercalate lists).length + 3) ([.connective .and].intercalate lists ++ [])) :=
    readAs_alternatives .and hreads nonempty (by omega) (by simp [Ends])
  rwa [List.append_nil] at hchain

/-- The text of one condition, under the names and values of any request that it is written for. -/
theorem exists_read?_write {test : Condition} {phrase : Phrase} (hphrase : test.phrase = .ok phrase)
    (grouped : test.Grouped) {before final : Placeholders}
    (later : (before.write phrase).2.Extends final) :
    ∃ found, Test.read? final.nameEntries final.valueEntries (before.write phrase).1 = some found ∧
      ∀ store item, found.Passes store item ↔ test.Holds store item := by
  obtain ⟨lexemes, hspells, hreads⟩ := readable test phrase hphrase
  have hfactor := hreads (3 * lexemes.length + 1) [] (by omega)
  rw [List.append_nil] at hfactor
  have hconjuncts : test.ReadAs [] (conjuncts? (3 * lexemes.length + 2) lexemes) := by
    rw [conjuncts?]
    exact hfactor.single (by simp)
  have halternatives : test.ReadAs [] (alternatives? (3 * lexemes.length + 3) lexemes) := by
    rw [alternatives?]
    exact hconjuncts.single (by simp)
  have hread := readAs_testOf? halternatives
  rw [Test.read?, hspells.lexemes?_write later, Option.bind_some]
  cases hfound : testOf? lexemes with
  | none =>
    rw [hfound] at hread
    exact absurd grouped hread
  | some found =>
    rw [hfound] at hread
    exact ⟨found, rfl, hread.2⟩

end Condition

end PortableQuery
