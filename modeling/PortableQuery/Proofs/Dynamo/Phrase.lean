import PortableQuery.Proofs.Dynamo.Like
import PortableQuery.Proofs.Dynamo.Resolution

/-!
# Phrases, spelled out

What is written for a condition before placeholders are put in, form by form: the words of the
expression language, the names of the attributes and the values. The phrases that are compiled from
conditions and assignments are these and no others.
-/

namespace PortableQuery

open Dynamo

/-- The attributes that literals and columns stand for in the place of a value. -/
inductive Expr.Stores : Expr → Attribute → Prop
  | value (literal : Literal) : Stores (.value literal) (.ofLiteral literal)
  | raw (literal : Literal) : Stores (.raw literal) (.ofLiteral literal)
  | column (text : String) : Stores (.column text) (.string text)

theorem Expr.toAttribute_eq_ok_iff {expr : Expr} {held : Attribute} :
    expr.toAttribute = .ok held ↔ expr.Stores held := by
  constructor
  · intro h
    cases expr <;> cases h
    · exact .column _
    · exact .value _
    · exact .raw _
  · rintro (_ | _ | _) <;> rfl

namespace Dynamo

theorem attributes_eq_ok_iff {values : List Expr} {held : List Attribute} :
    attributes values = .ok held ↔ List.Forall₂ Expr.Stores values held := by
  rw [attributes_eq_mapM, mapM_eq_ok_iff]
  simp only [Expr.toAttribute_eq_ok_iff]

theorem joinPhrases_eq_intercalate (separator : String) (phrases : List Phrase) :
    joinPhrases separator phrases = [Token.word separator].intercalate phrases := by
  induction phrases with
  | nil => rfl
  | cons phrase more ih =>
    cases more with
    | nil => simp [joinPhrases]
    | cons next more =>
      rw [joinPhrases, ih, List.intercalate_cons_cons, List.append_assoc]
      · rfl
      · exact List.cons_ne_nil _ _

/-- The phrase of a test for a pattern, or of its negation. -/
def LikeTest.phrase (name : String) : LikeTest → Bool → Phrase
  | .contains term, true =>
    [.word "contains(", .name name, .word ", ", .value (.string term), .word ")"]
  | .contains term, false =>
    [.word "NOT contains(", .name name, .word ", ", .value (.string term), .word ")"]
  | .beginsWith term, true =>
    [.word "begins_with(", .name name, .word ", ", .value (.string term), .word ")"]
  | .beginsWith term, false =>
    [.word "NOT begins_with(", .name name, .word ", ", .value (.string term), .word ")"]
  | .equals term, true => [.name name, .word " = ", .value (.string term)]
  | .equals term, false => [.name name, .word " <> ", .value (.string term)]

theorem likePhrase_eq (name pattern : String) (isLike : Bool) :
    likePhrase name pattern isLike = (LikeTest.ofPattern pattern).phrase name isLike := by
  unfold likePhrase
  cases LikeTest.ofPattern pattern <;> cases isLike <;> rfl

/-- A pattern is split in one way, but for a lone percent sign: that one asks for the empty part. -/
theorem LikeTest.Splits.ofPattern_eq {test : LikeTest} {pattern : String}
    (splits : test.Splits pattern.toList) (asks : test ≠ .beginsWith "") :
    LikeTest.ofPattern pattern = test := by
  unfold LikeTest.ofPattern
  generalize hchars : pattern.toList = chars at splits ⊢
  cases splits with
  | part term =>
    have hlast : ('%' :: (term.toList ++ ['%'])).getLast? = some '%' := by
      rw [← List.cons_append, List.getLast?_concat]
    simp [hlast]
  | start term first =>
    have hterm : term.toList ≠ [] := by simpa using asks
    have hfirst : ((term.toList ++ ['%']).head? == some '%') = false := by
      rwa [List.head?_append_of_ne_nil _ hterm, beq_eq_false_iff_ne]
    simp [-List.head?_append, hfirst]
  | ending term last =>
    by_cases hterm : term = ""
    · subst hterm
      rfl
    · have hlast : ('%' :: term.toList).getLast? ≠ some '%' := by
        rwa [List.getLast?_cons_of_ne_nil (by simpa using hterm)]
      simp [hlast]
  | whole term first last =>
    obtain rfl := String.toList_inj.mp hchars
    simp [first, last]

theorem LikeTest.ofPattern_ne_beginsWith (pattern : String) :
    LikeTest.ofPattern pattern ≠ .beginsWith "" := by
  unfold LikeTest.ofPattern
  generalize pattern.toList = chars
  intro h
  simp only [Bool.and_eq_true, beq_iff_eq] at h
  split_ifs at h with hboth hlast
  obtain ⟨term, rfl⟩ := List.getLast?_eq_some_iff.mp hlast
  obtain rfl : term = [] := by simpa using h
  exact hboth ⟨rfl, rfl⟩

end Dynamo

/-- What is written for a condition. -/
inductive Condition.Written : Condition → Phrase → Prop
  | compare (key : Expr) {value : Expr} {held : Attribute} (operator : Comparison)
    (stores : value.Stores held) :
    Written (.compare key value operator)
      [.name key.columnName, .word (" " ++ operator.angleWord ++ " "), .value held]
  | between (key : Expr) {low high : Expr} {least most : Attribute} (storesLow : low.Stores least)
    (storesHigh : high.Stores most) :
    Written (.between key low high)
      [.name key.columnName, .word " BETWEEN ", .value least, .word " AND ", .value most]
  | oneOf (key : Expr) {values : List Expr} {held : List Attribute}
    (stores : List.Forall₂ Expr.Stores values held) :
    Written (.oneOf key values)
      ([.name key.columnName, .word " IN ("] ++
        [.word ", "].intercalate (held.map fun value ↦ [.value value]) ++ [.word ")"])
  | noneOf (key : Expr) {values : List Expr} {held : List Attribute}
    (stores : List.Forall₂ Expr.Stores values held) :
    Written (.noneOf key values)
      ([.word "NOT (", .name key.columnName, .word " IN ("] ++
        [.word ", "].intercalate (held.map fun value ↦ [.value value]) ++ [.word "))"])
  | absent (key : Expr) :
    Written (.null key true) [.word "attribute_not_exists(", .name key.columnName, .word ")"]
  | present (key : Expr) :
    Written (.null key false) [.word "attribute_exists(", .name key.columnName, .word ")"]
  | like (key : Expr) {pattern : String} {test : LikeTest} (isLike : Bool)
    (splits : test.Splits pattern.toList) (asks : test ≠ .beginsWith "") :
    Written (.like key pattern isLike) (test.phrase key.columnName isLike)
  | columns (left right : Expr) (operator : Comparison) :
    Written (.columns left right operator)
      [.name left.columnName, .word (" " ++ operator.angleWord ++ " "), .name right.columnName]
  | logical {members : List Condition} {phrases : List Phrase} (operator : Connective)
    (written : List.Forall₂ Written members phrases) :
    Written (.logical members operator)
      ([.word "("] ++ [.word (" " ++ operator.word ++ " ")].intercalate phrases ++ [.word ")"])
  | not {inner : Condition} {phrase : Phrase} (written : Written inner phrase) :
    Written (.not inner) ([.word "NOT ("] ++ phrase ++ [.word ")"])

namespace Condition

/-- The phrases that conditions are compiled to are the ones that are written for them. -/
theorem phrase_eq_ok_iff (test : Condition) :
    ∀ phrase, test.phrase = .ok phrase ↔ test.Written phrase := by
  induction test using Condition.induction with
  | compare key value operator =>
    intro phrase
    simp only [Condition.phrase, bind_eq_ok_iff, pure_eq_ok_iff, Expr.toAttribute_eq_ok_iff]
    constructor
    · rintro ⟨held, stores, rfl⟩
      exact .compare key operator stores
    · intro written
      cases written with
      | compare _ _ stores => exact ⟨_, stores, rfl⟩
  | between key low high =>
    intro phrase
    simp only [Condition.phrase, bind_eq_ok_iff, pure_eq_ok_iff, Expr.toAttribute_eq_ok_iff]
    constructor
    · rintro ⟨least, storesLow, most, storesHigh, rfl⟩
      exact .between key storesLow storesHigh
    · intro written
      cases written with
      | between _ storesLow storesHigh => exact ⟨_, storesLow, _, storesHigh, rfl⟩
  | oneOf key values =>
    intro phrase
    simp only [Condition.phrase, bind_eq_ok_iff, pure_eq_ok_iff, attributes_eq_ok_iff, valueList,
      joinPhrases_eq_intercalate]
    constructor
    · rintro ⟨held, stores, rfl⟩
      exact .oneOf key stores
    · intro written
      cases written with
      | oneOf _ stores => exact ⟨_, stores, rfl⟩
  | noneOf key values =>
    intro phrase
    simp only [Condition.phrase, bind_eq_ok_iff, pure_eq_ok_iff, attributes_eq_ok_iff, valueList,
      joinPhrases_eq_intercalate]
    constructor
    · rintro ⟨held, stores, rfl⟩
      exact .noneOf key stores
    · intro written
      cases written with
      | noneOf _ stores => exact ⟨_, stores, rfl⟩
  | null key isNull =>
    intro phrase
    rw [Condition.phrase, Except.ok.injEq]
    constructor
    · rintro rfl
      cases isNull with
      | true => exact .absent key
      | false => exact .present key
    · rintro (_ | _) <;> rfl
  | like key pattern isLike =>
    intro phrase
    rw [Condition.phrase, Except.ok.injEq, likePhrase_eq]
    constructor
    · rintro rfl
      exact .like key isLike (LikeTest.splits_ofPattern pattern)
        (LikeTest.ofPattern_ne_beginsWith pattern)
    · -- A pattern has only one test, so the written phrase is the compiled one.
      intro written
      cases written with
      | like _ _ splits asks => rw [splits.ofPattern_eq asks]
  | columns left right operator =>
    intro phrase
    rw [Condition.phrase, Except.ok.injEq]
    constructor
    · rintro rfl
      exact .columns left right operator
    · rintro ⟨⟩
      rfl
  | logical members operator ih =>
    intro phrase
    simp only [Condition.phrase, bind_eq_ok_iff, pure_eq_ok_iff, phrases_eq_mapM, mapM_eq_ok_iff,
      forall₂_congr_of_mem ih, joinPhrases_eq_intercalate]
    constructor
    · rintro ⟨phrases, written, rfl⟩
      exact .logical operator written
    · intro written
      cases written with
      | logical _ written => exact ⟨_, written, rfl⟩
  | not inner ih =>
    intro phrase
    simp only [Condition.phrase, bind_eq_ok_iff, pure_eq_ok_iff, ih]
    constructor
    · rintro ⟨found, written, rfl⟩
      exact .not written
    · intro written
      cases written with
      | not written => exact ⟨_, written, rfl⟩

theorem phrases_eq_ok_iff {tests : List Condition} {phrases : List Phrase} :
    Condition.phrases tests = .ok phrases ↔ List.Forall₂ Written tests phrases := by
  rw [phrases_eq_mapM, mapM_eq_ok_iff]
  simp only [phrase_eq_ok_iff]

end Condition

/-- What is written for the assignments of an update. -/
theorem Dynamo.assignmentPhrases_eq_ok_iff {assignments : Entries Expr} {phrases : List Phrase} :
    assignmentPhrases assignments = .ok phrases ↔
      List.Forall₂ (fun assignment phrase ↦ ∃ held, assignment.2.Stores held ∧
        phrase = [.name assignment.1, .word " = ", .value held]) assignments phrases := by
  induction assignments generalizing phrases with
  | nil => simp [assignmentPhrases, eq_comm]
  | cons assignment more ih =>
    simp only [assignmentPhrases, bind_eq_ok_iff, pure_eq_ok_iff, Expr.toAttribute_eq_ok_iff, ih,
      List.forall₂_cons_left_iff]
    constructor
    · rintro ⟨held, stores, others, written, rfl⟩
      exact ⟨_, others, ⟨held, stores, rfl⟩, written, rfl⟩
    · rintro ⟨_, others, ⟨held, stores, rfl⟩, written, rfl⟩
      exact ⟨held, stores, others, written, rfl⟩

end PortableQuery
