import Mathlib.Data.List.Infix
import PortableQuery.Dynamo.Partiql
import PortableQuery.Proofs.Dynamo.Expression
import PortableQuery.Proofs.Text.Joined
import PortableQuery.Proofs.Text.Quoted

/-!
# Tests on one key in PartiQL

What a store makes of PartiQL text about one key: comparisons of the key with a string, the functions
that look for a string in it, their negations, and groups of these. The key may be any text, also
one that looks like a part of a test, so a comparison is recognised by the whole of its key.
-/

namespace PortableQuery

open Text

namespace Connective

variable {α : Type}

/-- A fact about every item, or about some item. -/
def Joins (operator : Connective) (holds : α → Prop) (items : List α) : Prop :=
  match operator with
  | .and => ∀ item ∈ items, holds item
  | .or => ∃ item ∈ items, holds item

theorem joins_singleton (operator : Connective) (holds : α → Prop) (item : α) :
    operator.Joins holds [item] ↔ holds item := by
  cases operator <;> simp [Joins]

theorem joins_congr {operator : Connective} {holds holds' : α → Prop} {items : List α}
    (same : ∀ item ∈ items, holds item ↔ holds' item) :
    operator.Joins holds items ↔ operator.Joins holds' items := by
  cases operator with
  | and => exact forall₂_congr same
  | or => exact exists_congr fun item ↦ and_congr_right (same item)

/-- No item has a property just when all items lack it. -/
theorem joins_and_not_iff {holds : α → Prop} {items : List α} :
    Connective.and.Joins (fun item ↦ ¬ holds item) items ↔ ¬ Connective.or.Joins holds items := by
  simp [Joins]

end Connective

namespace Dynamo

/-- A test joined with what joins further facts joins all of them. -/
theorem Test.passes_connective_iff {α : Type} {store : Store} {item : Item} {operator : Connective}
    {test others : Test} {holds : α → Prop} {first : α} {more : List α}
    (hfirst : test.Passes store item ↔ holds first)
    (hmore : others.Passes store item ↔ operator.Joins holds more) :
    (Test.connective operator test others).Passes store item ↔ operator.Joins holds (first :: more) := by
  cases operator <;> simp [Test.Passes, Connective.Joins, hfirst, hmore]

/-- The test of a pattern on an operand. -/
def LikeTest.toTest (subject : Operand) (isLike : Bool) : LikeTest → Test
  | .contains term =>
    let found := Test.contains subject (.value (.string term))
    if isLike then found else .not found
  | .beginsWith term =>
    let found := Test.beginsWith subject (.value (.string term))
    if isLike then found else .not found
  | .equals term => .compare subject (.value (.string term)) (if isLike then .eq else .ne)

namespace KeyTest

/-- The string literal behind a given beginning. -/
def stringBehind? (front text : List Char) : Option (String × List Char) := do
  let rest ← text.dropPrefix? front
  let (held, rest) ← Quoted.read? '\'' rest
  return (String.ofList held, rest)

section Reader

variable (key : String)

/-- The key compared with a string. -/
def comparison? (operator : Comparison) (text : List Char) : Option (Test × List Char) := do
  let (held, rest) ← stringBehind? (key.toList ++ (" " ++ operator.angleWord ++ " ").toList) text
  return (.compare (.name key) (.value (.string held)) operator, rest)

/-- A function of the key and a string. -/
def function? (name : String) (test : Operand → Operand → Test) (text : List Char) :
    Option (Test × List Char) := do
  let (held, rest) ← stringBehind? ((name ++ "(").toList ++ (key.toList ++ ", ".toList)) text
  let rest ← rest.dropPrefix? [')']
  return (test (.name key) (.value (.string held)), rest)

def simple? (text : List Char) : Option (Test × List Char) :=
  comparison? key .eq text <|> comparison? key .ne text <|> function? key "contains" .contains text <|>
    function? key "begins_with" .beginsWith text

/-- A test, or the negation of one. -/
def factor? (text : List Char) : Option (Test × List Char) :=
  simple? key text <|> do
    let rest ← text.dropPrefix? "NOT ".toList
    let (inner, rest) ← simple? key rest
    return (.not inner, rest)

/-- Factors with one connective between them. The bound counts down with every factor. -/
def chain? (operator : Connective) : Nat → List Char → Option (Test × List Char)
  | 0, _ => none
  | bound + 1, text => do
    let (first, rest) ← factor? key text
    match rest.dropPrefix? (" " ++ operator.word ++ " ").toList with
    | some more =>
      let (second, rest) ← chain? operator bound more
      return (.connective operator first second, rest)
    | none => return (first, rest)

/-- A chain of factors in parentheses. -/
def group? (operator : Connective) (text : List Char) : Option (Test × List Char) := do
  let rest ← text.dropPrefix? ['(']
  let (inner, rest) ← chain? key operator text.length rest
  let rest ← rest.dropPrefix? [')']
  return (inner, rest)

/-- A whole text as a test on the key. -/
def read? (text : String) : Option Test := do
  let (test, []) ← factor? key text.toList <|> group? key .and text.toList <|> group? key .or text.toList
    | none
  return test

end Reader

/-! ## Reading what is behind a beginning -/

theorem dropPrefix?_eq_none {front text : List Char} (h : ¬ front <+: text) :
    text.dropPrefix? front = none := by
  rw [Option.eq_none_iff_forall_not_mem]
  intro rest hrest
  obtain ⟨found, rfl, hfront⟩ := List.dropPrefix?_eq_some_iff.mp hrest
  exact h (eq_of_beq hfront ▸ List.prefix_append found rest)

theorem stringBehind?_append (front : List Char) (held : String) {rest : List Char}
    (apart : rest.head? ≠ some '\'') :
    stringBehind? front (front ++ ((quoted held).toList ++ rest)) = some (held, rest) := by
  have hread : Quoted.read? '\'' ((quoted held).toList ++ rest) = some (held.toList, rest) :=
    Quoted.read?_eq_some_iff.mpr ⟨by rw [quoted, Quoted.encode, String.toList_ofList], apart⟩
  simp [stringBehind?, List.dropPrefix?_append_of_beq, hread]

theorem stringBehind?_eq_none {front text : List Char} (h : ¬ front <+: text) :
    stringBehind? front text = none := by
  rw [stringBehind?, dropPrefix?_eq_none h]
  rfl

/-- A key is not taken for the key of a comparison where other text is in front of it: the word of
the comparison has a character too many. -/
theorem not_prefix_of_mem {c : Char} {key word front rest : List Char} (hword : c ∈ word)
    (hfront : c ∉ front) (hlength : word.length ≤ front.length) :
    ¬ key ++ word <+: front ++ (key ++ rest) := by
  intro h
  have hshort : key ++ word <+: front ++ key := by
    refine List.prefix_of_prefix_length_le h ?_ (by simp; omega)
    rw [← List.append_assoc]
    exact List.prefix_append _ _
  have hcount := hshort.count_le c
  have hpos := List.count_pos_iff.mpr hword
  rw [List.count_append, List.count_append, List.count_eq_zero_of_not_mem hfront] at hcount
  omega

/-! ## Reading the test of a pattern -/

section Reading

variable {key held : String} {rest : List Char}

theorem comparison?_append (operator : Comparison) (apart : rest.head? ≠ some '\'') :
    comparison? key operator (key.toList ++ (" " ++ operator.angleWord ++ " ").toList ++
        ((quoted held).toList ++ rest)) =
      some (.compare (.name key) (.value (.string held)) operator, rest) := by
  rw [comparison?, stringBehind?_append _ _ apart]
  rfl

/-- The two comparisons are told apart by their words. -/
theorem comparison?_eq_of_ne (text : List Char) :
    comparison? key .eq (key.toList ++ (" " ++ Comparison.angleWord .ne ++ " ").toList ++ text) = none := by
  have hword : ¬ (" " ++ Comparison.angleWord .eq ++ " ").toList <+:
      (" " ++ Comparison.angleWord .ne ++ " ").toList ++ text := by
    simp [Comparison.angleWord, Comparison.word]
  rw [comparison?, stringBehind?_eq_none]
  · rfl
  · rwa [List.append_assoc, List.prefix_append_right_inj]

theorem simple?_comparison (isEqual : Bool) (apart : rest.head? ≠ some '\'') :
    simple? key (key.toList ++ (" " ++ Comparison.angleWord (if isEqual then .eq else .ne) ++ " ").toList ++
        ((quoted held).toList ++ rest)) =
      some (.compare (.name key) (.value (.string held)) (if isEqual then .eq else .ne), rest) := by
  cases isEqual with
  | true =>
    simp only [simple?, if_true, comparison?_append .eq apart]
    rfl
  | false =>
    simp only [simple?, Bool.false_eq_true, if_false, comparison?_eq_of_ne, comparison?_append .ne apart]
    rfl

/-- Behind other text the key is not that of a comparison, so only a function can be read. -/
theorem simple?_behind {front : List Char} (plain : '=' ∉ front ∧ '<' ∉ front)
    (long : 4 ≤ front.length) :
    simple? key (front ++ (key.toList ++ rest)) =
      (function? key "contains" .contains (front ++ (key.toList ++ rest)) <|>
        function? key "begins_with" .beginsWith (front ++ (key.toList ++ rest))) := by
  have heq : comparison? key .eq (front ++ (key.toList ++ rest)) = none := by
    rw [comparison?, stringBehind?_eq_none (not_prefix_of_mem (c := '=') (by decide) plain.1 ?_)]
    · rfl
    · exact Nat.le_trans (by decide) long
  have hne : comparison? key .ne (front ++ (key.toList ++ rest)) = none := by
    rw [comparison?, stringBehind?_eq_none (not_prefix_of_mem (c := '<') (by decide) plain.2 ?_)]
    · rfl
    · exact Nat.le_trans (by decide) long
  simp only [simple?, heq, hne]
  rfl

/-- The text of a function of the key and a string. -/
def call (name key held : String) : List Char :=
  (name ++ "(").toList ++ (key.toList ++ (", ".toList ++ ((quoted held).toList ++ [')'])))

theorem function?_call (name : String) (test : Operand → Operand → Test) :
    function? key name test (call name key held ++ rest) =
      some (test (.name key) (.value (.string held)), rest) := by
  have hbehind : stringBehind? ((name ++ "(").toList ++ (key.toList ++ ", ".toList))
      (call name key held ++ rest) = some (held, ')' :: rest) := by
    have hapart : (')' :: rest).head? ≠ some '\'' := by simp
    rw [← stringBehind?_append ((name ++ "(").toList ++ (key.toList ++ ", ".toList)) held hapart]
    simp [call]
  have hclosing : (')' :: rest).dropPrefix? [')'] = some rest :=
    List.dropPrefix?_append_of_beq rest (beq_self_eq_true [')'])
  rw [function?, hbehind]
  simp [hclosing]

theorem function?_eq_none {name : String} {test : Operand → Operand → Test} {text : List Char}
    (h : ¬ (name ++ "(").toList <+: text) : function? key name test text = none := by
  rw [function?, stringBehind?_eq_none]
  · rfl
  · exact fun hprefix ↦ h ((List.prefix_append _ _).trans hprefix)

theorem simple?_contains :
    simple? key (call "contains" key held ++ rest) =
      some (.contains (.name key) (.value (.string held)), rest) := by
  have hfound : function? key "contains" .contains (call "contains" key held ++ rest) = some _ :=
    function?_call "contains" .contains
  rw [call, List.append_assoc, List.append_assoc] at hfound ⊢
  rw [simple?_behind (by decide) (by decide), hfound]
  rfl

theorem simple?_beginsWith :
    simple? key (call "begins_with" key held ++ rest) =
      some (.beginsWith (.name key) (.value (.string held)), rest) := by
  have hfound : function? key "begins_with" .beginsWith (call "begins_with" key held ++ rest) =
      some _ := function?_call "begins_with" .beginsWith
  have hcontains : function? key "contains" .contains (call "begins_with" key held ++ rest) = none :=
    function?_eq_none (by simp [call])
  rw [call, List.append_assoc, List.append_assoc] at hfound hcontains ⊢
  rw [simple?_behind (by decide) (by decide), hcontains, hfound]
  rfl

/-- No simple test begins with a negation. -/
theorem simple?_not {name : String} (plain : '=' ∉ name.toList ∧ '<' ∉ name.toList) :
    simple? key ("NOT ".toList ++ (call name key held ++ rest)) = none := by
  have hcontains : function? key "contains" .contains ("NOT ".toList ++ (call name key held ++ rest)) =
      none := function?_eq_none (by simp)
  have hbegins : function? key "begins_with" .beginsWith
      ("NOT ".toList ++ (call name key held ++ rest)) = none := function?_eq_none (by simp)
  rw [call, List.append_assoc, List.append_assoc, ← List.append_assoc "NOT ".toList] at hcontains hbegins ⊢
  rw [simple?_behind (by simpa using plain) (by simp), hcontains, hbegins]
  rfl

theorem factor?_of_simple {text : List Char} {found : Test × List Char}
    (h : simple? key text = some found) : factor? key text = some found := by
  rw [factor?, h]
  rfl

theorem factor?_not {name : String} (plain : '=' ∉ name.toList ∧ '<' ∉ name.toList) {test : Test}
    (h : simple? key (call name key held ++ rest) = some (test, rest)) :
    factor? key ("NOT ".toList ++ call name key held ++ rest) = some (.not test, rest) := by
  rw [List.append_assoc, factor?, simple?_not plain,
    List.dropPrefix?_append_of_beq _ (beq_self_eq_true "NOT ".toList)]
  simp [h]

theorem toList_likeText (key pattern : String) (isLike : Bool) :
    (likeText key pattern isLike).toList =
      match LikeTest.ofPattern pattern with
      | .contains term => (if isLike then [] else "NOT ".toList) ++ call "contains" key term
      | .beginsWith term => (if isLike then [] else "NOT ".toList) ++ call "begins_with" key term
      | .equals term =>
        key.toList ++ (" " ++ Comparison.angleWord (if isLike then .eq else .ne) ++ " ").toList ++
          (quoted term).toList := by
  unfold likeText
  cases LikeTest.ofPattern pattern <;> cases isLike <;> simp [call, Comparison.angleWord, Comparison.word]

/-- The text of a pattern is read as the test that the pattern is reduced to. -/
theorem factor?_likeText (pattern : String) (isLike : Bool) (apart : rest.head? ≠ some '\'') :
    factor? key ((likeText key pattern isLike).toList ++ rest) =
      some ((LikeTest.ofPattern pattern).toTest (.name key) isLike, rest) := by
  rw [toList_likeText]
  cases LikeTest.ofPattern pattern with
  | contains term =>
    cases isLike with
    | true => exact factor?_of_simple simple?_contains
    | false => exact factor?_not (by decide) simple?_contains
  | beginsWith term =>
    cases isLike with
    | true => exact factor?_of_simple simple?_beginsWith
    | false => exact factor?_not (by decide) simple?_beginsWith
  | equals term =>
    rw [List.append_assoc]
    exact factor?_of_simple (simple?_comparison isLike apart)

/-! ## Reading a group -/

theorem chain?_of_last {operator : Connective} {bound : Nat} {text rest : List Char} {test : Test}
    (enough : 0 < bound) (first : factor? key text = some (test, rest))
    (last : rest.dropPrefix? (" " ++ operator.word ++ " ").toList = none) :
    chain? key operator bound text = some (test, rest) := by
  obtain ⟨bound, rfl⟩ := Nat.exists_eq_add_of_lt enough
  simp only [chain?, first, Option.bind_eq_bind, Option.bind_some, last]
  rfl

theorem chain?_of_joined {operator : Connective} {bound : Nat} {text more rest : List Char}
    {test others : Test}
    (first : factor? key text = some (test, (" " ++ operator.word ++ " ").toList ++ more))
    (second : chain? key operator bound more = some (others, rest)) :
    chain? key operator (bound + 1) text = some (.connective operator test others, rest) := by
  have hjoined : ((" " ++ operator.word ++ " ").toList ++ more).dropPrefix?
      (" " ++ operator.word ++ " ").toList = some more :=
    List.dropPrefix?_append_of_beq more (beq_self_eq_true _)
  simp only [chain?, first, Option.bind_eq_bind, Option.bind_some, hjoined, second]
  rfl

/-- Factors with a connective between them, up to the parenthesis behind them. -/
theorem exists_chain?_likeTexts (key : String) (operator : Connective) (isLike : Bool) {patterns : List String}
    (nonempty : patterns ≠ []) {bound : Nat} (enough : patterns.length ≤ bound) :
    ∃ found, chain? key operator bound ((String.intercalate (" " ++ operator.word ++ " ")
        (patterns.map fun pattern ↦ likeText key pattern isLike)).toList ++ [')']) =
          some (found, [')']) ∧
      ∀ store item, found.Passes store item ↔ operator.Joins
        (fun pattern ↦ ((LikeTest.ofPattern pattern).toTest (.name key) isLike).Passes store item)
        patterns := by
  have hclosing : [')'].dropPrefix? (" " ++ operator.word ++ " ").toList = none :=
    dropPrefix?_eq_none (by simp)
  induction patterns generalizing bound with
  | nil => contradiction
  | cons pattern more ih =>
    rw [List.length_cons] at enough
    cases more with
    | nil =>
      refine ⟨(LikeTest.ofPattern pattern).toTest (.name key) isLike,
        chain?_of_last (by omega) ?_ hclosing, fun store item ↦ by rw [Connective.joins_singleton]⟩
      rw [List.map_singleton, String.intercalate_singleton]
      exact factor?_likeText pattern isLike (by simp)
    | cons next more =>
      obtain ⟨bound, rfl⟩ := Nat.exists_eq_succ_of_ne_zero (show bound ≠ 0 by omega)
      obtain ⟨others, hothers, hmeaning⟩ :=
        ih (List.cons_ne_nil _ _) (show (next :: more).length ≤ bound by omega)
      refine ⟨.connective operator ((LikeTest.ofPattern pattern).toTest (.name key) isLike) others,
        chain?_of_joined ?_ hothers,
        fun store item ↦ Test.passes_connective_iff Iff.rfl (hmeaning store item)⟩
      rw [List.map_cons, List.map_cons, String.intercalate_cons_cons, String.toList_append,
        String.toList_append, List.append_assoc, List.append_assoc]
      exact factor?_likeText pattern isLike (by simp)

theorem group?_of_chain {operator : Connective} {text rest : List Char} {test : Test}
    (h : chain? key operator (text.length + 1) text = some (test, ')' :: rest)) :
    group? key operator ('(' :: text) = some (test, rest) := by
  have hopening : ('(' :: text).dropPrefix? ['('] = some text :=
    List.dropPrefix?_append_of_beq text (beq_self_eq_true ['('])
  have hclosing : (')' :: rest).dropPrefix? [')'] = some rest :=
    List.dropPrefix?_append_of_beq rest (beq_self_eq_true [')'])
  simp [group?, hopening, h, hclosing]

theorem read?_likeText (pattern : String) (isLike : Bool) :
    read? key (likeText key pattern isLike) =
      some ((LikeTest.ofPattern pattern).toTest (.name key) isLike) := by
  have hfactor : factor? key ((likeText key pattern isLike).toList ++ []) = some _ :=
    factor?_likeText pattern isLike (by simp)
  rw [List.append_nil] at hfactor
  simp [read?, hfactor]

/-- No test begins with a parenthesis in front of a function of the key. -/
theorem factor?_opening_call {front : List Char} {name : String}
    (plain : '=' ∉ front ++ name.toList ∧ '<' ∉ front ++ name.toList) (long : 2 ≤ name.toList.length) :
    factor? key ('(' :: (front ++ call name key held ++ rest)) = none := by
  have hsplit : '(' :: (front ++ call name key held ++ rest) =
      ('(' :: (front ++ (name ++ "(").toList)) ++
        (key.toList ++ (", ".toList ++ ((quoted held).toList ++ ')' :: rest))) := by
    simp [call]
  have hnot : ('(' :: (front ++ call name key held ++ rest)).dropPrefix? "NOT ".toList = none :=
    dropPrefix?_eq_none (by simp)
  have hcontains : function? key "contains" .contains ('(' :: (front ++ call name key held ++ rest)) =
      none := function?_eq_none (by simp)
  have hbegins : function? key "begins_with" .beginsWith
      ('(' :: (front ++ call name key held ++ rest)) = none := function?_eq_none (by simp)
  have hsimple : simple? key ('(' :: (front ++ call name key held ++ rest)) = none := by
    rw [hsplit] at hcontains hbegins ⊢
    rw [simple?_behind (by simpa using plain) (by simp at long ⊢; omega), hcontains, hbegins]
    rfl
  rw [factor?, hsimple, hnot]
  rfl

theorem factor?_opening {pattern : String} {isLike : Bool}
    (function : ∀ term, LikeTest.ofPattern pattern ≠ .equals term) :
    factor? key ('(' :: ((likeText key pattern isLike).toList ++ rest)) = none := by
  rw [toList_likeText]
  cases htest : LikeTest.ofPattern pattern with
  | contains term => cases isLike <;> exact factor?_opening_call (by decide) (by decide)
  | beginsWith term => cases isLike <;> exact factor?_opening_call (by decide) (by decide)
  | equals term => exact absurd htest (function term)

/-- Behind the first of two tests that are joined by OR there is no end of a conjunction. -/
theorem group?_and_eq_none {pattern : String} {isLike : Bool} (more : List Char) :
    group? key .and ('(' :: ((likeText key pattern isLike).toList ++ (" OR ".toList ++ more))) = none := by
  have hopening (text : List Char) : ('(' :: text).dropPrefix? ['('] = some text :=
    List.dropPrefix?_append_of_beq text (beq_self_eq_true ['('])
  have hand : (" OR ".toList ++ more).dropPrefix? (" " ++ Connective.word .and ++ " ").toList = none :=
    dropPrefix?_eq_none (by simp [Connective.word])
  have hclosing : (" OR ".toList ++ more).dropPrefix? [')'] = none := dropPrefix?_eq_none (by simp)
  have hchain (text : List Char) : chain? key .and ('(' :: text).length
      ((likeText key pattern isLike).toList ++ (" OR ".toList ++ more)) = some _ :=
    chain?_of_last (Nat.succ_pos _) (factor?_likeText pattern isLike (by simp)) hand
  simp only [group?, hopening, Option.bind_eq_bind, Option.bind_some, hchain, hclosing, Option.bind_none]

/-- A chain of tests in parentheses is read as the group. -/
theorem exists_group?_likeTexts (key : String) (operator : Connective) (isLike : Bool) {patterns : List String}
    (nonempty : patterns ≠ []) :
    ∃ found, group? key operator ('(' :: ((String.intercalate (" " ++ operator.word ++ " ")
        (patterns.map fun pattern ↦ likeText key pattern isLike)).toList ++ [')'])) = some (found, []) ∧
      ∀ store item, found.Passes store item ↔ operator.Joins
        (fun pattern ↦ ((LikeTest.ofPattern pattern).toTest (.name key) isLike).Passes store item)
        patterns := by
  have henough : patterns.length ≤ (String.intercalate (" " ++ operator.word ++ " ")
      (patterns.map fun pattern ↦ likeText key pattern isLike)).toList.length + 1 := by
    have hlength := length_le_intercalate (show " " ++ operator.word ++ " " ≠ "" by
      cases operator <;> decide) (patterns.map fun pattern ↦ likeText key pattern isLike)
    rwa [List.length_map] at hlength
  obtain ⟨found, hfound, hmeaning⟩ := exists_chain?_likeTexts key operator isLike nonempty
    (show patterns.length ≤ ((String.intercalate (" " ++ operator.word ++ " ")
      (patterns.map fun pattern ↦ likeText key pattern isLike)).toList ++ [')']).length + 1 by
      rw [List.length_append]; omega)
  exact ⟨found, group?_of_chain hfound, hmeaning⟩

/-- A text in parentheses is read as a conjunction, or else as a disjunction. -/
theorem read?_of_group {text : String} {found : Test}
    (opening : factor? key ('(' :: (text.toList ++ [')'])) = none)
    (group : group? key .and ('(' :: (text.toList ++ [')'])) = some (found, []) ∨
      group? key .and ('(' :: (text.toList ++ [')'])) = none ∧
        group? key .or ('(' :: (text.toList ++ [')'])) = some (found, [])) :
    read? key ("(" ++ text ++ ")") = some found := by
  have htext : ("(" ++ text ++ ")").toList = '(' :: (text.toList ++ [')']) := by simp
  obtain hand | ⟨hand, hor⟩ := group
  · simp [read?, htext, opening, hand]
  · simp [read?, htext, opening, hand, hor]

/-- A group of tests is read as their conjunction or disjunction. -/
theorem exists_read?_group (key : String) (operator : Connective) (isLike : Bool) {patterns : List String}
    (nonempty : patterns ≠ [])
    (functions : ∀ pattern ∈ patterns, ∀ term, LikeTest.ofPattern pattern ≠ .equals term) :
    ∃ found, read? key ("(" ++ String.intercalate (" " ++ operator.word ++ " ")
        (patterns.map fun pattern ↦ likeText key pattern isLike) ++ ")") = some found ∧
      ∀ store item, found.Passes store item ↔ operator.Joins
        (fun pattern ↦ ((LikeTest.ofPattern pattern).toTest (.name key) isLike).Passes store item)
        patterns := by
  obtain ⟨pattern, more, rfl⟩ := List.exists_cons_of_ne_nil nonempty
  have hfunction := functions pattern List.mem_cons_self
  cases more with
  | nil =>
    -- A disjunction of one member is written like the conjunction, and read as that.
    obtain ⟨found, hfound, hmeaning⟩ := exists_group?_likeTexts key .and isLike nonempty
    rw [List.map_singleton, String.intercalate_singleton] at hfound ⊢
    refine ⟨found, read?_of_group (factor?_opening hfunction) (.inl hfound), fun store item ↦ ?_⟩
    rw [hmeaning, Connective.joins_singleton, Connective.joins_singleton]
  | cons next others =>
    obtain ⟨found, hfound, hmeaning⟩ := exists_group?_likeTexts key operator isLike nonempty
    rw [List.map_cons, List.map_cons, String.intercalate_cons_cons] at hfound ⊢
    refine ⟨found, read?_of_group ?_ ?_, hmeaning⟩
    · rw [String.toList_append, String.toList_append, List.append_assoc, List.append_assoc]
      exact factor?_opening hfunction
    · cases operator with
      | and => exact .inl hfound
      | or =>
        refine .inr ⟨?_, hfound⟩
        rw [String.toList_append, String.toList_append, List.append_assoc, List.append_assoc]
        exact group?_and_eq_none _

end Reading

end KeyTest

end Dynamo

end PortableQuery
