import PortableQuery.Dynamo.Attribute
import PortableQuery.Query.Operator

/-!
# Condition expressions of the store

What the text of a condition means to the store that receives it. The text is cut into lexemes,
placeholders are replaced by the names and values that the request gives for them, and the result is
read as a test: comparisons, ranges, choices and functions bind tightest, then NOT, AND and OR. A
placeholder that is not given, an empty group or an empty list of choices makes the text unreadable.

How two attributes compare is left to the store; all that is used of it is that equality can be
turned round and chained.
-/

namespace PortableQuery.Dynamo

/-- An attribute of the item by its name, or a value of the request. -/
inductive Operand
  | name (column : String)
  | value (held : Attribute)

inductive Test
  | compare (left right : Operand) (operator : Comparison)
  | between (subject low high : Operand)
  | oneOf (subject : Operand) (choices : List Operand)
  | present (subject : Operand)
  | absent (subject : Operand)
  | contains (subject part : Operand)
  | beginsWith (subject start : Operand)
  | not (inner : Test)
  | connective (operator : Connective) (first second : Test)

/-! ## Items -/

/-- The attributes of an item under their names. -/
abbrev Item := String → Option Attribute

/-- How a store compares operands, of which either may be missing from the item. -/
structure Store where
  compare : Comparison → Option Attribute → Option Attribute → Prop
  contains : Option Attribute → Option Attribute → Prop
  beginsWith : Option Attribute → Option Attribute → Prop
  eq_symm : ∀ {a b}, compare .eq a b → compare .eq b a
  eq_trans : ∀ {a b c}, compare .eq a b → compare .eq b c → compare .eq a c

def Operand.read (item : Item) : Operand → Option Attribute
  | .name column => item column
  | .value held => some held

/-- Whether an item passes a test. A range includes its bounds. -/
def Test.Passes (store : Store) (item : Item) : Test → Prop
  | .compare left right operator => store.compare operator (left.read item) (right.read item)
  | .between subject low high =>
    store.compare .ge (subject.read item) (low.read item) ∧
      store.compare .le (subject.read item) (high.read item)
  | .oneOf subject choices =>
    ∃ choice ∈ choices, store.compare .eq (subject.read item) (choice.read item)
  | .present subject => subject.read item ≠ none
  | .absent subject => subject.read item = none
  | .contains subject part => store.contains (subject.read item) (part.read item)
  | .beginsWith subject start => store.beginsWith (subject.read item) (start.read item)
  | .not inner => ¬ inner.Passes store item
  | .connective .and first second => first.Passes store item ∧ second.Passes store item
  | .connective .or first second => first.Passes store item ∨ second.Passes store item

/-! ## Lexemes -/

inductive Glyph
  | blank
  | mark
  | sign
  | letter
  deriving DecidableEq

/-- The part that a character plays: blanks separate, marks stand alone, and runs of signs and of
all other characters belong together. -/
def glyph (c : Char) : Glyph :=
  if c = ' ' then .blank
  else if c = '(' || c = ')' || c = ',' then .mark
  else if c = '=' || c = '<' || c = '>' then .sign
  else .letter

/-- Whether a character and the text behind it begin with one lexeme. -/
def clings (c : Char) : List Char → Bool
  | [] => false
  | d :: _ => glyph c = glyph d && (glyph c = .sign || glyph c = .letter)

def extend (c : Char) : List (List Char) → List (List Char)
  | [] => [[c]]
  | first :: more => (c :: first) :: more

/-- Cuts a text into the texts of its lexemes. -/
def cut : List Char → List (List Char)
  | [] => []
  | c :: rest =>
    if glyph c = .blank then cut rest
    else if clings c rest then extend c (cut rest)
    else [c] :: cut rest

theorem extend_append {first : List (List Char)} (c : Char) (more : List (List Char))
    (nonempty : first ≠ []) : extend c (first ++ more) = extend c first ++ more := by
  cases first with
  | nil => exact absurd rfl nonempty
  | cons text others => rfl

theorem cut_ne_nil_of_clings {c : Char} {text : List Char} (h : clings c text = true) :
    cut text ≠ [] := by
  cases text with
  | nil => simp [clings] at h
  | cons d rest =>
    have hblank : glyph d ≠ .blank := by
      simp only [clings, Bool.and_eq_true, Bool.or_eq_true, decide_eq_true_eq] at h
      obtain ⟨hsame, hkind | hkind⟩ := h <;> simp [← hsame, hkind]
    rw [cut, if_neg hblank]
    split
    · cases cut rest <;> simp [extend]
    · simp

/-- Where no lexeme reaches across, a text is cut part by part. -/
theorem cut_append {front back : List Char} (apart : ∀ c ∈ front.getLast?, clings c back = false) :
    cut (front ++ back) = cut front ++ cut back := by
  induction front with
  | nil => rfl
  | cons c rest ih =>
    cases rest with
    | nil =>
      have hc : clings c back = false := apart c (by simp)
      have hend : clings c [] = false := rfl
      by_cases hblank : glyph c = .blank <;> simp [cut, hblank, hc, hend]
    | cons d rest =>
      have hrest := ih (by simpa using apart)
      have hclings : clings c (d :: rest ++ back) = clings c (d :: rest) := rfl
      rw [List.cons_append, cut, cut, hrest, hclings]
      split
      · rfl
      · split
        · rename_i hclings
          exact extend_append c _ (cut_ne_nil_of_clings hclings)
        · rfl

/-- A run of letters is one lexeme. -/
theorem cut_of_letters {text : List Char} (nonempty : text ≠ [])
    (letters : ∀ c ∈ text, glyph c = .letter) : cut text = [text] := by
  induction text with
  | nil => exact absurd rfl nonempty
  | cons c rest ih =>
    have hc : glyph c = .letter := letters c (by simp)
    cases rest with
    | nil => simp [cut, hc, clings]
    | cons d rest =>
      have hd : glyph d = .letter := letters d (by simp)
      have hclings : clings c (d :: rest) = true := by simp [clings, hc, hd]
      have hrest := ih (by simp) fun e he ↦ letters e (by simp [he])
      rw [cut, hrest, hclings]
      simp [hc, extend]

inductive Lexeme
  | operand (held : Operand)
  | compare (operator : Comparison)
  | between
  | among
  | present
  | absent
  | contains
  | beginsWith
  | not
  | connective (operator : Connective)
  | opening
  | closing
  | comma

/-- The fixed words and marks of the language. -/
def keywords : Entries Lexeme :=
  [("=", .compare .eq), ("<>", .compare .ne), (">", .compare .gt), ("<", .compare .lt),
    (">=", .compare .ge), ("<=", .compare .le), ("BETWEEN", .between), ("IN", .among),
    ("attribute_exists", .present), ("attribute_not_exists", .absent), ("contains", .contains),
    ("begins_with", .beginsWith), ("NOT", .not), ("AND", .connective .and), ("OR", .connective .or),
    ("(", .opening), (")", .closing), (",", .comma)]

/-- Reads one lexeme. Names and values are looked up under their placeholders. -/
def Lexeme.ofChars? (names : Entries String) (values : Entries Attribute) :
    List Char → Option Lexeme
  | '#' :: more => (names.get? (String.ofList ('#' :: more))).map fun column ↦ .operand (.name column)
  | ':' :: more => (values.get? (String.ofList (':' :: more))).map fun held ↦ .operand (.value held)
  | text => keywords.get? (String.ofList text)

def lexemes? (names : Entries String) (values : Entries Attribute) (text : List Char) :
    Option (List Lexeme) :=
  (cut text).mapM (Lexeme.ofChars? names values)

/-! ## The grammar -/

/-- One or more operands up to a closing parenthesis. -/
def choices? : List Lexeme → Option (List Operand × List Lexeme)
  | .operand choice :: .comma :: rest => do
    let (more, rest) ← choices? rest
    return (choice :: more, rest)
  | .operand choice :: .closing :: rest => some ([choice], rest)
  | _ => none

/-- A test without connectives. -/
def simple? : List Lexeme → Option (Test × List Lexeme)
  | .operand left :: .compare operator :: .operand right :: rest =>
    some (.compare left right operator, rest)
  | .operand subject :: .between :: .operand low :: .connective .and :: .operand high :: rest =>
    some (.between subject low high, rest)
  | .operand subject :: .among :: .opening :: rest => do
    let (choices, rest) ← choices? rest
    return (.oneOf subject choices, rest)
  | .present :: .opening :: .operand subject :: .closing :: rest => some (.present subject, rest)
  | .absent :: .opening :: .operand subject :: .closing :: rest => some (.absent subject, rest)
  | .contains :: .opening :: .operand subject :: .comma :: .operand part :: .closing :: rest =>
    some (.contains subject part, rest)
  | .beginsWith :: .opening :: .operand subject :: .comma :: .operand start :: .closing :: rest =>
    some (.beginsWith subject start, rest)
  | _ => none

/-- A part, and the connective and the rest of the chain behind it if there are any. -/
def chain? (operator : Connective) (part? more? : List Lexeme → Option (Test × List Lexeme))
    (lexemes : List Lexeme) : Option (Test × List Lexeme) := do
  let (first, rest) ← part? lexemes
  match rest with
  | .connective next :: more =>
    if next = operator then
      let (second, rest) ← more? more
      return (.connective operator first second, rest)
    else return (first, rest)
  | rest => return (first, rest)

mutual

/-- Alternatives. The bound counts down with every step into the grammar. -/
def alternatives? : Nat → List Lexeme → Option (Test × List Lexeme)
  | 0 => fun _ ↦ none
  | bound + 1 => chain? .or (conjuncts? bound) (alternatives? bound)

def conjuncts? : Nat → List Lexeme → Option (Test × List Lexeme)
  | 0 => fun _ ↦ none
  | bound + 1 => chain? .and (factor? bound) (conjuncts? bound)

/-- A negation, a group or a simple test. -/
def factor? : Nat → List Lexeme → Option (Test × List Lexeme)
  | 0 => fun _ ↦ none
  | bound + 1 => fun lexemes ↦
    match lexemes with
    | .not :: rest => do
      let (inner, rest) ← factor? bound rest
      return (.not inner, rest)
    | .opening :: rest => do
      let (inner, rest) ← alternatives? bound rest
      match rest with
      | .closing :: rest => return (inner, rest)
      | _ => none
    | lexemes => simple? lexemes

end

/-- A whole list of lexemes as a test. -/
def testOf? (lexemes : List Lexeme) : Option Test :=
  match alternatives? (3 * lexemes.length + 3) lexemes with
  | some (test, []) => some test
  | _ => none

/-- The test that a text stands for, under the names and values of a request. -/
def Test.read? (names : Entries String) (values : Entries Attribute) (text : String) : Option Test :=
  (lexemes? names values text.toList).bind testOf?

end PortableQuery.Dynamo
