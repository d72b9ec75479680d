import PortableQuery.Proofs.Query.Arithmetic
import PortableQuery.Proofs.Sql.Noninterference
import PortableQuery.Proofs.Sql.Template
import PortableQuery.Proofs.Text.Numeral
import PortableQuery.Proofs.Text.Segments

/-!
# Grouping in the text of conditions

The text of an arithmetic condition is cut into words and parentheses and read from left to right,
with one level for every parenthesis that is still open. What is read depends on the text alone, and
for a rendered condition it is what an interpretation makes of the condition.

Chains of comparisons are rendered without parentheses, so their grouping is lost. It is all that is
lost: conditions with the same text hold for the same integers if they have no chains, or if their
chains are grouped towards the same side.
-/

namespace PortableQuery

open Sql Text

namespace Sql

/-! ## Lexemes -/

inductive Lexeme
  | opening
  | closing
  | word (text : String)
  deriving DecidableEq

/-- What a character stands for that is not part of a word. -/
def delimiter? : Char → Option (List Lexeme)
  | ' ' => some []
  | '(' => some [.opening]
  | ')' => some [.closing]
  | _ => none

def wordOf (letters : List Char) : List Lexeme :=
  if letters.isEmpty then [] else [.word (String.ofList letters)]

/-- Cuts a text into lexemes behind the letters of a word that has been begun. -/
def lexemesFrom (letters : List Char) : List Char → List Lexeme
  | [] => wordOf letters
  | c :: rest =>
    match delimiter? c with
    | some marks => wordOf letters ++ (marks ++ lexemesFrom [] rest)
    | none => lexemesFrom (letters ++ [c]) rest

def lexemes (text : String) : List Lexeme := lexemesFrom [] text.toList

/-- No word reaches across a delimiter. -/
theorem lexemesFrom_append {c : Char} {marks : List Lexeme} (h : delimiter? c = some marks)
    (letters front back : List Char) :
    lexemesFrom letters (front ++ c :: back) =
      lexemesFrom letters front ++ (marks ++ lexemesFrom [] back) := by
  induction front generalizing letters with
  | nil => simp only [List.nil_append, lexemesFrom, h]
  | cons d front ih =>
    simp only [List.cons_append, lexemesFrom]
    cases delimiter? d with
    | some others => simp only [ih, List.append_assoc]
    | none => exact ih _

theorem lexemesFrom_of_letters {letters text : List Char} (h : ∀ c ∈ text, delimiter? c = none) :
    lexemesFrom letters text = wordOf (letters ++ text) := by
  induction text generalizing letters with
  | nil => rw [lexemesFrom, List.append_nil]
  | cons c text ih =>
    obtain ⟨hc, htext⟩ := List.forall_mem_cons.mp h
    simp only [lexemesFrom, hc, ih htext, List.append_assoc, List.singleton_append]

theorem lexemes_word {text : String} (nonempty : text.toList ≠ [])
    (h : ∀ c ∈ text.toList, delimiter? c = none) : lexemes text = [.word text] := by
  rw [lexemes, lexemesFrom_of_letters h, List.nil_append, wordOf,
    if_neg (by simpa using nonempty), String.ofList_toList]

theorem lexemes_spaced (front word back : String) :
    lexemes (front ++ " " ++ word ++ " " ++ back) = lexemes front ++ (lexemes word ++ lexemes back) := by
  have htext : (front ++ " " ++ word ++ " " ++ back).toList =
      front.toList ++ ' ' :: (word.toList ++ ' ' :: back.toList) := by simp
  have hspace : delimiter? ' ' = some [] := rfl
  rw [lexemes, htext, lexemesFrom_append hspace, lexemesFrom_append hspace]
  rfl

theorem lexemes_parenthesized (front inner : String) :
    lexemes (front ++ "(" ++ inner ++ ")") =
      lexemes front ++ .opening :: (lexemes inner ++ [.closing]) := by
  have htext : (front ++ "(" ++ inner ++ ")").toList =
      front.toList ++ '(' :: (inner.toList ++ ')' :: []) := by simp
  have hopening : delimiter? '(' = some [.opening] := rfl
  have hclosing : delimiter? ')' = some [.closing] := rfl
  rw [lexemes, htext, lexemesFrom_append hopening, lexemesFrom_append hclosing]
  rfl

/-! ## Reading -/

inductive Keyword
  | comparison (operator : Comparison)
  | joiner (word : String)
  | negation
  deriving DecidableEq

/-- The words between the operands of a group. -/
def joiners : List String := ["+", "-", "*", "/", "AND", "OR"]

def Keyword.ofWord? (text : String) : Option Keyword :=
  match Comparison.ofWord? text with
  | some operator => some (.comparison operator)
  | none =>
    if text ∈ joiners then some (.joiner text) else if text = "NOT" then some .negation else none

theorem lexemes_joiner : ∀ word ∈ joiners, lexemes word = [.word word] := by decide

theorem Keyword.ofWord?_joiner : ∀ word ∈ joiners, ofWord? word = some (.joiner word) := by decide

/-- What has been read since a parenthesis was opened. -/
structure Level (α : Type) where
  /-- What the operands in front of the last joining word make of the chain behind it. -/
  joined : α → α
  links : List (α × Comparison)
  /-- What happens to the next operand. -/
  sign : α → α
  last : α

section Machine

variable {α : Type}

namespace Level

def opened (interpretation : Interpretation α) : Level α :=
  { joined := id, links := [], sign := id, last := interpretation.nothing }

def value (interpretation : Interpretation α) (level : Level α) : α :=
  level.joined (interpretation.settle { links := level.links, last := level.last })

def supply (level : Level α) (operand : α) : Level α :=
  { level with sign := id, last := level.sign operand }

def keyword (interpretation : Interpretation α) (level : Level α) : Keyword → Level α
  -- The operand stays in its place until the next one is supplied.
  | .comparison operator => { level with links := level.links ++ [(level.last, operator)] }
  | .joiner word =>
    { level with joined := interpretation.join word (level.value interpretation), links := [] }
  | .negation => { level with sign := interpretation.negate }

end Level

/-- A word that is no keyword: an integer, or a column with or without quotes. -/
def operandOf (interpretation : Interpretation α) (quote : Char) (text : String) : α :=
  match Numeral.readInt? text.toList with
  | some number => interpretation.integer number
  | none => interpretation.column (String.ofList (text.toList.filter (· ≠ quote)))

/-- Reads one lexeme in the innermost level; the outer ones follow it. -/
def readLexeme (interpretation : Interpretation α) (quote : Char) :
    Level α × List (Level α) → Lexeme → Level α × List (Level α)
  | (level, outer), .opening => (.opened interpretation, level :: outer)
  | (level, parent :: outer), .closing => (parent.supply (level.value interpretation), outer)
  | (level, []), .closing => (level, [])
  | (level, outer), .word text =>
    match Keyword.ofWord? text with
    | some keyword => (level.keyword interpretation keyword, outer)
    | none => (level.supply (operandOf interpretation quote text), outer)

def readFrom (interpretation : Interpretation α) (quote : Char) (text : String)
    (state : Level α × List (Level α)) : Level α × List (Level α) :=
  (lexemes text).foldl (readLexeme interpretation quote) state

/-- What a whole text comes to. -/
def readText (interpretation : Interpretation α) (quote : Char) (text : String) : α :=
  (readFrom interpretation quote text (.opened interpretation, [])).1.value interpretation

/-- Where an operand is expected, the text is read as the given chain. -/
def Reads (interpretation : Interpretation α) (quote : Char) (text : String) (chain : Chain α) : Prop :=
  ∀ joined links last outer,
    readFrom interpretation quote text (⟨joined, links, id, last⟩, outer) =
      (⟨joined, links ++ chain.links, id, chain.last⟩, outer)

variable {interpretation : Interpretation α} {quote : Char}

namespace Reads

theorem readText_eq {text : String} {chain : Chain α}
    (reads : Reads interpretation quote text chain) :
    readText interpretation quote text = interpretation.settle chain := by
  rw [readText, Level.opened, reads id [] interpretation.nothing []]
  rfl

theorem word {text : String} (hlexemes : lexemes text = [.word text])
    (hkeyword : Keyword.ofWord? text = none) :
    Reads interpretation quote text (.single (operandOf interpretation quote text)) := by
  intro joined links last outer
  rw [readFrom, hlexemes, List.foldl_cons, List.foldl_nil, readLexeme, hkeyword]
  simp [Level.supply, Chain.single]

/-- A keyword between two texts. -/
theorem readFrom_spaced {front word : String} {keyword : Keyword} {level : Level α}
    {state : Level α × List (Level α)} {outer : List (Level α)} (back : String)
    (hword : lexemes word = [.word word]) (hkeyword : Keyword.ofWord? word = some keyword)
    (hfront : readFrom interpretation quote front state = (level, outer)) :
    readFrom interpretation quote (front ++ " " ++ word ++ " " ++ back) state =
      readFrom interpretation quote back (level.keyword interpretation keyword, outer) := by
  rw [readFrom] at hfront ⊢
  rw [lexemes_spaced, List.foldl_append, hfront, hword, List.singleton_append, List.foldl_cons,
    readLexeme, hkeyword]
  rfl

theorem link {front back : String} {chain chain' : Chain α} (operator : Comparison)
    (hfront : Reads interpretation quote front chain)
    (hback : Reads interpretation quote back chain') :
    Reads interpretation quote (front ++ " " ++ operator.word ++ " " ++ back)
      (chain.link operator chain') := by
  intro joined links last outer
  have hword : lexemes operator.word = [.word operator.word] := by cases operator <;> rfl
  have hkeyword : Keyword.ofWord? operator.word = some (.comparison operator) := by
    cases operator <;> rfl
  rw [readFrom_spaced back hword hkeyword (hfront joined links last outer), Level.keyword, hback]
  simp [Chain.link]

/-- A parenthesis supplies what is read inside to the level around it. -/
theorem readFrom_parenthesized {front inner : String} {level outside : Level α}
    {state : Level α × List (Level α)} {outer : List (Level α)}
    (hfront : readFrom interpretation quote front state = (outside, outer))
    (hinner : readFrom interpretation quote inner (.opened interpretation, outside :: outer) =
      (level, outside :: outer)) :
    readFrom interpretation quote (front ++ "(" ++ inner ++ ")") state =
      (outside.supply (level.value interpretation), outer) := by
  rw [readFrom] at hfront hinner ⊢
  rw [lexemes_parenthesized, List.foldl_append, hfront, List.foldl_cons, readLexeme, List.foldl_append,
    hinner]
  rfl

theorem not {inner : String} {chain : Chain α} (hinner : Reads interpretation quote inner chain) :
    Reads interpretation quote ("NOT (" ++ inner ++ ")")
      (.single (interpretation.negate (interpretation.settle chain))) := by
  intro joined links last outer
  have htext : "NOT (" ++ inner ++ ")" = "NOT " ++ "(" ++ inner ++ ")" := rfl
  have hnot : readFrom interpretation quote "NOT " (⟨joined, links, id, last⟩, outer) =
      (⟨joined, links, interpretation.negate, last⟩, outer) := rfl
  rw [htext, readFrom_parenthesized hnot (hinner id [] interpretation.nothing _)]
  simp [Level.supply, Level.value, Chain.single]

/-- The induction is along the operands behind the first one; those read so far are in `joined`. -/
theorem exists_level_of_members {word : String} (hword : word ∈ joiners) {first : String}
    {texts : List String} {chain : Chain α} {chains : List (Chain α)}
    (hfirst : Reads interpretation quote first chain)
    (hmore : List.Forall₂ (Reads interpretation quote) texts chains) (joined : α → α) (last : α)
    (outer : List (Level α)) :
    ∃ level, readFrom interpretation quote
        (String.intercalate (" " ++ word ++ " ") (first :: texts)) (⟨joined, [], id, last⟩, outer) =
        (level, outer) ∧
      level.value interpretation =
        (chains.map interpretation.settle).foldl (interpretation.join word)
          (joined (interpretation.settle chain)) := by
  induction hmore generalizing first chain joined last with
  | nil =>
    rw [String.intercalate_singleton]
    exact ⟨_, hfirst joined [] last outer, rfl⟩
  | @cons text chain' texts chains hnext hmore ih =>
    obtain ⟨level, hread, hvalue⟩ :=
      ih hnext (interpretation.join word (joined (interpretation.settle chain))) chain.last
    refine ⟨level, ?_, hvalue⟩
    have hcons : String.intercalate (" " ++ word ++ " ") (first :: text :: texts) =
        first ++ " " ++ word ++ " " ++ String.intercalate (" " ++ word ++ " ") (text :: texts) := by
      rw [String.intercalate_cons_cons]
      simp only [String.append_assoc]
    rw [hcons, readFrom_spaced _ (lexemes_joiner word hword) (Keyword.ofWord?_joiner word hword)
      (hfirst joined [] last outer)]
    exact hread

theorem operation {word : String} (hword : word ∈ joiners) {texts : List String}
    {chains : List (Chain α)} (members : List.Forall₂ (Reads interpretation quote) texts chains) :
    Reads interpretation quote (operationText word texts)
      (.single (interpretation.group word (chains.map interpretation.settle))) := by
  intro joined links last outer
  have hinner : ∃ level, readFrom interpretation quote (String.intercalate (" " ++ word ++ " ") texts)
        (.opened interpretation, ⟨joined, links, id, last⟩ :: outer) =
        (level, ⟨joined, links, id, last⟩ :: outer) ∧
      level.value interpretation = interpretation.group word (chains.map interpretation.settle) := by
    cases members with
    | nil => exact ⟨.opened interpretation, rfl, interpretation.settle_single interpretation.nothing⟩
    | cons hfirst hmore => exact exists_level_of_members hword hfirst hmore id interpretation.nothing _
  obtain ⟨level, hread, hvalue⟩ := hinner
  have htext : operationText word texts =
      "" ++ "(" ++ String.intercalate (" " ++ word ++ " ") texts ++ ")" := by
    rw [operationText, String.empty_append]
  have hnothing : readFrom interpretation quote "" (⟨joined, links, id, last⟩, outer) =
      (⟨joined, links, id, last⟩, outer) := rfl
  rw [htext, readFrom_parenthesized hnothing hread, hvalue]
  simp [Level.supply, Chain.single]

end Reads

end Machine

/-! ## Integers and columns -/

def keywords : List String :=
  ["=", "!=", "<>", ">", "<", ">=", "<=", "+", "-", "*", "/", "AND", "OR", "NOT"]

/-- Digits and quotes occur in no keyword. -/
theorem Keyword.ofWord?_eq_none {text : String} {c : Char} (hmem : c ∈ text.toList)
    (h : c.isDigit = true ∨ c = '\x60' ∨ c = '"') : ofWord? text = none := by
  have hletters : keywords.all (fun word ↦ word.toList.all fun d ↦
      !(d.isDigit || d = '\x60' || d = '"')) = true := by decide
  have hother : ∀ word ∈ keywords, text ≠ word := by
    rintro word hword rfl
    have hc := List.all_eq_true.mp (List.all_eq_true.mp hletters text hword) c hmem
    rcases h with hdigit | rfl | rfl
    · simp [hdigit] at hc
    · contradiction
    · contradiction
  simp only [keywords, List.forall_mem_cons] at hother
  simp [ofWord?, Comparison.ofWord?, joiners, hother]

theorem delimiter?_eq_none {c : Char} (hspace : c ≠ ' ') (hopening : c ≠ '(') (hclosing : c ≠ ')') :
    delimiter? c = none := by
  rw [delimiter?] <;> assumption

theorem plain_of_mem {name : String} (h : isPlainIdentifier name = true) {c : Char}
    (hmem : c ∈ name.toList) : (c.isAlphanum || c = '_' || c = '.') = true := by
  rw [isPlainIdentifier, Bool.and_eq_true, List.all_eq_true] at h
  exact h.2 c hmem

theorem not_mem_of_isPlainIdentifier {name : String} (h : isPlainIdentifier name = true) {c : Char}
    (hc : (c.isAlphanum || c = '_' || c = '.') = false) : c ∉ name.toList := by
  intro hmem
  exact Bool.false_ne_true (hc.symm.trans (plain_of_mem h hmem))

namespace Dialect

/-- A plain name is quoted, unless it is the word for null. -/
theorem column_of_isPlainIdentifier (dialect : Dialect) {name : String}
    (h : isPlainIdentifier name = true) :
    dialect.column name = if name = "NULL" then name else Segments.quote dialect.columnQuote name := by
  have hexpand := dialect.expand_of_not_mem (not_mem_of_isPlainIdentifier h (by decide))
    (not_mem_of_isPlainIdentifier h (by decide))
  rw [column, hexpand, lenientIdentifier, h]
  rfl

theorem columnQuote_eq (dialect : Dialect) :
    dialect.columnQuote = '\x60' ∨ dialect.columnQuote = '"' := by
  cases dialect <;> decide

theorem columnQuote_not_mem (dialect : Dialect) {name : String} (h : isPlainIdentifier name = true) :
    dialect.columnQuote ∉ name.toList :=
  not_mem_of_isPlainIdentifier h (by cases dialect <;> decide)

theorem toList_quote (dialect : Dialect) (name : String) :
    (Segments.quote dialect.columnQuote name).toList =
      Segments.quoteChars dialect.columnQuote name.toList := String.toList_ofList

theorem filter_quote (dialect : Dialect) {name : String} (h : isPlainIdentifier name = true) :
    (Segments.quote dialect.columnQuote name).toList.filter (· ≠ dialect.columnQuote) = name.toList := by
  rw [toList_quote]
  exact Segments.filter_quoteChars (by cases dialect <;> decide) (dialect.columnQuote_not_mem h)

theorem columnQuote_mem_quote (dialect : Dialect) (name : String) :
    dialect.columnQuote ∈ (Segments.quote dialect.columnQuote name).toList := by
  obtain ⟨rest, hrest⟩ := Segments.quoteChars_eq_cons dialect.columnQuote name.toList
  rw [toList_quote, hrest]
  exact List.mem_cons_self

/-- A quoted plain name is a single word. -/
theorem delimiter?_of_mem_quote (dialect : Dialect) {name : String} (h : isPlainIdentifier name = true) :
    ∀ c ∈ (Segments.quote dialect.columnQuote name).toList, delimiter? c = none := by
  intro c hmem
  have hkind : (c = '\x60' ∨ c = '"') ∨ (c.isAlphanum || c = '_' || c = '.') = true := by
    by_cases hquote : c = dialect.columnQuote
    · exact .inl (hquote ▸ dialect.columnQuote_eq)
    · have hname : c ∈ name.toList := by
        rw [← dialect.filter_quote h]
        exact List.mem_filter.mpr ⟨hmem, decide_eq_true hquote⟩
      exact .inr (plain_of_mem h hname)
  refine delimiter?_eq_none ?_ ?_ ?_ <;> rintro rfl <;> revert hkind <;> decide

theorem readInt?_quote (dialect : Dialect) (name : String) :
    Numeral.readInt? (Segments.quote dialect.columnQuote name).toList = none := by
  obtain ⟨rest, hrest⟩ := Segments.quoteChars_eq_cons dialect.columnQuote name.toList
  rw [toList_quote, hrest]
  exact Numeral.readInt?_cons_eq_none rest (by cases dialect <;> rfl) (by cases dialect <;> decide)
    (by cases dialect <;> decide)

end Dialect

variable {α : Type} {interpretation : Interpretation α}

theorem Reads.integer (quote : Char) (number : Int) :
    Reads interpretation quote (Numeral.ofInt number) (.single (interpretation.integer number)) := by
  have htext : (Numeral.ofInt number).toList = Numeral.intChars number := String.toList_ofList
  have hletters : ∀ c ∈ Numeral.intChars number, delimiter? c = none := by
    intro c hmem
    have hkind : c.isDigit = true ∨ c = '-' := Numeral.isDigit_of_mem_intChars hmem
    refine delimiter?_eq_none ?_ ?_ ?_ <;> rintro rfl <;> revert hkind <;> decide
  obtain ⟨c, hmem, hc⟩ := Numeral.exists_digit_mem_intChars number
  rw [← htext] at hletters hmem
  have hword : Reads interpretation quote (Numeral.ofInt number)
      (.single (operandOf interpretation quote (Numeral.ofInt number))) :=
    .word (lexemes_word (List.ne_nil_of_mem hmem) hletters) (Keyword.ofWord?_eq_none hmem (.inl hc))
  rwa [operandOf, htext, Numeral.readInt?_intChars] at hword

theorem Reads.column (dialect : Dialect) {name : String} (h : isPlainIdentifier name = true) :
    Reads interpretation dialect.columnQuote (dialect.column name)
      (.single (interpretation.column name)) := by
  rw [dialect.column_of_isPlainIdentifier h]
  split
  case isTrue hnull =>
    subst hnull
    have hoperand : operandOf interpretation dialect.columnQuote "NULL" = interpretation.column "NULL" := by
      cases dialect <;> rfl
    rw [← hoperand]
    exact .word (by decide) (by decide)
  case isFalse =>
    have hoperand : operandOf interpretation dialect.columnQuote
        (Segments.quote dialect.columnQuote name) = interpretation.column name := by
      rw [operandOf, dialect.readInt?_quote, dialect.filter_quote h, String.ofList_toList]
    have hmem := dialect.columnQuote_mem_quote name
    rw [← hoperand]
    exact .word (lexemes_word (List.ne_nil_of_mem hmem) (dialect.delimiter?_of_mem_quote h))
      (Keyword.ofWord?_eq_none hmem (.inr dialect.columnQuote_eq))

end Sql

/-! ## Rendered conditions -/

section Rendered

variable {α : Type} (flavor : Flavor) (interpretation : Interpretation α)

/-- A part that is rendered, and whose text is read as the given chain. -/
def ReadsBack (outcome : Except Error String) (chain : Chain α) : Prop :=
  ∃ text, outcome = .ok text ∧ Reads interpretation flavor.dialect.columnQuote text chain

variable {flavor} {interpretation}

theorem readsBack_all {β : Type} {render : β → Except Error String} {chain : β → Chain α}
    {items : List β} (h : ∀ item ∈ items, ReadsBack flavor interpretation (render item) (chain item)) :
    ∃ texts, items.mapM render = .ok texts ∧
      List.Forall₂ (Reads interpretation flavor.dialect.columnQuote) texts (items.map chain) := by
  induction items with
  | nil => exact ⟨[], rfl, .nil⟩
  | cons item more ih =>
    obtain ⟨⟨text, htext, hreads⟩, hmore⟩ := List.forall_mem_cons.mp h
    obtain ⟨texts, htexts, hall⟩ := ih hmore
    refine ⟨text :: texts, ?_, .cons hreads hall⟩
    rw [List.mapM_cons, htext, htexts]
    rfl

/-- Operations and connectives. -/
theorem readsBack_group {β : Type} {render : β → Except Error String} {chain : β → Chain α}
    {items : List β} {word : String} (hword : word ∈ joiners)
    (h : ∀ item ∈ items, ReadsBack flavor interpretation (render item) (chain item)) :
    ReadsBack flavor interpretation (do let texts ← items.mapM render; return operationText word texts)
      (.single (interpretation.group word (items.map fun item ↦ interpretation.settle (chain item)))) := by
  obtain ⟨texts, htexts, hall⟩ := readsBack_all h
  refine ⟨operationText word texts, ?_, ?_⟩
  · rw [htexts]
    rfl
  · simpa only [List.map_map, Function.comp_def] using Reads.operation hword hall

/-- Both kinds of comparison. -/
theorem readsBack_link {front back : Except Error String} {chain chain' : Chain α}
    (operator : Comparison) (hfront : ReadsBack flavor interpretation front chain)
    (hback : ReadsBack flavor interpretation back chain') :
    ReadsBack flavor interpretation
      (do let left ← front; let right ← back; return left ++ " " ++ operator.word ++ " " ++ right)
      (chain.link operator chain') := by
  obtain ⟨left, rfl, hleft⟩ := hfront
  obtain ⟨right, rfl, hright⟩ := hback
  exact ⟨_, rfl, hleft.link operator hright⟩

variable (flavor) (interpretation)

theorem readsBack_forms :
    ArithmeticInduction
      (fun expr ↦ ReadsBack flavor interpretation (expr.sql (.plain flavor)) (expr.chain interpretation))
      (fun test ↦ ReadsBack flavor interpretation (test.sql (.plain flavor)) (test.chain interpretation))
    where
  column name hname := ⟨_, rfl, Reads.column flavor.dialect hname⟩
  integer number := ⟨_, rfl, Reads.integer flavor.dialect.columnQuote number.toInt⟩
  operation operator hoperator operands ih := by
    have hwords : ∀ word ∈ ["+", "-", "*", "/"], word ∈ joiners := by decide
    rw [Expr.sql, Expr.sqlList_eq_mapM, Expr.chain, Expr.settled_eq_map]
    exact readsBack_group (hwords operator hoperator) ih
  condition test ih := ih
  compare key value operator ihKey ihValue := readsBack_link operator ihKey ihValue
  columns left right operator ihLeft ihRight := readsBack_link operator ihLeft ihRight
  logical members operator _ ih := by
    have hword : operator.word ∈ joiners := by cases operator <;> decide
    rw [Condition.sql, Condition.sqlList_eq_mapM, Condition.chain, Condition.settled_eq_map]
    exact readsBack_group hword ih
  not inner ih := by
    obtain ⟨text, htext, hreads⟩ := ih
    refine ⟨"NOT (" ++ text ++ ")", ?_, hreads.not⟩
    rw [Condition.sql, htext]
    rfl

end Rendered

namespace Condition

/-- What the text of a condition comes to, whatever it is read for. -/
theorem exists_readText {α : Type} (flavor : Flavor) (interpretation : Interpretation α)
    {test : Condition} (arithmetic : test.Everywhere Node.IsArithmetic) :
    ∃ text, test.sql (.plain flavor) = .ok text ∧
      readText interpretation flavor.dialect.columnQuote text =
        interpretation.settle (test.chain interpretation) := by
  obtain ⟨text, htext, hreads⟩ :=
    (readsBack_forms flavor interpretation).steps.forCondition test arithmetic
  exact ⟨text, htext, hreads.readText_eq⟩

/-- Conditions with the same text cannot be told apart by anything that does not see how chains are
grouped. -/
theorem settle_chain_of_sql_eq {α : Type} {flavor : Flavor} (interpretation : Interpretation α)
    {left right : Condition} (hleft : left.Everywhere Node.IsArithmetic)
    (hright : right.Everywhere Node.IsArithmetic)
    (same : left.sql (.plain flavor) = right.sql (.plain flavor)) :
    interpretation.settle (left.chain interpretation) =
      interpretation.settle (right.chain interpretation) := by
  obtain ⟨text, htext, hread⟩ := exists_readText flavor interpretation hleft
  obtain ⟨text', htext', hread'⟩ := exists_readText flavor interpretation hright
  obtain rfl : text = text' := Except.ok.inj (htext.symm.trans (same.trans htext'))
  rw [← hread, hread']

/-- The grouping of a chain of comparisons is lost. -/
theorem sql_regrouped (rendering : Rendering) (first second third : Expr) (inner outer : Comparison) :
    (compare first (.condition (compare second third inner)) outer).sql rendering =
      (compare (.condition (compare first second outer)) third inner).sql rendering := by
  simp only [Condition.sql, Expr.sql, bind_assoc, pure_bind, String.append_assoc]

example :
    let integers : Valuation := { column := fun name ↦ if name = "c" then 1 else 2, divide := fun _ _ ↦ 0 }
    let a := Expr.column "a"
    let b := Expr.column "b"
    let c := Expr.column "c"
    (compare a (.condition (compare b c .eq)) .eq).holdsOn integers = false ∧
      (compare (.condition (compare a b .eq)) c .eq).holdsOn integers = true := by decide

/-- Arithmetic conditions are always rendered. Two that have the same text hold for the same
integers if one of them is without chains, and also if the chains of both are grouped towards the
same side. -/
theorem holdsOn_of_sql_eq {flavor : Flavor} {left right : Condition}
    (hleft : left.Everywhere Node.IsArithmetic) (hright : right.Everywhere Node.IsArithmetic)
    (same : left.sql (.plain flavor) = right.sql (.plain flavor)) :
    (∃ text, left.sql (.plain flavor) = .ok text) ∧
    (left.Everywhere Node.IsUnchained → ∀ valuation, left.holdsOn valuation = right.holdsOn valuation) ∧
    ∀ side, left.Everywhere (Node.Groups side) → right.Everywhere (Node.Groups side) →
      ∀ valuation, left.holdsOn valuation = right.holdsOn valuation := by
  have hside : ∀ side, left.Everywhere (Node.Groups side) → right.Everywhere (Node.Groups side) →
      ∀ valuation, left.holdsOn valuation = right.holdsOn valuation := by
    intro side hgroups hgroups' valuation
    have hsettle := settle_chain_of_sql_eq (valuation.interpretation side) hleft hright same
    have hvalue : (left.holdsOn valuation).toInt = (right.holdsOn valuation).toInt :=
      (settle_chain valuation side hleft hgroups).symm.trans
        (hsettle.trans (settle_chain valuation side hright hgroups'))
    have hinjective : ∀ a b : Bool, a.toInt = b.toInt → a = b := by decide
    exact hinjective _ _ hvalue
  refine ⟨?_, ?_, hside⟩
  · obtain ⟨text, htext, -⟩ := exists_readText flavor Interpretation.unchained hleft
    exact ⟨text, htext⟩
  · intro hunchained
    have hunchained' : right.Everywhere Node.IsUnchained := by
      rw [← settle_unchained_iff hright, ← settle_chain_of_sql_eq .unchained hleft hright same,
        settle_unchained_iff hleft]
      exact hunchained
    exact hside .left (groups_of_unchained hunchained .left) (groups_of_unchained hunchained' .left)

/-- A comparison in a group of its own: `a = (b = 1)`. -/
def ofGroup : Condition :=
  .compare (.column "a")
    (.condition (.logical [.compare (.column "b") (.value (.int 1)) .eq] .and)) .eq

/-- A comparison that is the only operand of a sum, with the same text. -/
def ofSum : Condition :=
  .columns (.column "a")
    (.operation "+" [.condition (.compare (.column "b") (.value (.int 1)) .eq)]) .eq

theorem holdsOn_of_sql_eq_ofGroup :
    (ofGroup.Everywhere Node.IsArithmetic ∧ ofSum.Everywhere Node.IsArithmetic ∧
      ofGroup.sql (.plain ⟨.mysql, none⟩) = ofSum.sql (.plain ⟨.mysql, none⟩)) ∧
    ofGroup.Everywhere Node.IsUnchained ∧
      ∀ valuation, ofGroup.holdsOn valuation = ofSum.holdsOn valuation := by
  have hcolumns : isPlainIdentifier "a" = true ∧ isPlainIdentifier "b" = true := by decide
  have hgroup : ofGroup.Everywhere Node.IsArithmetic := by simp [ofGroup, Node.IsArithmetic, hcolumns]
  have hsum : ofSum.Everywhere Node.IsArithmetic := by simp [ofSum, Node.IsArithmetic, hcolumns]
  have same : ofGroup.sql (.plain ⟨.mysql, none⟩) = ofSum.sql (.plain ⟨.mysql, none⟩) := by
    simp [ofGroup, ofSum, Condition.sql, Condition.sqlList, Expr.sql, Expr.sqlList, operationText,
      pure, Except.pure, bind, Except.bind]
  have hunchained : ofGroup.Everywhere Node.IsUnchained := by
    have hadmits (members : List Condition) (side : Side) :
        side.Admits (.column "a") (.condition (.logical members .and)) := by
      cases side <;> rfl
    have hadmits' (side : Side) : side.Admits (.column "b") (.value (.int 1)) := by
      cases side <;> rfl
    simp [ofGroup, Node.IsUnchained, Node.Groups, hadmits, hadmits']
  exact ⟨⟨hgroup, hsum, same⟩, hunchained, (holdsOn_of_sql_eq hgroup hsum same).2.1 hunchained⟩

end Condition

end PortableQuery
