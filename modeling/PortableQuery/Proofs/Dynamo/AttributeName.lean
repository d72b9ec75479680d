import PortableQuery.Proofs.Dynamo.Allocation
import PortableQuery.Proofs.Dynamo.KeyedMutation
import PortableQuery.Proofs.Dynamo.Rendering

/-!
# The attribute names of a request

A request names attributes for the fields of a select, for the keys of conditions and for both sides
of a comparison of columns, at any depth, and for the columns that an update assigns. A computed
expression in such a place is not refused. It counts as a column whose name is its wire text, and
this text is sent as the name of an attribute.
-/

namespace PortableQuery

open Dynamo

/-- The column whose name is sent for the expression. -/
def Expr.asColumn (expr : Expr) : Expr := .column expr.columnName

@[simp] theorem Expr.columnName_asColumn (expr : Expr) : expr.asColumn.columnName = expr.columnName := rfl

namespace Condition

mutual

/-- The expressions of a condition for which names are sent, in the order in which they are sent. -/
def namedExprs : Condition → List Expr
  | .compare key _ _ => [key]
  | .between key _ _ => [key]
  | .oneOf key _ => [key]
  | .noneOf key _ => [key]
  | .null key _ => [key]
  | .like key _ _ => [key]
  | .columns left right _ => [left, right]
  | .logical members _ => namedExprsList members
  | .not inner => inner.namedExprs

def namedExprsList : List Condition → List Expr
  | [] => []
  | test :: more => test.namedExprs ++ namedExprsList more

end

mutual

/-- The condition with a column in the place of every expression for which a name is sent. -/
def asColumns : Condition → Condition
  | .compare key value operator => .compare key.asColumn value operator
  | .between key low high => .between key.asColumn low high
  | .oneOf key values => .oneOf key.asColumn values
  | .noneOf key values => .noneOf key.asColumn values
  | .null key isNull => .null key.asColumn isNull
  | .like key pattern isLike => .like key.asColumn pattern isLike
  | .columns left right operator => .columns left.asColumn right.asColumn operator
  | .logical members operator => .logical (asColumnsList members) operator
  | .not inner => .not inner.asColumns

def asColumnsList : List Condition → List Condition
  | [] => []
  | test :: more => test.asColumns :: asColumnsList more

end

theorem namedExprsList_eq (tests : List Condition) : namedExprsList tests = tests.flatMap namedExprs := by
  induction tests with
  | nil => rfl
  | cons test more ih => rw [namedExprsList, ih, List.flatMap_cons]

theorem asColumnsList_eq (tests : List Condition) : asColumnsList tests = tests.map asColumns := by
  induction tests with
  | nil => rfl
  | cons test more ih => rw [asColumnsList, ih, List.map_cons]

end Condition

namespace Statement

def assignedColumns : Statement → List String
  | .update mutation => mutation.assignments.map Prod.fst
  | _ => []

/-- The expressions of a statement for which names are sent. An equality that becomes part of the key
of an update or a delete is not among them. -/
def namedExprs (options : Options) : Statement → List Expr
  | .select query => query.filter.flatMap Condition.namedExprs ++ query.fields.map Field.expr
  | .update mutation => (residual options mutation.filter).flatMap Condition.namedExprs
  | .delete mutation => (residual options mutation.filter).flatMap Condition.namedExprs
  | _ => []

/-- The statement with a column in the place of every key and field. -/
def asColumns : Statement → Statement
  | .select query =>
    .select { query with
      filter := query.filter.map Condition.asColumns
      fields := query.fields.map fun field ↦ { field with expr := field.expr.asColumn } }
  | .update mutation => .update { mutation with filter := mutation.filter.map Condition.asColumns }
  | .delete mutation => .delete { mutation with filter := mutation.filter.map Condition.asColumns }
  | other => other

end Statement

/-! ## Keys and fields as columns -/

namespace Condition

theorem phrases_map_eq {change : Condition → Condition} {tests : List Condition}
    (h : ∀ test ∈ tests, (change test).phrase = test.phrase) :
    phrases (tests.map change) = phrases tests := by
  induction tests with
  | nil => rfl
  | cons test more ih =>
    obtain ⟨hfirst, hmore⟩ := List.forall_mem_cons.mp h
    rw [List.map_cons, phrases, phrases, hfirst, ih hmore]

theorem phrase_asColumns (test : Condition) : test.asColumns.phrase = test.phrase := by
  induction test using Condition.induction with
  | logical members operator ih => rw [asColumns, phrase, phrase, asColumnsList_eq, phrases_map_eq ih]
  | not inner ih => rw [asColumns, phrase, phrase, ih]
  | _ => simp only [asColumns, phrase, Expr.columnName_asColumn]

theorem phrases_asColumns (tests : List Condition) :
    phrases (tests.map asColumns) = phrases tests :=
  phrases_map_eq fun test _ ↦ phrase_asColumns test

end Condition

namespace Dynamo

theorem lookupColumn?_asColumns (test : Condition) : lookupColumn? test.asColumns = lookupColumn? test := by
  cases test <;> rfl

theorem keyEquality?_asColumns (options : Options) (test : Condition) :
    keyEquality? options test.asColumns = keyEquality? options test := by
  cases test with
  | compare key value operator => cases operator <;> rfl
  | _ => rfl

theorem residual_asColumns (options : Options) (filter : List Condition) :
    residual options (filter.map Condition.asColumns) =
      (residual options filter).map Condition.asColumns := by
  simp only [residual, List.filter_map, Function.comp_def, keyEquality?_asColumns]

theorem keyAttributes_asColumns (options : Options) (key : Entries Attribute) (filter : List Condition) :
    keyAttributes options key (filter.map Condition.asColumns) = keyAttributes options key filter := by
  induction filter generalizing key with
  | nil => rfl
  | cons test more ih =>
    rw [List.map_cons, keyAttributes, keyAttributes, keyEquality?_asColumns]
    split
    · simp only [ih]
    · exact ih key

theorem extractKey_asColumns (options : Options) (verb : Verb) (filter : List Condition) :
    extractKey options verb (filter.map Condition.asColumns) = extractKey options verb filter := by
  simp only [extractKey, keyAttributes_asColumns]

end Dynamo

theorem Statement.request_asColumns (options : Options) (statement : Statement) :
    statement.asColumns.request options = statement.request options := by
  cases statement with
  | select query =>
    have hsupported : Select.checkSupported .dynamodb
        { query with
          filter := query.filter.map Condition.asColumns
          fields := query.fields.map fun field ↦ { field with expr := field.expr.asColumn } } =
        query.checkSupported .dynamodb := rfl
    simp only [asColumns, request, Select.request, hsupported, Select.requireTable,
      Condition.phrases_asColumns, List.map_map, Function.comp_def, Expr.columnName_asColumn,
      List.any_map, lookupColumn?_asColumns]
  | update mutation =>
    simp only [asColumns, request, Update.request, List.isEmpty_map, extractKey_asColumns,
      residual_asColumns, Condition.phrases_asColumns]
  | delete mutation =>
    simp only [asColumns, request, Delete.request, List.isEmpty_map, extractKey_asColumns,
      residual_asColumns, Condition.phrases_asColumns]
  | _ => rfl

/-! ## Names in phrases -/

namespace Dynamo

def Token.name? : Token → Option String
  | .name column => some column
  | _ => none

def Phrase.names (phrase : Phrase) : List String := phrase.filterMap Token.name?

theorem names_append (first second : Phrase) :
    Phrase.names (first ++ second) = Phrase.names first ++ Phrase.names second :=
  List.filterMap_append

theorem names_joinPhrases (separator : String) (phrases : List Phrase) :
    Phrase.names (joinPhrases separator phrases) = phrases.flatMap Phrase.names := by
  induction phrases with
  | nil => rfl
  | cons phrase more ih =>
    cases more with
    | nil => simp [joinPhrases]
    | cons next others =>
      rw [joinPhrases, names_append, List.flatMap_cons, ← ih]
      · rfl
      · simp

theorem names_valueList (values : List Attribute) : Phrase.names (valueList values) = [] := by
  rw [valueList, names_joinPhrases]
  simp [Phrase.names, Token.name?]

theorem names_likePhrase (name pattern : String) (isLike : Bool) :
    Phrase.names (likePhrase name pattern isLike) = [name] := by
  unfold likePhrase
  cases LikeTest.ofPattern pattern <;> rfl

end Dynamo

namespace Condition

theorem names_phrases_of_forall {tests : List Condition} {found : List Phrase}
    (h : ∀ test ∈ tests, ∀ phrase, test.phrase = .ok phrase →
      Phrase.names phrase = test.namedExprs.map Expr.columnName)
    (hphrases : phrases tests = .ok found) :
    found.flatMap Phrase.names = (tests.flatMap namedExprs).map Expr.columnName := by
  induction tests generalizing found with
  | nil =>
    obtain rfl := Except.ok.inj hphrases
    rfl
  | cons test more ih =>
    obtain ⟨hfirst, hmore⟩ := List.forall_mem_cons.mp h
    simp only [phrases, bind_eq_ok_iff, pure_eq_ok_iff] at hphrases
    obtain ⟨first, hphrase, others, hothers, rfl⟩ := hphrases
    rw [List.flatMap_cons, List.flatMap_cons, List.map_append, hfirst first hphrase, ih hmore hothers]

/-- A phrase has the names of its condition, in their order. -/
theorem names_phrase {test : Condition} {phrase : Phrase} (h : test.phrase = .ok phrase) :
    Phrase.names phrase = test.namedExprs.map Expr.columnName := by
  induction test using Condition.induction generalizing phrase with
  | compare key value operator =>
    simp only [Condition.phrase, bind_eq_ok_iff, pure_eq_ok_iff] at h
    obtain ⟨held, -, rfl⟩ := h
    rfl
  | between key low high =>
    simp only [Condition.phrase, bind_eq_ok_iff, pure_eq_ok_iff] at h
    obtain ⟨first, -, last, -, rfl⟩ := h
    rfl
  | oneOf key values =>
    simp only [Condition.phrase, bind_eq_ok_iff, pure_eq_ok_iff] at h
    obtain ⟨choices, -, rfl⟩ := h
    have hchoices := names_append (valueList choices) [.word ")"]
    rw [names_valueList] at hchoices
    exact congrArg (key.columnName :: ·) hchoices
  | noneOf key values =>
    simp only [Condition.phrase, bind_eq_ok_iff, pure_eq_ok_iff] at h
    obtain ⟨choices, -, rfl⟩ := h
    have hchoices := names_append (valueList choices) [.word "))"]
    rw [names_valueList] at hchoices
    exact congrArg (key.columnName :: ·) hchoices
  | null key isNull =>
    obtain rfl := Except.ok.inj h
    rfl
  | like key pattern isLike =>
    obtain rfl := Except.ok.inj h
    exact names_likePhrase key.columnName pattern isLike
  | columns left right operator =>
    obtain rfl := Except.ok.inj h
    rfl
  | logical members operator ih =>
    simp only [Condition.phrase, bind_eq_ok_iff, pure_eq_ok_iff] at h
    obtain ⟨found, hfound, rfl⟩ := h
    rw [namedExprs, namedExprsList_eq, ← names_phrases_of_forall ih hfound,
      ← names_joinPhrases (" " ++ operator.word ++ " ")]
    exact (names_append _ [.word ")"]).trans (List.append_nil _)
  | not inner ih =>
    simp only [Condition.phrase, bind_eq_ok_iff, pure_eq_ok_iff] at h
    obtain ⟨found, hfound, rfl⟩ := h
    rw [namedExprs, ← ih hfound]
    exact (names_append found [.word ")"]).trans (List.append_nil _)

theorem names_phrases {tests : List Condition} {found : List Phrase} (h : phrases tests = .ok found) :
    found.flatMap Phrase.names = (tests.flatMap namedExprs).map Expr.columnName :=
  names_phrases_of_forall (fun _ _ _ ↦ names_phrase) h

end Condition

namespace Dynamo

theorem names_fieldPhrases (query : Select) :
    (fieldPhrases query).flatMap Phrase.names = (query.fields.map Field.expr).map Expr.columnName := by
  simp [fieldPhrases, Phrase.names, Token.name?, List.flatMap_map, ← List.map_eq_flatMap]

theorem names_assignmentPhrases {assignments : Entries Expr} {found : List Phrase}
    (h : assignmentPhrases assignments = .ok found) :
    found.flatMap Phrase.names = assignments.map Prod.fst := by
  induction assignments generalizing found with
  | nil =>
    obtain rfl := Except.ok.inj h
    rfl
  | cons assignment more ih =>
    simp only [assignmentPhrases, bind_eq_ok_iff, pure_eq_ok_iff] at h
    obtain ⟨held, -, others, hothers, rfl⟩ := h
    rw [List.flatMap_cons, List.map_cons, ih hothers]
    rfl

/-! ## Names with a placeholder -/

namespace Placeholders

variable {placeholders : Placeholders} {used : List String}

/-- Names get their placeholders in the order of first use. -/
theorem names_write (h : placeholders.names = used.eraseDups) (phrase : Phrase) :
    (placeholders.write phrase).2.names = (used ++ Phrase.names phrase).eraseDups := by
  induction phrase generalizing placeholders used with
  | nil => simpa [write, Phrase.names] using h
  | cons token more ih =>
    cases token with
    | word text => exact ih h
    | name name =>
      have hadded : (placeholders.addName name).2.names = (used ++ [name]).eraseDups := by
        rw [addName_eq, eraseDups_concat, ← h]
      have hmore := ih hadded
      rw [List.append_assoc] at hmore
      exact hmore
    | value held =>
      have hadded : (placeholders.addValue held).2.names = used.eraseDups := by
        rw [addValue_eq, ← h]
      exact ih hadded

theorem names_writeAll (h : placeholders.names = used.eraseDups) (phrases : List Phrase) :
    (placeholders.writeAll phrases).2.names = (used ++ phrases.flatMap Phrase.names).eraseDups := by
  induction phrases generalizing placeholders used with
  | nil => simpa [writeAll] using h
  | cons phrase more ih =>
    have hmore := ih (names_write h phrase)
    rw [List.append_assoc] at hmore
    exact hmore

theorem names_empty : empty.names = ([] : List String).eraseDups := rfl

theorem map_snd_nameEntries (placeholders : Placeholders) :
    placeholders.nameEntries.map Prod.snd = placeholders.names := by
  apply List.ext_getElem?
  intro place
  simp [nameEntries, Function.comp_def]

end Placeholders

end Dynamo

/-! ## Names of a request -/

/-- The names for which a request has placeholders. -/
def Dynamo.Request.sentNames (request : Request) : List String := request.names.map Prod.snd

namespace Statement

variable {options : Options} {request : Request}

/-- Names are sent in the order in which the request is put together: assignments in front of
conditions, and conditions in front of fields. -/
theorem sentNames_of_request {statement : Statement} (compiles : statement.request options = .ok request) :
    request.sentNames =
      (statement.assignedColumns ++ (statement.namedExprs options).map Expr.columnName).eraseDups := by
  cases statement with
  | select query =>
    simp only [Statement.request, Select.request, bind_eq_ok_iff] at compiles
    obtain ⟨-, -, table, -, tableName, -, phrases, hphrases, hrest⟩ := compiles
    have hfilter := Placeholders.names_writeAll Placeholders.names_empty phrases
    have hnames := Placeholders.names_writeAll hfilter (fieldPhrases query)
    rw [Condition.names_phrases hphrases, names_fieldPhrases, List.append_assoc, ← List.map_append]
      at hnames
    split at hrest
    all_goals
      obtain rfl := Except.ok.inj hrest
      exact (Placeholders.map_snd_nameEntries _).trans hnames
  | insert mutation =>
    simp only [Statement.request, Insert.request, bind_eq_ok_iff] at compiles
    obtain ⟨tableName, -, rows, -, hrequest⟩ := compiles
    split at hrequest <;> obtain rfl := Except.ok.inj hrequest <;> rfl
  | update mutation =>
    simp only [Statement.request, Update.request, bind_eq_ok_iff] at compiles
    obtain ⟨tableName, -, hrest⟩ := compiles
    split at hrest
    · contradiction
    split at hrest
    · contradiction
    simp only [bind_eq_ok_iff, pure_eq_ok_iff] at hrest
    obtain ⟨assigned, hassigned, key, -, phrases, hphrases, rfl⟩ := hrest
    have hset := Placeholders.names_writeAll Placeholders.names_empty assigned
    rw [Request.sentNames, Request.names, Placeholders.map_snd_nameEntries, Placeholders.names_writeAll hset,
      names_assignmentPhrases hassigned, Condition.names_phrases hphrases]
    rfl
  | delete mutation =>
    simp only [Statement.request, Delete.request, bind_eq_ok_iff] at compiles
    obtain ⟨tableName, -, hrest⟩ := compiles
    split at hrest
    · contradiction
    simp only [bind_eq_ok_iff, pure_eq_ok_iff] at hrest
    obtain ⟨key, -, phrases, hphrases, rfl⟩ := hrest
    rw [Request.sentNames, Request.names, Placeholders.map_snd_nameEntries,
      Placeholders.names_writeAll Placeholders.names_empty, Condition.names_phrases hphrases]
    rfl
  | createTable definition => contradiction
  | createView definition => contradiction

/-- Keys and fields may be computed. The outcome is that of the statement with a column in the place
of each of them, whose name is sent: the names of a request are the assigned columns and the names of
keys and fields. So the wire text of everything computed among these is sent as a name, and only names
of columns are sent if and only if each such text happens to be the name of a column, too. -/
theorem request_sentNames (options : Options) (statement : Statement) :
    statement.asColumns.request options = statement.request options ∧
    ∀ request, statement.request options = .ok request →
      request.sentNames =
        (statement.assignedColumns ++ (statement.namedExprs options).map Expr.columnName).eraseDups ∧
      (∀ expr ∈ statement.namedExprs options, (¬ ∃ name, expr = .column name) →
        expr.encode ∈ request.sentNames) ∧
      ((∀ name ∈ request.sentNames,
          name ∈ statement.assignedColumns ∨ .column name ∈ statement.namedExprs options) ↔
        ∀ expr ∈ statement.namedExprs options,
          expr.columnName ∈ statement.assignedColumns ∨
            .column expr.columnName ∈ statement.namedExprs options) := by
  refine ⟨request_asColumns options statement, fun request compiles ↦ ?_⟩
  have hnames := sentNames_of_request compiles
  have hmem (name : String) : name ∈ request.sentNames ↔
      name ∈ statement.assignedColumns ∨
        ∃ expr ∈ statement.namedExprs options, expr.columnName = name := by
    rw [hnames, List.mem_eraseDups, List.mem_append, List.mem_map]
  refine ⟨hnames, ?_, ?_, ?_⟩
  · intro expr hexpr computed
    refine (hmem expr.encode).mpr (.inr ⟨expr, hexpr, ?_⟩)
    cases expr with
    | column name => exact absurd ⟨name, rfl⟩ computed
    | _ => rfl
  · intro allowed expr hexpr
    exact allowed _ ((hmem _).mpr (.inr ⟨expr, hexpr, rfl⟩))
  · intro allowed name hname
    rcases (hmem name).mp hname with hassigned | ⟨expr, hexpr, rfl⟩
    · exact .inl hassigned
    · exact allowed expr hexpr

/-! ## A select of a count -/

/-- How many items have a certain attribute. -/
def countSelect : Select :=
  { Select.empty with
    tables := [.named "items" none]
    fields := [{ expr := .call "COUNT" [.column "size"], label := none }] }

theorem request_sentNames_countSelect :
    ∃ request, (Statement.select countSelect).request Options.default = .ok request ∧
      request.sentNames = ["FN([\"COUNT\",\"size\"])"] := by
  refine ⟨_, rfl, ?_⟩
  obtain ⟨hnames, -⟩ := (request_sentNames Options.default (.select countSelect)).2 _ rfl
  exact hnames.trans (by decide)

end Statement

end PortableQuery
