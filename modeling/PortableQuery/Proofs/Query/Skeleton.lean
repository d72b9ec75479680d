import PortableQuery.Query.Basic

/-!
# Queries without their string literals

The blank copy of a query has the empty text in the place of every string literal that is rendered
as one: the string values, the patterns and the string cells of inserted rows. Two queries of one
shape have the same blank copy, and their literals correspond by position.

The interval and the unit of a moved date are read when the query is rendered, so they belong to the
shape, and no literal of theirs is listed.
-/

namespace PortableQuery

namespace Literal

/-- A string without its text. The strings inside lists and maps are not literals of their own. -/
def blank : Literal → Literal
  | .string _ => .string ""
  | other => other

/-- The text of a string. -/
def strings : Literal → List String
  | .string text => [text]
  | _ => []

/-- Literals of one shape are two strings, or one literal that is no string. -/
theorem string_or_eq_of_blank_eq {literal other : Literal} (shape : literal.blank = other.blank) :
    (∃ x y, literal = .string x ∧ other = .string y) ∨ (literal = other ∧ literal.strings = []) := by
  cases literal <;> cases other <;> simp_all [blank, strings]

end Literal

-- What a node holds is smaller than the node, also within a list. The functions below end by this.
attribute [local grind →] List.sizeOf_lt_of_mem

attribute [local grind =] Expr.call.sizeOf_spec Expr.operation.sizeOf_spec Expr.condition.sizeOf_spec
  Expr.subquery.sizeOf_spec Condition.compare.sizeOf_spec Condition.between.sizeOf_spec
  Condition.oneOf.sizeOf_spec Condition.noneOf.sizeOf_spec Condition.null.sizeOf_spec
  Condition.like.sizeOf_spec Condition.columns.sizeOf_spec Condition.logical.sizeOf_spec
  Condition.not.sizeOf_spec Table.nested.sizeOf_spec Join.mk.sizeOf_spec Field.mk.sizeOf_spec
  SortKey.mk.sizeOf_spec UnionTail.mk.sizeOf_spec Select.mk.sizeOf_spec Option.some.sizeOf_spec
  List.cons.sizeOf_spec

mutual

def Expr.blank : Expr → Expr
  | .column text => .column text
  | .value literal => .value literal.blank
  | .raw literal => .raw literal
  | .call name args =>
    .call name (if name = "DATEADD" then Expr.blankDate args else args.map Expr.blank)
  | .operation operator operands => .operation operator (operands.map Expr.blank)
  | .condition test => .condition test.blank
  | .subquery query => .subquery query.blank
decreasing_by all_goals grind

/-- The arguments of a moved date. The second and the third stay as they are. -/
def Expr.blankDate : List Expr → List Expr
  | date :: interval :: unit :: more => date.blank :: interval :: unit :: more.map Expr.blank
  | [date, interval] => [date.blank, interval]
  | [date] => [date.blank]
  | [] => []
decreasing_by all_goals grind

def Condition.blank : Condition → Condition
  | .compare key value operator => .compare key.blank value.blank operator
  | .between key low high => .between key.blank low.blank high.blank
  | .oneOf key values => .oneOf key.blank (values.map Expr.blank)
  | .noneOf key values => .noneOf key.blank (values.map Expr.blank)
  | .null key isNull => .null key.blank isNull
  | .like key _ isLike => .like key.blank "" isLike
  | .columns left right operator => .columns left.blank right.blank operator
  | .logical members operator => .logical (members.map Condition.blank) operator
  | .not inner => .not inner.blank
decreasing_by all_goals grind

def Table.blank : Table → Table
  | .named name label => .named name label
  | .nested query label => .nested query.blank label
decreasing_by all_goals grind

def Join.blank : Join → Join
  | ⟨table, some test, kind⟩ => ⟨table.blank, some test.blank, kind⟩
  | ⟨table, none, kind⟩ => ⟨table.blank, none, kind⟩
decreasing_by all_goals grind

def Field.blank : Field → Field
  | ⟨expr, label⟩ => ⟨expr.blank, label⟩
decreasing_by all_goals grind

def SortKey.blank : SortKey → SortKey
  | ⟨expr, direction⟩ => ⟨expr.blank, direction⟩
decreasing_by all_goals grind

def UnionTail.blank : UnionTail → UnionTail
  | ⟨kind, query⟩ => ⟨kind, query.blank⟩
decreasing_by all_goals grind

def Select.blank : Select → Select
  | ⟨tables, joins, fields, filter, having, orderBy, groupBy, limit, offset, unions⟩ =>
    ⟨tables.map Table.blank, joins.map Join.blank, fields.map Field.blank,
      filter.map Condition.blank, having.map Condition.blank, orderBy.map SortKey.blank,
      groupBy.map Expr.blank, limit, offset, unions.map UnionTail.blank⟩
decreasing_by all_goals grind

end

mutual

/-- The string literals in the order in which they are rendered. -/
def Expr.strings : Expr → List String
  | .column _ => []
  | .value literal => literal.strings
  | .raw _ => []
  | .call name args =>
    if name = "DATEADD" then Expr.dateStrings args else args.flatMap Expr.strings
  | .operation _ operands => operands.flatMap Expr.strings
  | .condition test => test.strings
  | .subquery query => query.strings
decreasing_by all_goals grind

/-- Of the arguments of a moved date, only the date itself is rendered. -/
def Expr.dateStrings : List Expr → List String
  | date :: _ => date.strings
  | [] => []
decreasing_by all_goals grind

def Condition.strings : Condition → List String
  | .compare key value _ => key.strings ++ value.strings
  | .between key low high => key.strings ++ low.strings ++ high.strings
  | .oneOf key values => key.strings ++ values.flatMap Expr.strings
  | .noneOf key values => key.strings ++ values.flatMap Expr.strings
  | .null key _ => key.strings
  | .like key pattern _ => key.strings ++ [pattern]
  | .columns left right _ => left.strings ++ right.strings
  | .logical members _ => members.flatMap Condition.strings
  | .not inner => inner.strings
decreasing_by all_goals grind

def Table.strings : Table → List String
  | .named _ _ => []
  | .nested query _ => query.strings
decreasing_by all_goals grind

def Join.strings : Join → List String
  | ⟨table, some test, _⟩ => table.strings ++ test.strings
  | ⟨table, none, _⟩ => table.strings
decreasing_by all_goals grind

def Field.strings : Field → List String
  | ⟨expr, _⟩ => expr.strings
decreasing_by all_goals grind

def SortKey.strings : SortKey → List String
  | ⟨expr, _⟩ => expr.strings
decreasing_by all_goals grind

def UnionTail.strings : UnionTail → List String
  | ⟨_, query⟩ => query.strings
decreasing_by all_goals grind

def Select.strings : Select → List String
  | ⟨tables, joins, fields, filter, having, orderBy, groupBy, _, _, unions⟩ =>
    fields.flatMap Field.strings ++ tables.flatMap Table.strings ++ joins.flatMap Join.strings ++
      filter.flatMap Condition.strings ++ groupBy.flatMap Expr.strings ++
      having.flatMap Condition.strings ++ orderBy.flatMap SortKey.strings ++
      unions.flatMap UnionTail.strings
decreasing_by all_goals grind

end

-- Functions defined at once: their equations are made here, before the proofs that use them.
attribute [local simp] Expr.blank Expr.blankDate Condition.blank Table.blank Join.blank Field.blank
  SortKey.blank UnionTail.blank Select.blank Expr.strings Expr.dateStrings Condition.strings
  Table.strings Join.strings Field.strings SortKey.strings UnionTail.strings Select.strings

/-- Moved dates of one shape differ in the date alone, unless their arguments are too few or too
many. -/
theorem Expr.args_of_blankDate_eq {args others : List Expr}
    (shape : blankDate args = blankDate others) :
    (∃ date date' interval unit, args = [date, interval, unit] ∧ others = [date', interval, unit] ∧
      date.blank = date'.blank) ∨
    (args.length ≠ 3 ∧ args.length = others.length ∧ args.map blank = others.map blank) := by
  rcases args with _ | ⟨date, _ | ⟨interval, _ | ⟨unit, more⟩⟩⟩ <;>
    rcases others with _ | ⟨date', _ | ⟨interval', _ | ⟨unit', more'⟩⟩⟩ <;>
    simp only [blankDate, List.cons.injEq, reduceCtorEq, and_false, and_true] at shape
  · exact .inr (by simp)
  · exact .inr (by simp [shape])
  · exact .inr (by simp [shape])
  · obtain ⟨hdate, rfl, rfl, hmore⟩ := shape
    have hlength : more.length = more'.length := by simpa using congrArg List.length hmore
    cases more with
    | nil =>
      have hnil : more' = [] := List.eq_nil_of_length_eq_zero hlength.symm
      exact .inl ⟨date, date', interval, unit, rfl, by rw [hnil], hdate⟩
    | cons arg more => exact .inr ⟨by simp, by simp [hlength], by simp [hdate, hmore]⟩

/-! ## Statements -/

def Row.blank (row : Row) : Row := row.map fun (column, literal) ↦ (column, literal.blank)

/-- The strings of a row under given columns. -/
def Row.strings (columns : List String) (row : Row) : List String :=
  columns.flatMap fun column ↦ ((Entries.get? row column).getD .null).strings

theorem Row.keys_of_blank_eq {row other : Row} (shape : row.blank = other.blank) :
    Entries.keys row = Entries.keys other := by
  simpa [blank, Entries.keys, Function.comp_def] using congrArg Entries.keys shape

theorem Row.get?_blank (row : Row) (column : String) :
    Entries.get? row.blank column = (Entries.get? row column).map Literal.blank := by
  induction row with
  | nil => rfl
  | cons cell more ih =>
    simp only [blank, List.map_cons, Entries.get?]
    split
    · rfl
    · exact ih

/-- The cell under a column has the same shape in both rows; a missing one is null in both. -/
theorem Row.cell_blank_eq {row other : Row} (shape : row.blank = other.blank) (column : String) :
    ((Entries.get? row column).getD .null).blank = ((Entries.get? other column).getD .null).blank := by
  have hnull : Literal.blank .null = .null := rfl
  rw [← Option.getD_map Literal.blank, ← Option.getD_map Literal.blank, hnull, ← get?_blank,
    ← get?_blank, shape]

namespace InsertSource

def blank : InsertSource → InsertSource
  | .rows given => .rows (given.map Row.blank)
  | .select query columns => .select query.blank columns

/-- The columns of the first row are those of all rows. -/
def strings : InsertSource → List String
  | .rows [] => []
  | .rows (first :: more) => (first :: more).flatMap (Row.strings (Entries.keys first))
  | .select query _ => query.strings

end InsertSource

namespace Statement

/-- The statement with the empty text in the place of every string literal. -/
def blank : Statement → Statement
  | .select query => .select query.blank
  | .insert mutation => .insert ⟨mutation.table.blank, mutation.source.map InsertSource.blank⟩
  | .update mutation =>
    .update ⟨mutation.table.blank, mutation.assignments.map fun (column, value) ↦ (column, value.blank),
      mutation.filter.map Condition.blank⟩
  | .delete mutation => .delete ⟨mutation.table.blank, mutation.filter.map Condition.blank⟩
  | .createTable definition => .createTable ⟨definition.name, definition.query.blank⟩
  | .createView definition =>
    .createView ⟨definition.name, definition.query.blank, definition.orReplace⟩

/-- The string literals of a statement in the order in which they are rendered. -/
def strings : Statement → List String
  | .select query => query.strings
  | .insert mutation =>
    mutation.table.strings ++ mutation.source.toList.flatMap InsertSource.strings
  | .update mutation =>
    mutation.table.strings ++ mutation.assignments.flatMap (·.2.strings) ++
      mutation.filter.flatMap Condition.strings
  | .delete mutation => mutation.table.strings ++ mutation.filter.flatMap Condition.strings
  | .createTable definition => definition.query.strings
  | .createView definition => definition.query.strings

end Statement

end PortableQuery
