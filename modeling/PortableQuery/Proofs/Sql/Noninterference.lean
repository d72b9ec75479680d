import PortableQuery.Proofs.Query.Induction
import PortableQuery.Proofs.Query.Skeleton
import PortableQuery.Proofs.Sql.Frame
import PortableQuery.Query.Build

/-!
# String literals do not change the SQL around them

Statements of one shape are rendered with the same failure, or from one frame that each of them
fills with its own string literals. So whatever the text of a literal is, it can end neither the
literal nor the statement.
-/

namespace PortableQuery

open Sql

-- The renderers call one another: their equations are made here, before the proofs that use them.
attribute [local simp] Expr.sql Expr.sqlList Condition.sql Condition.sqlList Condition.sqlOn Table.sql
  Table.sqlList Join.sql Join.sqlList Field.sql Field.sqlList SortKey.sql SortKey.sqlList
  UnionTail.sqlOnto Select.sql

/-! ## Lists of parts -/

section Lists

variable (rendering : Rendering)

theorem Expr.sqlList_eq_mapM (exprs : List Expr) :
    Expr.sqlList rendering exprs = exprs.mapM (Expr.sql rendering) :=
  eq_mapM (by rw [Expr.sqlList]) (fun _ _ ↦ by rw [Expr.sqlList]) exprs

theorem Condition.sqlList_eq_mapM (tests : List Condition) :
    Condition.sqlList rendering tests = tests.mapM (Condition.sql rendering) :=
  eq_mapM (by rw [Condition.sqlList]) (fun _ _ ↦ by rw [Condition.sqlList]) tests

theorem Table.sqlList_eq_mapM (tables : List Table) :
    Table.sqlList rendering tables = tables.mapM (Table.sql rendering) :=
  eq_mapM (by rw [Table.sqlList]) (fun _ _ ↦ by rw [Table.sqlList]) tables

theorem Join.sqlList_eq_mapM (joins : List Join) :
    Join.sqlList rendering joins = joins.mapM (Join.sql rendering) :=
  eq_mapM (by rw [Join.sqlList]) (fun _ _ ↦ by rw [Join.sqlList]) joins

theorem Field.sqlList_eq_mapM (fields : List Field) :
    Field.sqlList rendering fields = fields.mapM (Field.sql rendering) :=
  eq_mapM (by rw [Field.sqlList]) (fun _ _ ↦ by rw [Field.sqlList]) fields

theorem SortKey.sqlList_eq_mapM (keys : List SortKey) :
    SortKey.sqlList rendering keys = keys.mapM (SortKey.sql rendering) :=
  eq_mapM (by rw [SortKey.sqlList]) (fun _ _ ↦ by rw [SortKey.sqlList]) keys

end Lists

variable {flavor : Flavor}

/-! ## Parts that are rendered steadily -/

/-- Everything of the same shape is rendered from the same frame, or fails alike. -/
def Expr.Steady (flavor : Flavor) (expr : Expr) : Prop :=
  ∀ other : Expr, expr.blank = other.blank →
    Agree (Framed flavor.dialect expr.strings other.strings)
      (expr.sql (.plain flavor)) (other.sql (.plain flavor))

def Condition.Steady (flavor : Flavor) (test : Condition) : Prop :=
  ∀ other : Condition, test.blank = other.blank →
    Agree (Framed flavor.dialect test.strings other.strings)
      (test.sql (.plain flavor)) (other.sql (.plain flavor))

def Table.Steady (flavor : Flavor) (table : Table) : Prop :=
  ∀ other : Table, table.blank = other.blank →
    Agree (Framed flavor.dialect table.strings other.strings)
      (table.sql (.plain flavor)) (other.sql (.plain flavor))

def Select.Steady (flavor : Flavor) (query : Select) : Prop :=
  ∀ other : Select, query.blank = other.blank →
    Agree (Framed flavor.dialect query.strings other.strings)
      (query.sql (.plain flavor)) (other.sql (.plain flavor))

theorem Expr.agree_sqlList {exprs others : List Expr} (steady : ∀ expr ∈ exprs, expr.Steady flavor)
    (shape : exprs.map blank = others.map blank) :
    Agree (FramedAll flavor.dialect (exprs.flatMap strings) (others.flatMap strings))
      (sqlList (.plain flavor) exprs) (sqlList (.plain flavor) others) := by
  rw [sqlList_eq_mapM, sqlList_eq_mapM]
  exact FramedAll.mapM steady shape

theorem Condition.agree_sqlList {tests others : List Condition}
    (steady : ∀ test ∈ tests, test.Steady flavor) (shape : tests.map blank = others.map blank) :
    Agree (FramedAll flavor.dialect (tests.flatMap strings) (others.flatMap strings))
      (sqlList (.plain flavor) tests) (sqlList (.plain flavor) others) := by
  rw [sqlList_eq_mapM, sqlList_eq_mapM]
  exact FramedAll.mapM steady shape

theorem Flavor.framed_value {literal other : Literal} (shape : literal.blank = other.blank) :
    Framed flavor.dialect literal.strings other.strings (flavor.value literal) (flavor.value other) := by
  obtain ⟨x, y, rfl, rfl⟩ | ⟨rfl, hnone⟩ := Literal.string_or_eq_of_blank_eq shape
  · exact Framed.literal x y
  · rw [hnone]
    exact Framed.fixed _

theorem Sql.DateAdd.parse_of_length_ne {units : List String} {args : List Expr}
    (hlength : args.length ≠ 3) :
    DateAdd.parse units args = .error (.invalid (.dateAddCount args.length)) := by
  unfold DateAdd.parse
  split
  · simp at hlength
  · rfl

namespace Expr

theorem Steady.value (literal : Literal) : Steady flavor (.value literal) := by
  intro other shape
  cases other <;> simp only [blank, reduceCtorEq, Expr.value.injEq] at shape
  simp only [Expr.sql, strings]
  exact .ok (Flavor.framed_value shape)

theorem Steady.operation {operands : List Expr} (operator : String)
    (steady : ∀ operand ∈ operands, operand.Steady flavor) :
    Steady flavor (.operation operator operands) := by
  intro other shape
  cases other <;> simp only [blank, reduceCtorEq, Expr.operation.injEq] at shape
  obtain ⟨rfl, hoperands⟩ := shape
  simp only [Expr.sql, strings]
  exact (agree_sqlList steady hoperands).bind fun _ _ framed ↦ .ok (framed.operation operator)

/-- Of rendered lists that differ in the first expression, the first texts. -/
theorem agree_headD {date date' : Expr} (parts : List Expr)
    (hdate : Agree (Framed flavor.dialect date.strings date'.strings)
      (date.sql (.plain flavor)) (date'.sql (.plain flavor))) :
    Agree
      (fun lefts rights ↦
        Framed flavor.dialect date.strings date'.strings (lefts.headD "") (rights.headD ""))
      (sqlList (.plain flavor) (date :: parts)) (sqlList (.plain flavor) (date' :: parts)) := by
  rw [sqlList, sqlList]
  refine hdate.bind fun left right framed ↦ ?_
  exact (Agree.refl (sqlList (.plain flavor) parts)).bind fun _ _ _ ↦ .ok framed

/-- The interval and the unit are the same on both sides, so they are read alike. -/
theorem Steady.dateAdd {args : List Expr} (steady : ∀ arg ∈ args, arg.Steady flavor) :
    Steady flavor (.call "DATEADD" args) := by
  intro other shape
  cases other <;> simp only [blank, reduceCtorEq, Expr.call.injEq] at shape
  obtain ⟨rfl, hargs⟩ := shape
  simp only [if_true] at hargs
  simp only [Expr.sql, strings, if_true, Dialect.call]
  obtain ⟨date, date', interval, unit, rfl, rfl, hdate⟩ | ⟨hlength, hcount, hargs⟩ :=
    args_of_blankDate_eq hargs
  · have hfirst := agree_headD [interval, unit] (steady date (by simp) date' hdate)
    rw [dateStrings, dateStrings]
    refine hfirst.bind fun lefts rights framed ↦ ?_
    have hparse (units : List String) : DateAdd.parse units [date', interval, unit] =
        DateAdd.parse units [date, interval, unit] := rfl
    rw [hparse]
    cases DateAdd.parse _ [date, interval, unit] with
    | error cause => exact .error cause
    | ok parts => exact .ok (framed.dateAdd parts)
  · rw [DateAdd.parse_of_length_ne hlength, DateAdd.parse_of_length_ne (hcount ▸ hlength), hcount]
    exact (agree_sqlList steady hargs).bind fun _ _ _ ↦ .error _

theorem Steady.call {args : List Expr} (name : String) (steady : ∀ arg ∈ args, arg.Steady flavor) :
    Steady flavor (.call name args) := by
  by_cases hname : name = "DATEADD"
  · rw [hname]
    exact Steady.dateAdd steady
  · intro other shape
    cases other <;> simp only [blank, reduceCtorEq, Expr.call.injEq] at shape
    obtain ⟨rfl, hargs⟩ := shape
    rw [if_neg hname, if_neg hname] at hargs
    simp only [Expr.sql, strings, if_neg hname]
    exact (agree_sqlList steady hargs).bind fun _ _ framed ↦ framed.call hname _ _

theorem Steady.condition {test : Condition} (steady : test.Steady flavor) :
    Steady flavor (.condition test) := by
  intro other shape
  cases other <;> simp only [blank, reduceCtorEq, Expr.condition.injEq] at shape
  simp only [Expr.sql, strings]
  exact steady _ shape

theorem Steady.subquery {query : Select} (steady : query.Steady flavor) :
    Steady flavor (.subquery query) := by
  intro other shape
  cases other <;> simp only [blank, reduceCtorEq, Expr.subquery.injEq] at shape
  simp only [Expr.sql, strings]
  exact (steady _ shape).bind fun _ _ framed ↦ .ok framed.parenthesized

end Expr

namespace Condition

theorem Steady.compare {key value : Expr} (operator : Comparison) (hkey : key.Steady flavor)
    (hvalue : value.Steady flavor) : Steady flavor (.compare key value operator) := by
  intro other shape
  cases other <;> simp only [blank, reduceCtorEq, Condition.compare.injEq] at shape
  obtain ⟨hk, hv, rfl⟩ := shape
  simp only [Condition.sql, strings]
  refine (hkey _ hk).bind fun _ _ key ↦ (hvalue _ hv).bind fun _ _ value ↦ .ok ?_
  exact (((key.before " ").before _).before " ").append value

theorem Steady.between {key low high : Expr} (hkey : key.Steady flavor) (hlow : low.Steady flavor)
    (hhigh : high.Steady flavor) : Steady flavor (.between key low high) := by
  intro other shape
  cases other <;> simp only [blank, reduceCtorEq, Condition.between.injEq] at shape
  obtain ⟨hk, hl, hh⟩ := shape
  simp only [Condition.sql, strings]
  refine (hkey _ hk).bind fun _ _ key ↦ (hlow _ hl).bind fun _ _ low ↦
    (hhigh _ hh).bind fun _ _ high ↦ .ok ?_
  exact ((((key.before " BETWEEN ").append low).before " AND ").append high)

theorem Steady.oneOf {key : Expr} {values : List Expr} (hkey : key.Steady flavor)
    (hvalues : ∀ value ∈ values, value.Steady flavor) : Steady flavor (.oneOf key values) := by
  intro other shape
  cases other <;> simp only [blank, reduceCtorEq, Condition.oneOf.injEq] at shape
  obtain ⟨hk, hv⟩ := shape
  simp only [Condition.sql, strings]
  refine (hkey _ hk).bind fun _ _ key ↦
    (Expr.agree_sqlList hvalues hv).bind fun _ _ values ↦ .ok ?_
  exact ((key.before " IN (").append (values.intercalate ", ")).before ")"

theorem Steady.noneOf {key : Expr} {values : List Expr} (hkey : key.Steady flavor)
    (hvalues : ∀ value ∈ values, value.Steady flavor) : Steady flavor (.noneOf key values) := by
  intro other shape
  cases other <;> simp only [blank, reduceCtorEq, Condition.noneOf.injEq] at shape
  obtain ⟨hk, hv⟩ := shape
  simp only [Condition.sql, strings]
  refine (hkey _ hk).bind fun _ _ key ↦
    (Expr.agree_sqlList hvalues hv).bind fun _ _ values ↦ .ok ?_
  exact ((key.before " NOT IN (").append (values.intercalate ", ")).before ")"

theorem Steady.null {key : Expr} (isNull : Bool) (hkey : key.Steady flavor) :
    Steady flavor (.null key isNull) := by
  intro other shape
  cases other <;> simp only [blank, reduceCtorEq, Condition.null.injEq] at shape
  obtain ⟨hk, rfl⟩ := shape
  simp only [Condition.sql, strings]
  exact (hkey _ hk).bind fun _ _ key ↦ .ok (((key.before " IS ").before _).before "NULL")

theorem Steady.like {key : Expr} (pattern : String) (isLike : Bool) (hkey : key.Steady flavor) :
    Steady flavor (.like key pattern isLike) := by
  intro other shape
  cases other <;> simp only [blank, reduceCtorEq, Condition.like.injEq, true_and] at shape
  obtain ⟨hk, rfl⟩ := shape
  simp only [Condition.sql, strings]
  refine (hkey _ hk).bind fun _ _ key ↦ .ok ?_
  exact (((key.before " ").before _).before "LIKE ").append (.literal _ _)

theorem Steady.columns {left right : Expr} (operator : Comparison) (hleft : left.Steady flavor)
    (hright : right.Steady flavor) : Steady flavor (.columns left right operator) := by
  intro other shape
  cases other <;> simp only [blank, reduceCtorEq, Condition.columns.injEq] at shape
  obtain ⟨hl, hr, rfl⟩ := shape
  simp only [Condition.sql, strings]
  refine (hleft _ hl).bind fun _ _ left ↦ (hright _ hr).bind fun _ _ right ↦ .ok ?_
  exact (((left.before " ").before _).before " ").append right

theorem Steady.logical {members : List Condition} (operator : Connective)
    (hmembers : ∀ member ∈ members, member.Steady flavor) :
    Steady flavor (.logical members operator) := by
  intro other shape
  cases other <;> simp only [blank, reduceCtorEq, Condition.logical.injEq] at shape
  obtain ⟨hm, rfl⟩ := shape
  simp only [Condition.sql, strings]
  exact (agree_sqlList hmembers hm).bind fun _ _ members ↦ .ok (members.operation _)

theorem Steady.not {inner : Condition} (hinner : inner.Steady flavor) :
    Steady flavor (.not inner) := by
  intro other shape
  cases other <;> simp only [blank, reduceCtorEq, Condition.not.injEq] at shape
  simp only [Condition.sql, strings]
  exact (hinner _ shape).bind fun _ _ inner ↦ .ok ((inner.behind "NOT (").before ")")

end Condition

namespace Table

theorem sql_named (name : String) (label : Option String) :
    sql (.plain flavor) (.named name label) =
      .ok (labelled flavor.dialect (flavor.dialect.table name) label) := by
  rw [sql]
  rfl

theorem Steady.named (name : String) (label : Option String) : Steady flavor (.named name label) := by
  intro other shape
  cases other <;> simp only [blank, reduceCtorEq, Table.named.injEq] at shape
  obtain ⟨rfl, rfl⟩ := shape
  rw [sql_named, strings]
  exact .ok (Framed.fixed _)

theorem Steady.nested {query : Select} (label : Option String) (hquery : query.Steady flavor) :
    Steady flavor (.nested query label) := by
  intro other shape
  cases other <;> simp only [blank, reduceCtorEq, Table.nested.injEq] at shape
  obtain ⟨hq, rfl⟩ := shape
  simp only [sql, strings]
  exact (hquery _ hq).bind fun _ _ query ↦ .ok (query.parenthesized.labelled _)

theorem agree_sqlList {tables others : List Table} (steady : ∀ table ∈ tables, table.Steady flavor)
    (shape : tables.map blank = others.map blank) :
    Agree (FramedAll flavor.dialect (tables.flatMap strings) (others.flatMap strings))
      (sqlList (.plain flavor) tables) (sqlList (.plain flavor) others) := by
  rw [sqlList_eq_mapM, sqlList_eq_mapM]
  exact FramedAll.mapM steady shape

end Table

/-! ## The clauses of a select -/

theorem Field.agree_sqlList {fields others : List Field}
    (steady : ∀ field ∈ fields, field.expr.Steady flavor)
    (shape : fields.map blank = others.map blank) :
    Agree (FramedAll flavor.dialect (fields.flatMap strings) (others.flatMap strings))
      (sqlList (.plain flavor) fields) (sqlList (.plain flavor) others) := by
  rw [sqlList_eq_mapM, sqlList_eq_mapM]
  refine FramedAll.mapM (fun field hfield other hshape ↦ ?_) shape
  obtain ⟨expr, label⟩ := field
  obtain ⟨expr', label'⟩ := other
  simp only [blank, Field.mk.injEq] at hshape
  obtain ⟨hexpr, rfl⟩ := hshape
  simp only [sql, strings]
  exact (steady _ hfield expr' hexpr).bind fun _ _ expr ↦ .ok (expr.labelled label)

theorem SortKey.agree_sqlList {keys others : List SortKey}
    (steady : ∀ key ∈ keys, key.expr.Steady flavor) (shape : keys.map blank = others.map blank) :
    Agree (FramedAll flavor.dialect (keys.flatMap strings) (others.flatMap strings))
      (sqlList (.plain flavor) keys) (sqlList (.plain flavor) others) := by
  rw [sqlList_eq_mapM, sqlList_eq_mapM]
  refine FramedAll.mapM (fun key hkey other hshape ↦ ?_) shape
  obtain ⟨expr, direction⟩ := key
  obtain ⟨expr', direction'⟩ := other
  simp only [blank, SortKey.mk.injEq] at hshape
  obtain ⟨hexpr, rfl⟩ := hshape
  simp only [sql, strings]
  exact (steady _ hkey expr' hexpr).bind fun _ _ expr ↦ .ok ((expr.before " ").before _)

theorem Join.agree_sqlList {joins others : List Join}
    (steady : ∀ join ∈ joins, join.table.Steady flavor ∧
      ∀ test ∈ join.condition, test.Steady flavor)
    (shape : joins.map blank = others.map blank) :
    Agree (FramedAll flavor.dialect (joins.flatMap strings) (others.flatMap strings))
      (sqlList (.plain flavor) joins) (sqlList (.plain flavor) others) := by
  rw [sqlList_eq_mapM, sqlList_eq_mapM]
  refine FramedAll.mapM (fun join hjoin other hshape ↦ ?_) shape
  obtain ⟨htable, htest⟩ := steady join hjoin
  obtain ⟨table, test, kind⟩ := join
  obtain ⟨table', test', kind'⟩ := other
  cases test <;> cases test' <;>
    simp only [blank, Join.mk.injEq, Option.some.injEq, reduceCtorEq, true_and, false_and, and_false]
      at hshape
  · obtain ⟨hshape, rfl⟩ := hshape
    simp only [sql, strings, Condition.sqlOn]
    exact (htable _ hshape).bind fun _ _ table ↦ .ok ((table.behind _).before "")
  · obtain ⟨hshape, htestShape, rfl⟩ := hshape
    simp only [sql, strings, Condition.sqlOn, bind_assoc]
    refine (htable _ hshape).bind fun _ _ table ↦
      (htest _ rfl _ htestShape).bind fun _ _ test ↦ .ok ?_
    exact (table.behind _).append (test.behind " ON ")

/-- Each tail is put behind all that comes before it. -/
theorem UnionTail.agree_sqlOnto {tails others : List UnionTail} {xs ys : List String}
    {left right : String} (steady : ∀ tail ∈ tails, tail.query.Steady flavor)
    (shape : tails.map blank = others.map blank) (framed : Framed flavor.dialect xs ys left right) :
    Agree (Framed flavor.dialect (xs ++ tails.flatMap strings) (ys ++ others.flatMap strings))
      (sqlOnto (.plain flavor) left tails) (sqlOnto (.plain flavor) right others) := by
  induction tails generalizing others xs ys left right with
  | nil =>
    have hnil : others = [] := by simpa using shape.symm
    subst hnil
    simp only [sqlOnto, List.flatMap_nil, List.append_nil]
    exact .ok framed
  | cons tail more ih =>
    obtain ⟨tail', more', rfl, htail, hmore⟩ := List.map_eq_cons_iff.mp shape.symm
    have hquery := steady tail (by simp)
    obtain ⟨kind, query⟩ := tail
    obtain ⟨kind', query'⟩ := tail'
    simp only [blank, UnionTail.mk.injEq] at htail
    obtain ⟨rfl, htail⟩ := htail
    simp only [sqlOnto, List.flatMap_cons, strings]
    rw [← List.append_assoc, ← List.append_assoc]
    refine (hquery query' htail.symm).bind fun _ _ next ↦ ?_
    exact ih (fun tail htail ↦ steady tail (by simp [htail])) hmore.symm (framed.union _ next)

theorem Select.Steady.select {query : Select} (htables : ∀ table ∈ query.tables, table.Steady flavor)
    (hjoins : ∀ join ∈ query.joins, join.table.Steady flavor ∧
      ∀ test ∈ join.condition, test.Steady flavor)
    (hfields : ∀ field ∈ query.fields, field.expr.Steady flavor)
    (hfilter : ∀ test ∈ query.filter, test.Steady flavor)
    (hhaving : ∀ test ∈ query.having, test.Steady flavor)
    (horder : ∀ key ∈ query.orderBy, key.expr.Steady flavor)
    (hgroups : ∀ expr ∈ query.groupBy, expr.Steady flavor)
    (hunions : ∀ tail ∈ query.unions, tail.query.Steady flavor) : query.Steady flavor := by
  intro other shape
  obtain ⟨tables, joins, fields, filter, having, orderBy, groupBy, limit, offset, unions⟩ := query
  obtain ⟨tables', joins', fields', filter', having', orderBy', groupBy', limit', offset', unions'⟩ :=
    other
  simp only [blank, Select.mk.injEq] at shape
  obtain ⟨stables, sjoins, sfields, sfilter, shaving, sorder, sgroups, rfl, rfl, sunions⟩ := shape
  simp only [sql, strings]
  refine (Field.agree_sqlList hfields sfields).bind fun _ _ fields ↦ ?_
  refine (Table.agree_sqlList htables stables).bind fun _ _ tables ↦ ?_
  refine (Join.agree_sqlList hjoins sjoins).bind fun _ _ joins ↦ ?_
  refine (Condition.agree_sqlList hfilter sfilter).bind fun _ _ filter ↦ ?_
  refine (Expr.agree_sqlList hgroups sgroups).bind fun _ _ groups ↦ ?_
  refine (Condition.agree_sqlList hhaving shaving).bind fun _ _ having ↦ ?_
  refine (SortKey.agree_sqlList horder sorder).bind fun _ _ order ↦ ?_
  refine UnionTail.agree_sqlOnto hunions sunions ?_
  have hfrom := (fields.fieldList.behind "SELECT ").append (tables.clause " FROM " ",")
  have hwhere := (hfrom.append (joins.clause " " " ")).append (filter.clause " WHERE " " AND ")
  have hhaving := (hwhere.append (groups.clause " GROUP BY " ", ")).append
    (having.clause " HAVING " " AND ")
  exact (hhaving.append (order.clause " ORDER BY " ", ")).before _

theorem steady_steps (flavor : Flavor) :
    QueryInduction (Expr.Steady flavor) (Condition.Steady flavor) (Table.Steady flavor)
      (Select.Steady flavor) where
  column := by
    intro text other shape
    cases other <;> simp only [Expr.blank, reduceCtorEq, Expr.column.injEq] at shape
    simp only [shape, Expr.sql, Expr.strings]
    exact .ok (Framed.fixed _)
  raw := by
    intro literal other shape
    cases other <;> simp only [Expr.blank, reduceCtorEq, Expr.raw.injEq] at shape
    simp only [shape, Expr.sql, Expr.strings]
    exact .ok (Framed.fixed _)
  value := Expr.Steady.value
  call name _ := Expr.Steady.call name
  operation operator _ := Expr.Steady.operation operator
  condition _ := Expr.Steady.condition
  subquery _ := Expr.Steady.subquery
  compare _ _ operator := Condition.Steady.compare operator
  between _ _ _ := Condition.Steady.between
  oneOf _ _ := Condition.Steady.oneOf
  noneOf _ _ := Condition.Steady.noneOf
  null _ isNull := Condition.Steady.null isNull
  like _ pattern isLike := Condition.Steady.like pattern isLike
  columns _ _ operator := Condition.Steady.columns operator
  logical _ operator := Condition.Steady.logical operator
  not _ := Condition.Steady.not
  named := Table.Steady.named
  nested _ label := Table.Steady.nested label
  select _ := Select.Steady.select

/-! ## Statements -/

theorem Table.agree_targetSql {table other : Table} (shape : table.blank = other.blank) :
    Agree (Framed flavor.dialect table.strings other.strings)
      (table.targetSql (.plain flavor)) (other.targetSql (.plain flavor)) := by
  have hsteady := (steady_steps flavor).forTable table other shape
  cases table <;> cases other <;> simp only [blank, reduceCtorEq, Table.named.injEq] at shape
  · obtain ⟨rfl, rfl⟩ := shape
    rw [strings]
    exact .ok (Framed.fixed _)
  · exact hsteady

theorem Condition.agree_filter {tests others : List Condition}
    (shape : tests.map blank = others.map blank) :
    Agree (FramedAll flavor.dialect (tests.flatMap strings) (others.flatMap strings))
      (sqlList (.plain flavor) tests) (sqlList (.plain flavor) others) :=
  agree_sqlList (fun test _ ↦ (steady_steps flavor).forCondition test) shape

/-- The cells of two rows of one shape under the same columns. -/
theorem Row.framed_rowValues (columns : List String) {row other : Row} (shape : row.blank = other.blank) :
    Framed flavor.dialect (row.strings columns) (other.strings columns)
      (rowValues flavor columns row) (rowValues flavor columns other) := by
  have hcells : FramedAll flavor.dialect (row.strings columns) (other.strings columns)
      (columns.map fun column ↦ flavor.value ((Entries.get? row column).getD .null))
      (columns.map fun column ↦ flavor.value ((Entries.get? other column).getD .null)) :=
    FramedAll.map (List.forall₂_same.mpr fun column _ ↦ Flavor.framed_value (cell_blank_eq shape column))
  exact (hcells.intercalate ", ").parenthesized

theorem Row.framedAll_rows (columns : List String) {rows others : List Row}
    (shape : rows.map blank = others.map blank) :
    FramedAll flavor.dialect (rows.flatMap (strings columns)) (others.flatMap (strings columns))
      (rows.map (rowValues flavor columns)) (others.map (rowValues flavor columns)) := by
  have hmapped : List.Forall₂ (· = ·) (rows.map blank) (others.map blank) := by
    rwa [List.forall₂_eq_eq_eq]
  have hrows := List.forall₂_map_right_iff.mp (List.forall₂_map_left_iff.mp hmapped)
  exact FramedAll.map (hrows.imp fun _ _ ↦ framed_rowValues columns)

theorem Insert.agree_sql {mutation other : Insert} (htable : mutation.table.blank = other.table.blank)
    (hsource : mutation.source.map InsertSource.blank = other.source.map InsertSource.blank) :
    Agree (Framed flavor.dialect (Statement.insert mutation).strings (Statement.insert other).strings)
      (mutation.sql (.plain flavor)) (other.sql (.plain flavor)) := by
  obtain ⟨target, source⟩ := mutation
  obtain ⟨target', source'⟩ := other
  simp only [Insert.sql, Statement.strings]
  refine (Table.agree_targetSql htable).bind fun _ _ table ↦ ?_
  rcases source with _ | ⟨_ | ⟨first, more⟩⟩ | ⟨query, columns⟩ <;>
    rcases source' with _ | ⟨_ | ⟨first', more'⟩⟩ | ⟨query', columns'⟩ <;>
    simp only [Option.map_some, Option.map_none, InsertSource.blank, reduceCtorEq, Option.some.injEq,
      InsertSource.rows.injEq, InsertSource.select.injEq, List.map_nil] at hsource
  · exact .error _
  · exact .error _
  · simp at hsource
  · simp at hsource
  · have hfirst : first.blank = first'.blank := by simpa using (List.cons.inj hsource).1
    have hrows : FramedAll flavor.dialect _ _ _ _ := Row.framedAll_rows (Entries.keys first) hsource
    simp only [Option.toList_some, List.flatMap_singleton, InsertSource.strings,
      ← Row.keys_of_blank_eq hfirst]
    exact .ok (((((table.behind "INSERT INTO ").before " ").before _).before " VALUES ").append
      (hrows.intercalate ", "))
  · obtain ⟨hquery, rfl⟩ := hsource
    simp only [Option.toList_some, List.flatMap_singleton, InsertSource.strings]
    refine ((steady_steps flavor).forSelect query query' hquery).bind fun _ _ query ↦ .ok ?_
    exact (((table.behind "INSERT INTO ").before _).before " ").append query

theorem assignmentList_eq_mapM (rendering : Rendering) (assignments : Entries Expr) :
    assignmentList rendering assignments = assignments.mapM fun assignment ↦ do
      let value ← assignment.2.sql rendering
      return rendering.dialect.identifier assignment.1 ++ " = " ++ value := by
  refine eq_mapM (by rw [assignmentList]) (fun assignment more ↦ ?_) assignments
  simp only [assignmentList, bind_assoc, pure_bind]

theorem agree_assignmentList {assignments others : Entries Expr}
    (shape : (assignments.map fun assignment ↦ (assignment.1, assignment.2.blank)) =
      others.map fun assignment ↦ (assignment.1, assignment.2.blank)) :
    Agree (FramedAll flavor.dialect (assignments.flatMap (·.2.strings)) (others.flatMap (·.2.strings)))
      (assignmentList (.plain flavor) assignments) (assignmentList (.plain flavor) others) := by
  rw [assignmentList_eq_mapM, assignmentList_eq_mapM]
  refine FramedAll.mapM (fun assignment _ other hshape ↦ ?_) shape
  obtain ⟨column, value⟩ := assignment
  obtain ⟨column', value'⟩ := other
  simp only [Prod.mk.injEq] at hshape
  obtain ⟨rfl, hvalue⟩ := hshape
  exact ((steady_steps flavor).forExpr value value' hvalue).bind fun _ _ value ↦ .ok (value.behind _)

theorem Update.agree_sql {mutation other : Update} (htable : mutation.table.blank = other.table.blank)
    (hassignments : (mutation.assignments.map fun assignment ↦ (assignment.1, assignment.2.blank)) =
      other.assignments.map fun assignment ↦ (assignment.1, assignment.2.blank))
    (hfilter : mutation.filter.map Condition.blank = other.filter.map Condition.blank) :
    Agree (Framed flavor.dialect (Statement.update mutation).strings (Statement.update other).strings)
      (mutation.sql (.plain flavor)) (other.sql (.plain flavor)) := by
  have hempty : mutation.assignments.isEmpty = other.assignments.isEmpty := by
    simpa using congrArg List.isEmpty hassignments
  simp only [Update.sql, Statement.strings, hempty]
  split
  · exact .error _
  · refine (agree_assignmentList hassignments).bind fun _ _ assignments ↦ ?_
    refine (Table.agree_targetSql htable).bind fun _ _ table ↦ ?_
    refine (Condition.agree_filter hfilter).bind fun _ _ filter ↦ .ok ?_
    exact (((table.behind "UPDATE ").before " SET ").append (assignments.intercalate ", ")).append
      (filter.clause " WHERE " " AND ")

theorem Delete.agree_sql {mutation other : Delete} (htable : mutation.table.blank = other.table.blank)
    (hfilter : mutation.filter.map Condition.blank = other.filter.map Condition.blank) :
    Agree (Framed flavor.dialect (Statement.delete mutation).strings (Statement.delete other).strings)
      (mutation.sql (.plain flavor)) (other.sql (.plain flavor)) := by
  simp only [Delete.sql, Statement.strings]
  refine (Table.agree_targetSql htable).bind fun _ _ table ↦ ?_
  refine (Condition.agree_filter hfilter).bind fun _ _ filter ↦ .ok ?_
  exact (table.behind "DELETE FROM ").append (filter.clause " WHERE " " AND ")

namespace Statement

theorem agree_sql (flavor : Flavor) {statement other : Statement}
    (shape : statement.blank = other.blank) :
    Agree (Framed flavor.dialect statement.strings other.strings) (statement.sql flavor)
      (other.sql flavor) := by
  have hselect := (steady_steps flavor).forSelect
  cases statement <;> cases other <;>
    simp only [blank, reduceCtorEq, select.injEq, insert.injEq, update.injEq, delete.injEq,
      createTable.injEq, createView.injEq, Insert.mk.injEq, Update.mk.injEq, Delete.mk.injEq,
      CreateTable.mk.injEq, CreateView.mk.injEq] at shape
  case select.select query query' => exact hselect query query' shape
  case insert.insert => exact Insert.agree_sql shape.1 shape.2
  case update.update => exact Update.agree_sql shape.1 shape.2.1 shape.2.2
  case delete.delete => exact Delete.agree_sql shape.1 shape.2
  case createTable.createTable definition definition' =>
    obtain ⟨name, query⟩ := definition
    obtain ⟨name', query'⟩ := definition'
    obtain ⟨rfl, hquery⟩ := shape
    exact (hselect query query' hquery).bind fun _ _ query ↦ .ok (query.behind _)
  case createView.createView definition definition' =>
    obtain ⟨name, query, orReplace⟩ := definition
    obtain ⟨name', query', orReplace'⟩ := definition'
    obtain ⟨rfl, hquery, rfl⟩ := shape
    exact (hselect query query' hquery).bind fun _ _ query ↦ .ok (query.behind _)

/-- String literals do not change the SQL around them: two statements of one shape fail alike, or
one frame of fixed fragments gives the SQL of both, each with its own literals in the gaps. -/
theorem sql_noninterference (flavor : Flavor) {statement other : Statement}
    (shape : statement.blank = other.blank) :
    (∃ cause, statement.sql flavor = .error cause ∧ other.sql flavor = .error cause) ∨
    ∃ frame : Frame, frame.gaps = statement.strings.length ∧ frame.gaps = other.strings.length ∧
      statement.sql flavor = .ok (frame.fill flavor.dialect statement.strings) ∧
      other.sql flavor = .ok (frame.fill flavor.dialect other.strings) := by
  have hagree := agree_sql flavor shape
  generalize statement.sql flavor = outcome, other.sql flavor = outcome' at hagree ⊢
  cases hagree with
  | error cause => exact .inl ⟨cause, rfl, rfl⟩
  | ok framed =>
    obtain ⟨frame, hgaps, hgaps', rfl, rfl⟩ := framed
    exact .inr ⟨frame, hgaps, hgaps', rfl, rfl⟩

/-- A search for a user by name. -/
def userSearch (name : String) : Statement :=
  .select (((Select.empty.setTable (.named "users" none)).addFilter
    (some (.compare (.column "name") (.value (.string name)) .eq))).addFilter
    (some (.like (.column "mail") (name ++ "%") true)))

theorem blank_userSearch (name : String) : (userSearch name).blank = (userSearch "").blank := by
  simp [userSearch, blank, Select.addFilter, Select.setTable, Select.empty, Select.blank,
    Condition.blank, Expr.blank, Literal.blank]

theorem strings_userSearch (name : String) : (userSearch name).strings = [name, name ++ "%"] := by
  simp [userSearch, strings, Select.addFilter, Select.setTable, Select.empty, Select.strings,
    Table.strings, Condition.strings, Expr.strings, Literal.strings]

/-- A name that tries to end its literal is framed like any other name. -/
theorem sql_noninterference_userSearch :
    (userSearch "Ann").blank = (userSearch "' OR ''='").blank ∧
    ∃ frame : Frame, frame.gaps = 2 ∧
      (userSearch "Ann").sql ⟨.postgres, none⟩ = .ok (frame.fill .postgres ["Ann", "Ann%"]) ∧
      (userSearch "' OR ''='").sql ⟨.postgres, none⟩ =
        .ok (frame.fill .postgres ["' OR ''='", "' OR ''='%"]) := by
  have hshape : (userSearch "Ann").blank = (userSearch "' OR ''='").blank := by
    rw [blank_userSearch, blank_userSearch "' OR ''='"]
  have hok : (userSearch "Ann").sql ⟨.postgres, none⟩ =
      .ok "SELECT * FROM \"users\" WHERE \"name\" = 'Ann' AND \"mail\" LIKE 'Ann%'" := rfl
  refine ⟨hshape, ?_⟩
  obtain ⟨cause, hfails, _⟩ | ⟨frame, hgaps, _, hfirst, hsecond⟩ :=
    sql_noninterference ⟨.postgres, none⟩ hshape
  · rw [hok] at hfails
    cases hfails
  · rw [strings_userSearch] at hgaps hfirst hsecond
    exact ⟨frame, hgaps, hfirst, hsecond⟩

end Statement

end PortableQuery
