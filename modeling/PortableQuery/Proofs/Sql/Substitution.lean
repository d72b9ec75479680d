import PortableQuery.Proofs.Query.Induction
import PortableQuery.Proofs.Sql.DateAdd

/-!
# Columns replaced by expressions

An expression put in the place of a column is rendered in that place as it is by itself. So two
expressions that are rendered alike can stand for each other wherever a column can stand. Only the
interval and the unit of a moved date are not rendered; there the two must have the same text.
-/

namespace PortableQuery

open Sql Text

/-! ## Replacements -/

/-- Expressions in the place of columns. -/
structure Replacement where
  /-- What stands for a column that is rendered. -/
  shown : String → Expr
  /-- What stands for a column that is the interval or the unit of a moved date. -/
  read : String → Expr

def Expr.substituteRead (replacement : Replacement) : Expr → Expr
  | .column text => replacement.read text
  | other => other

mutual

def Expr.substitute (replacement : Replacement) : Expr → Expr
  | .column text => replacement.shown text
  | .value literal => .value literal
  | .raw literal => .raw literal
  | .call name args =>
    .call name (if name = "DATEADD" then Expr.substituteDate replacement args
      else Expr.substituteList replacement args)
  | .operation operator operands => .operation operator (Expr.substituteList replacement operands)
  | .condition test => .condition (test.substitute replacement)
  | .subquery query => .subquery (query.substitute replacement)

/-- Of the arguments of a moved date only the date is rendered. The others are read, and nothing is
replaced any deeper in them. -/
def Expr.substituteDate (replacement : Replacement) : List Expr → List Expr
  | [] => []
  | date :: others => date.substitute replacement :: others.map (Expr.substituteRead replacement)

def Expr.substituteList (replacement : Replacement) : List Expr → List Expr
  | [] => []
  | expr :: more => expr.substitute replacement :: Expr.substituteList replacement more

def Condition.substitute (replacement : Replacement) : Condition → Condition
  | .compare key value operator =>
    .compare (key.substitute replacement) (value.substitute replacement) operator
  | .between key low high =>
    .between (key.substitute replacement) (low.substitute replacement) (high.substitute replacement)
  | .oneOf key values => .oneOf (key.substitute replacement) (Expr.substituteList replacement values)
  | .noneOf key values => .noneOf (key.substitute replacement) (Expr.substituteList replacement values)
  | .null key isNull => .null (key.substitute replacement) isNull
  | .like key pattern isLike => .like (key.substitute replacement) pattern isLike
  | .columns left right operator =>
    .columns (left.substitute replacement) (right.substitute replacement) operator
  | .logical members operator => .logical (Condition.substituteList replacement members) operator
  | .not inner => .not (inner.substitute replacement)

def Condition.substituteList (replacement : Replacement) : List Condition → List Condition
  | [] => []
  | test :: more => test.substitute replacement :: Condition.substituteList replacement more

def Condition.substituteOption (replacement : Replacement) : Option Condition → Option Condition
  | none => none
  | some test => some (test.substitute replacement)

def Table.substitute (replacement : Replacement) : Table → Table
  | .named name label => .named name label
  | .nested query label => .nested (query.substitute replacement) label

def Table.substituteList (replacement : Replacement) : List Table → List Table
  | [] => []
  | table :: more => table.substitute replacement :: Table.substituteList replacement more

def Join.substituteList (replacement : Replacement) : List Join → List Join
  | [] => []
  | ⟨table, condition, kind⟩ :: more =>
    ⟨table.substitute replacement, Condition.substituteOption replacement condition, kind⟩ ::
      Join.substituteList replacement more

def Field.substituteList (replacement : Replacement) : List Field → List Field
  | [] => []
  | ⟨expr, label⟩ :: more =>
    ⟨expr.substitute replacement, label⟩ :: Field.substituteList replacement more

def SortKey.substituteList (replacement : Replacement) : List SortKey → List SortKey
  | [] => []
  | ⟨expr, direction⟩ :: more =>
    ⟨expr.substitute replacement, direction⟩ :: SortKey.substituteList replacement more

def UnionTail.substituteList (replacement : Replacement) : List UnionTail → List UnionTail
  | [] => []
  | ⟨kind, query⟩ :: more =>
    ⟨kind, query.substitute replacement⟩ :: UnionTail.substituteList replacement more

def Select.substitute (replacement : Replacement) : Select → Select
  | ⟨tables, joins, fields, filter, having, orderBy, groupBy, limit, offset, unions⟩ =>
    ⟨Table.substituteList replacement tables, Join.substituteList replacement joins,
      Field.substituteList replacement fields, Condition.substituteList replacement filter,
      Condition.substituteList replacement having, SortKey.substituteList replacement orderBy,
      Expr.substituteList replacement groupBy, limit, offset,
      UnionTail.substituteList replacement unions⟩

end

/-! ## Replacements that are rendered alike -/

/-- Both replacements stand for any column with the same rendering, and with the same text where it
is read. -/
structure Replacement.Alike (flavor : Flavor) (first second : Replacement) : Prop where
  shown (column : String) :
    (first.shown column).sql (.plain flavor) = (second.shown column).sql (.plain flavor)
  read (column : String) : ∃ text,
    (first.read column).literalText? = some text ∧ (second.read column).literalText? = some text

section Alike

variable (flavor : Flavor) (first second : Replacement)

def Expr.SameSql (expr : Expr) : Prop :=
  (expr.substitute first).sql (.plain flavor) = (expr.substitute second).sql (.plain flavor)

def Condition.SameSql (test : Condition) : Prop :=
  (test.substitute first).sql (.plain flavor) = (test.substitute second).sql (.plain flavor)

def Table.SameSql (table : Table) : Prop :=
  (table.substitute first).sql (.plain flavor) = (table.substitute second).sql (.plain flavor)

def Select.SameSql (query : Select) : Prop :=
  (query.substitute first).sql (.plain flavor) = (query.substitute second).sql (.plain flavor)

end Alike

section Clauses

variable {flavor : Flavor} {first second : Replacement}

theorem select_plain (query : Select) (itself : Unit → Except Error String) :
    (Rendering.plain flavor).select query itself = itself () := rfl

theorem Expr.sqlList_substitute {exprs : List Expr}
    (same : ∀ expr ∈ exprs, expr.SameSql flavor first second) :
    sqlList (.plain flavor) (substituteList first exprs) =
      sqlList (.plain flavor) (substituteList second exprs) := by
  induction exprs with
  | nil => rfl
  | cons expr more ih =>
    obtain ⟨hexpr, hmore⟩ := List.forall_mem_cons.mp same
    rw [SameSql] at hexpr
    simp only [substituteList, sqlList, hexpr, ih hmore]

theorem Condition.sqlList_substitute {tests : List Condition}
    (same : ∀ test ∈ tests, test.SameSql flavor first second) :
    sqlList (.plain flavor) (substituteList first tests) =
      sqlList (.plain flavor) (substituteList second tests) := by
  induction tests with
  | nil => rfl
  | cons test more ih =>
    obtain ⟨htest, hmore⟩ := List.forall_mem_cons.mp same
    rw [SameSql] at htest
    simp only [substituteList, sqlList, htest, ih hmore]

theorem Table.sqlList_substitute {tables : List Table}
    (same : ∀ table ∈ tables, table.SameSql flavor first second) :
    sqlList (.plain flavor) (substituteList first tables) =
      sqlList (.plain flavor) (substituteList second tables) := by
  induction tables with
  | nil => rfl
  | cons table more ih =>
    obtain ⟨htable, hmore⟩ := List.forall_mem_cons.mp same
    rw [SameSql] at htable
    simp only [substituteList, sqlList, htable, ih hmore]

theorem Join.sqlList_substitute {joins : List Join}
    (same : ∀ join ∈ joins, join.table.SameSql flavor first second ∧
      ∀ test ∈ join.condition, test.SameSql flavor first second) :
    sqlList (.plain flavor) (substituteList first joins) =
      sqlList (.plain flavor) (substituteList second joins) := by
  induction joins with
  | nil => rfl
  | cons join more ih =>
    obtain ⟨⟨htable, htest⟩, hmore⟩ := List.forall_mem_cons.mp same
    obtain ⟨table, test?, kind⟩ := join
    rw [Table.SameSql] at htable
    cases test? with
    | none => simp only [substituteList, Condition.substituteOption, sqlList, sql, htable, ih hmore]
    | some test =>
      have htest := htest test rfl
      rw [Condition.SameSql] at htest
      simp only [substituteList, Condition.substituteOption, sqlList, sql, Condition.sqlOn, htable,
        htest, ih hmore]

theorem Field.sqlList_substitute {fields : List Field}
    (same : ∀ field ∈ fields, field.expr.SameSql flavor first second) :
    sqlList (.plain flavor) (substituteList first fields) =
      sqlList (.plain flavor) (substituteList second fields) := by
  induction fields with
  | nil => rfl
  | cons field more ih =>
    obtain ⟨hexpr, hmore⟩ := List.forall_mem_cons.mp same
    obtain ⟨expr, label⟩ := field
    rw [Expr.SameSql] at hexpr
    simp only [substituteList, sqlList, sql, hexpr, ih hmore]

theorem SortKey.sqlList_substitute {keys : List SortKey}
    (same : ∀ key ∈ keys, key.expr.SameSql flavor first second) :
    sqlList (.plain flavor) (substituteList first keys) =
      sqlList (.plain flavor) (substituteList second keys) := by
  induction keys with
  | nil => rfl
  | cons key more ih =>
    obtain ⟨hexpr, hmore⟩ := List.forall_mem_cons.mp same
    obtain ⟨expr, direction⟩ := key
    rw [Expr.SameSql] at hexpr
    simp only [substituteList, sqlList, sql, hexpr, ih hmore]

theorem UnionTail.sqlOnto_substitute {tails : List UnionTail}
    (same : ∀ tail ∈ tails, tail.query.SameSql flavor first second) (left : String) :
    sqlOnto (.plain flavor) left (substituteList first tails) =
      sqlOnto (.plain flavor) left (substituteList second tails) := by
  induction tails generalizing left with
  | nil => rfl
  | cons tail more ih =>
    obtain ⟨hquery, hmore⟩ := List.forall_mem_cons.mp same
    obtain ⟨kind, query⟩ := tail
    rw [Select.SameSql] at hquery
    simp only [substituteList, sqlOnto, select_plain, hquery, ih hmore]

end Clauses

/-! ## Moved dates -/

section MovedDates

variable {flavor : Flavor} {first second : Replacement} (alike : first.Alike flavor second)

include alike

theorem argumentText_substituteRead (arg : Expr) :
    argumentText (arg.substituteRead first) = argumentText (arg.substituteRead second) := by
  cases arg with
  | column text =>
    obtain ⟨found, hfirst, hsecond⟩ := alike.read text
    simp only [Expr.substituteRead, argumentText, hfirst, hsecond, Option.getD_some]
  | _ => rfl

theorem parse_substituteRead (units : List String) (date date' : Expr) (others : List Expr) :
    DateAdd.parse units (date :: others.map (Expr.substituteRead first)) =
      DateAdd.parse units (date' :: others.map (Expr.substituteRead second)) := by
  by_cases hlength : others.length = 2
  · obtain ⟨interval, unit, rfl⟩ := List.length_eq_two.mp hlength
    simp only [List.map_cons, List.map_nil, DateAdd.parse, argumentText_substituteRead alike]
  · rw [DateAdd.parse_of_length_ne (by simpa using hlength),
      DateAdd.parse_of_length_ne (by simpa using hlength), List.length_cons, List.length_cons,
      List.length_map, List.length_map]

/-- An argument that is replaced is rendered without fail. -/
theorem agree_substituteRead (arg : Expr) :
    Agree (fun _ _ ↦ True) ((arg.substituteRead first).sql (.plain flavor))
      ((arg.substituteRead second).sql (.plain flavor)) := by
  have hself (expr : Expr) :
      Agree (fun _ _ ↦ True) (expr.sql (.plain flavor)) (expr.sql (.plain flavor)) := by
    cases expr.sql (.plain flavor) with
    | error cause => exact .error cause
    | ok text => exact .ok trivial
  cases arg with
  | column text =>
    obtain ⟨found, hfirst, hsecond⟩ := alike.read text
    obtain ⟨_, htext⟩ := Expr.exists_sql_of_literalText? (.plain flavor)
      (Option.ne_none_iff_exists'.mpr ⟨found, hfirst⟩)
    obtain ⟨_, htext'⟩ := Expr.exists_sql_of_literalText? (.plain flavor)
      (Option.ne_none_iff_exists'.mpr ⟨found, hsecond⟩)
    simp only [Expr.substituteRead, htext, htext']
    exact .ok trivial
  | _ => exact hself _

theorem agree_sqlList_substituteRead (others : List Expr) :
    Agree (fun _ _ ↦ True) (Expr.sqlList (.plain flavor) (others.map (Expr.substituteRead first)))
      (Expr.sqlList (.plain flavor) (others.map (Expr.substituteRead second))) := by
  induction others with
  | nil => exact .ok trivial
  | cons arg more ih =>
    rw [List.map_cons, List.map_cons, Expr.sqlList, Expr.sqlList]
    exact (agree_substituteRead alike arg).bind fun _ _ _ ↦ ih.bind fun _ _ _ ↦ .ok trivial

theorem Expr.sameSql_dateAdd {args : List Expr}
    (same : ∀ arg ∈ args, arg.SameSql flavor first second) :
    (Expr.call "DATEADD" args).SameSql flavor first second := by
  cases args with
  | nil => rfl
  | cons date others =>
    have hdate := same date (by simp)
    rw [SameSql] at hdate ⊢
    have hothers := agree_sqlList_substituteRead alike others
    have hparse := parse_substituteRead alike flavor.dialect.dateUnits (date.substitute first)
      (date.substitute second) others
    have hcall (text : String) (texts texts' : List String) :
        flavor.dialect.call "DATEADD" (substituteDate first (date :: others)) (text :: texts) =
          flavor.dialect.call "DATEADD" (substituteDate second (date :: others)) (text :: texts') := by
      simp only [Dialect.call, if_true, substituteDate, hparse, List.headD_cons]
    simp only [substitute, sql, substituteDate, if_true, sqlList, hdate] at hcall ⊢
    generalize sqlList (.plain flavor) (others.map (substituteRead first)) = outcome,
      sqlList (.plain flavor) (others.map (substituteRead second)) = outcome' at hothers ⊢
    cases (date.substitute second).sql (.plain flavor) with
    | error cause => rfl
    | ok text =>
      cases hothers with
      | error cause => rfl
      | ok related => exact hcall text _ _

end MovedDates

/-- Any other call is spelled from its rendered arguments alone. -/
theorem call_of_ne (dialect : Dialect) {name : String} (other : name ≠ "DATEADD")
    (args args' : List Expr) : dialect.call name args = dialect.call name args' := by
  funext rendered
  simp only [Dialect.call, if_neg other]

theorem Expr.sameSql_call {flavor : Flavor} {first second : Replacement} {name : String}
    (other : name ≠ "DATEADD") {args : List Expr}
    (same : ∀ arg ∈ args, arg.SameSql flavor first second) :
    (Expr.call name args).SameSql flavor first second := by
  have hcall := call_of_ne flavor.dialect other (substituteList first args)
    (substituteList second args)
  rw [SameSql]
  simp only [substitute, if_neg other, sql, sqlList_substitute same]
  exact congrArg _ hcall

/-! ## Queries -/

theorem sameSql_steps {flavor : Flavor} {first second : Replacement}
    (alike : first.Alike flavor second) :
    QueryInduction (Expr.SameSql flavor first second) (Condition.SameSql flavor first second)
      (Table.SameSql flavor first second) (Select.SameSql flavor first second) where
  column text := alike.shown text
  value literal := rfl
  raw literal := rfl
  call name args same := by
    by_cases hname : name = "DATEADD"
    · rw [hname]
      exact Expr.sameSql_dateAdd alike same
    · exact Expr.sameSql_call hname same
  operation operator operands same := by
    simp only [Expr.SameSql, Expr.substitute, Expr.sql, Expr.sqlList_substitute same]
  condition test same := by
    rw [Condition.SameSql] at same
    simp only [Expr.SameSql, Expr.substitute, Expr.sql, same]
  subquery query same := by
    rw [Select.SameSql] at same
    simp only [Expr.SameSql, Expr.substitute, Expr.sql, select_plain, same]
  compare key value operator hkey hvalue := by
    rw [Expr.SameSql] at hkey hvalue
    simp only [Condition.SameSql, Condition.substitute, Condition.sql, hkey, hvalue]
  between key low high hkey hlow hhigh := by
    rw [Expr.SameSql] at hkey hlow hhigh
    simp only [Condition.SameSql, Condition.substitute, Condition.sql, hkey, hlow, hhigh]
  oneOf key values hkey hvalues := by
    rw [Expr.SameSql] at hkey
    simp only [Condition.SameSql, Condition.substitute, Condition.sql, hkey,
      Expr.sqlList_substitute hvalues]
  noneOf key values hkey hvalues := by
    rw [Expr.SameSql] at hkey
    simp only [Condition.SameSql, Condition.substitute, Condition.sql, hkey,
      Expr.sqlList_substitute hvalues]
  null key isNull hkey := by
    rw [Expr.SameSql] at hkey
    simp only [Condition.SameSql, Condition.substitute, Condition.sql, hkey]
  like key pattern isLike hkey := by
    rw [Expr.SameSql] at hkey
    simp only [Condition.SameSql, Condition.substitute, Condition.sql, hkey]
  columns left right operator hleft hright := by
    rw [Expr.SameSql] at hleft hright
    simp only [Condition.SameSql, Condition.substitute, Condition.sql, hleft, hright]
  logical members operator hmembers := by
    simp only [Condition.SameSql, Condition.substitute, Condition.sql,
      Condition.sqlList_substitute hmembers]
  not inner hinner := by
    rw [Condition.SameSql] at hinner
    simp only [Condition.SameSql, Condition.substitute, Condition.sql, hinner]
  named name label := rfl
  nested query label same := by
    rw [Select.SameSql] at same
    simp only [Table.SameSql, Table.substitute, Table.sql, select_plain, same]
  select query htables hjoins hfields hfilter hhaving horder hgroups hunions := by
    obtain ⟨tables, joins, fields, filter, having, orderBy, groupBy, limit, offset, unions⟩ := query
    simp only [Select.SameSql, Select.substitute, Select.sql, Field.sqlList_substitute hfields,
      Table.sqlList_substitute htables, Join.sqlList_substitute hjoins,
      Condition.sqlList_substitute hfilter, Expr.sqlList_substitute hgroups,
      Condition.sqlList_substitute hhaving, SortKey.sqlList_substitute horder,
      UnionTail.sqlOnto_substitute hunions]

end PortableQuery
