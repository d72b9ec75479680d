import PortableQuery.Query.Basic

/-!
# Induction over queries

Expressions, conditions, tables and selects contain one another. A proof about all of them gives one
step for each way to build one; what is known of the parts comes as a statement about the members of
the lists in which they stand. `QueryInduction` collects the steps, and its theorems draw the
conclusion for each of the four kinds.
-/

namespace PortableQuery

structure QueryInduction (P : Expr → Prop) (Q : Condition → Prop) (T : Table → Prop)
    (R : Select → Prop) : Prop where
  column : ∀ text, P (.column text)
  value : ∀ literal, P (.value literal)
  raw : ∀ literal, P (.raw literal)
  call : ∀ name args, (∀ arg ∈ args, P arg) → P (.call name args)
  operation : ∀ operator operands, (∀ operand ∈ operands, P operand) → P (.operation operator operands)
  condition : ∀ test, Q test → P (.condition test)
  subquery : ∀ query, R query → P (.subquery query)
  compare : ∀ key value operator, P key → P value → Q (.compare key value operator)
  between : ∀ key low high, P key → P low → P high → Q (.between key low high)
  oneOf : ∀ key values, P key → (∀ value ∈ values, P value) → Q (.oneOf key values)
  noneOf : ∀ key values, P key → (∀ value ∈ values, P value) → Q (.noneOf key values)
  null : ∀ key isNull, P key → Q (.null key isNull)
  like : ∀ key pattern isLike, P key → Q (.like key pattern isLike)
  columns : ∀ left right operator, P left → P right → Q (.columns left right operator)
  logical : ∀ members operator, (∀ member ∈ members, Q member) → Q (.logical members operator)
  not : ∀ inner, Q inner → Q (.not inner)
  named : ∀ name label, T (.named name label)
  nested : ∀ query label, R query → T (.nested query label)
  select : ∀ query : Select, (∀ table ∈ query.tables, T table) →
    (∀ join ∈ query.joins, T join.table ∧ ∀ test ∈ join.condition, Q test) →
    (∀ field ∈ query.fields, P field.expr) → (∀ test ∈ query.filter, Q test) →
    (∀ test ∈ query.having, Q test) → (∀ key ∈ query.orderBy, P key.expr) →
    (∀ expr ∈ query.groupBy, P expr) → (∀ tail ∈ query.unions, R tail.query) → R query

namespace QueryInduction

variable {P : Expr → Prop} {Q : Condition → Prop} {T : Table → Prop} {R : Select → Prop}

mutual

theorem forExpr (steps : QueryInduction P Q T R) : ∀ expr, P expr
  | .column text => steps.column text
  | .value literal => steps.value literal
  | .raw literal => steps.raw literal
  | .call name args => steps.call name args (forExprs steps args)
  | .operation operator operands => steps.operation operator operands (forExprs steps operands)
  | .condition test => steps.condition test (forCondition steps test)
  | .subquery query => steps.subquery query (forSelect steps query)

theorem forExprs (steps : QueryInduction P Q T R) : ∀ exprs : List Expr, ∀ expr ∈ exprs, P expr
  | [] => by simp
  | expr :: more => List.forall_mem_cons.mpr ⟨forExpr steps expr, forExprs steps more⟩

theorem forCondition (steps : QueryInduction P Q T R) : ∀ test, Q test
  | .compare key value operator =>
    steps.compare key value operator (forExpr steps key) (forExpr steps value)
  | .between key low high =>
    steps.between key low high (forExpr steps key) (forExpr steps low) (forExpr steps high)
  | .oneOf key values => steps.oneOf key values (forExpr steps key) (forExprs steps values)
  | .noneOf key values => steps.noneOf key values (forExpr steps key) (forExprs steps values)
  | .null key isNull => steps.null key isNull (forExpr steps key)
  | .like key pattern isLike => steps.like key pattern isLike (forExpr steps key)
  | .columns left right operator =>
    steps.columns left right operator (forExpr steps left) (forExpr steps right)
  | .logical members operator => steps.logical members operator (forConditions steps members)
  | .not inner => steps.not inner (forCondition steps inner)

theorem forConditions (steps : QueryInduction P Q T R) :
    ∀ tests : List Condition, ∀ test ∈ tests, Q test
  | [] => by simp
  | test :: more => List.forall_mem_cons.mpr ⟨forCondition steps test, forConditions steps more⟩

theorem forOption (steps : QueryInduction P Q T R) :
    ∀ test? : Option Condition, ∀ test ∈ test?, Q test
  | none => by simp
  | some test => by simpa using forCondition steps test

theorem forTable (steps : QueryInduction P Q T R) : ∀ table, T table
  | .named name label => steps.named name label
  | .nested query label => steps.nested query label (forSelect steps query)

theorem forTables (steps : QueryInduction P Q T R) : ∀ tables : List Table, ∀ table ∈ tables, T table
  | [] => by simp
  | table :: more => List.forall_mem_cons.mpr ⟨forTable steps table, forTables steps more⟩

theorem forJoins (steps : QueryInduction P Q T R) :
    ∀ joins : List Join, ∀ join ∈ joins, T join.table ∧ ∀ test ∈ join.condition, Q test
  | [] => by simp
  | ⟨table, condition, _⟩ :: more =>
    List.forall_mem_cons.mpr
      ⟨⟨forTable steps table, forOption steps condition⟩, forJoins steps more⟩

theorem forFields (steps : QueryInduction P Q T R) :
    ∀ fields : List Field, ∀ field ∈ fields, P field.expr
  | [] => by simp
  | ⟨expr, _⟩ :: more => List.forall_mem_cons.mpr ⟨forExpr steps expr, forFields steps more⟩

theorem forKeys (steps : QueryInduction P Q T R) :
    ∀ keys : List SortKey, ∀ key ∈ keys, P key.expr
  | [] => by simp
  | ⟨expr, _⟩ :: more => List.forall_mem_cons.mpr ⟨forExpr steps expr, forKeys steps more⟩

theorem forUnions (steps : QueryInduction P Q T R) :
    ∀ tails : List UnionTail, ∀ tail ∈ tails, R tail.query
  | [] => by simp
  | ⟨_, query⟩ :: more => List.forall_mem_cons.mpr ⟨forSelect steps query, forUnions steps more⟩

theorem forSelect (steps : QueryInduction P Q T R) : ∀ query, R query
  | ⟨tables, joins, fields, filter, having, orderBy, groupBy, limit, offset, unions⟩ =>
    steps.select ⟨tables, joins, fields, filter, having, orderBy, groupBy, limit, offset, unions⟩
      (forTables steps tables) (forJoins steps joins) (forFields steps fields)
      (forConditions steps filter) (forConditions steps having) (forKeys steps orderBy)
      (forExprs steps groupBy) (forUnions steps unions)

end

end QueryInduction

/-- Induction over conditions alone, with the members of a group as they stand in it. -/
theorem Condition.induction {Q : Condition → Prop}
    (compare : ∀ key value operator, Q (.compare key value operator))
    (between : ∀ key low high, Q (.between key low high)) (oneOf : ∀ key values, Q (.oneOf key values))
    (noneOf : ∀ key values, Q (.noneOf key values)) (null : ∀ key isNull, Q (.null key isNull))
    (like : ∀ key pattern isLike, Q (.like key pattern isLike))
    (columns : ∀ left right operator, Q (.columns left right operator))
    (logical : ∀ members operator, (∀ member ∈ members, Q member) → Q (.logical members operator))
    (not : ∀ inner, Q inner → Q (.not inner)) (test : Condition) : Q test :=
  QueryInduction.forCondition (P := fun _ ↦ True) (T := fun _ ↦ True) (R := fun _ ↦ True)
    ⟨by simp, by simp, by simp, by simp, by simp, by simp, by simp,
      fun key value operator _ _ ↦ compare key value operator,
      fun key low high _ _ _ ↦ between key low high, fun key values _ _ ↦ oneOf key values,
      fun key values _ _ ↦ noneOf key values, fun key isNull _ ↦ null key isNull,
      fun key pattern isLike _ ↦ like key pattern isLike,
      fun left right operator _ _ ↦ columns left right operator, logical, not, by simp, by simp,
      by simp⟩ test

/-- Induction along the union tails of a select alone. -/
theorem Select.union_induction {R : Select → Prop}
    (step : ∀ query : Select, (∀ tail ∈ query.unions, R tail.query) → R query) : ∀ query, R query :=
  QueryInduction.forSelect (P := fun _ ↦ True) (Q := fun _ ↦ True) (T := fun _ ↦ True)
    ⟨by simp, by simp, by simp, by simp, by simp, by simp, by simp, by simp, by simp, by simp, by simp,
      by simp, by simp, by simp, by simp, by simp, by simp, by simp,
      fun query _ _ _ _ _ _ _ ↦ step query⟩

end PortableQuery
