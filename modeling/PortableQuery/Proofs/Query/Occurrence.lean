import PortableQuery.Query.Basic

/-!
# What occurs in a query

The expressions and conditions of a query as a list: the query's own and those of every expression,
condition, table and select inside it, at any depth. A property of all that occurs in a query is one
of its nodes and of its parts.
-/

namespace PortableQuery

/-- An expression or a condition somewhere in a query. -/
inductive Node
  | expr (expr : Expr)
  | condition (test : Condition)

mutual

def Expr.nodes : Expr → List Node
  | .column text => [.expr (.column text)]
  | .value literal => [.expr (.value literal)]
  | .raw literal => [.expr (.raw literal)]
  | .call name args => .expr (.call name args) :: Expr.nodesList args
  | .operation operator operands => .expr (.operation operator operands) :: Expr.nodesList operands
  | .condition test => .expr (.condition test) :: test.nodes
  | .subquery query => .expr (.subquery query) :: query.nodes

def Expr.nodesList : List Expr → List Node
  | [] => []
  | expr :: more => expr.nodes ++ Expr.nodesList more

def Condition.nodes : Condition → List Node
  | .compare key value operator => .condition (.compare key value operator) :: (key.nodes ++ value.nodes)
  | .between key low high =>
    .condition (.between key low high) :: (key.nodes ++ (low.nodes ++ high.nodes))
  | .oneOf key values => .condition (.oneOf key values) :: (key.nodes ++ Expr.nodesList values)
  | .noneOf key values => .condition (.noneOf key values) :: (key.nodes ++ Expr.nodesList values)
  | .null key isNull => .condition (.null key isNull) :: key.nodes
  | .like key pattern isLike => .condition (.like key pattern isLike) :: key.nodes
  | .columns left right operator =>
    .condition (.columns left right operator) :: (left.nodes ++ right.nodes)
  | .logical members operator => .condition (.logical members operator) :: Condition.nodesList members
  | .not inner => .condition (.not inner) :: inner.nodes

def Condition.nodesList : List Condition → List Node
  | [] => []
  | test :: more => test.nodes ++ Condition.nodesList more

def Condition.nodesOption : Option Condition → List Node
  | none => []
  | some test => test.nodes

def Table.nodes : Table → List Node
  | .named _ _ => []
  | .nested query _ => query.nodes

def Table.nodesList : List Table → List Node
  | [] => []
  | table :: more => table.nodes ++ Table.nodesList more

def Join.nodesList : List Join → List Node
  | [] => []
  | ⟨table, condition, _⟩ :: more =>
    table.nodes ++ (Condition.nodesOption condition ++ Join.nodesList more)

def Field.nodesList : List Field → List Node
  | [] => []
  | ⟨expr, _⟩ :: more => expr.nodes ++ Field.nodesList more

def SortKey.nodesList : List SortKey → List Node
  | [] => []
  | ⟨expr, _⟩ :: more => expr.nodes ++ SortKey.nodesList more

def UnionTail.nodesList : List UnionTail → List Node
  | [] => []
  | ⟨_, query⟩ :: more => query.nodes ++ UnionTail.nodesList more

def Select.nodes : Select → List Node
  | ⟨tables, joins, fields, filter, having, orderBy, groupBy, _, _, unions⟩ =>
    Table.nodesList tables ++ (Join.nodesList joins ++ (Field.nodesList fields ++
      (Condition.nodesList filter ++ (Condition.nodesList having ++ (SortKey.nodesList orderBy ++
        (Expr.nodesList groupBy ++ UnionTail.nodesList unions))))))

end

-- Twelve functions defined at once: their equations are made here, before the proofs that use them.
attribute [local simp] Expr.nodes Expr.nodesList Condition.nodes Condition.nodesList
  Condition.nodesOption Table.nodes Table.nodesList Join.nodesList Field.nodesList SortKey.nodesList
  UnionTail.nodesList Select.nodes

def InsertSource.nodes : InsertSource → List Node
  | .rows _ => []
  | .select query _ => query.nodes

def Statement.nodes : Statement → List Node
  | .select query => query.nodes
  | .insert mutation => mutation.table.nodes ++ mutation.source.toList.flatMap InsertSource.nodes
  | .update mutation =>
    mutation.table.nodes ++ mutation.assignments.flatMap (·.2.nodes) ++
      mutation.filter.flatMap Condition.nodes
  | .delete mutation => mutation.table.nodes ++ mutation.filter.flatMap Condition.nodes
  | .createTable definition => definition.query.nodes
  | .createView definition => definition.query.nodes

/-! ## Properties of all nodes -/

def Expr.Everywhere (p : Node → Prop) (expr : Expr) : Prop := ∀ node ∈ expr.nodes, p node

def Condition.Everywhere (p : Node → Prop) (test : Condition) : Prop := ∀ node ∈ test.nodes, p node

def Table.Everywhere (p : Node → Prop) (table : Table) : Prop := ∀ node ∈ table.nodes, p node

def Select.Everywhere (p : Node → Prop) (query : Select) : Prop := ∀ node ∈ query.nodes, p node

def Statement.Everywhere (p : Node → Prop) (statement : Statement) : Prop :=
  ∀ node ∈ statement.nodes, p node

theorem Expr.nodesList_eq (exprs : List Expr) : nodesList exprs = exprs.flatMap nodes := by
  induction exprs with
  | nil => rfl
  | cons expr more ih => simp [ih]

theorem Condition.nodesList_eq (tests : List Condition) : nodesList tests = tests.flatMap nodes := by
  induction tests with
  | nil => rfl
  | cons test more ih => simp [ih]

theorem Table.nodesList_eq (tables : List Table) : nodesList tables = tables.flatMap nodes := by
  induction tables with
  | nil => rfl
  | cons table more ih => simp [ih]

theorem Join.nodesList_eq (joins : List Join) :
    nodesList joins =
      joins.flatMap fun join ↦ join.table.nodes ++ Condition.nodesOption join.condition := by
  induction joins with
  | nil => rfl
  | cons join more ih =>
    obtain ⟨table, condition, kind⟩ := join
    simp [ih]

theorem Field.nodesList_eq (fields : List Field) :
    nodesList fields = fields.flatMap fun field ↦ field.expr.nodes := by
  induction fields with
  | nil => rfl
  | cons field more ih =>
    obtain ⟨expr, label⟩ := field
    simp [ih]

theorem SortKey.nodesList_eq (keys : List SortKey) :
    nodesList keys = keys.flatMap fun key ↦ key.expr.nodes := by
  induction keys with
  | nil => rfl
  | cons key more ih =>
    obtain ⟨expr, direction⟩ := key
    simp [ih]

theorem UnionTail.nodesList_eq (tails : List UnionTail) :
    nodesList tails = tails.flatMap fun tail ↦ tail.query.nodes := by
  induction tails with
  | nil => rfl
  | cons tail more ih =>
    obtain ⟨kind, query⟩ := tail
    simp [ih]

theorem forall_mem_flatMap {α β : Type} {f : α → List β} {items : List α} {p : β → Prop} :
    (∀ node ∈ items.flatMap f, p node) ↔ ∀ item ∈ items, ∀ node ∈ f item, p node := by
  simp only [List.mem_flatMap]
  constructor
  · intro h item hitem node hnode
    exact h node ⟨item, hitem, hnode⟩
  · rintro h node ⟨item, hitem, hnode⟩
    exact h item hitem node hnode

section Everywhere

variable {p : Node → Prop}

@[simp] theorem Expr.everywhere_column {text : String} :
    (Expr.column text).Everywhere p ↔ p (.expr (.column text)) := by
  simp [Everywhere]

@[simp] theorem Expr.everywhere_value {literal : Literal} :
    (Expr.value literal).Everywhere p ↔ p (.expr (.value literal)) := by
  simp [Everywhere]

@[simp] theorem Expr.everywhere_raw {literal : Literal} :
    (Expr.raw literal).Everywhere p ↔ p (.expr (.raw literal)) := by
  simp [Everywhere]

@[simp] theorem Expr.everywhere_call {name : String} {args : List Expr} :
    (Expr.call name args).Everywhere p ↔
      p (.expr (.call name args)) ∧ ∀ arg ∈ args, arg.Everywhere p := by
  simp only [Everywhere, nodes, List.forall_mem_cons, nodesList_eq, forall_mem_flatMap]

@[simp] theorem Expr.everywhere_operation {operator : String} {operands : List Expr} :
    (Expr.operation operator operands).Everywhere p ↔
      p (.expr (.operation operator operands)) ∧ ∀ operand ∈ operands, operand.Everywhere p := by
  simp only [Everywhere, nodes, List.forall_mem_cons, nodesList_eq, forall_mem_flatMap]

@[simp] theorem Expr.everywhere_condition {test : Condition} :
    (Expr.condition test).Everywhere p ↔ p (.expr (.condition test)) ∧ test.Everywhere p := by
  simp only [Everywhere, nodes, List.forall_mem_cons, Condition.Everywhere]

@[simp] theorem Expr.everywhere_subquery {query : Select} :
    (Expr.subquery query).Everywhere p ↔ p (.expr (.subquery query)) ∧ query.Everywhere p := by
  simp only [Everywhere, nodes, List.forall_mem_cons, Select.Everywhere]

@[simp] theorem Condition.everywhere_compare {key value : Expr} {operator : Comparison} :
    (Condition.compare key value operator).Everywhere p ↔
      p (.condition (.compare key value operator)) ∧ key.Everywhere p ∧ value.Everywhere p := by
  simp only [Everywhere, nodes, List.forall_mem_cons, List.forall_mem_append, Expr.Everywhere]

@[simp] theorem Condition.everywhere_between {key low high : Expr} :
    (Condition.between key low high).Everywhere p ↔
      p (.condition (.between key low high)) ∧ key.Everywhere p ∧ low.Everywhere p ∧
        high.Everywhere p := by
  simp only [Everywhere, nodes, List.forall_mem_cons, List.forall_mem_append, Expr.Everywhere]

@[simp] theorem Condition.everywhere_oneOf {key : Expr} {values : List Expr} :
    (Condition.oneOf key values).Everywhere p ↔
      p (.condition (.oneOf key values)) ∧ key.Everywhere p ∧ ∀ value ∈ values, value.Everywhere p := by
  simp only [Everywhere, nodes, List.forall_mem_cons, List.forall_mem_append, Expr.Everywhere,
    Expr.nodesList_eq, forall_mem_flatMap]

@[simp] theorem Condition.everywhere_noneOf {key : Expr} {values : List Expr} :
    (Condition.noneOf key values).Everywhere p ↔
      p (.condition (.noneOf key values)) ∧ key.Everywhere p ∧ ∀ value ∈ values, value.Everywhere p := by
  simp only [Everywhere, nodes, List.forall_mem_cons, List.forall_mem_append, Expr.Everywhere,
    Expr.nodesList_eq, forall_mem_flatMap]

@[simp] theorem Condition.everywhere_null {key : Expr} {isNull : Bool} :
    (Condition.null key isNull).Everywhere p ↔
      p (.condition (.null key isNull)) ∧ key.Everywhere p := by
  simp only [Everywhere, nodes, List.forall_mem_cons, Expr.Everywhere]

@[simp] theorem Condition.everywhere_like {key : Expr} {pattern : String} {isLike : Bool} :
    (Condition.like key pattern isLike).Everywhere p ↔
      p (.condition (.like key pattern isLike)) ∧ key.Everywhere p := by
  simp only [Everywhere, nodes, List.forall_mem_cons, Expr.Everywhere]

@[simp] theorem Condition.everywhere_columns {left right : Expr} {operator : Comparison} :
    (Condition.columns left right operator).Everywhere p ↔
      p (.condition (.columns left right operator)) ∧ left.Everywhere p ∧ right.Everywhere p := by
  simp only [Everywhere, nodes, List.forall_mem_cons, List.forall_mem_append, Expr.Everywhere]

@[simp] theorem Condition.everywhere_logical {members : List Condition} {operator : Connective} :
    (Condition.logical members operator).Everywhere p ↔
      p (.condition (.logical members operator)) ∧ ∀ member ∈ members, member.Everywhere p := by
  simp only [Everywhere, nodes, List.forall_mem_cons, nodesList_eq, forall_mem_flatMap]

@[simp] theorem Condition.everywhere_not {inner : Condition} :
    (Condition.not inner).Everywhere p ↔ p (.condition (.not inner)) ∧ inner.Everywhere p := by
  simp only [Everywhere, nodes, List.forall_mem_cons]

@[simp] theorem Table.everywhere_named {name : String} {label : Option String} :
    (Table.named name label).Everywhere p := by
  simp [Everywhere]

@[simp] theorem Table.everywhere_nested {query : Select} {label : Option String} :
    (Table.nested query label).Everywhere p ↔ query.Everywhere p := by
  simp only [Everywhere, nodes, Select.Everywhere]

theorem Condition.forall_mem_nodesOption {test? : Option Condition} :
    (∀ node ∈ nodesOption test?, p node) ↔ ∀ test ∈ test?, test.Everywhere p := by
  cases test? <;> simp [Everywhere]

theorem Select.everywhere_iff {query : Select} :
    query.Everywhere p ↔
      (∀ table ∈ query.tables, table.Everywhere p) ∧
      (∀ join ∈ query.joins, join.table.Everywhere p ∧ ∀ test ∈ join.condition, test.Everywhere p) ∧
      (∀ field ∈ query.fields, field.expr.Everywhere p) ∧
      (∀ test ∈ query.filter, test.Everywhere p) ∧ (∀ test ∈ query.having, test.Everywhere p) ∧
      (∀ key ∈ query.orderBy, key.expr.Everywhere p) ∧ (∀ expr ∈ query.groupBy, expr.Everywhere p) ∧
      ∀ tail ∈ query.unions, tail.query.Everywhere p := by
  obtain ⟨tables, joins, fields, filter, having, orderBy, groupBy, limit, offset, unions⟩ := query
  simp only [Everywhere, nodes, List.forall_mem_append, Table.nodesList_eq, Join.nodesList_eq,
    Field.nodesList_eq, Condition.nodesList_eq, SortKey.nodesList_eq, Expr.nodesList_eq,
    UnionTail.nodesList_eq, forall_mem_flatMap, Condition.forall_mem_nodesOption, Table.Everywhere,
    Condition.Everywhere, Expr.Everywhere]

end Everywhere

end PortableQuery
