import PortableQuery.Proofs.Query.Induction
import PortableQuery.Proofs.Query.Occurrence

/-!
# Rewriting the leaves of queries

The literals of a query and the plain table names in its FROM and JOIN clauses are replaced, each
once and wherever they occur; all else stays as it is. A name may be replaced by a select, and
nothing inside that select is replaced in turn. The table that a mutation works on keeps its plain
name, and so does a table or view that is created. Where no table is replaced, what occurs in the
rewritten query is what occurs in the query, rewritten.
-/

namespace PortableQuery

/-- What is put in the place of literals and of plain table names. -/
structure Rewriting where
  literal : Literal → Literal
  source : String → Source

mutual

def Expr.rewrite (rewriting : Rewriting) : Expr → Expr
  | .column text => .column text
  | .value literal => .value (rewriting.literal literal)
  | .raw literal => .raw (rewriting.literal literal)
  | .call name args => .call name (Expr.rewriteList rewriting args)
  | .operation operator operands => .operation operator (Expr.rewriteList rewriting operands)
  | .condition test => .condition (test.rewrite rewriting)
  | .subquery query => .subquery (query.rewrite rewriting)

def Expr.rewriteList (rewriting : Rewriting) : List Expr → List Expr
  | [] => []
  | expr :: more => expr.rewrite rewriting :: Expr.rewriteList rewriting more

def Condition.rewrite (rewriting : Rewriting) : Condition → Condition
  | .compare key value operator =>
    .compare (key.rewrite rewriting) (value.rewrite rewriting) operator
  | .between key low high =>
    .between (key.rewrite rewriting) (low.rewrite rewriting) (high.rewrite rewriting)
  | .oneOf key values => .oneOf (key.rewrite rewriting) (Expr.rewriteList rewriting values)
  | .noneOf key values => .noneOf (key.rewrite rewriting) (Expr.rewriteList rewriting values)
  | .null key isNull => .null (key.rewrite rewriting) isNull
  | .like key pattern isLike => .like (key.rewrite rewriting) pattern isLike
  | .columns left right operator =>
    .columns (left.rewrite rewriting) (right.rewrite rewriting) operator
  | .logical members operator => .logical (Condition.rewriteList rewriting members) operator
  | .not inner => .not (inner.rewrite rewriting)

def Condition.rewriteList (rewriting : Rewriting) : List Condition → List Condition
  | [] => []
  | test :: more => test.rewrite rewriting :: Condition.rewriteList rewriting more

def Condition.rewriteOption (rewriting : Rewriting) : Option Condition → Option Condition
  | none => none
  | some test => some (test.rewrite rewriting)

/-- A table in a FROM or JOIN clause; its alias is kept. -/
def Table.rewrite (rewriting : Rewriting) : Table → Table
  | .named name label => .ofSource (rewriting.source name) label
  | .nested query label => .nested (query.rewrite rewriting) label

def Table.rewriteList (rewriting : Rewriting) : List Table → List Table
  | [] => []
  | table :: more => table.rewrite rewriting :: Table.rewriteList rewriting more

def Join.rewriteList (rewriting : Rewriting) : List Join → List Join
  | [] => []
  | ⟨table, condition, kind⟩ :: more =>
    ⟨table.rewrite rewriting, Condition.rewriteOption rewriting condition, kind⟩ ::
      Join.rewriteList rewriting more

def Field.rewriteList (rewriting : Rewriting) : List Field → List Field
  | [] => []
  | ⟨expr, label⟩ :: more => ⟨expr.rewrite rewriting, label⟩ :: Field.rewriteList rewriting more

def SortKey.rewriteList (rewriting : Rewriting) : List SortKey → List SortKey
  | [] => []
  | ⟨expr, direction⟩ :: more =>
    ⟨expr.rewrite rewriting, direction⟩ :: SortKey.rewriteList rewriting more

def UnionTail.rewriteList (rewriting : Rewriting) : List UnionTail → List UnionTail
  | [] => []
  | ⟨kind, query⟩ :: more => ⟨kind, query.rewrite rewriting⟩ :: UnionTail.rewriteList rewriting more

def Select.rewrite (rewriting : Rewriting) : Select → Select
  | ⟨tables, joins, fields, filter, having, orderBy, groupBy, limit, offset, unions⟩ =>
    ⟨Table.rewriteList rewriting tables, Join.rewriteList rewriting joins,
      Field.rewriteList rewriting fields, Condition.rewriteList rewriting filter,
      Condition.rewriteList rewriting having, SortKey.rewriteList rewriting orderBy,
      Expr.rewriteList rewriting groupBy, limit, offset, UnionTail.rewriteList rewriting unions⟩

end

-- Twelve functions defined at once: their equations are made here, before the proofs that use them.
attribute [local simp] Expr.rewrite Expr.rewriteList Condition.rewrite Condition.rewriteList
  Condition.rewriteOption Table.rewrite Table.rewriteList Join.rewriteList Field.rewriteList
  SortKey.rewriteList UnionTail.rewriteList Select.rewrite

def Join.rewrite (rewriting : Rewriting) (join : Join) : Join :=
  ⟨join.table.rewrite rewriting, join.condition.map (Condition.rewrite rewriting), join.kind⟩

def Field.rewrite (rewriting : Rewriting) (field : Field) : Field :=
  ⟨field.expr.rewrite rewriting, field.label⟩

def SortKey.rewrite (rewriting : Rewriting) (key : SortKey) : SortKey :=
  ⟨key.expr.rewrite rewriting, key.direction⟩

def UnionTail.rewrite (rewriting : Rewriting) (tail : UnionTail) : UnionTail :=
  ⟨tail.kind, tail.query.rewrite rewriting⟩

section Lists

variable (rewriting : Rewriting)

theorem Expr.rewriteList_eq (exprs : List Expr) :
    rewriteList rewriting exprs = exprs.map (rewrite rewriting) := by
  induction exprs with
  | nil => rfl
  | cons expr more ih => simp [ih]

theorem Condition.rewriteList_eq (tests : List Condition) :
    rewriteList rewriting tests = tests.map (rewrite rewriting) := by
  induction tests with
  | nil => rfl
  | cons test more ih => simp [ih]

theorem Condition.rewriteOption_eq (test? : Option Condition) :
    rewriteOption rewriting test? = test?.map (rewrite rewriting) := by
  cases test? <;> rfl

theorem Table.rewriteList_eq (tables : List Table) :
    rewriteList rewriting tables = tables.map (rewrite rewriting) := by
  induction tables with
  | nil => rfl
  | cons table more ih => simp [ih]

theorem Join.rewriteList_eq (joins : List Join) :
    rewriteList rewriting joins = joins.map (rewrite rewriting) := by
  induction joins with
  | nil => rfl
  | cons join more ih =>
    obtain ⟨table, condition, kind⟩ := join
    simp [ih, rewrite, Condition.rewriteOption_eq]

theorem Field.rewriteList_eq (fields : List Field) :
    rewriteList rewriting fields = fields.map (rewrite rewriting) := by
  induction fields with
  | nil => rfl
  | cons field more ih =>
    obtain ⟨expr, label⟩ := field
    simp [ih, rewrite]

theorem SortKey.rewriteList_eq (keys : List SortKey) :
    rewriteList rewriting keys = keys.map (rewrite rewriting) := by
  induction keys with
  | nil => rfl
  | cons key more ih =>
    obtain ⟨expr, direction⟩ := key
    simp [ih, rewrite]

theorem UnionTail.rewriteList_eq (tails : List UnionTail) :
    rewriteList rewriting tails = tails.map (rewrite rewriting) := by
  induction tails with
  | nil => rfl
  | cons tail more ih =>
    obtain ⟨kind, query⟩ := tail
    simp [ih, rewrite]

theorem Select.rewrite_eq (query : Select) :
    query.rewrite rewriting =
      { tables := query.tables.map (Table.rewrite rewriting),
        joins := query.joins.map (Join.rewrite rewriting),
        fields := query.fields.map (Field.rewrite rewriting),
        filter := query.filter.map (Condition.rewrite rewriting),
        having := query.having.map (Condition.rewrite rewriting),
        orderBy := query.orderBy.map (SortKey.rewrite rewriting),
        groupBy := query.groupBy.map (Expr.rewrite rewriting), limit := query.limit,
        offset := query.offset, unions := query.unions.map (UnionTail.rewrite rewriting) } := by
  obtain ⟨tables, joins, fields, filter, having, orderBy, groupBy, limit, offset, unions⟩ := query
  simp only [rewrite, Table.rewriteList_eq, Join.rewriteList_eq, Field.rewriteList_eq,
    Condition.rewriteList_eq, SortKey.rewriteList_eq, Expr.rewriteList_eq, UnionTail.rewriteList_eq]

end Lists

/-! ## Statements -/

/-- The table that a mutation works on. -/
def Table.rewriteTarget (rewriting : Rewriting) : Table → Table
  | .named name label => .named name label
  | .nested query label => .nested (query.rewrite rewriting) label

def Row.rewrite (rewriting : Rewriting) (row : Row) : Row :=
  row.map fun (column, literal) ↦ (column, rewriting.literal literal)

def InsertSource.rewrite (rewriting : Rewriting) : InsertSource → InsertSource
  | .rows given => .rows (given.map (Row.rewrite rewriting))
  | .select query columns => .select (query.rewrite rewriting) columns

def Statement.rewrite (rewriting : Rewriting) : Statement → Statement
  | .select query => .select (query.rewrite rewriting)
  | .insert mutation =>
    .insert ⟨mutation.table.rewriteTarget rewriting, mutation.source.map (InsertSource.rewrite rewriting)⟩
  | .update mutation =>
    .update ⟨mutation.table.rewriteTarget rewriting,
      mutation.assignments.map fun (column, value) ↦ (column, value.rewrite rewriting),
      mutation.filter.map (Condition.rewrite rewriting)⟩
  | .delete mutation =>
    .delete ⟨mutation.table.rewriteTarget rewriting, mutation.filter.map (Condition.rewrite rewriting)⟩
  | .createTable definition => .createTable ⟨definition.name, definition.query.rewrite rewriting⟩
  | .createView definition =>
    .createView ⟨definition.name, definition.query.rewrite rewriting, definition.orReplace⟩

/-! ## What occurs in rewritten queries -/

def Node.rewrite (rewriting : Rewriting) : Node → Node
  | .expr held => .expr (held.rewrite rewriting)
  | .condition test => .condition (test.rewrite rewriting)

theorem flatMap_map_of_forall {α β : Type} {f : α → List β} {c : α → α} {g : β → β} {items : List α}
    (h : ∀ item ∈ items, f (c item) = (f item).map g) :
    (items.map c).flatMap f = (items.flatMap f).map g := by
  induction items with
  | nil => rfl
  | cons item more ih =>
    obtain ⟨hitem, hmore⟩ := List.forall_mem_cons.mp h
    rw [List.map_cons, List.flatMap_cons, List.flatMap_cons, List.map_append, hitem, ih hmore]

section Nodes

/-- The nodes of the rewritten expression are those of the expression, rewritten. -/
def Expr.NodesFollow (rewriting : Rewriting) (expr : Expr) : Prop :=
  (expr.rewrite rewriting).nodes = expr.nodes.map (Node.rewrite rewriting)

def Condition.NodesFollow (rewriting : Rewriting) (test : Condition) : Prop :=
  (test.rewrite rewriting).nodes = test.nodes.map (Node.rewrite rewriting)

def Table.NodesFollow (rewriting : Rewriting) (table : Table) : Prop :=
  (table.rewrite rewriting).nodes = table.nodes.map (Node.rewrite rewriting)

def Select.NodesFollow (rewriting : Rewriting) (query : Select) : Prop :=
  (query.rewrite rewriting).nodes = query.nodes.map (Node.rewrite rewriting)

variable {rewriting : Rewriting}

theorem Expr.nodesList_rewrite {exprs : List Expr} (h : ∀ expr ∈ exprs, expr.NodesFollow rewriting) :
    nodesList (rewriteList rewriting exprs) = (nodesList exprs).map (Node.rewrite rewriting) := by
  rw [rewriteList_eq, nodesList_eq, nodesList_eq]
  exact flatMap_map_of_forall h

theorem Condition.nodesList_rewrite {tests : List Condition}
    (h : ∀ test ∈ tests, test.NodesFollow rewriting) :
    nodesList (rewriteList rewriting tests) = (nodesList tests).map (Node.rewrite rewriting) := by
  rw [rewriteList_eq, nodesList_eq, nodesList_eq]
  exact flatMap_map_of_forall h

theorem Condition.nodesOption_rewrite {test? : Option Condition}
    (h : ∀ test ∈ test?, test.NodesFollow rewriting) :
    nodesOption (test?.map (rewrite rewriting)) =
      (nodesOption test?).map (Node.rewrite rewriting) := by
  cases test? with
  | none => rfl
  | some test => exact h test rfl

theorem Select.nodesFollow_of_parts (query : Select)
    (htables : ∀ table ∈ query.tables, table.NodesFollow rewriting)
    (hjoins : ∀ join ∈ query.joins, join.table.NodesFollow rewriting ∧
      ∀ test ∈ join.condition, test.NodesFollow rewriting)
    (hfields : ∀ field ∈ query.fields, field.expr.NodesFollow rewriting)
    (hfilter : ∀ test ∈ query.filter, test.NodesFollow rewriting)
    (hhaving : ∀ test ∈ query.having, test.NodesFollow rewriting)
    (horderBy : ∀ key ∈ query.orderBy, key.expr.NodesFollow rewriting)
    (hgroupBy : ∀ expr ∈ query.groupBy, expr.NodesFollow rewriting)
    (hunions : ∀ tail ∈ query.unions, tail.query.NodesFollow rewriting) :
    query.NodesFollow rewriting := by
  have hjoinNodes : ∀ join ∈ query.joins,
      (join.rewrite rewriting).table.nodes ++
          Condition.nodesOption (join.rewrite rewriting).condition =
        (join.table.nodes ++ Condition.nodesOption join.condition).map (Node.rewrite rewriting) := by
    intro join hjoin
    obtain ⟨htable, htest⟩ := hjoins join hjoin
    rw [List.map_append, Join.rewrite, htable, Condition.nodesOption_rewrite htest]
  rw [NodesFollow, Select.rewrite_eq]
  obtain ⟨tables, joins, fields, filter, having, orderBy, groupBy, limit, offset, unions⟩ := query
  simp only [Select.nodes, List.map_append, Table.nodesList_eq, Join.nodesList_eq, Field.nodesList_eq,
    Condition.nodesList_eq, SortKey.nodesList_eq, Expr.nodesList_eq, UnionTail.nodesList_eq]
  rw [flatMap_map_of_forall htables, flatMap_map_of_forall hjoinNodes,
    flatMap_map_of_forall (c := Field.rewrite rewriting) hfields,
    flatMap_map_of_forall hfilter, flatMap_map_of_forall hhaving,
    flatMap_map_of_forall (c := SortKey.rewrite rewriting) horderBy,
    flatMap_map_of_forall hgroupBy,
    flatMap_map_of_forall (c := UnionTail.rewrite rewriting) hunions]

theorem nodesFollow_steps (hsource : rewriting.source = .name) :
    QueryInduction (Expr.NodesFollow rewriting) (Condition.NodesFollow rewriting)
      (Table.NodesFollow rewriting) (Select.NodesFollow rewriting) where
  column text := rfl
  value literal := rfl
  raw literal := rfl
  call name args hargs := by
    simp [Expr.NodesFollow, Expr.nodes, Expr.nodesList_rewrite hargs, Node.rewrite]
  operation operator operands hoperands := by
    simp [Expr.NodesFollow, Expr.nodes, Expr.nodesList_rewrite hoperands, Node.rewrite]
  condition test htest := congrArg (Node.expr (.condition (test.rewrite rewriting)) :: ·) htest
  subquery query hquery := congrArg (Node.expr (.subquery (query.rewrite rewriting)) :: ·) hquery
  compare key value operator hkey hvalue := by
    simp_all [Condition.NodesFollow, Condition.nodes, Expr.NodesFollow, Node.rewrite]
  between key low high hkey hlow hhigh := by
    simp_all [Condition.NodesFollow, Condition.nodes, Expr.NodesFollow, Node.rewrite]
  oneOf key values hkey hvalues := by
    simp_all [Condition.NodesFollow, Condition.nodes, Expr.nodesList_rewrite hvalues,
      Expr.NodesFollow, Node.rewrite]
  noneOf key values hkey hvalues := by
    simp_all [Condition.NodesFollow, Condition.nodes, Expr.nodesList_rewrite hvalues,
      Expr.NodesFollow, Node.rewrite]
  null key isNull hkey := by
    simp_all [Condition.NodesFollow, Condition.nodes, Expr.NodesFollow, Node.rewrite]
  like key pattern isLike hkey := by
    simp_all [Condition.NodesFollow, Condition.nodes, Expr.NodesFollow, Node.rewrite]
  columns left right operator hleft hright := by
    simp_all [Condition.NodesFollow, Condition.nodes, Expr.NodesFollow, Node.rewrite]
  logical members operator hmembers := by
    simp [Condition.NodesFollow, Condition.nodes, Condition.nodesList_rewrite hmembers, Node.rewrite]
  not inner hinner := congrArg (Node.condition (.not (inner.rewrite rewriting)) :: ·) hinner
  named name label := by
    rw [Table.NodesFollow, Table.rewrite, hsource]
    rfl
  nested query label hquery := hquery
  select := Select.nodesFollow_of_parts

theorem Table.nodes_rewriteTarget (hsource : rewriting.source = .name) (table : Table) :
    (table.rewriteTarget rewriting).nodes = table.nodes.map (Node.rewrite rewriting) := by
  cases table with
  | named name label => rfl
  | nested query label => exact (nodesFollow_steps hsource).forSelect query

theorem InsertSource.nodes_rewrite (hsource : rewriting.source = .name) (source : InsertSource) :
    (source.rewrite rewriting).nodes = source.nodes.map (Node.rewrite rewriting) := by
  cases source with
  | rows given => rfl
  | select query columns => exact (nodesFollow_steps hsource).forSelect query

/-- Where no table is replaced, the rewritten statement has the rewritten nodes. -/
theorem Statement.nodes_rewrite (hsource : rewriting.source = .name) (statement : Statement) :
    (statement.rewrite rewriting).nodes = statement.nodes.map (Node.rewrite rewriting) := by
  have steps := nodesFollow_steps hsource
  have hfilter (tests : List Condition) : (tests.map (Condition.rewrite rewriting)).flatMap
      Condition.nodes = (tests.flatMap Condition.nodes).map (Node.rewrite rewriting) :=
    flatMap_map_of_forall fun test _ ↦ steps.forCondition test
  cases statement with
  | select query => exact steps.forSelect query
  | insert mutation =>
    obtain ⟨table, source⟩ := mutation
    simp only [rewrite, nodes, List.map_append, Table.nodes_rewriteTarget hsource]
    cases source with
    | none => rfl
    | some given => simp [InsertSource.nodes_rewrite hsource]
  | update mutation =>
    have hassignments : (mutation.assignments.map fun (column, value) ↦
          (column, value.rewrite rewriting)).flatMap (·.2.nodes) =
        (mutation.assignments.flatMap (·.2.nodes)).map (Node.rewrite rewriting) :=
      flatMap_map_of_forall fun assignment _ ↦ steps.forExpr assignment.2
    simp only [rewrite, nodes, List.map_append, Table.nodes_rewriteTarget hsource, hassignments, hfilter]
  | delete mutation =>
    simp only [rewrite, nodes, List.map_append, Table.nodes_rewriteTarget hsource, hfilter]
  | createTable definition => exact steps.forSelect definition.query
  | createView definition => exact steps.forSelect definition.query

end Nodes

end PortableQuery
