import PortableQuery.Query.Basic

/-!
# Equality of queries

Structural equality in which floating-point numbers compare as numbers: a query that holds
not-a-number differs from itself.
-/

namespace PortableQuery

-- Said for each function: there are too many pairs of arguments to look for the recursion among them.
mutual

def Expr.same : Expr → Expr → Bool
  | .column a, .column b => a == b
  | .value a, .value b => a.same b
  | .raw a, .raw b => a.same b
  | .call f as, .call g bs => f == g && Expr.sameList as bs
  | .operation f as, .operation g bs => f == g && Expr.sameList as bs
  | .condition a, .condition b => a.same b
  | .subquery a, .subquery b => a.same b
  | _, _ => false
termination_by structural a => a

def Expr.sameList : List Expr → List Expr → Bool
  | [], [] => true
  | a :: as, b :: bs => a.same b && Expr.sameList as bs
  | _, _ => false
termination_by structural a => a

def Condition.same : Condition → Condition → Bool
  | .compare k v o, .compare k' v' o' => k.same k' && v.same v' && o == o'
  | .between k a b, .between k' a' b' => k.same k' && a.same a' && b.same b'
  | .oneOf k vs, .oneOf k' vs' => k.same k' && Expr.sameList vs vs'
  | .noneOf k vs, .noneOf k' vs' => k.same k' && Expr.sameList vs vs'
  | .null k b, .null k' b' => k.same k' && b == b'
  | .like k p b, .like k' p' b' => k.same k' && p == p' && b == b'
  | .columns l r o, .columns l' r' o' => l.same l' && r.same r' && o == o'
  | .logical cs o, .logical cs' o' => Condition.sameList cs cs' && o == o'
  | .not c, .not c' => c.same c'
  | _, _ => false
termination_by structural a => a

def Condition.sameList : List Condition → List Condition → Bool
  | [], [] => true
  | a :: as, b :: bs => a.same b && Condition.sameList as bs
  | _, _ => false
termination_by structural a => a

def Condition.sameOption : Option Condition → Option Condition → Bool
  | none, none => true
  | some a, some b => a.same b
  | _, _ => false
termination_by structural a => a

def Table.same : Table → Table → Bool
  | .named n l, .named n' l' => n == n' && l == l'
  | .nested q l, .nested q' l' => q.same q' && l == l'
  | _, _ => false
termination_by structural a => a

def Table.sameList : List Table → List Table → Bool
  | [], [] => true
  | a :: as, b :: bs => a.same b && Table.sameList as bs
  | _, _ => false
termination_by structural a => a

def Join.same : Join → Join → Bool
  | ⟨t, c, k⟩, ⟨t', c', k'⟩ => t.same t' && Condition.sameOption c c' && k == k'
termination_by structural a => a

def Join.sameList : List Join → List Join → Bool
  | [], [] => true
  | a :: as, b :: bs => a.same b && Join.sameList as bs
  | _, _ => false
termination_by structural a => a

def Field.same : Field → Field → Bool
  | ⟨e, l⟩, ⟨e', l'⟩ => e.same e' && l == l'
termination_by structural a => a

def Field.sameList : List Field → List Field → Bool
  | [], [] => true
  | a :: as, b :: bs => a.same b && Field.sameList as bs
  | _, _ => false
termination_by structural a => a

def SortKey.same : SortKey → SortKey → Bool
  | ⟨e, d⟩, ⟨e', d'⟩ => e.same e' && d == d'
termination_by structural a => a

def SortKey.sameList : List SortKey → List SortKey → Bool
  | [], [] => true
  | a :: as, b :: bs => a.same b && SortKey.sameList as bs
  | _, _ => false
termination_by structural a => a

def UnionTail.same : UnionTail → UnionTail → Bool
  | ⟨k, q⟩, ⟨k', q'⟩ => k == k' && q.same q'
termination_by structural a => a

def UnionTail.sameList : List UnionTail → List UnionTail → Bool
  | [], [] => true
  | a :: as, b :: bs => a.same b && UnionTail.sameList as bs
  | _, _ => false
termination_by structural a => a

def Select.same : Select → Select → Bool
  | ⟨tables, joins, fields, filter, having, orderBy, groupBy, limit, offset, unions⟩, other =>
    Table.sameList tables other.tables && Join.sameList joins other.joins &&
      Field.sameList fields other.fields && Condition.sameList filter other.filter &&
      Condition.sameList having other.having && SortKey.sameList orderBy other.orderBy &&
      Expr.sameList groupBy other.groupBy && limit == other.limit && offset == other.offset &&
      UnionTail.sameList unions other.unions

end

/-- Equality of entries without regard to their order. -/
def Entries.sameBy {α : Type} (same : α → α → Bool) (a b : Entries α) : Bool :=
  a.length == b.length && a.all fun (name, value) =>
    match Entries.get? b name with
    | some found => same value found
    | none => false

def Row.sameList : List Row → List Row → Bool
  | [], [] => true
  | a :: as, b :: bs => Entries.sameBy Literal.same a b && Row.sameList as bs
  | _, _ => false

def InsertSource.same : InsertSource → InsertSource → Bool
  | .rows a, .rows b => Row.sameList a b
  | .select q columns, .select q' columns' => q.same q' && columns == columns'
  | _, _ => false

def Insert.same (a b : Insert) : Bool :=
  a.table.same b.table && match a.source, b.source with
    | none, none => true
    | some s, some s' => s.same s'
    | _, _ => false

def Statement.same : Statement → Statement → Bool
  | .select a, .select b => a.same b
  | .insert a, .insert b => a.same b
  | .update a, .update b =>
    a.table.same b.table && Entries.sameBy Expr.same a.assignments b.assignments &&
      Condition.sameList a.filter b.filter
  | .delete a, .delete b => a.table.same b.table && Condition.sameList a.filter b.filter
  | .createTable a, .createTable b => a.name == b.name && a.query.same b.query
  | .createView a, .createView b =>
    a.name == b.name && a.query.same b.query && a.orReplace == b.orReplace
  | _, _ => false

end PortableQuery
