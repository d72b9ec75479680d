import PortableQuery.Dynamo.Compile
import PortableQuery.Dynamo.Partiql
import PortableQuery.Proofs.Outcome

/-!
# The table that a select is compiled for

Both backends take the name of the first table and nothing else of what a select reads from. A nested
select counts with the name of its own first table: its conditions, fields, joins, groups, limit and
unions have no influence on the request, and neither has any further table. So only a select from one
plain table is compiled as it stands.
-/

namespace PortableQuery

open Dynamo

/-- The name that a query gives to a table. -/
def Table.label : Table → Option String
  | .named _ label => label
  | .nested _ label => label

/-- The table that is left if a nested select counts only with its name. -/
def Table.plain? (table : Table) : Option Table :=
  table.name?.map fun name ↦ .named name table.label

/-- The select from the first plain table that is found. -/
def Select.flattened (query : Select) : Select :=
  { query with tables := (query.tables.head?.bind Table.plain?).toList }

namespace Select

/-- A compilation that looks only at the name and the label of the first table. -/
theorem bind_source_flattened {α : Type} (backend : Backend) (query : Select)
    {first second : Table → String → Except Error α}
    (agree : ∀ table name, first (.named name table.label) name = second table name) :
    (do
      let table ← query.flattened.requireTable backend
      let name ← table.requireName backend
      first table name) = (do
      let table ← query.requireTable backend
      let name ← table.requireName backend
      second table name) := by
  unfold requireTable flattened
  cases query.tables with
  | nil => rfl
  | cons table more =>
    cases hname : table.name? with
    | none => simp [Table.plain?, Table.requireName, hname, bind, Except.bind]
    | some name => simp [Table.plain?, Table.requireName, Table.name?, hname, bind, Except.bind, agree]

theorem request_flattened (options : Options) (query : Select) :
    query.flattened.request options = query.request options := by
  unfold Select.request
  apply bind_congr
  intro _
  apply bind_source_flattened
  intro table name
  rfl

theorem partiql_flattened (query : Select) : query.flattened.partiql = query.partiql := by
  unfold Select.partiql
  apply bind_congr
  intro _
  apply bind_congr
  intro fields
  apply bind_source_flattened
  intro table name
  cases table with
  | named _ label => rfl
  | nested _ label => rfl

/-- A select that either backend compiles has a first table with a name. -/
theorem exists_name_of_compiles {options : Options} {query : Select}
    (compiles : (∃ request, query.request options = .ok request) ∨ ∃ text, query.partiql = .ok text) :
    ∃ table more name, query.tables = table :: more ∧ table.name? = some name := by
  have hsource : ∃ backend table name, query.requireTable backend = .ok table ∧
      table.requireName backend = .ok name := by
    rcases compiles with ⟨request, h⟩ | ⟨text, h⟩
    · simp only [Select.request, bind_eq_ok_iff] at h
      obtain ⟨-, -, table, htable, name, hname, -⟩ := h
      exact ⟨.dynamodb, table, name, htable, hname⟩
    · simp only [Select.partiql, bind_eq_ok_iff] at h
      obtain ⟨-, -, -, -, table, htable, name, hname, -⟩ := h
      exact ⟨.partiql, table, name, htable, hname⟩
  obtain ⟨backend, table, name, htable, hname⟩ := hsource
  unfold requireTable at htable
  split at htable
  · rename_i found more htables
    obtain rfl := Except.ok.inj htable
    unfold Table.requireName at hname
    split at hname
    · rename_i found hfound
      exact ⟨_, more, found, htables, hfound⟩
    · contradiction
  · contradiction

/-- Both backends compile a select as if it read from the first plain table that is found. This is the
select as it stands exactly if it reads from one plain table. -/
theorem compiles_as_flattened {options : Options} {query : Select}
    (compiles : (∃ request, query.request options = .ok request) ∨ ∃ text, query.partiql = .ok text) :
    query.request options = query.flattened.request options ∧
      query.partiql = query.flattened.partiql ∧
      (∃ name label, query.flattened.tables = [.named name label]) ∧
      ((∃ name label, query.tables = [.named name label]) ↔ query.flattened = query) := by
  obtain ⟨table, more, name, htables, hname⟩ := exists_name_of_compiles compiles
  have hflat : query.flattened.tables = [.named name table.label] := by
    simp [flattened, htables, Table.plain?, hname]
  refine ⟨(request_flattened options query).symm, (partiql_flattened query).symm,
    ⟨name, table.label, hflat⟩, ?_⟩
  constructor
  · rintro ⟨found, label, hplain⟩
    obtain ⟨tables, _⟩ := query
    obtain rfl := hplain
    rfl
  · intro heq
    rw [heq] at hflat
    exact ⟨name, table.label, hflat⟩

/-- The orders of one tenant, as a nested select behind a second table that is never read. -/
def tenantOrders : Select :=
  { Select.empty with
    tables := [.nested { Select.empty with
        tables := [.named "orders" none]
        filter := [.compare (.column "tenant") (.value (.string "acme")) .eq]
        limit := some 10 } (some "own"), .named "customers" none] }

theorem compiles_as_flattened_tenantOrders :
    (tenantOrders.request Options.default = .ok (.scan
        { tableName := "orders", indexName := none, filter := none, projection := none, names := [],
          values := [], limit := none, consistentRead := false }) ∧
      tenantOrders.partiql = .ok "SELECT * FROM orders AS own") ∧
    (¬ ∃ name label, tenantOrders.tables = [.named name label]) ∧
      tenantOrders.flattened ≠ tenantOrders := by
  have hrequest : tenantOrders.request Options.default = .ok _ := rfl
  have hplain : ¬ ∃ name label, tenantOrders.tables = [.named name label] := by
    simp [tenantOrders]
  obtain ⟨-, -, -, hiff⟩ := compiles_as_flattened (.inl ⟨_, hrequest⟩)
  exact ⟨⟨hrequest, rfl⟩, hplain, mt hiff.mpr hplain⟩

end Select

end PortableQuery
