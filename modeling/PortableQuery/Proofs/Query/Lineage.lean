import Mathlib.Data.List.Basic
import Mathlib.Data.List.Nodup
import PortableQuery.Proofs.Query.Induction
import PortableQuery.Query.Lineage

/-!
# Lineage

The names that a statement reports are those of the tables it refers to, each once, in the order in
which they are first met. The tables referred to are the target of a mutation and what a select and
its union tails read from. A nested select counts with a single name, which is found by following
first tables; whatever else it reads stays out of the lineage. A created name is put in front of the
names of its query and is repeated there if the query reads it.
-/

namespace PortableQuery

/-! ## First occurrences -/

/-- The elements of a list of occurrences, each once, in the order in which they first occur. -/
structure FirstSeen (names occurrences : List String) : Prop where
  nodup : names.Nodup
  mem_iff : ∀ name, name ∈ names ↔ name ∈ occurrences
  ordered : names.Pairwise fun first second ↦ occurrences.idxOf first < occurrences.idxOf second

namespace FirstSeen

variable {names occurrences : List String} {name : String}

theorem nil : FirstSeen [] [] := ⟨List.nodup_nil, by simp, List.Pairwise.nil⟩

theorem idxOf_append (seen : FirstSeen names occurrences) (more : List String) :
    ∀ name ∈ names, (occurrences ++ more).idxOf name = occurrences.idxOf name := by
  intro name hname
  exact List.idxOf_append_of_mem ((seen.mem_iff name).mp hname)

/-- What was ordered stays so when occurrences are added behind. -/
theorem ordered_append (seen : FirstSeen names occurrences) (more : List String) :
    names.Pairwise fun first second ↦
      (occurrences ++ more).idxOf first < (occurrences ++ more).idxOf second := by
  refine seen.ordered.imp_of_mem ?_
  intro first second hfirst hsecond hlt
  rwa [seen.idxOf_append more first hfirst, seen.idxOf_append more second hsecond]

/-- An occurrence of a name that is already there. -/
theorem again (seen : FirstSeen names occurrences) (known : name ∈ names) :
    FirstSeen names (occurrences ++ [name]) where
  nodup := seen.nodup
  mem_iff other := by
    rw [List.mem_append, List.mem_singleton, ← seen.mem_iff]
    constructor
    · exact Or.inl
    · rintro (hother | rfl)
      · exact hother
      · exact known
  ordered := seen.ordered_append [name]

/-- The first occurrence of a name. -/
theorem fresh (seen : FirstSeen names occurrences) (unknown : name ∉ names) :
    FirstSeen (names ++ [name]) (occurrences ++ [name]) where
  nodup := by
    rw [← List.concat_eq_append]
    exact List.Nodup.concat unknown seen.nodup
  mem_iff other := by simp only [List.mem_append, seen.mem_iff]
  ordered := by
    refine List.pairwise_append.mpr ⟨seen.ordered_append [name], List.pairwise_singleton _ _, ?_⟩
    intro first hfirst second hsecond
    obtain rfl := List.mem_singleton.mp hsecond
    have hmem : first ∈ occurrences := (seen.mem_iff first).mp hfirst
    have hnew : second ∉ occurrences := mt (seen.mem_iff second).mpr unknown
    calc
      (occurrences ++ [second]).idxOf first = occurrences.idxOf first :=
        List.idxOf_append_of_mem hmem
      _ < occurrences.length := List.idxOf_lt_length_of_mem hmem
      _ ≤ (occurrences ++ [second]).idxOf second := by
        rw [List.idxOf_append_of_notMem hnew]
        exact Nat.le_add_right _ _

end FirstSeen

theorem firstSeen_cons (seen more : List String) (name : String) :
    firstSeen seen (name :: more) =
      if name ∈ seen then firstSeen seen more else firstSeen (name :: seen) more := by
  rw [firstSeen.eq_def]

/-- Going on from what was seen before. -/
theorem FirstSeen.collect {seen before : List String} (h : FirstSeen seen.reverse before)
    (names : List String) : FirstSeen (PortableQuery.firstSeen seen names) (before ++ names) := by
  induction names generalizing seen before with
  | nil => simpa [PortableQuery.firstSeen] using h
  | cons name more ih =>
    rw [← List.singleton_append, ← List.append_assoc, List.singleton_append, firstSeen_cons]
    split
    · rename_i known
      exact ih (h.again (List.mem_reverse.mpr known))
    · rename_i unknown
      apply ih
      rw [List.reverse_cons]
      exact h.fresh (mt List.mem_reverse.mp unknown)

theorem firstSeen_distinct (names : List String) : FirstSeen (distinct names) names := by
  have hnothing : FirstSeen ([] : List String).reverse [] := FirstSeen.nil
  exact hnothing.collect names

theorem mem_firstSeen {seen names : List String} {name : String} :
    name ∈ firstSeen seen names ↔ name ∈ seen ∨ name ∈ names := by
  induction names generalizing seen with
  | nil => simp [firstSeen]
  | cons other more ih =>
    rw [firstSeen_cons]
    split
    · rename_i known
      rw [ih, List.mem_cons]
      constructor
      · exact Or.imp_right Or.inr
      · rintro (hseen | rfl | hmore)
        · exact .inl hseen
        · exact .inl known
        · exact .inr hmore
    · rw [ih, List.mem_cons, List.mem_cons, or_assoc, or_left_comm]

theorem firstSeen_append (seen first second : List String) :
    firstSeen seen (first ++ second) = firstSeen (firstSeen seen first).reverse second := by
  induction first generalizing seen with
  | nil => simp [firstSeen]
  | cons name more ih =>
    rw [List.cons_append, firstSeen_cons, firstSeen_cons, ih, ih]
    split <;> rfl

/-- Collecting what was collected on its own is collecting all of it. -/
theorem firstSeen_firstSeen (seen collected names : List String) :
    firstSeen seen (firstSeen collected names) =
      firstSeen (firstSeen seen collected.reverse).reverse names := by
  induction names generalizing collected with
  | nil => simp [firstSeen]
  | cons name more ih =>
    rw [firstSeen_cons, firstSeen_cons]
    split
    · rename_i known
      have hmem : name ∈ (firstSeen seen collected.reverse).reverse := by simp [mem_firstSeen, known]
      rw [ih, if_pos hmem]
    · rw [ih, List.reverse_cons, firstSeen_append, firstSeen_cons]
      split <;> simp [firstSeen]

theorem distinct_distinct_between (front names back : List String) :
    distinct (front ++ (distinct names ++ back)) = distinct (front ++ (names ++ back)) := by
  have hinner (seen : List String) : firstSeen seen (distinct names) = firstSeen seen names := by
    rw [distinct, firstSeen_firstSeen, List.reverse_nil, firstSeen, List.reverse_reverse]
  simp only [distinct, firstSeen_append] at hinner ⊢
  rw [hinner]

/-! ## The tables referred to -/

/-- The plain name that a table leads to: its own, or that of the first table of a nested select. -/
inductive Table.LeadsTo : Table → String → Prop
  | named {name : String} {label : Option String} : LeadsTo (.named name label) name
  | nested {query : Select} {first : Table} {more : List Table} {label : Option String} {name : String}
      (tables : query.tables = first :: more) (inner : LeadsTo first name) :
      LeadsTo (.nested query label) name

mutual

/-- The tables that a select and its union tails read from. -/
def Select.references : Select → List Table
  | ⟨tables, joins, _, _, _, _, _, _, _, unions⟩ =>
    tables ++ (joins.map Join.table ++ UnionTail.references unions)

def UnionTail.references : List UnionTail → List Table
  | [] => []
  | ⟨_, query⟩ :: more => query.references ++ UnionTail.references more

end

def InsertSource.references : InsertSource → List Table
  | .rows _ => []
  | .select query _ => query.references

/-- The target of a mutation and the tables that the statement reads from. -/
def Statement.references : Statement → List Table
  | .select query => query.references
  | .insert mutation => mutation.table :: mutation.source.toList.flatMap InsertSource.references
  | .update mutation => [mutation.table]
  | .delete mutation => [mutation.table]
  | .createTable definition => definition.query.references
  | .createView definition => definition.query.references

/-- The name of a table or view that a statement creates. -/
def Statement.created? : Statement → Option String
  | .createTable definition => some definition.name
  | .createView definition => some definition.name
  | _ => none

mutual

/-- All plain names that a table stands for, those inside nested selects included. -/
def Table.sources : Table → List String
  | .named name _ => [name]
  | .nested query _ => query.sources

def Table.sourcesList : List Table → List String
  | [] => []
  | table :: more => table.sources ++ Table.sourcesList more

def Join.sourcesList : List Join → List String
  | [] => []
  | ⟨table, _, _⟩ :: more => table.sources ++ Join.sourcesList more

def UnionTail.sourcesList : List UnionTail → List String
  | [] => []
  | ⟨_, query⟩ :: more => query.sources ++ UnionTail.sourcesList more

def Select.sources : Select → List String
  | ⟨tables, joins, _, _, _, _, _, _, _, unions⟩ =>
    Table.sourcesList tables ++ (Join.sourcesList joins ++ UnionTail.sourcesList unions)

end

def InsertSource.sources : InsertSource → List String
  | .rows _ => []
  | .select query _ => query.sources

/-- The target or created name and all plain names in the selects that a statement reads from. -/
def Statement.sources : Statement → List String
  | .select query => query.sources
  | .insert mutation => mutation.table.sources ++ mutation.source.toList.flatMap InsertSource.sources
  | .update mutation => mutation.table.sources
  | .delete mutation => mutation.table.sources
  | .createTable definition => definition.name :: definition.query.sources
  | .createView definition => definition.name :: definition.query.sources

theorem UnionTail.references_eq (tails : List UnionTail) :
    references tails = tails.flatMap fun tail ↦ tail.query.references := by
  induction tails with
  | nil => rfl
  | cons tail more ih =>
    obtain ⟨kind, query⟩ := tail
    simp [references, ih]

theorem UnionTail.tableNames_eq (tails : List UnionTail) :
    tableNames tails = tails.flatMap fun tail ↦ tail.query.tableNames := by
  induction tails with
  | nil => rfl
  | cons tail more ih =>
    obtain ⟨kind, query⟩ := tail
    simp [tableNames, ih]

theorem Table.sourcesList_eq (tables : List Table) : sourcesList tables = tables.flatMap sources := by
  induction tables with
  | nil => rfl
  | cons table more ih => simp [sourcesList, ih]

theorem Join.sourcesList_eq (joins : List Join) :
    sourcesList joins = joins.flatMap fun join ↦ join.table.sources := by
  induction joins with
  | nil => rfl
  | cons join more ih =>
    obtain ⟨table, condition, kind⟩ := join
    simp [sourcesList, ih]

theorem UnionTail.sourcesList_eq (tails : List UnionTail) :
    sourcesList tails = tails.flatMap fun tail ↦ tail.query.sources := by
  induction tails with
  | nil => rfl
  | cons tail more ih =>
    obtain ⟨kind, query⟩ := tail
    simp [sourcesList, ih]

theorem Select.references_eq (query : Select) :
    query.references = query.tables ++ (query.joins.map Join.table ++
      query.unions.flatMap fun tail ↦ tail.query.references) := by
  obtain ⟨tables, joins, fields, filter, having, orderBy, groupBy, limit, offset, unions⟩ := query
  rw [references, UnionTail.references_eq]

theorem Select.sources_eq (query : Select) :
    query.sources = query.tables.flatMap Table.sources ++
      ((query.joins.flatMap fun join ↦ join.table.sources) ++
        query.unions.flatMap fun tail ↦ tail.query.sources) := by
  obtain ⟨tables, joins, fields, filter, having, orderBy, groupBy, limit, offset, unions⟩ := query
  rw [sources, Table.sourcesList_eq, Join.sourcesList_eq, UnionTail.sourcesList_eq]

theorem Select.tableNames_eq (query : Select) :
    query.tableNames = distinct (query.tables.filterMap Table.name? ++
      ((query.joins.map Join.table).filterMap Table.name? ++
        query.unions.flatMap fun tail ↦ tail.query.tableNames)) := by
  obtain ⟨tables, joins, fields, filter, having, orderBy, groupBy, limit, offset, unions⟩ := query
  rw [tableNames, UnionTail.tableNames_eq, List.append_assoc, List.filterMap_map]
  rfl

/-! ## What is reported -/

theorem Table.name?_nested (query : Select) (label : Option String) :
    (Table.nested query label).name? = query.tables.head?.bind Table.name? := by
  obtain ⟨tables, joins, fields, filter, having, orderBy, groupBy, limit, offset, unions⟩ := query
  cases tables with
  | nil => rfl
  | cons first more => rfl

theorem Table.name?_of_leadsTo {table : Table} {name : String} (h : table.LeadsTo name) :
    table.name? = some name := by
  induction h with
  | named => rfl
  | nested tables _ ih => rw [name?_nested, tables, List.head?_cons, Option.bind_some, ih]

/-- A nested select has the name that its first table leads to. -/
theorem Table.leadsTo_of_name? : ∀ (table : Table) (name : String), table.name? = some name →
    table.LeadsTo name := by
  refine QueryInduction.forTable (P := fun _ ↦ True) (Q := fun _ ↦ True)
    (R := fun query ↦ ∀ table ∈ query.tables, ∀ name, table.name? = some name → table.LeadsTo name)
    ⟨by simp, by simp, by simp, by simp, by simp, by simp, by simp, by simp, by simp, by simp, by simp,
      by simp, by simp, by simp, by simp, by simp, ?_, ?_, fun _ htables _ _ _ _ _ _ _ ↦ htables⟩
  · rintro found label name h
    obtain rfl := Option.some.inj h
    exact .named
  · intro query label inside name h
    rw [name?_nested] at h
    cases htables : query.tables with
    | nil => simp [htables] at h
    | cons first more =>
      rw [htables, List.head?_cons, Option.bind_some] at h
      exact .nested htables (inside first (by simp [htables]) name h)

theorem Table.name?_eq_some_iff {table : Table} {name : String} :
    table.name? = some name ↔ table.LeadsTo name :=
  ⟨leadsTo_of_name? table name, name?_of_leadsTo⟩

/-- Parts that are collected on their own give the same names as all their occurrences. -/
theorem distinct_flatMap {α : Type} {collected occurrences : α → List String} (items : List α)
    (h : ∀ item ∈ items, collected item = distinct (occurrences item)) (front : List String) :
    distinct (front ++ items.flatMap collected) = distinct (front ++ items.flatMap occurrences) := by
  induction items generalizing front with
  | nil => rfl
  | cons item more ih =>
    obtain ⟨hitem, hmore⟩ := List.forall_mem_cons.mp h
    rw [List.flatMap_cons, List.flatMap_cons, hitem, distinct_distinct_between, ← List.append_assoc,
      ih hmore, List.append_assoc]

theorem Select.tableNames_eq_distinct : ∀ query : Select,
    query.tableNames = distinct (query.references.filterMap Table.name?) := by
  apply Select.union_induction
  intro query tails
  rw [tableNames_eq, references_eq, List.filterMap_append, List.filterMap_append,
    List.filterMap_flatMap, ← List.append_assoc, ← List.append_assoc]
  exact distinct_flatMap query.unions tails _

theorem Select.sources_eq_flatMap : ∀ query : Select,
    query.sources = query.references.flatMap Table.sources := by
  apply Select.union_induction
  intro query tails
  rw [sources_eq, references_eq, List.flatMap_append, List.flatMap_append, List.flatMap_map,
    List.flatMap_assoc, List.flatMap_congr tails]

theorem Table.mem_sources_of_leadsTo {table : Table} {name : String} (h : table.LeadsTo name) :
    name ∈ table.sources := by
  induction h with
  | named => simp [sources]
  | @nested query first more label name tables _ ih =>
    rw [sources, Select.sources_eq, tables]
    simp [ih]

namespace Statement

theorem tableNames_eq (statement : Statement) :
    statement.tableNames =
      statement.created?.toList ++ distinct (statement.references.filterMap Table.name?) := by
  have htarget (table : Table) : table.name?.toList = distinct ([table].filterMap Table.name?) := by
    cases h : table.name? <;> simp [h, distinct, firstSeen]
  cases statement with
  | select query => exact query.tableNames_eq_distinct
  | insert mutation =>
    obtain ⟨table, source⟩ := mutation
    match source with
    | none => exact htarget table
    | some (.rows rows) => exact htarget table
    | some (.select query columns) =>
      have hcollect := distinct_distinct_between table.name?.toList
        (query.references.filterMap Table.name?) []
      rw [List.append_nil, List.append_nil] at hcollect
      simp only [tableNames, Insert.tableNames, query.tableNames_eq_distinct, hcollect]
      cases h : table.name? <;>
        simp [created?, references, InsertSource.references, h]
  | update mutation => exact htarget mutation.table
  | delete mutation => exact htarget mutation.table
  | createTable definition =>
    simp [tableNames, created?, references, definition.query.tableNames_eq_distinct]
  | createView definition =>
    simp [tableNames, created?, references, definition.query.tableNames_eq_distinct]

theorem sources_eq (statement : Statement) :
    statement.sources = statement.created?.toList ++ statement.references.flatMap Table.sources := by
  cases statement with
  | select query => exact query.sources_eq_flatMap
  | insert mutation =>
    obtain ⟨table, source⟩ := mutation
    match source with
    | none => simp [sources, created?, references]
    | some (.rows rows) => simp [sources, created?, references, InsertSource.sources,
        InsertSource.references]
    | some (.select query columns) => simp [sources, created?, references, InsertSource.sources,
        InsertSource.references, query.sources_eq_flatMap]
  | update mutation => simp [sources, created?, references]
  | delete mutation => simp [sources, created?, references]
  | createTable definition => simp [sources, created?, references, definition.query.sources_eq_flatMap]
  | createView definition => simp [sources, created?, references, definition.query.sources_eq_flatMap]

/-- The names of a statement are a created name and, each once and in the order of their first places,
the names that the tables it refers to lead to. No other names are reported than those of sources, and
if no table is nested, all of them are. -/
theorem tableNames_lineage (statement : Statement) :
    (∃ names, statement.tableNames = statement.created?.toList ++ names ∧
      FirstSeen names (statement.references.filterMap Table.name?)) ∧
    (∀ (table : Table) (name : String), table.name? = some name ↔ table.LeadsTo name) ∧
    (∀ name ∈ statement.tableNames, name ∈ statement.sources) ∧
    ((∀ table ∈ statement.references, ∃ name label, table = .named name label) →
      ∀ name ∈ statement.sources, name ∈ statement.tableNames) := by
  have hseen := firstSeen_distinct (statement.references.filterMap Table.name?)
  refine ⟨⟨_, statement.tableNames_eq, hseen⟩, fun _ _ ↦ Table.name?_eq_some_iff, ?_, ?_⟩
  · intro name hname
    rw [tableNames_eq, List.mem_append, hseen.mem_iff] at hname
    rw [sources_eq, List.mem_append]
    refine hname.imp_right ?_
    intro hmem
    obtain ⟨table, htable, hled⟩ := List.mem_filterMap.mp hmem
    exact List.mem_flatMap.mpr
      ⟨table, htable, Table.mem_sources_of_leadsTo (Table.name?_eq_some_iff.mp hled)⟩
  · intro plain name hname
    rw [sources_eq, List.mem_append] at hname
    rw [tableNames_eq, List.mem_append, hseen.mem_iff]
    refine hname.imp_right ?_
    intro hmem
    obtain ⟨table, htable, hsource⟩ := List.mem_flatMap.mp hmem
    obtain ⟨found, label, rfl⟩ := plain table htable
    obtain rfl := List.mem_singleton.mp hsource
    exact List.mem_filterMap.mpr ⟨_, htable, rfl⟩

/-- A table is made of the orders with their customers and of its own former rows. -/
def archiving : Statement :=
  .createTable
    { name := "archive"
      query := { Select.empty with
        tables := [.nested { Select.empty with
            tables := [.named "orders" none]
            joins := [{ table := .named "customers" none, condition := none, kind := .cross }] } none]
        joins := [{ table := .named "archive" none, condition := none, kind := .cross }] } }

/-- The table joined inside a nested select is missing, and the created one is there twice. -/
theorem tableNames_archiving :
    archiving.tableNames = ["archive", "orders", "archive"] ∧
      archiving.sources = ["archive", "orders", "customers", "archive"] ∧
      ¬ FirstSeen archiving.tableNames archiving.sources := by
  have hnames : archiving.tableNames = ["archive", "orders", "archive"] := rfl
  have hsources : archiving.sources = ["archive", "orders", "customers", "archive"] := rfl
  refine ⟨hnames, hsources, ?_⟩
  intro seen
  have hmissing := seen.mem_iff "customers"
  rw [hnames, hsources] at hmissing
  exact absurd (hmissing.mpr (by decide)) (by decide)

end Statement

end PortableQuery
