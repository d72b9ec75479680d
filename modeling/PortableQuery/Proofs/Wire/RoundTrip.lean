import PortableQuery.Proofs.Wire.ReadBack

/-!
# The round trip of statements

A statement of any kind comes back from its text exactly if its literals do. Rows travel as JSON of
their own inside the statement's text, everything else as text inside JSON strings.
-/

namespace PortableQuery

open Text Wire

/-! ## Rows and assignments -/

/-- The rows that an insert brings. -/
def Statement.rows : Statement → List Row
  | .insert mutation => mutation.rows?.getD []
  | _ => []

def Statement.assignments : Statement → Entries Expr
  | .update mutation => mutation.assignments
  | _ => []

/-- The rows as one literal: they are written in the same way. -/
def Row.listLiteral (rows : List Row) : Literal := .list (rows.map .map)

theorem Row.toJson_listLiteral (rows : List Row) :
    (Row.listLiteral rows).toJson = .array (rows.map Row.toJson) := by
  simp only [listLiteral, Literal.toJson, Literal.toJsonItems_eq, List.map_map]
  congr 1
  refine List.map_congr_left fun row _ ↦ ?_
  simp [Literal.toJson, Literal.toJsonEntries_eq, Row.toJson]

theorem rowOfEntries_eq (entries : Entries Json) :
    rowOfEntries entries = Literal.ofJsonMembers entries := by
  induction entries with
  | nil => rfl
  | cons entry more ih =>
    obtain ⟨name, value⟩ := entry
    simpa [rowOfEntries, Literal.ofJsonMembers] using ih

theorem exists_members_of_rereadItems {rows : List Row} {found : List Json}
    (h : Json.rereadItems (rows.map Row.toJson) = some found) :
    ∃ given : List (Entries Json), found = given.map .object := by
  induction rows generalizing found with
  | nil =>
    obtain rfl := Option.some.inj h
    exact ⟨[], rfl⟩
  | cons row more ih =>
    rw [List.map_cons, Json.rereadItems, Row.toJson, Json.reread] at h
    split at h
    · rename_i first others hfirst hothers
      obtain rfl := Option.some.inj h
      obtain ⟨members, -, rfl⟩ := Option.map_eq_some_iff.mp hfirst
      obtain ⟨given, rfl⟩ := ih hothers
      exact ⟨members :: given, rfl⟩
    · contradiction

theorem mapM_members? (given : List (Entries Json)) :
    (given.map Json.object).mapM Json.members? = some given := by
  induction given with
  | nil => rfl
  | cons members more ih =>
    rw [List.map_cons, List.mapM_cons, ih]
    rfl

theorem ofJson_rows_iff {given : List (Entries Json)} {rows : List Row} :
    Literal.ofJson (.array (given.map .object)) = Row.listLiteral rows ↔
      given.map rowOfEntries = rows := by
  have hitems (members : List (Entries Json)) : Literal.ofJsonItems (members.map .object) =
      (members.map rowOfEntries).map Literal.map := by
    induction members with
    | nil => rfl
    | cons first more ih => simp [Literal.ofJsonItems, Literal.ofJson, ih, rowOfEntries_eq]
  rw [Literal.ofJson, Row.listLiteral, Literal.list.injEq, hitems,
    List.map_inj_right fun _ _ h ↦ Literal.map.inj h]

/-! ## Statements -/

namespace Statement

/-- What a statement must hold to be carried: in its nodes, in its rows and in its names. -/
structure Carried (statement : Statement) : Prop where
  nodes : statement.Everywhere Node.Carried
  rows : (Row.listLiteral statement.rows).Carried
  assignments : (Entries.keys statement.assignments).Nodup
  depth : statement.toJson.depth ≤ Json.depthLimit

/-- Reading keeps every literal of the statement. -/
def Stable (statement : Statement) : Prop :=
  statement.Everywhere Node.Stable ∧
    ∀ x ∈ (Row.listLiteral statement.rows).floats, Json.FloatReadsBack x

theorem decode_eq_ok_iff {text : String} {json : Json} {statement : Statement}
    (h : Json.parse text = some json) :
    Statement.decode text = .ok statement ↔
      statementOfJson (decodingFuel text.length) json = .ok statement := by
  simp only [Statement.decode, parseJson_eq h, bind, Except.bind]
  cases statementOfJson (decodingFuel text.length) json <;> simp

theorem decode_ne_ok {text : String} (h : Json.parse text = none) (statement : Statement) :
    Statement.decode text ≠ .ok statement := by
  simp [Statement.decode, parseJson, h, bind, Except.bind]

/-- The text of a statement without rows reads as the JSON it was written from. -/
theorem decode_encode_of_faithful {statement : Statement} (hfaithful : statement.toJson.Faithful)
    (hdepth : statement.toJson.depth ≤ Json.depthLimit) {p : Prop}
    (hread : ∀ fuel, statement.toJson.weight ≤ fuel →
      (statementOfJson fuel statement.toJson = .ok statement ↔ p)) :
    Statement.decode statement.encode = .ok statement ↔ p := by
  have hweight := Json.weight_le_length statement.toJson
  rw [Statement.encode, decode_eq_ok_iff (Json.parse_compact_of_faithful hfaithful hdepth)]
  apply hread
  rw [decodingFuel]
  omega

theorem stable_iff_of_rows_eq_nil {statement : Statement} (h : statement.rows = []) :
    statement.Stable ↔ statement.Everywhere Node.Stable := by
  simp [Stable, h, Row.listLiteral, Literal.floats, Literal.floatsItems]

theorem everywhere_update {p : Node → Prop} {mutation : Update} :
    (Statement.update mutation).Everywhere p ↔
      mutation.table.Everywhere p ∧ (∀ assignment ∈ mutation.assignments, assignment.2.Everywhere p) ∧
        ∀ test ∈ mutation.filter, test.Everywhere p := by
  simp only [Everywhere, nodes, List.forall_mem_append, forall_mem_flatMap, Table.Everywhere,
    Expr.Everywhere, Condition.Everywhere, and_assoc]

theorem everywhere_delete {p : Node → Prop} {mutation : Delete} :
    (Statement.delete mutation).Everywhere p ↔
      mutation.table.Everywhere p ∧ ∀ test ∈ mutation.filter, test.Everywhere p := by
  simp only [Everywhere, nodes, List.forall_mem_append, forall_mem_flatMap, Table.Everywhere,
    Condition.Everywhere]

theorem everywhere_insert {p : Node → Prop} {mutation : Insert} :
    (Statement.insert mutation).Everywhere p ↔
      mutation.table.Everywhere p ∧ ∀ source ∈ mutation.source, ∀ node ∈ source.nodes, p node := by
  simp only [Everywhere, nodes, List.forall_mem_append, forall_mem_flatMap, Table.Everywhere,
    Option.mem_toList, Option.mem_def]

theorem decode_encode_select {query : Select} (h : (Statement.select query).Carried) :
    Statement.decode (Statement.select query).encode = .ok (.select query) ↔
      (Statement.select query).Stable := by
  rw [stable_iff_of_rows_eq_nil rfl]
  have hfaithful : (Statement.select query).toJson.Faithful := query.faithful_toJson
  apply decode_encode_of_faithful hfaithful h.depth
  intro fuel hfuel
  have hread := query.readsBack.selectOfJson h.nodes fuel hfuel
  have hname : query.toJson.typeName? = some "SelectQuery" := by
    simpa [isSelectJson] using isSelectJson_toJson query
  rw [Statement.Everywhere, Statement.nodes, ← Select.Everywhere, ← hread]
  simp [statementOfJson, Statement.toJson, hname]

theorem decode_encode_delete {mutation : Delete} (h : (Statement.delete mutation).Carried) :
    Statement.decode (Statement.delete mutation).encode = .ok (.delete mutation) ↔
      (Statement.delete mutation).Stable := by
  rw [stable_iff_of_rows_eq_nil rfl]
  obtain ⟨htable, hfilter⟩ := everywhere_delete.mp h.nodes
  have hfaithful : (Statement.delete mutation).toJson.Faithful := by
    have harray : (Json.array (mutation.filter.map Condition.toJson)).Faithful :=
      Json.faithful_array (by simp [Condition.faithful_toJson])
    exact Json.faithful_object (by simp [Entries.keys])
      (by simp [Json.faithful_string, Table.faithful_toJson, Condition.toJsonList_eq, harray])
  apply decode_encode_of_faithful hfaithful h.depth
  intro fuel hfuel
  simp only [Statement.toJson, Delete.toJson, Json.weight, Json.weightMembers, Condition.toJsonList_eq]
    at hfuel
  have htableRead := mutation.table.readsBack htable fuel (by omega)
  have hfilterRead := mapM_conditionOfJson_iff (fun test _ ↦ test.readsBack) hfilter fuel (by omega)
  rw [everywhere_delete, ← htableRead, ← hfilterRead]
  obtain ⟨table, filter⟩ := mutation
  simp [statementOfJson, Statement.toJson, Delete.toJson, Json.typeName?, Json.get?, Entries.get?,
    Json.string?, Json.members?, deleteOfEntries, DeleteRecord.ofJson?, TableRecord.ofJson?_toJson,
    listField?, orJsonError, Condition.toJsonList_eq]

theorem mapM_assignmentOfJson_iff {assignments : Entries Expr}
    (hcarried : ∀ assignment ∈ assignments, assignment.2.Everywhere Node.Carried) (fuel : Nat)
    (hfuel : Json.weightMembers (assignments.map fun entry ↦ (entry.1, .string entry.2.encode)) ≤ fuel) :
    (assignments.map fun entry ↦ (entry.1, Json.string entry.2.encode)).mapM (fun entry ↦ do
      return (entry.1, ← assignmentOfJson fuel entry.2)) = .ok assignments ↔
      ∀ assignment ∈ assignments, assignment.2.Everywhere Node.Stable := by
  rw [mapM_map_eq_ok_iff]
  refine forall₂_congr fun assignment hassignment ↦ ?_
  have hweight := Json.weight_le_weightMembers_of_mem (List.mem_map_of_mem
    (f := fun entry : String × Expr ↦ (entry.1, Json.string entry.2.encode)) hassignment)
  rw [Json.weight] at hweight
  rw [← (assignment.2.readsBack (hcarried assignment hassignment)).1 fuel (by omega)]
  obtain ⟨name, value⟩ := assignment
  simp [assignmentOfJson]

theorem decode_encode_update {mutation : Update} (h : (Statement.update mutation).Carried) :
    Statement.decode (Statement.update mutation).encode = .ok (.update mutation) ↔
      (Statement.update mutation).Stable := by
  rw [stable_iff_of_rows_eq_nil rfl]
  obtain ⟨htable, hassignments, hfilter⟩ := everywhere_update.mp h.nodes
  have hnames : (Entries.keys mutation.assignments).Nodup := h.assignments
  have hvalues : (Json.object (mutation.assignments.map fun entry ↦
      (entry.1, .string entry.2.encode))).Faithful :=
    Json.faithful_object (by simpa [Entries.keys, Function.comp_def] using hnames)
      (by simp only [List.forall_mem_map, Json.faithful_string, implies_true])
  have hfaithful : (Statement.update mutation).toJson.Faithful := by
    have harray : (Json.array (mutation.filter.map Condition.toJson)).Faithful :=
      Json.faithful_array (by simp [Condition.faithful_toJson])
    exact Json.faithful_object (by simp [Entries.keys])
      (by simp [Json.faithful_string, Table.faithful_toJson, Condition.toJsonList_eq, harray, hvalues])
  apply decode_encode_of_faithful hfaithful h.depth
  intro fuel hfuel
  simp only [Statement.toJson, Update.toJson, Json.weight, Json.weightMembers, Condition.toJsonList_eq]
    at hfuel
  have htableRead := mutation.table.readsBack htable fuel (by omega)
  have hassignmentsRead := mapM_assignmentOfJson_iff hassignments fuel (by omega)
  have hfilterRead := mapM_conditionOfJson_iff (fun test _ ↦ test.readsBack) hfilter fuel (by omega)
  rw [everywhere_update, ← htableRead, ← hassignmentsRead, ← hfilterRead]
  obtain ⟨table, assignments, filter⟩ := mutation
  simp [statementOfJson, Statement.toJson, Update.toJson, Json.typeName?, Json.get?, Entries.get?,
    Json.string?, Json.members?, updateOfEntries, UpdateRecord.ofJson?, TableRecord.ofJson?_toJson,
    listField?, orJsonError, Condition.toJsonList_eq, and_left_comm]

theorem decode_encode_createTable {definition : CreateTable}
    (h : (Statement.createTable definition).Carried) :
    Statement.decode (Statement.createTable definition).encode = .ok (.createTable definition) ↔
      (Statement.createTable definition).Stable := by
  rw [stable_iff_of_rows_eq_nil rfl]
  have hfaithful : (Statement.createTable definition).toJson.Faithful :=
    Json.faithful_object (by simp [Entries.keys])
      (by simp [Json.faithful_string, Select.faithful_toJson])
  apply decode_encode_of_faithful hfaithful h.depth
  intro fuel hfuel
  simp only [Statement.toJson, CreateTable.toJson, Json.weight, Json.weightMembers] at hfuel
  have hrecord := SelectRecord.ofJson?_toJson definition.query fuel (by omega)
  have hread := definition.query.readsBack h.nodes fuel (by omega)
  rw [Statement.Everywhere, Statement.nodes, ← Select.Everywhere, ← hread]
  obtain ⟨name, query⟩ := definition
  simp only at hrecord
  simp [statementOfJson, Statement.toJson, CreateTable.toJson, Json.typeName?, Json.get?, Entries.get?,
    Json.string?, Json.members?, createTableOfEntries, createFields?, requiredString?, orJsonError,
    hrecord]

theorem decode_encode_createView {definition : CreateView}
    (h : (Statement.createView definition).Carried) :
    Statement.decode (Statement.createView definition).encode = .ok (.createView definition) ↔
      (Statement.createView definition).Stable := by
  rw [stable_iff_of_rows_eq_nil rfl]
  have hfaithful : (Statement.createView definition).toJson.Faithful :=
    Json.faithful_object (by simp [Entries.keys])
      (by simp [Json.faithful_string, Json.faithful_bool, Select.faithful_toJson])
  apply decode_encode_of_faithful hfaithful h.depth
  intro fuel hfuel
  simp only [Statement.toJson, CreateView.toJson, Json.weight, Json.weightMembers] at hfuel
  have hrecord := SelectRecord.ofJson?_toJson definition.query fuel (by omega)
  have hread := definition.query.readsBack h.nodes fuel (by omega)
  rw [Statement.Everywhere, Statement.nodes, ← Select.Everywhere, ← hread]
  obtain ⟨name, query, orReplace⟩ := definition
  simp only at hrecord
  simp [statementOfJson, Statement.toJson, CreateView.toJson, Json.typeName?, Json.get?, Entries.get?,
    Json.string?, Json.members?, createViewOfEntries, createFields?, requiredString?, boolField?,
    orJsonError, hrecord]

theorem decode_encode_insert_nothing {table : Table}
    (h : (Statement.insert ⟨table, none⟩).Carried) :
    Statement.decode (Statement.insert ⟨table, none⟩).encode = .ok (.insert ⟨table, none⟩) ↔
      (Statement.insert ⟨table, none⟩).Stable := by
  rw [stable_iff_of_rows_eq_nil rfl]
  obtain ⟨htable, -⟩ := everywhere_insert.mp h.nodes
  have hfaithful : (Statement.insert ⟨table, none⟩).toJson.Faithful :=
    Json.faithful_object (by simp [Entries.keys])
      (by simp [Json.faithful_string, Table.faithful_toJson])
  apply decode_encode_of_faithful hfaithful h.depth
  intro fuel hfuel
  simp only [Statement.toJson, Insert.toJson, Json.weight, Json.weightMembers_append, Json.weightMembers]
    at hfuel
  have htableRead := table.readsBack htable fuel (by omega)
  rw [everywhere_insert, ← htableRead]
  simp [statementOfJson, Statement.toJson, Insert.toJson, Json.typeName?, Json.get?, Entries.get?,
    Json.string?, Json.members?, insertOfEntries, InsertRecord.ofJson?, TableRecord.ofJson?_toJson,
    rowsField?, insertSelect?, orJsonError]

/-- The names of the columns into which a select is inserted, as JSON. -/
def columnsJson : Option (List String) → Json
  | none => .null
  | some names => .array (names.map .string)

theorem faithful_columnsJson (columns : Option (List String)) : (columnsJson columns).Faithful := by
  cases columns with
  | none => exact Json.faithful_null
  | some names => exact Json.faithful_array (by simp [Json.faithful_string])

theorem columnsOf?_columnsJson (columns : Option (List String)) :
    columnsOf? (columnsJson columns) = some columns := by
  cases columns with
  | none => rfl
  | some names =>
    have hnames : (names.map Json.string).mapM Json.string? = some (names.map id) :=
      mapM_map_eq_some fun _ _ ↦ rfl
    simp only [columnsJson, columnsOf?, hnames, List.map_id, Option.map_some]

theorem toJson_insert_select (table : Table) (query : Select) (columns : Option (List String)) :
    (Statement.insert ⟨table, some (.select query columns)⟩).toJson =
      .object [("type", .string "InsertMutation"), ("table", table.toJson),
        ("select", .array [query.toJson, columnsJson columns])] := by
  cases columns <;> rfl

theorem decode_encode_insert_select {table : Table} {query : Select} {columns : Option (List String)}
    (h : (Statement.insert ⟨table, some (.select query columns)⟩).Carried) :
    Statement.decode (Statement.insert ⟨table, some (.select query columns)⟩).encode =
        .ok (.insert ⟨table, some (.select query columns)⟩) ↔
      (Statement.insert ⟨table, some (.select query columns)⟩).Stable := by
  rw [stable_iff_of_rows_eq_nil rfl]
  obtain ⟨htable, hsource⟩ := everywhere_insert.mp h.nodes
  have hquery : query.Everywhere Node.Carried := hsource _ rfl
  have hfaithful : (Statement.insert ⟨table, some (.select query columns)⟩).toJson.Faithful := by
    have hpair : (Json.array [query.toJson, columnsJson columns]).Faithful :=
      Json.faithful_array (by simp [Select.faithful_toJson, faithful_columnsJson])
    rw [toJson_insert_select]
    exact Json.faithful_object (by simp [Entries.keys])
      (by simp [Json.faithful_string, Table.faithful_toJson, hpair])
  apply decode_encode_of_faithful hfaithful h.depth
  intro fuel hfuel
  simp only [toJson_insert_select, Json.weight, Json.weightMembers, Json.weightItems] at hfuel
  have htableRead := table.readsBack htable fuel (by omega)
  have hrecord := SelectRecord.ofJson?_toJson query fuel (by omega)
  have hqueryRead := query.readsBack hquery fuel (by omega)
  have hnodes : (∀ source ∈ some (InsertSource.select query columns), ∀ node ∈ source.nodes,
      node.Stable) ↔ query.Everywhere Node.Stable := by
    simp [InsertSource.nodes, Select.Everywhere]
  rw [everywhere_insert, ← htableRead, hnodes, ← hqueryRead, toJson_insert_select]
  simp [statementOfJson, Json.typeName?, Json.get?, Entries.get?, Json.string?, Json.members?,
    insertOfEntries, InsertRecord.ofJson?, TableRecord.ofJson?_toJson, rowsField?, insertSelect?,
    orJsonError, hrecord, columnsOf?_columnsJson, and_comm]

theorem toJson_insert_rows (table : Table) (rows : List Row) :
    (Statement.insert ⟨table, some (.rows rows)⟩).toJson =
      .object [("type", .string "InsertMutation"), ("table", table.toJson),
        ("values", .array (rows.map Row.toJson))] := rfl

theorem rowsField?_eq (table : Json) (given : List (Entries Json)) :
    rowsField? [("type", .string "InsertMutation"), ("table", table),
      ("values", .array (given.map .object))] = some (some given) := by
  have hget : Entries.get? [("type", .string "InsertMutation"), ("table", table),
      ("values", .array (given.map .object))] "values" = some (.array (given.map .object)) := by
    simp [Entries.get?]
  rw [rowsField?, hget]
  simp only [mapM_members?, Option.map_some]

/-- What is read from the text of an insert with rows: the table and the rows, each as it is read by
itself. -/
theorem decode_insert_rows_iff {table : Table} {rows : List Row} {statement : Statement}
    (hrows : (Row.listLiteral rows).toJson.Readable)
    (hdepth : (Statement.insert ⟨table, some (.rows rows)⟩).toJson.depth ≤ Json.depthLimit) :
    Statement.decode (Statement.insert ⟨table, some (.rows rows)⟩).encode = .ok statement ↔
      ∃ table' rows', tableOfRecord (decodingFuel (Statement.insert ⟨table, some (.rows rows)⟩).encode.length)
          table.record = .ok table' ∧
        (Row.listLiteral rows).reread = some (Row.listLiteral rows') ∧
        statement = .insert ⟨table', some (.rows rows')⟩ := by
  have hreadable : (Statement.insert ⟨table, some (.rows rows)⟩).toJson.Readable := by
    rw [Row.toJson_listLiteral] at hrows
    rw [toJson_insert_rows]
    refine ⟨by simp [Entries.keys], Json.readableMembers_iff.mpr ?_⟩
    simpa [Json.Readable, table.faithful_toJson.1] using hrows
  have hparse := Json.parse_compact hreadable hdepth
  rw [Literal.reread, Row.toJson_listLiteral, Json.reread, Statement.encode]
  rw [toJson_insert_rows] at hparse ⊢
  simp only [Json.reread, Json.rereadMembers, table.faithful_toJson.2] at hparse
  cases hitems : Json.rereadItems (rows.map Row.toJson) with
  | none =>
    simp only [hitems, Option.map_none] at hparse
    simp [decode_ne_ok hparse]
  | some found =>
    obtain ⟨given, rfl⟩ := exists_members_of_rereadItems hitems
    simp only [hitems, Option.map_some] at hparse
    rw [decode_eq_ok_iff hparse]
    simp [statementOfJson, Json.typeName?, Json.get?, Entries.get?, Json.string?, Json.members?,
      insertOfEntries, InsertRecord.ofJson?, TableRecord.ofJson?_toJson, rowsField?_eq, insertSelect?,
      orJsonError, ofJson_rows_iff, @eq_comm _ statement]

theorem decode_encode_insert_rows {table : Table} {rows : List Row}
    (h : (Statement.insert ⟨table, some (.rows rows)⟩).Carried) :
    Statement.decode (Statement.insert ⟨table, some (.rows rows)⟩).encode =
        .ok (.insert ⟨table, some (.rows rows)⟩) ↔
      (Statement.insert ⟨table, some (.rows rows)⟩).Stable := by
  obtain ⟨htable, -⟩ := everywhere_insert.mp h.nodes
  have hrows : (Row.listLiteral rows).Carried := h.rows
  have hweight := Json.weight_le_length (Statement.insert ⟨table, some (.rows rows)⟩).toJson
  simp only [toJson_insert_rows, Json.weight, Json.weightMembers] at hweight
  have htableRead := table.readsBack htable
    (decodingFuel (Statement.insert ⟨table, some (.rows rows)⟩).encode.length)
    (by rw [decodingFuel, Statement.encode, toJson_insert_rows]; omega)
  rw [decode_insert_rows_iff (Literal.readable_toJson hrows) h.depth, Stable, everywhere_insert,
    Statement.rows, Insert.rows?, Option.getD_some, ← Literal.reread_eq_self_iff hrows, ← htableRead]
  simp only [Statement.insert.injEq, Insert.mk.injEq, Option.some.injEq, InsertSource.rows.injEq]
  constructor
  · rintro ⟨_, _, hread, hreread, rfl, rfl⟩
    exact ⟨⟨hread, by simp [InsertSource.nodes]⟩, hreread⟩
  · rintro ⟨⟨hread, -⟩, hreread⟩
    exact ⟨table, rows, hread, hreread, rfl, rfl⟩

/-- A carried statement comes back from its text exactly if its literals do. -/
theorem decode_encode_iff_stable {statement : Statement} (h : statement.Carried) :
    Statement.decode statement.encode = .ok statement ↔ statement.Stable := by
  match statement with
  | .select query => exact decode_encode_select h
  | .insert ⟨table, none⟩ => exact decode_encode_insert_nothing h
  | .insert ⟨table, some (.rows rows)⟩ => exact decode_encode_insert_rows h
  | .insert ⟨table, some (.select query columns)⟩ => exact decode_encode_insert_select h
  | .update mutation => exact decode_encode_update h
  | .delete mutation => exact decode_encode_delete h
  | .createTable definition => exact decode_encode_createTable h
  | .createView definition => exact decode_encode_createView h

/-! ## Statements that are safe on the wire -/

/-- Every literal of a statement: those of its expressions and the cells of its rows. -/
def literals (statement : Statement) : List Literal :=
  statement.nodes.filterMap Node.literal? ++ statement.rows.flatMap fun row ↦ row.map Prod.snd

def floats (statement : Statement) : List Decimal.Finite := statement.literals.flatMap Literal.floats

/-- Every JSON value that is written as text: the whole statement and what its strings hold. -/
def texts (statement : Statement) : List Json :=
  statement.toJson :: statement.nodes.filterMap Node.payload?

structure WireSafe (statement : Statement) : Prop where
  /-- Every column is read as that column. -/
  columns : ∀ text, Node.expr (.column text) ∈ statement.nodes → Expr.decode text = .ok (.column text)
  /-- No slot of a value holds a column or a function call directly. -/
  values : ∀ test, Node.condition test ∈ statement.nodes →
    ∀ value ∈ test.valueSlots, value.FitsValueSlot
  literals : ∀ literal ∈ statement.literals, literal.Carried
  /-- No literal passes for a select. -/
  selects : ∀ literal, Node.expr (.value literal) ∈ statement.nodes → ¬literal.IsSelectLike
  /-- Names stand once in the assignments and in each row. -/
  names : (Entries.keys statement.assignments).Nodup ∧
    ∀ row ∈ statement.rows, (Entries.keys row).Nodup
  nesting : ∀ json ∈ statement.texts, json.depth ≤ Json.depthLimit

theorem carried_listLiteral_iff {rows : List Row} :
    (Row.listLiteral rows).Carried ↔
      (∀ row ∈ rows, (Entries.keys row).Nodup) ∧ ∀ row ∈ rows, ∀ entry ∈ row, entry.2.Carried := by
  simp only [Row.listLiteral, Literal.Carried, Literal.carriedItems_iff, List.forall_mem_map,
    Literal.carriedEntries_iff, forall_and]

theorem forall_mem_literals {statement : Statement} {p : Literal → Prop} :
    (∀ literal ∈ statement.literals, p literal) ↔
      (∀ node ∈ statement.nodes, ∀ literal ∈ node.literal?, p literal) ∧
        ∀ row ∈ statement.rows, ∀ entry ∈ row, p entry.2 := by
  simp only [literals, List.forall_mem_append, forall_mem_flatMap, List.forall_mem_map,
    List.mem_filterMap, Option.mem_def]
  constructor
  · rintro ⟨hnodes, hrows⟩
    exact ⟨fun node hnode literal hliteral ↦ hnodes literal ⟨node, hnode, hliteral⟩, hrows⟩
  · rintro ⟨hnodes, hrows⟩
    refine ⟨?_, hrows⟩
    rintro literal ⟨node, hnode, hliteral⟩
    exact hnodes node hnode literal hliteral

theorem forall_mem_texts {statement : Statement} {p : Json → Prop} :
    (∀ json ∈ statement.texts, p json) ↔
      p statement.toJson ∧ ∀ node ∈ statement.nodes, ∀ json ∈ node.payload?, p json := by
  simp only [texts, List.forall_mem_cons, List.mem_filterMap, Option.mem_def]
  refine and_congr_right fun _ ↦ ?_
  constructor
  · intro h node hnode json hjson
    exact h json ⟨node, hnode, hjson⟩
  · rintro h json ⟨node, hnode, hjson⟩
    exact h node hnode json hjson

theorem WireSafe.carried {statement : Statement} (h : statement.WireSafe) : statement.Carried := by
  obtain ⟨hdepth, hshallow⟩ := forall_mem_texts.mp h.nesting
  obtain ⟨hliterals, hcells⟩ := forall_mem_literals.mp h.literals
  exact ⟨Node.carried_of_mem h.columns h.values hliterals hshallow,
    carried_listLiteral_iff.mpr ⟨h.names.2, hcells⟩, h.names.1, hdepth⟩

theorem stable_iff {statement : Statement} :
    statement.Stable ↔
      (∀ literal, Node.expr (.value literal) ∈ statement.nodes → ¬literal.IsSelectLike) ∧
        ∀ x ∈ statement.floats, Json.FloatReadsBack x := by
  have hrows : (∀ x ∈ (Row.listLiteral statement.rows).floats, Json.FloatReadsBack x) ↔
      ∀ row ∈ statement.rows, ∀ entry ∈ row, ∀ x ∈ entry.2.floats, Json.FloatReadsBack x := by
    simp only [Row.listLiteral, Literal.floats, Literal.forall_mem_floatsItems, List.forall_mem_map,
      Literal.forall_mem_floatsEntries]
  rw [Stable, hrows, Everywhere, Node.forall_stable_iff, floats, forall_mem_flatMap,
    forall_mem_literals, and_assoc]

/-- A statement that is safe on the wire comes back from its text exactly if the text of each of its
floating-point numbers reads as that number. -/
theorem decode_encode_iff {statement : Statement} (h : statement.WireSafe) :
    Statement.decode statement.encode = .ok statement ↔
      ∀ x ∈ statement.floats, Json.parse (Json.compact (.float x)) = some (.float x) := by
  rw [decode_encode_iff_stable h.carried, stable_iff]
  exact and_iff_right h.selects

/-- An update that assigns a number to the rows whose kind is a text like a date or stands in a
table of kinds. -/
def assigning (x : Decimal.Finite) : Statement :=
  let kinds : Select :=
    { Select.empty with tables := [.named "kinds" (some "k")], fields := [⟨.column "k.name", none⟩] }
  .update
    { table := .named "readings" none,
      assignments := [("level", .call "ABS" [.value (.list [.float (.finite x), .null])])],
      filter := [.oneOf (.column "kind") [.value (.string "!D!soon"), .subquery kinds]] }

theorem nodes_assigning (x : Decimal.Finite) :
    ∃ kinds : Select, kinds.toJson.depth = 3 ∧ (assigning x).nodes =
      [.expr (.call "ABS" [.value (.list [.float (.finite x), .null])]),
        .expr (.value (.list [.float (.finite x), .null])),
        .condition (.oneOf (.column "kind") [.value (.string "!D!soon"), .subquery kinds]),
        .expr (.column "kind"), .expr (.value (.string "!D!soon")), .expr (.subquery kinds),
        .expr (.column "k.name")] := by
  refine ⟨{ Select.empty with tables := [.named "kinds" (some "k")],
                              fields := [⟨.column "k.name", none⟩] }, ?_, rfl⟩
  decide

theorem wireSafe_assigning (x : Decimal.Finite) : (assigning x).WireSafe := by
  obtain ⟨kinds, hdepth, hnodes⟩ := nodes_assigning x
  constructor
  case columns =>
    have hplain : Plain "kind" ∧ Plain "k.name" := by decide
    simpa [hnodes, Expr.decode_eq_column_iff] using hplain
  case values => simp [hnodes, Condition.valueSlots, Expr.FitsValueSlot]
  case literals =>
    rw [forall_mem_literals, hnodes]
    simp [Node.literal?, Literal.Carried, Literal.CarriedItems, rows, assigning]
  case selects => simp [hnodes, Literal.IsSelectLike]
  case names => simp [assigning, Statement.assignments, rows, Entries.keys]
  case nesting =>
    have houter : (assigning x).toJson.depth = 4 := rfl
    rw [forall_mem_texts, hnodes, houter]
    simp [Node.payload?, Expr.payload?, hdepth, Json.depthLimit, Json.depth, Json.depthItems,
      Literal.toJson, Literal.toJsonItems, Literal.floatJson, Expr.encodeList]

theorem floats_assigning (x : Decimal.Finite) : (assigning x).floats = [x] := rfl

/-- One half comes back, but 9.948308414043579 is read as its neighbour. -/
theorem decode_encode_assigning :
    (let half : Decimal.Finite := ⟨false, 4602678819172646912⟩
     (assigning half).WireSafe ∧ Statement.decode (assigning half).encode = .ok (assigning half)) ∧
    (let level : Decimal.Finite := ⟨false, 4621790017813065079⟩
     (assigning level).WireSafe ∧ Statement.decode (assigning level).encode ≠ .ok (assigning level)) := by
  refine ⟨⟨wireSafe_assigning _, (decode_encode_iff (wireSafe_assigning _)).mpr ?_⟩,
    wireSafe_assigning _, fun h ↦ ?_⟩
  · have hhalf : Json.FloatReadsBack ⟨false, 4602678819172646912⟩ := Json.floatReadsBack_half
    rw [floats_assigning, List.forall_mem_singleton]
    exact hhalf
  · have hlevel : ¬Json.FloatReadsBack ⟨false, 4621790017813065079⟩ := by decide +kernel
    have hread := (decode_encode_iff (wireSafe_assigning _)).mp h
    rw [floats_assigning, List.forall_mem_singleton] at hread
    exact hlevel hread

end Statement

end PortableQuery
