import PortableQuery.Proofs.Query.Rewriting
import PortableQuery.Proofs.Wire.RoundTrip
import PortableQuery.Sql.Escape

/-!
# Bytes on the wire

JSON has no bytes: they are written as a list of numbers, and read as that list. A literal with its
bytes listed in this way is written like the literal itself, and no text that is made of literals
tells the two apart. So it is with queries: one that is fit for the wire but for its bytes has the
text of the query with all bytes listed, and it is this query that is read from the text.
-/

namespace PortableQuery

open Text Wire Sql

namespace Literal

/-! ## Literals inside literals -/

mutual

/-- A literal and all literals inside it. -/
def parts : Literal → List Literal
  | .list items => .list items :: partsItems items
  | .map entries => .map entries :: partsEntries entries
  | other => [other]

def partsItems : List Literal → List Literal
  | [] => []
  | item :: more => item.parts ++ partsItems more

def partsEntries : List (String × Literal) → List Literal
  | [] => []
  | (_, value) :: more => value.parts ++ partsEntries more

end

section Parts

variable {p : Literal → Prop}

theorem forall_mem_partsItems {items : List Literal} :
    (∀ part ∈ partsItems items, p part) ↔ ∀ item ∈ items, ∀ part ∈ item.parts, p part := by
  induction items with
  | nil => simp [partsItems]
  | cons item more ih => simp only [partsItems, List.forall_mem_append, List.forall_mem_cons, ih]

theorem forall_mem_partsEntries {entries : List (String × Literal)} :
    (∀ part ∈ partsEntries entries, p part) ↔ ∀ entry ∈ entries, ∀ part ∈ entry.2.parts, p part := by
  induction entries with
  | nil => simp [partsEntries]
  | cons entry more ih => simp only [partsEntries, List.forall_mem_append, List.forall_mem_cons, ih]

theorem forall_mem_parts_list {items : List Literal} :
    (∀ part ∈ (Literal.list items).parts, p part) ↔
      p (.list items) ∧ ∀ item ∈ items, ∀ part ∈ item.parts, p part := by
  rw [parts, List.forall_mem_cons, forall_mem_partsItems]

theorem forall_mem_parts_map {entries : List (String × Literal)} :
    (∀ part ∈ (Literal.map entries).parts, p part) ↔
      p (.map entries) ∧ ∀ entry ∈ entries, ∀ part ∈ entry.2.parts, p part := by
  rw [parts, List.forall_mem_cons, forall_mem_partsEntries]

end Parts

/-- A number is finite, and a map has no name twice. -/
def Proper : Literal → Prop
  | .float value => ∃ number, value = .finite number
  | .map entries => (Entries.keys entries).Nodup
  | _ => True

/-- Literals that can be written; they may hold bytes. -/
def Writable (literal : Literal) : Prop := ∀ part ∈ literal.parts, part.Proper

theorem writable_list {items : List Literal} :
    (Literal.list items).Writable ↔ ∀ item ∈ items, item.Writable := by
  rw [Writable, forall_mem_parts_list]
  exact and_iff_right trivial

theorem writable_map {entries : List (String × Literal)} :
    (Literal.map entries).Writable ↔
      (Entries.keys entries).Nodup ∧ ∀ entry ∈ entries, entry.2.Writable := by
  rw [Writable, forall_mem_parts_map, Proper]
  rfl

theorem writable_float {value : Decimal.Binary64} :
    (Literal.float value).Writable ↔ ∃ number, value = .finite number := by
  simp [Writable, parts, Proper]

/-! ## Listed bytes -/

/-- An octet as a number. -/
def ofOctet (octet : UInt8) : Literal := .int (Int64.ofNat octet.toNat)

mutual

/-- The literal with a list of numbers in the place of all bytes. -/
def listed : Literal → Literal
  | .bytes octets => .list (octets.map ofOctet)
  | .list items => .list (listedItems items)
  | .map entries => .map (listedEntries entries)
  | other => other

def listedItems : List Literal → List Literal
  | [] => []
  | item :: more => item.listed :: listedItems more

def listedEntries : List (String × Literal) → List (String × Literal)
  | [] => []
  | (name, value) :: more => (name, value.listed) :: listedEntries more

end

theorem listedItems_eq (items : List Literal) : listedItems items = items.map listed := by
  induction items with
  | nil => rfl
  | cons item more ih => simp [listedItems, ih]

theorem listedEntries_eq (entries : List (String × Literal)) :
    listedEntries entries = entries.map fun entry ↦ (entry.1, entry.2.listed) := by
  induction entries with
  | nil => rfl
  | cons entry more ih => simp [listedEntries, ih]

theorem toInt_ofNat_octet (octet : UInt8) : (Int64.ofNat octet.toNat).toInt = octet.toNat := by
  have hlt := octet.toNat_lt
  rw [Int64.toInt_ofNat_of_lt (by omega)]

/-- Octets are written like the numbers that stand for them. -/
theorem toJson_ofOctet (octet : UInt8) : (ofOctet octet).toJson = .integer octet.toNat := by
  rw [ofOctet, toJson, toInt_ofNat_octet]

theorem plain_ofOctet (octet : UInt8) : (ofOctet octet).plain = Numeral.ofNat octet.toNat := by
  rw [ofOctet, plain, intText, toInt_ofNat_octet]
  rfl

theorem toJson_listed (literal : Literal) : literal.listed.toJson = literal.toJson := by
  induction literal using Literal.induction with
  | bytes octets =>
    simp only [listed, toJson, toJsonItems_eq, List.map_map]
    congr 1
    exact List.map_congr_left fun octet _ ↦ toJson_ofOctet octet
  | list items ih =>
    simp only [listed, toJson, toJsonItems_eq, listedItems_eq, List.map_map]
    congr 1
    exact List.map_congr_left ih
  | map entries ih =>
    simp only [listed, toJson, toJsonEntries_eq, listedEntries_eq, List.map_map]
    congr 1
    apply List.map_congr_left
    intro entry hentry
    simp [ih entry hentry]
  | _ => rfl

theorem plainItems_eq (items : List Literal) : plainItems items = items.map plain := by
  induction items with
  | nil => rfl
  | cons item more ih => simp [plainItems, ih]

theorem plain_listed (literal : Literal) : literal.listed.plain = literal.plain := by
  induction literal using Literal.induction with
  | bytes octets =>
    simp only [listed, plain, plainItems_eq, List.map_map]
    congr 1
    exact List.map_congr_left fun octet _ ↦ plain_ofOctet octet
  | list items ih =>
    simp only [listed, plain, plainItems_eq, listedItems_eq, List.map_map]
    congr 1
    exact List.map_congr_left ih
  | map entries ih => simp [listed, plain]
  | _ => rfl

/-- Bytes and lists are both rendered as plain text. -/
theorem value_listed (flavor : Flavor) (literal : Literal) :
    flavor.value literal.listed = flavor.value literal := by
  cases literal with
  | bytes octets => exact plain_listed (.bytes octets)
  | list items => exact plain_listed (.list items)
  | map entries => exact plain_listed (.map entries)
  | _ => rfl

theorem floats_ofOctets (octets : List UInt8) : floatsItems (octets.map ofOctet) = [] := by
  induction octets with
  | nil => rfl
  | cons octet more ih => simp [floatsItems, ofOctet, floats, ih]

theorem floatsItems_eq (items : List Literal) : floatsItems items = items.flatMap floats := by
  induction items with
  | nil => rfl
  | cons item more ih => simp [floatsItems, ih]

theorem floatsEntries_eq (entries : List (String × Literal)) :
    floatsEntries entries = entries.flatMap fun entry ↦ entry.2.floats := by
  induction entries with
  | nil => rfl
  | cons entry more ih => simp [floatsEntries, ih]

theorem floats_listed (literal : Literal) : literal.listed.floats = literal.floats := by
  induction literal using Literal.induction with
  | bytes octets => exact floats_ofOctets octets
  | list items ih =>
    simp only [listed, floats, floatsItems_eq, listedItems_eq, List.flatMap_map]
    rw [List.flatMap_def, List.flatMap_def, List.map_congr_left ih]
  | map entries ih =>
    simp only [listed, floats, floatsEntries_eq, listedEntries_eq, List.flatMap_map]
    rw [List.flatMap_def, List.flatMap_def, List.map_congr_left ih]
  | _ => rfl

/-- With its bytes listed, a literal that can be written is carried. -/
theorem carried_listed {literal : Literal} (h : literal.Writable) : literal.listed.Carried := by
  induction literal using Literal.induction with
  | float value => exact writable_float.mp h
  | bytes octets =>
    simp only [listed, Carried, carriedItems_iff, List.forall_mem_map]
    exact fun octet _ ↦ trivial
  | list items ih =>
    have hitems := writable_list.mp h
    simp only [listed, Carried, carriedItems_iff, listedItems_eq, List.forall_mem_map]
    exact fun item hitem ↦ ih item hitem (hitems item hitem)
  | map entries ih =>
    obtain ⟨hnames, hentries⟩ := writable_map.mp h
    simp only [listed, Carried, carriedEntries_iff, listedEntries_eq, List.forall_mem_map]
    refine ⟨?_, fun entry hentry ↦ ih entry hentry (hentries entry hentry)⟩
    simpa [Entries.keys, Function.comp_def] using hnames
  | _ => trivial

theorem listed_eq_date_iff {literal : Literal} {instant : Calendar.Instant} :
    literal.listed = .date instant ↔ literal = .date instant := by
  cases literal <;> simp [listed]

/-- No literal passes for a select because of its bytes. -/
theorem isSelectLike_listed {literal : Literal} : literal.listed.IsSelectLike ↔ literal.IsSelectLike := by
  rw [← isSelectJson_toJson_iff, ← isSelectJson_toJson_iff, toJson_listed]

theorem readable_toJson_of_writable {literal : Literal} (h : literal.Writable) :
    literal.toJson.Readable := by
  rw [← toJson_listed]
  exact readable_toJson (carried_listed h)

end Literal

/-! ## Queries with listed bytes -/

/-- Lists of numbers in the place of all bytes; no table is replaced. -/
def Rewriting.listed : Rewriting := ⟨Literal.listed, .name⟩

theorem map_map_of_forall {α β : Type} {f : α → β} {change : α → α} {items : List α}
    (h : ∀ item ∈ items, f (change item) = f item) : (items.map change).map f = items.map f := by
  rw [List.map_map]
  exact List.map_congr_left h

theorem Expr.encode_value_listed (literal : Literal) :
    (Expr.value literal.listed).encode = (Expr.value literal).encode := by
  by_cases hdate : ∃ instant, literal = .date instant
  · obtain ⟨instant, rfl⟩ := hdate
    rfl
  · have hliteral : ∀ instant, literal ≠ .date instant := fun instant h ↦ hdate ⟨instant, h⟩
    have hlisted : ∀ instant, literal.listed ≠ .date instant := fun instant h ↦
      hliteral instant (Literal.listed_eq_date_iff.mp h)
    rw [encode_value hliteral, encode_value hlisted, Literal.toJson_listed]

/-- The expression is written as if its bytes were listed. -/
abbrev Expr.SameText (expr : Expr) : Prop := (expr.rewrite .listed).encode = expr.encode

abbrev Condition.SameText (test : Condition) : Prop := (test.rewrite .listed).toJson = test.toJson

abbrev Table.SameText (table : Table) : Prop := (table.rewrite .listed).toJson = table.toJson

abbrev Select.SameText (query : Select) : Prop := (query.rewrite .listed).toJson = query.toJson

theorem Expr.encodeList_listed {exprs : List Expr} (h : ∀ expr ∈ exprs, expr.SameText) :
    encodeList (rewriteList .listed exprs) = encodeList exprs := by
  rw [rewriteList_eq, encodeList_eq, encodeList_eq]
  exact map_map_of_forall fun expr hexpr ↦ congrArg Json.string (h expr hexpr)

theorem Condition.toJsonList_listed {tests : List Condition} (h : ∀ test ∈ tests, test.SameText) :
    toJsonList (rewriteList .listed tests) = toJsonList tests := by
  rw [rewriteList_eq, toJsonList_eq, toJsonList_eq]
  exact map_map_of_forall h

theorem Join.toJson_listed {join : Join} (htable : join.table.SameText)
    (htest : ∀ test ∈ join.condition, test.SameText) : (join.rewrite .listed).toJson = join.toJson := by
  obtain ⟨table, condition, kind⟩ := join
  have hcondition : Condition.toJsonOption (condition.map (Condition.rewrite .listed)) =
      Condition.toJsonOption condition := by
    cases condition with
    | none => rfl
    | some test => exact congrArg some (htest test rfl)
  simp only [rewrite, Join.toJson, htable, hcondition]

theorem Field.toJson_listed {field : Field} (h : field.expr.SameText) :
    (field.rewrite .listed).toJson = field.toJson := by
  obtain ⟨expr, label⟩ := field
  simp only [rewrite, Field.toJson, h]

theorem SortKey.toJson_listed {key : SortKey} (h : key.expr.SameText) :
    (key.rewrite .listed).toJson = key.toJson := by
  obtain ⟨expr, direction⟩ := key
  simp only [rewrite, SortKey.toJson, h]

theorem UnionTail.toJson_listed {tail : UnionTail} (h : tail.query.SameText) :
    (tail.rewrite .listed).toJson = tail.toJson := by
  obtain ⟨kind, query⟩ := tail
  simp only [rewrite, UnionTail.toJson, h]

theorem Select.sameText_of_parts (query : Select) (htables : ∀ table ∈ query.tables, table.SameText)
    (hjoins : ∀ join ∈ query.joins, join.table.SameText ∧ ∀ test ∈ join.condition, test.SameText)
    (hfields : ∀ field ∈ query.fields, field.expr.SameText)
    (hfilter : ∀ test ∈ query.filter, test.SameText) (hhaving : ∀ test ∈ query.having, test.SameText)
    (horderBy : ∀ key ∈ query.orderBy, key.expr.SameText)
    (hgroupBy : ∀ expr ∈ query.groupBy, expr.SameText)
    (hunions : ∀ tail ∈ query.unions, tail.query.SameText) : query.SameText := by
  have hgroup : ∀ expr ∈ query.groupBy,
      Json.string (expr.rewrite .listed).encode = .string expr.encode :=
    fun expr h ↦ congrArg Json.string (hgroupBy expr h)
  rw [SameText, Select.toJson_eq, Select.toJson_eq, Select.rewrite_eq]
  simp only [Select.members]
  rw [map_map_of_forall htables,
    map_map_of_forall fun join h ↦ Join.toJson_listed (hjoins join h).1 (hjoins join h).2,
    map_map_of_forall fun field h ↦ Field.toJson_listed (hfields field h),
    map_map_of_forall hfilter, map_map_of_forall hhaving,
    map_map_of_forall fun key h ↦ SortKey.toJson_listed (horderBy key h),
    map_map_of_forall fun tail h ↦ UnionTail.toJson_listed (hunions tail h),
    map_map_of_forall hgroup]

theorem sameText_steps :
    QueryInduction Expr.SameText Condition.SameText Table.SameText Select.SameText where
  column text := rfl
  value := Expr.encode_value_listed
  raw literal := by
    simp only [Expr.SameText, Expr.rewrite, Rewriting.listed, Expr.encode, Literal.toJson_listed]
  call name args hargs := by
    simp only [Expr.SameText, Expr.rewrite, Expr.encode, Expr.encodeList_listed hargs]
  operation operator operands hoperands := by
    simp only [Expr.SameText, Expr.rewrite, Expr.encode, Expr.encodeList_listed hoperands]
  condition test htest := congrArg Json.compact htest
  subquery query hquery := by
    simp only [Expr.SameText, Expr.rewrite, Expr.encode, hquery]
  compare key value operator hkey hvalue := by
    simp only [Condition.SameText, Condition.rewrite, Condition.toJson, hkey, hvalue]
  between key low high hkey hlow hhigh := by
    simp only [Condition.SameText, Condition.rewrite, Condition.toJson, hkey, hlow, hhigh]
  oneOf key values hkey hvalues := by
    simp only [Condition.SameText, Condition.rewrite, Condition.toJson, hkey,
      Expr.encodeList_listed hvalues]
  noneOf key values hkey hvalues := by
    simp only [Condition.SameText, Condition.rewrite, Condition.toJson, hkey,
      Expr.encodeList_listed hvalues]
  null key isNull hkey := by
    simp only [Condition.SameText, Condition.rewrite, Condition.toJson, hkey]
  like key pattern isLike hkey := by
    simp only [Condition.SameText, Condition.rewrite, Condition.toJson, hkey]
  columns left right operator hleft hright := by
    simp only [Condition.SameText, Condition.rewrite, Condition.toJson, hleft, hright]
  logical members operator hmembers := by
    simp only [Condition.SameText, Condition.rewrite, Condition.toJson,
      Condition.toJsonList_listed hmembers]
  not inner hinner := by
    simp only [Condition.SameText, Condition.rewrite, Condition.toJson, hinner]
  named name label := rfl
  nested query label hquery := by
    simp only [Table.SameText, Table.rewrite, Table.toJson, hquery]
  select := Select.sameText_of_parts

theorem Expr.encode_listed (expr : Expr) : (expr.rewrite .listed).encode = expr.encode :=
  sameText_steps.forExpr expr

theorem Condition.toJson_listed (test : Condition) : (test.rewrite .listed).toJson = test.toJson :=
  sameText_steps.forCondition test

theorem Select.toJson_listed (query : Select) : (query.rewrite .listed).toJson = query.toJson :=
  sameText_steps.forSelect query

theorem Table.toJson_listed (table : Table) : (table.rewriteTarget .listed).toJson = table.toJson := by
  cases table with
  | named name label => rfl
  | nested query label => exact sameText_steps.forTable (.nested query label)

/-! ## Nodes with listed bytes -/

namespace Node

theorem payload?_listed (node : Node) : (node.rewrite .listed).payload? = node.payload? := by
  have hlist (exprs : List Expr) :
      Expr.encodeList (Expr.rewriteList .listed exprs) = Expr.encodeList exprs :=
    Expr.encodeList_listed fun expr _ ↦ Expr.encode_listed expr
  cases node with
  | condition test => rfl
  | expr held =>
    simp only [rewrite, payload?]
    cases held with
    | column text => rfl
    | value literal =>
      cases literal with
      | date instant => rfl
      | _ => exact congrArg some (Literal.toJson_listed _)
    | raw literal => exact congrArg some (Literal.toJson_listed literal)
    | call name args => simp only [Expr.rewrite, Expr.payload?, hlist]
    | operation operator operands => simp only [Expr.rewrite, Expr.payload?, hlist]
    | condition test => exact congrArg some test.toJson_listed
    | subquery query => exact congrArg some query.toJson_listed

theorem valueSlots_rewrite (rewriting : Rewriting) (test : Condition) :
    (test.rewrite rewriting).valueSlots = test.valueSlots.map (Expr.rewrite rewriting) := by
  cases test <;> simp [Condition.rewrite, Condition.valueSlots, Expr.rewriteList_eq]

theorem fitsValueSlot_rewrite {rewriting : Rewriting} {expr : Expr} :
    (expr.rewrite rewriting).FitsValueSlot ↔ expr.FitsValueSlot := by
  cases expr <;> rfl

/-- With its bytes listed, what is fit for the wire but for its bytes is carried. -/
theorem carried_listed {nodes : List Node}
    (columns : ∀ text, Node.expr (.column text) ∈ nodes → Expr.decode text = .ok (.column text))
    (values : ∀ test, Node.condition test ∈ nodes → ∀ value ∈ test.valueSlots, value.FitsValueSlot)
    (literals : ∀ node ∈ nodes, ∀ literal ∈ node.literal?, literal.Writable)
    (nesting : ∀ node ∈ nodes, node.Shallow) :
    ∀ node ∈ nodes, (node.rewrite .listed).Carried := by
  intro node hnode
  refine ⟨?_, ?_⟩
  · cases node with
    | condition test =>
      rw [rewrite, Safe, valueSlots_rewrite, List.forall_mem_map]
      exact fun value hvalue ↦ fitsValueSlot_rewrite.mpr (values test hnode value hvalue)
    | expr held =>
      cases held with
      | column text => exact Expr.decode_eq_column_iff.mp (columns text hnode)
      | value literal => exact Literal.carried_listed (literals _ hnode literal rfl)
      | raw literal => exact Literal.carried_listed (literals _ hnode literal rfl)
      | _ => trivial
  · rw [Shallow, payload?_listed]
    exact nesting node hnode

theorem stable_listed_iff {node : Node} : (node.rewrite .listed).Stable ↔ node.Stable := by
  cases node with
  | condition test => rfl
  | expr held =>
    cases held with
    | value literal =>
      simp only [rewrite, Expr.rewrite, Rewriting.listed, Stable, Literal.isSelectLike_listed,
        Literal.floats_listed]
    | raw literal =>
      simp only [rewrite, Expr.rewrite, Rewriting.listed, Stable, Literal.floats_listed]
    | _ => rfl

end Node

/-! ## Statements with listed bytes -/

theorem Row.toJson_listed (row : Row) : (row.rewrite .listed).toJson = row.toJson := by
  rw [Row.toJson, Row.toJson, Row.rewrite, List.map_map]
  congr 1
  apply List.map_congr_left
  rintro ⟨name, literal⟩ _
  exact congrArg (name, ·) literal.toJson_listed

theorem Row.listLiteral_listed (rows : List Row) :
    listLiteral (rows.map (Row.rewrite .listed)) = (listLiteral rows).listed := by
  simp only [listLiteral, Literal.listed, Literal.listedItems_eq, List.map_map]
  congr 1
  apply List.map_congr_left
  intro row _
  simp only [Function.comp_apply, Literal.listed, Literal.listedEntries_eq]
  rfl

namespace Statement

theorem toJson_listed (statement : Statement) :
    (statement.rewrite .listed).toJson = statement.toJson := by
  have hfilter (tests : List Condition) :
      Condition.toJsonList (tests.map (Condition.rewrite .listed)) = Condition.toJsonList tests := by
    rw [Condition.toJsonList_eq, Condition.toJsonList_eq]
    exact map_map_of_forall fun test _ ↦ test.toJson_listed
  cases statement with
  | select query => exact query.toJson_listed
  | insert mutation =>
    obtain ⟨table, source⟩ := mutation
    simp only [rewrite, toJson, Insert.toJson, Table.toJson_listed]
    cases source with
    | none => rfl
    | some given =>
      cases given with
      | rows given =>
        simp only [Option.map_some, InsertSource.rewrite, InsertSource.members]
        rw [map_map_of_forall fun row _ ↦ Row.toJson_listed row]
      | select query columns =>
        simp only [Option.map_some, InsertSource.rewrite, InsertSource.members, Select.toJson_listed]
  | update mutation =>
    simp only [rewrite, toJson, Update.toJson, Table.toJson_listed, hfilter, List.map_map,
      Function.comp_def, Expr.encode_listed]
  | delete mutation =>
    simp only [rewrite, toJson, Delete.toJson, Table.toJson_listed, hfilter]
  | createTable definition =>
    simp only [rewrite, toJson, CreateTable.toJson, Select.toJson_listed]
  | createView definition =>
    simp only [rewrite, toJson, CreateView.toJson, Select.toJson_listed]

/-- A statement has the text of the statement with its bytes listed. -/
theorem encode_listed (statement : Statement) :
    (statement.rewrite .listed).encode = statement.encode :=
  congrArg Json.compact statement.toJson_listed

theorem rows_rewrite (rewriting : Rewriting) (statement : Statement) :
    (statement.rewrite rewriting).rows = statement.rows.map (Row.rewrite rewriting) := by
  cases statement with
  | insert mutation =>
    obtain ⟨table, source⟩ := mutation
    cases source with
    | none => rfl
    | some given => cases given <;> rfl
  | _ => rfl

theorem keys_assignments_rewrite (rewriting : Rewriting) (statement : Statement) :
    Entries.keys (statement.rewrite rewriting).assignments = Entries.keys statement.assignments := by
  cases statement with
  | update mutation => simp [rewrite, assignments, Entries.keys, Function.comp_def]
  | _ => rfl

/-- Safe on the wire, but for bytes in literals. -/
structure Transportable (statement : Statement) : Prop where
  /-- Every column is read as that column. -/
  columns : ∀ text, Node.expr (.column text) ∈ statement.nodes → Expr.decode text = .ok (.column text)
  /-- No slot of a value holds a column or a function call directly. -/
  values : ∀ test, Node.condition test ∈ statement.nodes →
    ∀ value ∈ test.valueSlots, value.FitsValueSlot
  literals : ∀ literal ∈ statement.literals, literal.Writable
  /-- No literal passes for a select. -/
  selects : ∀ literal, Node.expr (.value literal) ∈ statement.nodes → ¬literal.IsSelectLike
  /-- Names stand once in the assignments and in each row. -/
  names : (Entries.keys statement.assignments).Nodup ∧
    ∀ row ∈ statement.rows, (Entries.keys row).Nodup
  nesting : ∀ json ∈ statement.texts, json.depth ≤ Json.depthLimit

theorem writable_listLiteral {rows : List Row} (hnames : ∀ row ∈ rows, (Entries.keys row).Nodup)
    (hcells : ∀ row ∈ rows, ∀ entry ∈ row, entry.2.Writable) : (Row.listLiteral rows).Writable := by
  rw [Row.listLiteral, Literal.writable_list, List.forall_mem_map]
  exact fun row hrow ↦ Literal.writable_map.mpr ⟨hnames row hrow, hcells row hrow⟩

theorem Transportable.carried_listed {statement : Statement} (h : statement.Transportable) :
    (statement.rewrite .listed).Carried := by
  obtain ⟨hdepth, hshallow⟩ := forall_mem_texts.mp h.nesting
  obtain ⟨hliterals, hcells⟩ := forall_mem_literals.mp h.literals
  constructor
  case nodes =>
    rw [Everywhere, nodes_rewrite rfl, List.forall_mem_map]
    exact Node.carried_listed h.columns h.values hliterals hshallow
  case rows =>
    rw [rows_rewrite, Row.listLiteral_listed]
    exact Literal.carried_listed (writable_listLiteral h.names.2 hcells)
  case assignments =>
    rw [keys_assignments_rewrite]
    exact h.names.1
  case depth =>
    rw [toJson_listed]
    exact hdepth

theorem stable_listed_iff {statement : Statement} :
    (statement.rewrite .listed).Stable ↔ statement.Stable := by
  rw [Stable, Stable, rows_rewrite, Row.listLiteral_listed, Literal.floats_listed, Everywhere,
    nodes_rewrite rfl, List.forall_mem_map]
  simp only [Node.stable_listed_iff]
  rfl

/-- What is read from the text of a statement is the statement with its bytes listed. -/
theorem Transportable.decode_encode {statement : Statement} (h : statement.Transportable)
    (hfloats : ∀ x ∈ statement.floats, Json.FloatReadsBack x) :
    Statement.decode statement.encode = .ok (statement.rewrite .listed) := by
  have hstable : (statement.rewrite .listed).Stable :=
    stable_listed_iff.mpr (stable_iff.mpr ⟨h.selects, hfloats⟩)
  calc
    Statement.decode statement.encode = Statement.decode (statement.rewrite .listed).encode := by
      rw [encode_listed]
    _ = .ok (statement.rewrite .listed) := (decode_encode_iff_stable h.carried_listed).mpr hstable

end Statement

end PortableQuery
