import Mathlib.Data.Option.Basic
import PortableQuery.Proofs.Json.Printed
import PortableQuery.Proofs.Outcome
import PortableQuery.Proofs.Query.Induction
import PortableQuery.Wire.Decode
import PortableQuery.Wire.Encode

/-!
# Records of written queries

The JSON written for a condition, a table or a select holds no floating-point number and names no
member twice, so its text reads back as the very same JSON. Read by type, the JSON of a select is a
record whose members are those of the select, in the same order.
-/

namespace PortableQuery

open Text Wire

/-! ## Faithful JSON -/

namespace Json

/-- Values that their own text reads back as. -/
def Faithful (json : Json) : Prop := json.Readable ∧ json.reread = some json

theorem faithful_string (text : String) : (Json.string text).Faithful := ⟨trivial, rfl⟩

theorem faithful_bool (value : Bool) : (Json.bool value).Faithful := ⟨trivial, rfl⟩

theorem faithful_null : Json.null.Faithful := ⟨trivial, rfl⟩

theorem faithful_word (word : UInt64) : (Json.integer word.toNat).Faithful := by
  have hlt := word.toNat_lt
  exact ⟨⟨by omega, by omega⟩, rfl⟩

theorem rereadItems_of_faithful {items : List Json} (h : ∀ item ∈ items, item.Faithful) :
    rereadItems items = some items := by
  induction items with
  | nil => rfl
  | cons item more ih =>
    obtain ⟨hitem, hmore⟩ := List.forall_mem_cons.mp h
    simp [rereadItems, hitem.2, ih hmore]

theorem rereadMembers_of_faithful {members : List (String × Json)}
    (h : ∀ member ∈ members, member.2.Faithful) : rereadMembers members = some members := by
  induction members with
  | nil => rfl
  | cons member more ih =>
    obtain ⟨hmember, hmore⟩ := List.forall_mem_cons.mp h
    simp [rereadMembers, hmember.2, ih hmore]

theorem faithful_array {items : List Json} (h : ∀ item ∈ items, item.Faithful) :
    (Json.array items).Faithful := by
  refine ⟨readableItems_iff.mpr fun item hitem ↦ (h item hitem).1, ?_⟩
  rw [reread, rereadItems_of_faithful h, Option.map_some]

theorem faithful_object {members : List (String × Json)} (hkeys : (Entries.keys members).Nodup)
    (h : ∀ member ∈ members, member.2.Faithful) : (Json.object members).Faithful := by
  refine ⟨⟨hkeys, readableMembers_iff.mpr fun member hmember ↦ (h member hmember).1⟩, ?_⟩
  rw [reread, rereadMembers_of_faithful h, Option.map_some]

theorem parse_compact_of_faithful {json : Json} (h : json.Faithful) (hdepth : json.depth ≤ depthLimit) :
    parse (compact json) = some json := by
  rw [parse_compact h.1 hdepth, h.2]

/-! ## Weight -/

theorem weight_le_weightItems {item : Json} {items : List Json} (h : item ∈ items) :
    item.weight ≤ weightItems items := by
  induction items with
  | nil => simp at h
  | cons first more ih =>
    rw [weightItems]
    obtain rfl | hmore := List.mem_cons.mp h
    · omega
    · have := ih hmore
      omega

theorem weight_le_weightMembers_of_mem {member : String × Json} {members : List (String × Json)}
    (h : member ∈ members) : member.2.weight ≤ weightMembers members := by
  induction members with
  | nil => simp at h
  | cons first more ih =>
    obtain ⟨name, value⟩ := first
    rw [weightMembers]
    obtain rfl | hmore := List.mem_cons.mp h
    · simp
    · have := ih hmore
      omega

theorem weightItems_le_length {items : List Json}
    (h : ∀ item ∈ items, item.weight ≤ (chars item).length) :
    weightItems items ≤ (itemChars items).length := by
  induction items with
  | nil => simp [weightItems]
  | cons item more ih =>
    obtain ⟨hitem, hmore⟩ := List.forall_mem_cons.mp h
    have := ih hmore
    cases more <;> simp_all [weightItems, itemChars]
    omega

theorem weightMembers_le_length {members : List (String × Json)}
    (h : ∀ member ∈ members, member.2.weight ≤ (chars member.2).length) :
    weightMembers members ≤ (memberChars members).length := by
  induction members with
  | nil => simp [weightMembers]
  | cons member more ih =>
    obtain ⟨hmember, hmore⟩ := List.forall_mem_cons.mp h
    have := ih hmore
    cases more <;> simp_all [weightMembers, memberChars] <;> omega

theorem length_le_length_flatMap_escapeChar (text : List Char) :
    text.length ≤ (text.flatMap escapeChar).length := by
  induction text with
  | nil => simp
  | cons c more ih =>
    have hc : 1 ≤ (escapeChar c).length := by
      have hwritten := writtenAs_escapeChar c
      generalize escapeChar c = written at hwritten ⊢
      cases hwritten <;> simp
    simp only [List.flatMap_cons, List.length_append, List.length_cons]
    omega

/-- Text is at least as long as what it writes is heavy. -/
theorem weight_le_length (json : Json) : json.weight ≤ (compact json).length := by
  rw [compact, String.length_ofList]
  induction json using Json.induction with
  | string text =>
    have hescaped := length_le_length_flatMap_escapeChar text.toList
    simp only [weight, chars, stringChars, List.length_cons, List.length_append, List.length_nil]
    rw [String.length_toList] at hescaped
    omega
  | array items ih =>
    have hitems := weightItems_le_length ih
    simp only [weight, chars, List.length_cons, List.length_append, List.length_nil]
    omega
  | object members ih =>
    have hmembers := weightMembers_le_length ih
    simp only [weight, chars, List.length_cons, List.length_append, List.length_nil]
    omega
  | null => exact length_chars_pos _
  | bool value => exact length_chars_pos _
  | integer n => exact length_chars_pos _
  | float x => exact length_chars_pos _

end Json

/-! ## Members -/

theorem Json.weightMembers_append (first second : List (String × Json)) :
    weightMembers (first ++ second) = weightMembers first + weightMembers second := by
  induction first with
  | nil => simp [weightMembers]
  | cons member more ih => simp [weightMembers, ih, Nat.add_assoc]

namespace Wire

theorem get?_listMember_of_ne {name other : String} (h : name ≠ other) (items : List Json) :
    Entries.get? (listMember name items) other = none := by
  cases items <;> simp [listMember, Entries.get?, h]

theorem get?_optionMember_of_ne {name other : String} (h : name ≠ other) (value : Option Json) :
    Entries.get? (optionMember name value) other = none := by
  cases value <;> simp [optionMember, Entries.get?, h]

theorem get?_optionMember (name : String) (value : Option Json) :
    Entries.get? (optionMember name value) name = value := by
  cases value <;> simp [optionMember, Entries.get?]

theorem listField?_of_get? {entries : Entries Json} {name : String} {items : List Json}
    (h : entries.get? name = Entries.get? (listMember name items) name) :
    listField? entries name = some items := by
  cases items <;> simp [listField?, h, listMember, Entries.get?]

theorem optionalString?_of_get? {entries : Entries Json} {name : String} {label : Option String}
    (h : entries.get? name = label.map .string) : optionalString? entries name = some label := by
  cases label <;> simp [optionalString?, h]

theorem optionalWord?_of_get? {entries : Entries Json} {name : String} {word : Option UInt64}
    (h : entries.get? name = wordJson word) : optionalWord? entries name = some word := by
  cases word <;> simp [optionalWord?, h, wordJson, Numeral.uint64?_toNat]

theorem keys_listMember_sublist (name : String) (items : List Json) :
    (Entries.keys (listMember name items)).Sublist [name] := by
  cases items <;> simp [listMember, Entries.keys]

theorem keys_optionMember_sublist (name : String) (value : Option Json) :
    (Entries.keys (optionMember name value)).Sublist [name] := by
  cases value <;> simp [optionMember, Entries.keys]

theorem forall_mem_listMember {p : Json → Prop} {name : String} {items : List Json}
    (h : p (.array items)) : ∀ member ∈ listMember name items, p member.2 := by
  cases items with
  | nil => simp [listMember]
  | cons item more => simpa [listMember] using h

theorem forall_mem_optionMember {p : Json → Prop} {name : String} {value : Option Json}
    (h : ∀ json ∈ value, p json) : ∀ member ∈ optionMember name value, p member.2 := by
  cases value with
  | none => simp [optionMember]
  | some json => simpa [optionMember] using h

theorem weightItems_le_weightMembers (name : String) (items : List Json) :
    Json.weightItems items ≤ Json.weightMembers (listMember name items) := by
  cases items <;> simp [listMember, Json.weightItems, Json.weightMembers, Json.weight]

end Wire

/-! ## Lists of parts -/

theorem Expr.encodeList_eq (exprs : List Expr) :
    Expr.encodeList exprs = exprs.map fun expr ↦ .string expr.encode := by
  induction exprs with
  | nil => rfl
  | cons expr more ih => simp [Expr.encodeList, ih]

theorem Condition.toJsonList_eq (tests : List Condition) :
    Condition.toJsonList tests = tests.map Condition.toJson := by
  induction tests with
  | nil => rfl
  | cons test more ih => simp [Condition.toJsonList, ih]

theorem Condition.toJsonOption_eq (test? : Option Condition) :
    Condition.toJsonOption test? = test?.map Condition.toJson := by
  cases test? <;> rfl

theorem Table.toJsonList_eq (tables : List Table) :
    Table.toJsonList tables = tables.map Table.toJson := by
  induction tables with
  | nil => rfl
  | cons table more ih => simp [Table.toJsonList, ih]

theorem Join.toJsonList_eq (joins : List Join) : Join.toJsonList joins = joins.map Join.toJson := by
  induction joins with
  | nil => rfl
  | cons join more ih => simp [Join.toJsonList, ih]

theorem Field.toJsonList_eq (fields : List Field) :
    Field.toJsonList fields = fields.map Field.toJson := by
  induction fields with
  | nil => rfl
  | cons field more ih => simp [Field.toJsonList, ih]

theorem SortKey.toJsonList_eq (keys : List SortKey) :
    SortKey.toJsonList keys = keys.map SortKey.toJson := by
  induction keys with
  | nil => rfl
  | cons key more ih => simp [SortKey.toJsonList, ih]

theorem UnionTail.toJsonList_eq (tails : List UnionTail) :
    UnionTail.toJsonList tails = tails.map UnionTail.toJson := by
  induction tails with
  | nil => rfl
  | cons tail more ih => simp [UnionTail.toJsonList, ih]

/-- The members of a select's JSON. -/
def Select.members (query : Select) : List (String × Json) :=
  [("type", .string "SelectQuery"), ("tables", .array (query.tables.map Table.toJson))] ++
    (listMember "unionQueries" (query.unions.map UnionTail.toJson) ++
    (listMember "joins" (query.joins.map Join.toJson) ++
    (listMember "fields" (query.fields.map Field.toJson) ++
    (listMember "where" (query.filter.map Condition.toJson) ++
    (listMember "having" (query.having.map Condition.toJson) ++
    (listMember "orderBy" (query.orderBy.map SortKey.toJson) ++
    (listMember "groupBy" (query.groupBy.map fun expr ↦ .string expr.encode) ++
    (optionMember "limit" (wordJson query.limit) ++ optionMember "offset" (wordJson query.offset)))))))))

theorem Select.toJson_eq (query : Select) : query.toJson = .object query.members := by
  obtain ⟨tables, joins, fields, filter, having, orderBy, groupBy, limit, offset, unions⟩ := query
  simp only [Select.toJson, members, Table.toJsonList_eq, UnionTail.toJsonList_eq, Join.toJsonList_eq,
    Field.toJsonList_eq, Condition.toJsonList_eq, SortKey.toJsonList_eq, Expr.encodeList_eq,
    List.append_assoc]

/-! ## Written queries are faithful -/

theorem Expr.faithful_encodeList (exprs : List Expr) : (Json.array (Expr.encodeList exprs)).Faithful := by
  apply Json.faithful_array
  simp [Expr.encodeList_eq, Json.faithful_string]

theorem faithful_label (label : Option String) : ∀ json ∈ label.map Json.string, json.Faithful := by
  cases label <;> simp [Json.faithful_string]

theorem faithful_wordJson (word : Option UInt64) : ∀ json ∈ wordJson word, json.Faithful := by
  cases word <;> simp [wordJson, Json.faithful_word]

theorem Table.faithful_of_source {source : Json} (h : source.Faithful) (label : Option String) :
    (Json.object ([("type", .string "Table"), ("source", source)] ++
      optionMember "alias" (label.map .string))).Faithful := by
  apply Json.faithful_object
  · have hkeys := (keys_optionMember_sublist "alias" (label.map .string)).append_left ["type", "source"]
    exact hkeys.nodup (by decide)
  · rw [List.forall_mem_append]
    exact ⟨by simp [Json.faithful_string, h], forall_mem_optionMember (faithful_label label)⟩

theorem Join.faithful_toJson {join : Join} (htable : join.table.toJson.Faithful)
    (hcondition : ∀ test ∈ join.condition, test.toJson.Faithful) : join.toJson.Faithful := by
  obtain ⟨table, condition, kind⟩ := join
  rw [Join.toJson, Condition.toJsonOption_eq]
  apply Json.faithful_object
  · have hkeys := (keys_optionMember_sublist "condition" (condition.map Condition.toJson)).append
      (List.Sublist.refl ["joinType"])
    rw [List.append_assoc, Entries.keys_append, Entries.keys_append]
    exact (hkeys.append_left ["type", "table"]).nodup (by decide)
  · simp only [List.forall_mem_append]
    refine ⟨⟨by simpa [Json.faithful_string] using htable, forall_mem_optionMember ?_⟩,
      by simp [Json.faithful_string]⟩
    simpa using hcondition

theorem Field.faithful_toJson (field : Field) : field.toJson.Faithful := by
  obtain ⟨expr, label⟩ := field
  rw [Field.toJson]
  apply Json.faithful_object
  · exact ((keys_optionMember_sublist "alias" (label.map .string)).append_left ["name"]).nodup (by decide)
  · rw [List.forall_mem_append]
    exact ⟨by simp [Json.faithful_string], forall_mem_optionMember (faithful_label label)⟩

theorem SortKey.faithful_toJson (key : SortKey) : key.toJson.Faithful := by
  obtain ⟨expr, direction⟩ := key
  exact Json.faithful_object (by simp [Entries.keys]) (by simp [Json.faithful_string])

theorem UnionTail.faithful_toJson {tail : UnionTail} (h : tail.query.toJson.Faithful) :
    tail.toJson.Faithful := by
  obtain ⟨kind, query⟩ := tail
  exact Json.faithful_object (by simp [Entries.keys]) (by simpa [Json.faithful_string] using h)

theorem Select.keys_members_sublist (query : Select) :
    (Entries.keys query.members).Sublist selectFieldNames := by
  simp only [members, Entries.keys_append]
  refine List.Sublist.append (List.Sublist.refl ["type", "tables"]) ?_
  refine (keys_listMember_sublist "unionQueries" _).append ?_
  refine (keys_listMember_sublist "joins" _).append ?_
  refine (keys_listMember_sublist "fields" _).append ?_
  refine (keys_listMember_sublist "where" _).append ?_
  refine (keys_listMember_sublist "having" _).append ?_
  refine (keys_listMember_sublist "orderBy" _).append ?_
  refine (keys_listMember_sublist "groupBy" _).append ?_
  exact (keys_optionMember_sublist "limit" _).append (keys_optionMember_sublist "offset" _)

theorem faithful_steps : QueryInduction (fun _ ↦ True) (·.toJson.Faithful) (·.toJson.Faithful)
    (·.toJson.Faithful) where
  column _ := trivial
  value _ := trivial
  raw _ := trivial
  call _ _ _ := trivial
  operation _ _ _ := trivial
  condition _ _ := trivial
  subquery _ _ := trivial
  compare key value operator _ _ :=
    Json.faithful_object (by simp [Entries.keys]) (by simp [Json.faithful_string])
  between key low high _ _ _ :=
    Json.faithful_object (by simp [Entries.keys]) (by simp [Json.faithful_string])
  oneOf key values _ _ :=
    Json.faithful_object (by simp [Entries.keys])
      (by simp [Json.faithful_string, Expr.faithful_encodeList])
  noneOf key values _ _ :=
    Json.faithful_object (by simp [Entries.keys])
      (by simp [Json.faithful_string, Expr.faithful_encodeList])
  null key isNull _ :=
    Json.faithful_object (by simp [Entries.keys]) (by simp [Json.faithful_string, Json.faithful_bool])
  like key pattern isLike _ :=
    Json.faithful_object (by simp [Entries.keys]) (by simp [Json.faithful_string, Json.faithful_bool])
  columns left right operator _ _ :=
    Json.faithful_object (by simp [Entries.keys]) (by simp [Json.faithful_string])
  logical members operator hmembers := by
    have harray : (Json.array (Condition.toJsonList members)).Faithful := by
      apply Json.faithful_array
      simpa [Condition.toJsonList_eq] using hmembers
    exact Json.faithful_object (by simp [Entries.keys]) (by simpa [Json.faithful_string] using harray)
  not inner hinner :=
    Json.faithful_object (by simp [Entries.keys]) (by simpa [Json.faithful_string] using hinner)
  named name label := Table.faithful_of_source (Json.faithful_string name) label
  nested query label hquery := Table.faithful_of_source hquery label
  select query htables hjoins hfields hfilter hhaving horderBy hgroupBy hunions := by
    rw [Select.toJson_eq]
    apply Json.faithful_object ((Select.keys_members_sublist query).nodup (by decide))
    have harray {α : Type} {items : List α} {toJson : α → Json}
        (h : ∀ item ∈ items, (toJson item).Faithful) : (Json.array (items.map toJson)).Faithful :=
      Json.faithful_array (by simpa using h)
    simp only [Select.members, List.forall_mem_append]
    refine ⟨?_, forall_mem_listMember (harray fun tail htail ↦ UnionTail.faithful_toJson (hunions tail htail)),
      forall_mem_listMember (harray fun join hjoin ↦
        Join.faithful_toJson (hjoins join hjoin).1 (hjoins join hjoin).2),
      forall_mem_listMember (harray fun field _ ↦ Field.faithful_toJson field),
      forall_mem_listMember (harray hfilter), forall_mem_listMember (harray hhaving),
      forall_mem_listMember (harray fun key _ ↦ SortKey.faithful_toJson key),
      forall_mem_listMember (harray fun expr _ ↦ Json.faithful_string expr.encode),
      forall_mem_optionMember (faithful_wordJson query.limit),
      forall_mem_optionMember (faithful_wordJson query.offset)⟩
    simpa [Json.faithful_string] using harray htables

theorem Condition.faithful_toJson (test : Condition) : test.toJson.Faithful :=
  faithful_steps.forCondition test

theorem Table.faithful_toJson (table : Table) : table.toJson.Faithful := faithful_steps.forTable table

theorem Select.faithful_toJson (query : Select) : query.toJson.Faithful :=
  faithful_steps.forSelect query

/-! ## Records -/

def Table.record : Table → TableRecord
  | .named name label => ⟨.string name, label⟩
  | .nested query label => ⟨query.toJson, label⟩

def Join.record (join : Join) : JoinRecord :=
  ⟨join.table.record, join.condition.map Condition.toJson, some join.kind.word⟩

def Field.record (field : Field) : FieldRecord := ⟨.string field.expr.encode, field.label⟩

def SortKey.record (key : SortKey) : SortRecord := ⟨.string key.expr.encode, some key.direction.word⟩

mutual

/-- The record of a select's JSON. -/
def Select.record : Select → SelectRecord
  | ⟨tables, joins, fields, filter, having, orderBy, groupBy, limit, offset, unions⟩ =>
    { tables := tables.map Table.record, unions := UnionTail.records unions,
      joins := joins.map Join.record, fields := fields.map Field.record,
      filter := filter.map Condition.toJson, having := having.map Condition.toJson,
      orderBy := orderBy.map SortKey.record,
      groupBy := groupBy.map fun expr ↦ .string expr.encode, limit, offset }

def UnionTail.records : List UnionTail → List (String × SelectRecord)
  | [] => []
  | ⟨kind, query⟩ :: more => (kind.word, query.record) :: UnionTail.records more

end

theorem UnionTail.records_eq (tails : List UnionTail) :
    UnionTail.records tails = tails.map fun tail ↦ (tail.kind.word, tail.query.record) := by
  induction tails with
  | nil => rfl
  | cons tail more ih =>
    obtain ⟨kind, query⟩ := tail
    simp [records, ih]

theorem Select.record_eq (query : Select) :
    query.record =
      { tables := query.tables.map Table.record,
        unions := query.unions.map fun tail ↦ (tail.kind.word, tail.query.record),
        joins := query.joins.map Join.record, fields := query.fields.map Field.record,
        filter := query.filter.map Condition.toJson, having := query.having.map Condition.toJson,
        orderBy := query.orderBy.map SortKey.record,
        groupBy := query.groupBy.map fun expr ↦ .string expr.encode, limit := query.limit,
        offset := query.offset } := by
  obtain ⟨tables, joins, fields, filter, having, orderBy, groupBy, limit, offset, unions⟩ := query
  rw [Select.record, UnionTail.records_eq]

theorem mapM_map_eq_some {α β γ : Type} {f : β → Option γ} {g : α → β} {h : α → γ} {items : List α}
    (heach : ∀ item ∈ items, f (g item) = some (h item)) :
    (items.map g).mapM f = some (items.map h) := by
  induction items with
  | nil => rfl
  | cons item more ih =>
    obtain ⟨hitem, hmore⟩ := List.forall_mem_cons.mp heach
    rw [List.map_cons, List.mapM_cons, hitem, ih hmore]
    rfl

theorem TableRecord.ofJson?_toJson (table : Table) :
    TableRecord.ofJson? table.toJson = some table.record := by
  have hmembers (source : Json) (label : Option String) :
      TableRecord.ofJson? (.object ([("type", .string "Table"), ("source", source)] ++
        optionMember "alias" (label.map .string))) = some ⟨source, label⟩ := by
    have halias : optionalString? (("type", .string "Table") :: ("source", source) ::
        optionMember "alias" (label.map .string)) "alias" = some label :=
      optionalString?_of_get? (by simp [Entries.get?, get?_optionMember])
    simp [TableRecord.ofJson?, fields?, tagIsString, Entries.get?, halias]
  cases table with
  | named name label => exact hmembers (.string name) label
  | nested query label => exact hmembers query.toJson label

theorem JoinRecord.ofJson?_toJson (join : Join) :
    JoinRecord.ofJson? join.toJson = some join.record := by
  obtain ⟨table, condition, kind⟩ := join
  have htable := TableRecord.ofJson?_toJson table
  cases condition with
  | none =>
    simp [Join.toJson, JoinRecord.ofJson?, fields?, tagIsString, Entries.get?, optionMember,
      Condition.toJsonOption, htable, optionalString?, optionalJson, Join.record]
  | some test =>
    have htest : ∃ members, test.toJson = .object members := by
      cases test <;> exact ⟨_, rfl⟩
    obtain ⟨members, hmembers⟩ := htest
    simp [Join.toJson, JoinRecord.ofJson?, fields?, tagIsString, Entries.get?, optionMember,
      Condition.toJsonOption, htable, optionalString?, optionalJson, Join.record, hmembers]

theorem FieldRecord.ofJson?_toJson (field : Field) :
    FieldRecord.ofJson? field.toJson = some field.record := by
  obtain ⟨expr, label⟩ := field
  cases label <;>
    simp [Field.toJson, FieldRecord.ofJson?, fields?, Entries.get?, optionMember, optionalString?,
      Field.record]

theorem SortRecord.ofJson?_toJson (key : SortKey) :
    SortRecord.ofJson? key.toJson = some key.record := by
  obtain ⟨expr, direction⟩ := key
  simp [SortKey.toJson, SortRecord.ofJson?, fields?, Entries.get?, optionalString?, SortKey.record]

/-- A select weighs more than all that it lists. -/
theorem Select.weight_toJson (query : Select) :
    Json.weightItems (query.tables.map Table.toJson) + Json.weightItems (query.unions.map UnionTail.toJson) +
      Json.weightItems (query.joins.map Join.toJson) + Json.weightItems (query.fields.map Field.toJson) +
      Json.weightItems (query.filter.map Condition.toJson) +
      Json.weightItems (query.having.map Condition.toJson) +
      Json.weightItems (query.orderBy.map SortKey.toJson) +
      Json.weightItems (query.groupBy.map fun expr ↦ .string expr.encode) + 14 ≤ query.toJson.weight := by
  rw [Select.toJson_eq, Json.weight, members]
  simp only [Json.weightMembers_append, Json.weightMembers, Json.weight]
  have hunions := weightItems_le_weightMembers "unionQueries" (query.unions.map UnionTail.toJson)
  have hjoins := weightItems_le_weightMembers "joins" (query.joins.map Join.toJson)
  have hfields := weightItems_le_weightMembers "fields" (query.fields.map Field.toJson)
  have hfilter := weightItems_le_weightMembers "where" (query.filter.map Condition.toJson)
  have hhaving := weightItems_le_weightMembers "having" (query.having.map Condition.toJson)
  have horderBy := weightItems_le_weightMembers "orderBy" (query.orderBy.map SortKey.toJson)
  have hgroupBy := weightItems_le_weightMembers "groupBy" (query.groupBy.map fun expr ↦ .string expr.encode)
  have htype : "SelectQuery".length = 11 := by decide
  omega

theorem UnionTail.weight_toJson (tail : UnionTail) : tail.query.toJson.weight < tail.toJson.weight := by
  obtain ⟨kind, query⟩ := tail
  simp only [UnionTail.toJson, Json.weight, Json.weightMembers]
  omega

theorem unionFields?_toJson (tail : UnionTail) :
    unionFields? tail.toJson = some (tail.kind.word, tail.query.toJson) := by
  obtain ⟨kind, query⟩ := tail
  simp [UnionTail.toJson, unionFields?, fields?, requiredString?, Entries.get?, Json.string?]

theorem Select.listField?_members (query : Select) :
    listField? query.members "tables" = some (query.tables.map Table.toJson) ∧
    listField? query.members "unionQueries" = some (query.unions.map UnionTail.toJson) ∧
    listField? query.members "joins" = some (query.joins.map Join.toJson) ∧
    listField? query.members "fields" = some (query.fields.map Field.toJson) ∧
    listField? query.members "where" = some (query.filter.map Condition.toJson) ∧
    listField? query.members "having" = some (query.having.map Condition.toJson) ∧
    listField? query.members "orderBy" = some (query.orderBy.map SortKey.toJson) ∧
    listField? query.members "groupBy" = some (query.groupBy.map fun expr ↦ .string expr.encode) := by
  refine ⟨by simp [listField?, members, Entries.get?], ?_, ?_, ?_, ?_, ?_, ?_, ?_⟩ <;>
    apply listField?_of_get? <;>
    simp [members, Entries.get?_append, Entries.get?, get?_listMember_of_ne, get?_optionMember_of_ne]

theorem Select.words_members (query : Select) :
    optionalWord? query.members "limit" = some query.limit ∧
    optionalWord? query.members "offset" = some query.offset := by
  constructor <;> apply optionalWord?_of_get? <;>
    simp [members, Entries.get?_append, Entries.get?, get?_listMember_of_ne, get?_optionMember_of_ne,
      get?_optionMember]

/-- The JSON of a select is read as its record. -/
theorem SelectRecord.ofJson?_toJson (query : Select) :
    ∀ fuel, query.toJson.weight ≤ fuel → SelectRecord.ofJson? fuel query.toJson = some query.record := by
  induction query using Select.union_induction with
  | step query ih =>
    intro fuel hfuel
    have hweight := Select.weight_toJson query
    obtain ⟨fuel, rfl⟩ : ∃ k, fuel = k + 1 := ⟨fuel - 1, by omega⟩
    obtain ⟨htables, hunions, hjoins, hfields, hfilter, hhaving, horderBy, hgroupBy⟩ :=
      Select.listField?_members query
    obtain ⟨hlimit, hoffset⟩ := Select.words_members query
    have htype : requiredString? query.members "type" = some "SelectQuery" := by
      simp [requiredString?, Select.members, Entries.get?, Json.string?]
    have htails : (query.unions.map UnionTail.toJson).mapM (fun json ↦
        (unionFields? json).bind fun tail ↦
          (SelectRecord.ofJson? fuel tail.2).bind fun query ↦ pure (tail.1, query)) =
          some (query.unions.map fun tail ↦ (tail.kind.word, tail.query.record)) := by
      apply mapM_map_eq_some
      intro tail htail
      have hmember := Json.weight_le_weightItems (List.mem_map_of_mem (f := UnionTail.toJson) htail)
      have htail' := ih tail htail fuel (by have := UnionTail.weight_toJson tail; omega)
      simp [unionFields?_toJson, htail']
    have htables' := mapM_map_eq_some fun table (_ : table ∈ query.tables) ↦
      TableRecord.ofJson?_toJson table
    have hjoins' := mapM_map_eq_some fun join (_ : join ∈ query.joins) ↦
      JoinRecord.ofJson?_toJson join
    have hfields' := mapM_map_eq_some fun field (_ : field ∈ query.fields) ↦
      FieldRecord.ofJson?_toJson field
    have horderBy' := mapM_map_eq_some fun key (_ : key ∈ query.orderBy) ↦
      SortRecord.ofJson?_toJson key
    rw [Select.toJson_eq, SelectRecord.ofJson?]
    dsimp only [Option.bind_eq_bind]
    -- The outermost `bind` first: from the inside, each one would be visited twice.
    simp only [↓Option.bind_eq_some_iff]
    refine ⟨_, rfl, _, htype, _, htables, _, htables', _, hunions, _, htails, _, hjoins, _, hjoins', _,
      hfields, _, hfields', _, hfilter, _, hhaving, _, horderBy, _, horderBy', _, hgroupBy, _, hlimit, _,
      hoffset, ?_⟩
    rw [Select.record_eq]
    rfl

end PortableQuery
