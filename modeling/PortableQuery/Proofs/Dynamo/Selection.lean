import PortableQuery.Dynamo.Compile
import PortableQuery.Proofs.Dynamo.Resolution

/-!
# Query or Scan

A select is read by key if one of its conditions is on the partition key, and by a scan otherwise or
if this is asked for. Both ways give the same placeholders to the same texts. They differ in the
place of the conditions on the key: a query has them in its key condition, a scan in its filter, in
front of all other conditions.
-/

namespace PortableQuery

open Dynamo

/-- A condition of a kind that can take part in a look-up, on a certain column. -/
inductive Condition.On (column : String) : Condition → Prop
  | compare {key : Expr} (value : Expr) (operator : Comparison) (onColumn : key.columnName = column) :
      On column (.compare key value operator)
  | between {key : Expr} (low high : Expr) (onColumn : key.columnName = column) :
      On column (.between key low high)
  | oneOf {key : Expr} (values : List Expr) (onColumn : key.columnName = column) :
      On column (.oneOf key values)
  | null {key : Expr} (isNull : Bool) (onColumn : key.columnName = column) :
      On column (.null key isNull)
  | like {key : Expr} (pattern : String) (isLike : Bool) (onColumn : key.columnName = column) :
      On column (.like key pattern isLike)

/-- A look-up condition on the partition key. -/
def Condition.OnPartition (options : Options) (test : Condition) : Prop :=
  ∃ column, test.On column ∧ options.partitionKey = some column

/-- A look-up condition on the partition key or the sort key. -/
def Condition.OnKey (options : Options) (test : Condition) : Prop :=
  ∃ column, test.On column ∧ (options.partitionKey = some column ∨ options.sortKey = some column)

namespace Dynamo

theorem lookupColumn?_eq_some_iff {test : Condition} {column : String} :
    lookupColumn? test = some column ↔ test.On column := by
  constructor
  · intro h
    cases test <;> simp only [lookupColumn?, Option.some.injEq, reduceCtorEq] at h
    case compare key value operator => exact .compare value operator h
    case between key low high => exact .between low high h
    case oneOf key values => exact .oneOf values h
    case null key isNull => exact .null isNull h
    case like key pattern isLike => exact .like pattern isLike h
  · intro h
    cases h with
    | compare _ _ onColumn => rw [lookupColumn?, onColumn]
    | between _ _ onColumn => rw [lookupColumn?, onColumn]
    | oneOf _ onColumn => rw [lookupColumn?, onColumn]
    | null _ onColumn => rw [lookupColumn?, onColumn]
    | like _ _ onColumn => rw [lookupColumn?, onColumn]

/-- Whether a condition is on the key, as it is tested. -/
def onKey (options : Options) (test : Condition) : Bool :=
  match lookupColumn? test with
  | some column => options.isKey column
  | none => false

theorem onKey_iff {options : Options} {test : Condition} :
    onKey options test = true ↔ test.OnKey options := by
  simp only [Condition.OnKey, ← lookupColumn?_eq_some_iff, onKey]
  cases lookupColumn? test with
  | none => simp
  | some column => simp [Options.isKey]

theorem onPartition_iff {options : Options} {test : Condition} :
    (options.partitionKey.isSome && lookupColumn? test == options.partitionKey) = true ↔
      test.OnPartition options := by
  simp only [Condition.OnPartition, ← lookupColumn?_eq_some_iff]
  cases options.partitionKey with
  | none => simp
  | some column => simp

instance (options : Options) : DecidablePred (Condition.OnKey options) :=
  fun _ ↦ decidable_of_iff _ onKey_iff

theorem onKey_eq (options : Options) (test : Condition) :
    onKey options test = decide (test.OnKey options) := by
  rw [Bool.eq_iff_iff, onKey_iff, decide_eq_true_iff]

instance (options : Options) : DecidablePred (Condition.OnPartition options) :=
  fun _ ↦ decidable_of_iff _ onPartition_iff

/-! ## Tagged texts -/

/-- The texts whose tag passes a test. -/
def chosen (keep : Bool → Bool) (tags : List Bool) (texts : List String) : List String :=
  ((tags.zip texts).filter fun tagged ↦ keep tagged.1).map Prod.snd

variable {α : Type} {R : α → String → Prop} {items : List α} {texts : List String}

theorem forall₂_chosen (related : List.Forall₂ R items texts) (tag : α → Bool) (keep : Bool → Bool) :
    List.Forall₂ R (items.filter fun item ↦ keep (tag item)) (chosen keep (items.map tag) texts) := by
  induction related with
  | nil => exact .nil
  | @cons item text items texts first others ih =>
    by_cases hkeep : keep (tag item) = true
    · have hchosen : chosen keep ((item :: items).map tag) (text :: texts) =
          text :: chosen keep (items.map tag) texts := by simp [chosen, hkeep]
      rw [hchosen, List.filter_cons_of_pos (by simpa using hkeep)]
      exact .cons first ih
    · have hchosen : chosen keep ((item :: items).map tag) (text :: texts) =
          chosen keep (items.map tag) texts := by simp [chosen, hkeep]
      rw [hchosen, List.filter_cons_of_neg (by simpa using hkeep)]
      exact ih

/-- No text gets lost between those with one tag and those with the other. -/
theorem mem_chosen (related : List.Forall₂ R items texts) (tag : α → Bool) {text : String}
    (h : text ∈ texts) :
    text ∈ chosen id (items.map tag) texts ++ chosen not (items.map tag) texts := by
  have hlength : texts.length ≤ (items.map tag).length := by
    rw [List.length_map, related.length_eq]
  rw [← List.map_snd_zip hlength] at h
  obtain ⟨⟨passes, text⟩, hmem, rfl⟩ := List.mem_map.mp h
  rw [List.mem_append]
  cases passes with
  | true => exact .inl (List.mem_map_of_mem (List.mem_filter.mpr ⟨hmem, rfl⟩))
  | false => exact .inr (List.mem_map_of_mem (List.mem_filter.mpr ⟨hmem, rfl⟩))

/-! ## What both requests are made of -/

def fieldPhrases (query : Select) : List Phrase :=
  query.fields.map fun field ↦ [Token.name field.expr.columnName]

theorem spelled_fieldPhrases (query : Select) : ∀ phrase ∈ fieldPhrases query, Spelled phrase := by
  intro phrase hphrase
  obtain ⟨field, -, rfl⟩ := List.mem_map.mp hphrase
  exact ⟨_, .name trivial .nil⟩

/-- The conditions of a select as texts, under the placeholders of its conditions and fields. -/
theorem compiled_filter {query : Select} {phrases : List Phrase}
    (hphrases : Condition.phrases query.filter = .ok phrases) :
    List.Forall₂
      (Compiled ((Placeholders.empty.writeAll phrases).2.writeAll (fieldPhrases query)).2.nameEntries
        ((Placeholders.empty.writeAll phrases).2.writeAll (fieldPhrases query)).2.valueEntries)
      query.filter (Placeholders.empty.writeAll phrases).1 :=
  compiled_writeAll hphrases (Placeholders.extends_writeAll _ _)

/-- The texts of the conditions and fields of a select, with the placeholders in them. -/
structure Reading (options : Options) (query : Select) where
  tableName : String
  keyed : List String
  others : List String
  projected : List String
  placeholders : Placeholders
  compiled_keyed : List.Forall₂ (Compiled placeholders.nameEntries placeholders.valueEntries)
    (query.filter.filter fun test ↦ test.OnKey options) keyed
  compiled_others : List.Forall₂ (Compiled placeholders.nameEntries placeholders.valueEntries)
    (query.filter.filter fun test ↦ ¬ test.OnKey options) others
  resolves_projected : List.Forall₂ (Resolves placeholders.nameEntries placeholders.valueEntries)
    (fieldPhrases query) projected
  covers : Placeholders.empty.Covers placeholders
    ((keyed ++ others ++ projected).flatMap fun text ↦ pieces text.toList)

namespace Reading

variable {options : Options} {query : Select} (reading : Reading options query)

def projection : Option String :=
  if reading.projected.isEmpty then none else some (String.intercalate ", " reading.projected)

def queryRequest : QueryRequest :=
  { tableName := reading.tableName, indexName := options.indexName
    keyCondition := String.intercalate " AND " reading.keyed
    filter := conjunction? reading.others, projection := reading.projection
    names := reading.placeholders.nameEntries, values := reading.placeholders.valueEntries
    limit := query.limit
    forward := query.orderBy.head?.map fun key ↦ key.direction == .asc
    consistentRead := options.consistentRead }

def scanRequest : ScanRequest :=
  { tableName := reading.tableName, indexName := options.indexName
    filter := conjunction? (reading.keyed ++ reading.others), projection := reading.projection
    names := reading.placeholders.nameEntries, values := reading.placeholders.valueEntries
    limit := query.limit, consistentRead := options.consistentRead }

/-- The request, unless a scan is asked for anyway. -/
def request (forceScan : Bool) : Request :=
  if forceScan = false ∧ ∃ test ∈ query.filter, test.OnPartition options then
    .query reading.queryRequest
  else .scan reading.scanRequest

variable (options) {phrases : List Phrase}

/-- The texts of a select whose conditions have these phrases. -/
def ofPhrases (tableName : String) (hphrases : Condition.phrases query.filter = .ok phrases) :
    Reading options query where
  tableName := tableName
  keyed := chosen id (query.filter.map (onKey options)) (Placeholders.empty.writeAll phrases).1
  others := chosen not (query.filter.map (onKey options)) (Placeholders.empty.writeAll phrases).1
  projected := ((Placeholders.empty.writeAll phrases).2.writeAll (fieldPhrases query)).1
  placeholders := ((Placeholders.empty.writeAll phrases).2.writeAll (fieldPhrases query)).2
  compiled_keyed := by
    simpa only [id, ← onKey_eq] using forall₂_chosen (compiled_filter hphrases) (onKey options) id
  compiled_others := by
    simpa only [decide_not, ← onKey_eq] using
      forall₂_chosen (compiled_filter hphrases) (onKey options) not
  resolves_projected := Placeholders.resolves_writeAll (spelled_fieldPhrases query) (.refl _)
  covers := by
    have hconditions := Placeholders.empty.covers_writeAll (spelled_phrases hphrases)
    have hfields := (Placeholders.empty.writeAll phrases).2.covers_writeAll (spelled_fieldPhrases query)
    apply (hconditions.trans hfields).mono
    rw [List.flatMap_append, List.append_subset]
    refine ⟨fun piece hpiece ↦ List.mem_append_left _ ?_, List.subset_append_right _ _⟩
    obtain ⟨text, htext, hpiece⟩ := List.mem_flatMap.mp hpiece
    exact List.mem_flatMap_of_mem (mem_chosen (compiled_filter hphrases) _ htext) hpiece

end Reading

end Dynamo

namespace Select

variable {options : Options} {query : Select} {request : Request}

theorem any_onPartition_iff :
    (options.partitionKey.isSome &&
      query.filter.any fun test ↦ lookupColumn? test == options.partitionKey) = true ↔
      ∃ test ∈ query.filter, test.OnPartition options := by
  simp only [← onPartition_iff, Bool.and_eq_true, List.any_eq_true]
  constructor
  · rintro ⟨hkey, test, htest, hcolumn⟩
    exact ⟨test, htest, hkey, hcolumn⟩
  · rintro ⟨test, htest, hkey, hcolumn⟩
    exact ⟨hkey, test, htest, hcolumn⟩

/-- What a select compiles to, whether or not a scan is asked for. -/
theorem exists_reading (compiles : query.request options = .ok request) :
    ∃ reading : Reading options query, ∀ forceScan,
      query.request { options with forceScan } = .ok (reading.request forceScan) := by
  simp only [Select.request, bind_eq_ok_iff] at compiles
  obtain ⟨⟨⟩, hsupported, table, htable, tableName, hname, phrases, hphrases, -⟩ := compiles
  refine ⟨.ofPhrases options tableName hphrases, fun forceScan ↦ ?_⟩
  simp only [Select.request, bind_eq_ok_iff]
  refine ⟨(), hsupported, table, htable, tableName, hname, phrases, hphrases, ?_⟩
  have hforce : (!forceScan && (options.partitionKey.isSome &&
      query.filter.any fun test ↦ lookupColumn? test == options.partitionKey)) = true ↔
      forceScan = false ∧ ∃ test ∈ query.filter, test.OnPartition options := by
    rw [Bool.and_eq_true, any_onPartition_iff, Bool.not_eq_true']
  rw [Reading.request]
  by_cases hpartition : forceScan = false ∧ ∃ test ∈ query.filter, test.OnPartition options
  · rw [if_pos hpartition, if_pos (hforce.mpr hpartition)]
    rfl
  · rw [if_neg hpartition, if_neg (mt hforce.mp hpartition)]
    rfl

end Select

/-! ## The same read, by key and by scan -/

namespace Dynamo

/-- The scan that leaves to its filter what a query looks up by key. -/
def QueryRequest.asScan (input : QueryRequest) : ScanRequest :=
  { tableName := input.tableName, indexName := input.indexName
    filter := some (match input.filter with
      | none => input.keyCondition
      | some filter => input.keyCondition ++ " AND " ++ filter)
    projection := input.projection, names := input.names, values := input.values
    limit := input.limit, consistentRead := input.consistentRead }

/-- Every condition has one text: those on the key in the key condition, all others in the filter. -/
def QueryRequest.Splits (options : Options) (conditions : List Condition) (input : QueryRequest) :
    Prop :=
  ∃ keyed others,
    List.Forall₂ (Compiled input.names input.values)
      (conditions.filter fun test ↦ test.OnKey options) keyed ∧
    List.Forall₂ (Compiled input.names input.values)
      (conditions.filter fun test ↦ ¬ test.OnKey options) others ∧
    input.keyCondition = String.intercalate " AND " keyed ∧ input.filter = conjunction? others

theorem conjunction?_append {first : List String} (nonempty : first ≠ []) (second : List String) :
    conjunction? (first ++ second) = some (match conjunction? second with
      | none => String.intercalate " AND " first
      | some rest => String.intercalate " AND " first ++ " AND " ++ rest) := by
  cases second with
  | nil => simp [conjunction?, nonempty]
  | cons text more =>
    simp [conjunction?, String.intercalate_append_of_ne_nil nonempty]

namespace Reading

variable {options : Options} {query : Select} (reading : Reading options query)

theorem splits : reading.queryRequest.Splits options query.filter :=
  ⟨reading.keyed, reading.others, reading.compiled_keyed, reading.compiled_others, rfl, rfl⟩

theorem keyed_ne_nil (onPartition : ∃ test ∈ query.filter, test.OnPartition options) :
    reading.keyed ≠ [] := by
  obtain ⟨test, htest, column, hon, hpartition⟩ := onPartition
  have hkey : test.OnKey options := ⟨column, hon, .inl hpartition⟩
  have hmem : test ∈ query.filter.filter fun test ↦ test.OnKey options := by
    simpa [hkey] using htest
  intro hnil
  have hlength := reading.compiled_keyed.length_eq
  rw [hnil, List.length_nil, List.length_eq_zero_iff] at hlength
  rw [hlength] at hmem
  simp at hmem

theorem scanRequest_eq (onPartition : ∃ test ∈ query.filter, test.OnPartition options) :
    reading.scanRequest = reading.queryRequest.asScan := by
  rw [scanRequest, conjunction?_append (reading.keyed_ne_nil onPartition)]
  rfl

end Reading

end Dynamo

namespace Select

variable {options : Options} {query : Select} {request : Request}

/-- A scan reads by its filter what a query reads by key, and nothing of the select gets lost. -/
theorem request_query_or_scan (compiles : query.request options = .ok request) :
    ∃ scan, query.request { options with forceScan := true } = .ok (.scan scan) ∧
      ((∃ input, query.request { options with forceScan := false } = .ok (.query input)) ↔
        ∃ test ∈ query.filter, test.OnPartition options) ∧
      ((¬ ∃ test ∈ query.filter, test.OnPartition options) →
        query.request { options with forceScan := false } = .ok (.scan scan)) ∧
      ∀ input, query.request { options with forceScan := false } = .ok (.query input) →
        scan = input.asScan ∧ input.Splits options query.filter := by
  obtain ⟨reading, hreading⟩ := exists_reading compiles
  refine ⟨reading.scanRequest, ?_, ?_⟩
  · rw [hreading, Reading.request]
    simp
  by_cases hpartition : ∃ test ∈ query.filter, test.OnPartition options
  · have hquery : query.request { options with forceScan := false } =
        .ok (.query reading.queryRequest) := by
      rw [hreading, Reading.request, if_pos ⟨rfl, hpartition⟩]
    refine ⟨⟨fun _ ↦ hpartition, fun _ ↦ ⟨_, hquery⟩⟩, absurd hpartition, fun input hinput ↦ ?_⟩
    obtain rfl : reading.queryRequest = input := by
      rw [hquery] at hinput
      exact Request.query.inj (Except.ok.inj hinput)
    exact ⟨reading.scanRequest_eq hpartition, reading.splits⟩
  · have hscan : query.request { options with forceScan := false } =
        .ok (.scan reading.scanRequest) := by
      rw [hreading, Reading.request, if_neg fun h ↦ hpartition h.2]
    have hnone : ∀ input, query.request { options with forceScan := false } ≠ .ok (.query input) := by
      intro input hinput
      rw [hscan] at hinput
      simp at hinput
    refine ⟨⟨?_, fun h ↦ absurd h hpartition⟩, fun _ ↦ hscan,
      fun input hinput ↦ absurd hinput (hnone input)⟩
    rintro ⟨input, hinput⟩
    exact absurd hinput (hnone input)

end Select

/-! ## A query on both parts of the key -/

namespace Dynamo

/-- The key schema of a table of orders: by customer and day. -/
def orderOptions : Options :=
  { Options.default with partitionKey := some "customer", sortKey := some "day" }

/-- The open orders of a customer in a span of days, each with its total. -/
def openOrders : Select :=
  { Select.empty with
    tables := [.named "orders" none]
    fields := [{ expr := .column "total", label := none }]
    filter := [.compare (.column "status") (.value (.string "open")) .eq,
      .between (.column "day") (.value (.int 3)) (.value (.int 5)),
      .compare (.column "customer") (.value (.string "ann")) .eq,
      .not (.compare (.column "customer") (.value (.string "open")) .eq)] }

def openOrdersRequest : QueryRequest :=
  { tableName := "orders", indexName := none
    keyCondition := "#n1 BETWEEN :v1 AND :v2 AND #n2 = :v3"
    filter := some "#n0 = :v0 AND NOT (#n2 = :v0)", projection := some "#n3"
    names := [("#n0", "status"), ("#n1", "day"), ("#n2", "customer"), ("#n3", "total")]
    values := [(":v0", .string "open"), (":v1", .number "3"), (":v2", .number "5"),
      (":v3", .string "ann")]
    limit := none, forward := none, consistentRead := false }

theorem request_openOrders :
    openOrders.request orderOptions = .ok (.query openOrdersRequest) := rfl

end Dynamo

theorem Select.request_query_or_scan_openOrders :
    openOrders.request { orderOptions with forceScan := true } = .ok (.scan openOrdersRequest.asScan) ∧
      openOrdersRequest.Splits orderOptions openOrders.filter := by
  obtain ⟨scan, hscan, -, -, hinput⟩ := request_query_or_scan request_openOrders
  obtain ⟨rfl, hsplits⟩ := hinput openOrdersRequest request_openOrders
  exact ⟨hscan, hsplits⟩

end PortableQuery
