import PortableQuery.Proofs.Wire.RoundTrip

/-!
# Where the parts of a query come from

Every expression and every condition of a query that is read, at any depth, was made by one of the
readers from JSON of the text: from a part of the whole, or from JSON inside one of its strings. So
what a reader makes of a single value says what can occur anywhere in a query.
-/

namespace PortableQuery

open Text Wire

namespace Wire

/-! ## JSON inside JSON -/

/-- The JSON text that a sentinel holds. -/
def Sentinel.payload? : Sentinel → Option String
  | .value payload => some payload
  | .date _ => none
  | .raw payload => some payload
  | .call payload => some payload
  | .operation payload => some payload

/-- JSON inside the text of a string: the payload of its sentinel, or a condition. -/
inductive Embedded (text : String) (json : Json) : Prop
  | payload {sentinel : Sentinel} {payload : String} (marked : Sentinel.classify text = some sentinel)
      (carries : sentinel.payload? = some payload) (parsed : Json.parse payload = some json)
  | condition (found : conditionJson? text = some json)

/-- A property of JSON that passes on to its parts and to the JSON inside its strings. -/
structure Hereditary (source : Json → Prop) : Prop where
  item : ∀ {items item}, source (.array items) → item ∈ items → source item
  member : ∀ {members} {member : String × Json}, source (.object members) → member ∈ members →
    source member.2
  embedded : ∀ {text json}, source (.string text) → Embedded text json → source json

/-- A node that one of the readers made from JSON with a property. -/
inductive ReadFrom (source : Json → Prop) : Node → Prop
  | text {fuel : Nat} {text : String} {expr : Expr} (given : source (.string text))
      (read : exprOfText fuel text = .ok expr) : ReadFrom source (.expr expr)
  | json {fuel : Nat} {json : Json} {expr : Expr} (given : source json)
      (read : exprOfJson fuel json = .ok expr) : ReadFrom source (.expr expr)
  | value {fuel : Nat} {json : Json} {expr : Expr} (given : source json)
      (read : valueOfJson fuel json = .ok expr) : ReadFrom source (.expr expr)
  | condition {fuel : Nat} {json : Json} {test : Condition} (given : source json)
      (read : conditionOfJson fuel json = .ok test) : ReadFrom source (.condition test)

@[simp] theorem orJsonError_eq_ok_iff {α : Type} {found : Option α} {value : α} :
    orJsonError found = .ok value ↔ found = some value := by
  cases found <;> simp [orJsonError]

theorem parse_of_parseJson {text : String} {json : Json} (h : parseJson text = .ok json) :
    Json.parse text = some json := by
  unfold parseJson at h
  split at h
  · rename_i found hparse
    rw [hparse, Except.ok.inj h]
  · contradiction

theorem parse_of_conditionJson? {text : String} {json : Json} (h : conditionJson? text = some json) :
    Json.parse text = some json := by
  unfold conditionJson? at h
  split at h
  · split at h
    · rename_i found hparse
      split at h
      · rw [hparse, Option.some.inj h]
      · contradiction
    · contradiction
  · contradiction

theorem parse_of_callParts {payload whole name : String} {args : List Json}
    (h : callParts payload whole = .ok (name, args)) :
    Json.parse payload = some (.array (.string name :: args)) := by
  unfold callParts at h
  split at h
  · rename_i hparse
    obtain ⟨rfl, rfl⟩ := Prod.mk.inj (Except.ok.inj h)
    exact hparse
  · contradiction
  · contradiction

namespace Hereditary

variable {source : Json → Prop} (hereditary : Hereditary source)

include hereditary

theorem get? {json value : Json} {name : String} (h : source json)
    (hget : json.get? name = some value) : source value := by
  cases json with
  | object members => exact hereditary.member h (Entries.mem_of_get? hget)
  | _ => simp [Json.get?] at hget

theorem string? {json : Json} {name text : String} (h : source json)
    (hget : (json.get? name).bind Json.string? = some text) : source (.string text) := by
  obtain ⟨found, hfound, hstring⟩ := Option.bind_eq_some_iff.mp hget
  cases found with
  | string held =>
    obtain rfl := Option.some.inj hstring
    exact hereditary.get? h hfound
  | _ => simp [Json.string?] at hstring

theorem array? {json : Json} {name : String} {items : List Json} (h : source json)
    (hget : (json.get? name).bind Json.array? = some items) : ∀ item ∈ items, source item := by
  obtain ⟨found, hfound, harray⟩ := Option.bind_eq_some_iff.mp hget
  cases found with
  | array held =>
    obtain rfl := Option.some.inj harray
    exact fun item ↦ hereditary.item (hereditary.get? h hfound)
  | _ => simp [Json.array?] at harray

/-- The arguments of a call come from the text of the call. -/
theorem args {text payload name : String} {sentinel : Sentinel} {args : List Json}
    (h : source (.string text)) (marked : Sentinel.classify text = some sentinel)
    (carries : sentinel.payload? = some payload) (hparts : callParts payload text = .ok (name, args)) :
    ∀ arg ∈ args, source arg := by
  have hwhole := hereditary.embedded h (.payload marked carries (parse_of_callParts hparts))
  exact fun arg harg ↦ hereditary.item hwhole (List.mem_cons_of_mem _ harg)

end Hereditary

/-! ## Records -/

def TableRecord.From (source : Json → Prop) (record : TableRecord) : Prop := source record.source

def JoinRecord.From (source : Json → Prop) (record : JoinRecord) : Prop :=
  record.table.From source ∧ ∀ json ∈ record.condition, source json

/-- Records whose JSON has a property. -/
inductive SelectRecord.From (source : Json → Prop) : SelectRecord → Prop
  | intro {record : SelectRecord} (tables : ∀ table ∈ record.tables, table.From source)
    (unions : ∀ tail ∈ record.unions, From source tail.2)
    (joins : ∀ join ∈ record.joins, join.From source)
    (fields : ∀ field ∈ record.fields, source field.name)
    (filter : ∀ json ∈ record.filter, source json) (having : ∀ json ∈ record.having, source json)
    (orderBy : ∀ key ∈ record.orderBy, source key.field)
    (groupBy : ∀ json ∈ record.groupBy, source json) : From source record

/-- Entries whose JSON has a property. -/
def EntriesFrom (source : Json → Prop) (entries : Entries Json) : Prop :=
  ∀ entry ∈ entries, source entry.2

theorem exists_of_mem_mapM_some {α β : Type} {f : α → Option β} {items : List α} {results : List β}
    (h : items.mapM f = some results) :
    ∀ result ∈ results, ∃ item ∈ items, f item = some result := by
  induction items generalizing results with
  | nil =>
    obtain rfl : results = [] := by simpa using h.symm
    simp
  | cons item more ih =>
    simp only [List.mapM_cons, Option.bind_eq_bind, Option.bind_eq_some_iff, Option.pure_def,
      Option.some.injEq] at h
    obtain ⟨first, hfirst, others, hothers, rfl⟩ := h
    rw [List.forall_mem_cons]
    refine ⟨⟨item, by simp, hfirst⟩, ?_⟩
    intro result hresult
    obtain ⟨source, hsource, hf⟩ := ih hothers result hresult
    exact ⟨source, by simp [hsource], hf⟩

namespace EntriesFrom

variable {source : Json → Prop} {entries : Entries Json}

theorem get? {name : String} {value : Json} (h : EntriesFrom source entries)
    (hget : entries.get? name = some value) : source value :=
  h (name, value) (Entries.mem_of_get? hget)

theorem list (hereditary : Hereditary source) {name : String} {items : List Json}
    (h : EntriesFrom source entries) (hlist : listField? entries name = some items) :
    ∀ item ∈ items, source item := by
  unfold listField? at hlist
  split at hlist
  · obtain rfl := Option.some.inj hlist
    simp
  · rename_i hget
    obtain rfl := Option.some.inj hlist
    exact fun item ↦ hereditary.item (h.get? hget)
  · contradiction

end EntriesFrom

namespace Hereditary

variable {source : Json → Prop} (hereditary : Hereditary source)

include hereditary

/-- The entries of a record come from the JSON of the record. -/
theorem fields {names : List String} {json : Json} {entries : Entries Json} (h : source json)
    (hfields : fields? names json = some entries) : EntriesFrom source entries := by
  cases json with
  | object members =>
    obtain rfl := Option.some.inj hfields
    exact fun entry ↦ hereditary.member h
  | array items =>
    simp only [fields?] at hfields
    split at hfields
    · obtain rfl := Option.some.inj hfields
      exact fun entry hentry ↦ hereditary.item h (List.of_mem_zip hentry).2
    · contradiction
  | _ => simp [fields?] at hfields

theorem members {json : Json} (h : source json) : EntriesFrom source (json.members?.getD []) := by
  cases json with
  | object members => exact fun entry ↦ hereditary.member h
  | _ => simp [Json.members?, EntriesFrom]

theorem table {json : Json} {record : TableRecord} (h : source json)
    (hrecord : TableRecord.ofJson? json = some record) : record.From source := by
  simp only [TableRecord.ofJson?, Option.bind_eq_bind, Option.bind_eq_some_iff, Option.pure_def,
    Option.some.injEq] at hrecord
  obtain ⟨entries, hentries, _, -, found, hfound, label, -, rfl⟩ := hrecord
  exact (hereditary.fields h hentries).get? hfound

theorem join {json : Json} {record : JoinRecord} (h : source json)
    (hrecord : JoinRecord.ofJson? json = some record) : record.From source := by
  simp only [JoinRecord.ofJson?, Option.bind_eq_bind, Option.bind_eq_some_iff, Option.pure_def,
    Option.some.injEq] at hrecord
  obtain ⟨entries, hentries, _, -, table, ⟨found, hfound, htable⟩, kind, -, rfl⟩ := hrecord
  have hfields := hereditary.fields h hentries
  refine ⟨hereditary.table (hfields.get? hfound) htable, ?_⟩
  intro condition hcondition
  simp only [optionalJson, Option.mem_def] at hcondition
  split at hcondition
  · contradiction
  · contradiction
  · rename_i hget
    obtain rfl := Option.some.inj hcondition
    exact hfields.get? hget

theorem field {json : Json} {record : FieldRecord} (h : source json)
    (hrecord : FieldRecord.ofJson? json = some record) : source record.name := by
  simp only [FieldRecord.ofJson?, Option.bind_eq_bind, Option.bind_eq_some_iff, Option.pure_def,
    Option.some.injEq] at hrecord
  obtain ⟨entries, hentries, name, hname, label, -, rfl⟩ := hrecord
  exact (hereditary.fields h hentries).get? hname

theorem sortKey {json : Json} {record : SortRecord} (h : source json)
    (hrecord : SortRecord.ofJson? json = some record) : source record.field := by
  simp only [SortRecord.ofJson?, Option.bind_eq_bind, Option.bind_eq_some_iff, Option.pure_def,
    Option.some.injEq] at hrecord
  obtain ⟨entries, hentries, field, hfield, direction, -, rfl⟩ := hrecord
  exact (hereditary.fields h hentries).get? hfield

theorem select {fuel : Nat} : ∀ {json : Json} {record : SelectRecord}, source json →
    SelectRecord.ofJson? fuel json = some record → record.From source := by
  induction fuel with
  | zero =>
    intro json record _ hrecord
    simp [SelectRecord.ofJson?] at hrecord
  | succ fuel ih =>
    intro json record h hrecord
    dsimp only [SelectRecord.ofJson?, Option.bind_eq_bind, Option.pure_def] at hrecord
    simp only [↓Option.bind_eq_some_iff, Option.some.injEq] at hrecord
    obtain ⟨entries, hentries, _, -, tableItems, htableItems, tables, htables, unionItems, hunionItems,
      unions, hunions, joinItems, hjoinItems, joins, hjoins, fieldItems, hfieldItems, fields, hfields,
      filter, hfilter, having, hhaving, keyItems, hkeyItems, keys, hkeys, groupBy, hgroupBy, limit, -,
      offset, -, rfl⟩ := hrecord
    have hlist {name : String} {items : List Json} (hlist : listField? entries name = some items) :
        ∀ item ∈ items, source item := (hereditary.fields h hentries).list hereditary hlist
    constructor
    · intro table htable
      obtain ⟨item, hitem, hread⟩ := exists_of_mem_mapM_some htables table htable
      exact hereditary.table (hlist htableItems item hitem) hread
    · intro tail htail
      obtain ⟨item, hitem, hread⟩ := exists_of_mem_mapM_some hunions tail htail
      simp only [Option.bind_eq_some_iff, Option.some.injEq] at hread
      obtain ⟨⟨kind, query⟩, hunion, record, hquery, rfl⟩ := hread
      simp only [unionFields?, Option.bind_eq_bind, Option.bind_eq_some_iff, Option.pure_def,
        Option.some.injEq] at hunion
      obtain ⟨members, hmembers, _, -, found, hfound, heq⟩ := hunion
      obtain ⟨-, rfl⟩ := Prod.mk.inj heq
      exact ih ((hereditary.fields (hlist hunionItems item hitem) hmembers).get? hfound) hquery
    · intro join hjoin
      obtain ⟨item, hitem, hread⟩ := exists_of_mem_mapM_some hjoins join hjoin
      exact hereditary.join (hlist hjoinItems item hitem) hread
    · intro field hfield
      obtain ⟨item, hitem, hread⟩ := exists_of_mem_mapM_some hfields field hfield
      exact hereditary.field (hlist hfieldItems item hitem) hread
    · exact hlist hfilter
    · exact hlist hhaving
    · intro key hkey
      obtain ⟨item, hitem, hread⟩ := exists_of_mem_mapM_some hkeys key hkey
      exact hereditary.sortKey (hlist hkeyItems item hitem) hread
    · exact hlist hgroupBy

end Hereditary

/-! ## Conditions -/

/-- The expression in the slot of a column, from the text of a member. -/
def ReadsColumn (fuel : Nat) (json : Json) (name : String) (expr : Expr) : Prop :=
  ∃ text, (json.get? name).bind Json.string? = some text ∧ exprOfText fuel text = .ok expr

/-- The expression in the slot of a value, from a member. -/
def ReadsValue (fuel : Nat) (json : Json) (name : String) (expr : Expr) : Prop :=
  ∃ given, json.get? name = some given ∧ valueOfJson fuel given = .ok expr

/-- What a reader makes of the items of a member. -/
def ReadsList {α : Type} (read : Json → Except Error α) (json : Json) (name : String)
    (results : List α) : Prop :=
  ∃ items, (json.get? name).bind Json.array? = some items ∧ items.mapM read = .ok results

/-- The type of an object that is read as a condition, and what is read from its members. -/
inductive ConditionReading (fuel : Nat) (json : Json) : Condition → Prop
  | compare {key value : Expr} {operator : Comparison}
      (type : json.typeName? = some "BinaryCondition") (column : ReadsColumn fuel json "key" key)
      (slot : ReadsValue fuel json "value" value) :
      ConditionReading fuel json (.compare key value operator)
  | logical {members : List Condition} {operator : Connective}
      (type : json.typeName? = some "LogicalCondition")
      (inside : ReadsList (conditionOfJson fuel) json "conditions" members) :
      ConditionReading fuel json (.logical members operator)
  | between {key low high : Expr} (type : json.typeName? = some "BetweenCondition")
      (column : ReadsColumn fuel json "key" key) (lowSlot : ReadsValue fuel json "from" low)
      (highSlot : ReadsValue fuel json "to" high) : ConditionReading fuel json (.between key low high)
  | oneOf {key : Expr} {values : List Expr} (type : json.typeName? = some "InCondition")
      (column : ReadsColumn fuel json "key" key)
      (slots : ReadsList (valueOfJson fuel) json "values" values) :
      ConditionReading fuel json (.oneOf key values)
  | noneOf {key : Expr} {values : List Expr} (type : json.typeName? = some "NotInCondition")
      (column : ReadsColumn fuel json "key" key)
      (slots : ReadsList (valueOfJson fuel) json "values" values) :
      ConditionReading fuel json (.noneOf key values)
  | null {key : Expr} {isNull : Bool} (type : json.typeName? = some "NullCondition")
      (column : ReadsColumn fuel json "key" key) : ConditionReading fuel json (.null key isNull)
  | like {key : Expr} {pattern : String} {isLike : Bool}
      (type : json.typeName? = some "LikeCondition") (column : ReadsColumn fuel json "key" key) :
      ConditionReading fuel json (.like key pattern isLike)
  | columns {left right : Expr} {operator : Comparison}
      (type : json.typeName? = some "ColumnComparisonCondition")
      (leftColumn : ReadsColumn fuel json "leftKey" left)
      (rightColumn : ReadsColumn fuel json "rightKey" right) :
      ConditionReading fuel json (.columns left right operator)
  | not {held : Json} {inner : Condition} (type : json.typeName? = some "NotCondition")
      (inside : json.get? "condition" = some held) (read : conditionOfJson fuel held = .ok inner) :
      ConditionReading fuel json (.not inner)

theorem reading_of_conditionOfJson {fuel : Nat} {json : Json} {test : Condition}
    (h : conditionOfJson (fuel + 1) json = .ok test) : ConditionReading fuel json test := by
  have htype {name : String} (hname : json.typeName?.getD "" = name) (hne : name ≠ "") :
      json.typeName? = some name := by
    cases hfound : json.typeName? with
    | none => simp [hfound, hne.symm] at hname
    | some found => simpa [hfound] using hname
  rw [conditionOfJson] at h
  dsimp only at h
  -- One type after another, without rewriting the branches that are left.
  rcases ite_eq_iff.mp h with ⟨hname, h⟩ | ⟨-, h⟩
  · simp only [bind_eq_ok_iff, pure_eq_ok_iff, orJsonError_eq_ok_iff] at h
    obtain ⟨text, htext, given, hgiven, _, -, key, hkey, value, hvalue, operator, -, rfl⟩ := h
    exact .compare (htype hname (by decide)) ⟨text, htext, hkey⟩ ⟨given, hgiven, hvalue⟩
  rcases ite_eq_iff.mp h with ⟨hname, h⟩ | ⟨-, h⟩
  · simp only [bind_eq_ok_iff, pure_eq_ok_iff, orJsonError_eq_ok_iff] at h
    obtain ⟨items, hitems, _, -, members, hmembers, operator, -, rfl⟩ := h
    exact .logical (htype hname (by decide)) ⟨items, hitems, hmembers⟩
  rcases ite_eq_iff.mp h with ⟨hname, h⟩ | ⟨-, h⟩
  · simp only [bind_eq_ok_iff, pure_eq_ok_iff, orJsonError_eq_ok_iff] at h
    obtain ⟨text, htext, givenLow, hgivenLow, givenHigh, hgivenHigh, key, hkey, low, hlow, high, hhigh,
      rfl⟩ := h
    exact .between (htype hname (by decide)) ⟨text, htext, hkey⟩ ⟨givenLow, hgivenLow, hlow⟩
      ⟨givenHigh, hgivenHigh, hhigh⟩
  rcases ite_eq_iff.mp h with ⟨hname, h⟩ | ⟨-, h⟩
  · simp only [bind_eq_ok_iff, pure_eq_ok_iff, orJsonError_eq_ok_iff] at h
    obtain ⟨text, htext, items, hitems, key, hkey, values, hvalues, rfl⟩ := h
    exact .oneOf (htype hname (by decide)) ⟨text, htext, hkey⟩ ⟨items, hitems, hvalues⟩
  rcases ite_eq_iff.mp h with ⟨hname, h⟩ | ⟨-, h⟩
  · simp only [bind_eq_ok_iff, pure_eq_ok_iff, orJsonError_eq_ok_iff] at h
    obtain ⟨text, htext, items, hitems, key, hkey, values, hvalues, rfl⟩ := h
    exact .noneOf (htype hname (by decide)) ⟨text, htext, hkey⟩ ⟨items, hitems, hvalues⟩
  rcases ite_eq_iff.mp h with ⟨hname, h⟩ | ⟨-, h⟩
  · simp only [bind_eq_ok_iff, pure_eq_ok_iff, orJsonError_eq_ok_iff] at h
    obtain ⟨text, htext, isNull, -, key, hkey, rfl⟩ := h
    exact .null (htype hname (by decide)) ⟨text, htext, hkey⟩
  rcases ite_eq_iff.mp h with ⟨hname, h⟩ | ⟨-, h⟩
  · simp only [bind_eq_ok_iff, pure_eq_ok_iff, orJsonError_eq_ok_iff] at h
    obtain ⟨text, htext, pattern, -, isLike, -, key, hkey, rfl⟩ := h
    exact .like (htype hname (by decide)) ⟨text, htext, hkey⟩
  rcases ite_eq_iff.mp h with ⟨hname, h⟩ | ⟨-, h⟩
  · simp only [bind_eq_ok_iff, pure_eq_ok_iff, orJsonError_eq_ok_iff] at h
    obtain ⟨text, htext, text', htext', _, -, left, hleft, right, hright, operator, -, rfl⟩ := h
    exact .columns (htype hname (by decide)) ⟨text, htext, hleft⟩ ⟨text', htext', hright⟩
  rcases ite_eq_iff.mp h with ⟨hname, h⟩ | ⟨-, h⟩
  · simp only [bind_eq_ok_iff, pure_eq_ok_iff, orJsonError_eq_ok_iff] at h
    obtain ⟨held, hheld, inner, hinner, rfl⟩ := h
    exact .not (htype hname (by decide)) hheld hinner
  · cases h

/-! ## Readers -/

/-- Within a bound on the nesting of text in text, all that the readers make was read from JSON with
the property. -/
structure ReadersFrom (source : Json → Prop) (fuel : Nat) : Prop where
  exprOfText : ∀ {text expr}, source (.string text) → exprOfText fuel text = .ok expr →
    expr.Everywhere (ReadFrom source)
  exprOfJson : ∀ {json expr}, source json → exprOfJson fuel json = .ok expr →
    expr.Everywhere (ReadFrom source)
  valueOfJson : ∀ {json expr}, source json → valueOfJson fuel json = .ok expr →
    expr.Everywhere (ReadFrom source)
  conditionOfJson : ∀ {json test}, source json → conditionOfJson fuel json = .ok test →
    test.Everywhere (ReadFrom source)
  tableOfRecord : ∀ {record table}, record.From source → tableOfRecord fuel record = .ok table →
    table.Everywhere (ReadFrom source)
  selectOfRecord : ∀ {record query}, record.From source → selectOfRecord fuel record = .ok query →
    query.Everywhere (ReadFrom source)
  selectOfJson : ∀ {json query}, source json → selectOfJson fuel json = .ok query →
    query.Everywhere (ReadFrom source)

namespace ReadersFrom

variable {source : Json → Prop} {fuel : Nat} (ih : ReadersFrom source fuel)

include ih

theorem exprs {items : List Json} {exprs : List Expr} (hitems : ∀ item ∈ items, source item)
    (h : items.mapM (Wire.exprOfJson fuel) = .ok exprs) :
    ∀ expr ∈ exprs, expr.Everywhere (ReadFrom source) := by
  intro expr hexpr
  obtain ⟨item, hitem, hread⟩ := exists_of_mem_mapM h expr hexpr
  exact ih.exprOfJson (hitems item hitem) hread

theorem values {items : List Json} {exprs : List Expr} (hitems : ∀ item ∈ items, source item)
    (h : items.mapM (Wire.valueOfJson fuel) = .ok exprs) :
    ∀ expr ∈ exprs, expr.Everywhere (ReadFrom source) := by
  intro expr hexpr
  obtain ⟨item, hitem, hread⟩ := exists_of_mem_mapM h expr hexpr
  exact ih.valueOfJson (hitems item hitem) hread

theorem conditions {items : List Json} {tests : List Condition} (hitems : ∀ item ∈ items, source item)
    (h : items.mapM (Wire.conditionOfJson fuel) = .ok tests) :
    ∀ test ∈ tests, test.Everywhere (ReadFrom source) := by
  intro test htest
  obtain ⟨item, hitem, hread⟩ := exists_of_mem_mapM h test htest
  exact ih.conditionOfJson (hitems item hitem) hread

theorem exprOfText_succ (hereditary : Hereditary source) {text : String} {expr : Expr}
    (given : source (.string text)) (h : Wire.exprOfText (fuel + 1) text = .ok expr) :
    expr.Everywhere (ReadFrom source) := by
  have hself : ReadFrom source (.expr expr) := .text given h
  unfold Wire.exprOfText at h
  split at h
  · rename_i hmarked
    simp only [bind_eq_ok_iff] at h
    obtain ⟨json, hparse, h⟩ := h
    have hjson := hereditary.embedded given (.payload hmarked rfl (parse_of_parseJson hparse))
    split at h
    · simp only [bind_eq_ok_iff, pure_eq_ok_iff] at h
      obtain ⟨query, hquery, rfl⟩ := h
      exact Expr.everywhere_subquery.mpr ⟨hself, ih.selectOfJson hjson hquery⟩
    · obtain rfl := pure_eq_ok_iff.mp h
      exact Expr.everywhere_value.mpr hself
  · simp only [dateExpr] at h
    split at h
    · obtain rfl := Except.ok.inj h
      exact Expr.everywhere_value.mpr hself
    · contradiction
  · simp only [bind_eq_ok_iff, pure_eq_ok_iff] at h
    obtain ⟨json, -, rfl⟩ := h
    exact Expr.everywhere_raw.mpr hself
  · rename_i hmarked
    simp only [bind_eq_ok_iff, pure_eq_ok_iff] at h
    obtain ⟨⟨name, args⟩, hparts, exprs, hexprs, rfl⟩ := h
    exact Expr.everywhere_call.mpr ⟨hself, ih.exprs (hereditary.args given hmarked rfl hparts) hexprs⟩
  · rename_i hmarked
    simp only [bind_eq_ok_iff, pure_eq_ok_iff] at h
    obtain ⟨⟨name, args⟩, hparts, exprs, hexprs, rfl⟩ := h
    exact Expr.everywhere_operation.mpr
      ⟨hself, ih.exprs (hereditary.args given hmarked rfl hparts) hexprs⟩
  · split at h
    · contradiction
    · split at h
      · rename_i json hfound
        simp only [bind_eq_ok_iff, pure_eq_ok_iff] at h
        obtain ⟨test, htest, rfl⟩ := h
        exact Expr.everywhere_condition.mpr
          ⟨hself, ih.conditionOfJson (hereditary.embedded given (.condition hfound)) htest⟩
      · obtain rfl := Except.ok.inj h
        exact Expr.everywhere_column.mpr hself

theorem exprOfJson_succ {json : Json} {expr : Expr} (given : source json)
    (h : Wire.exprOfJson (fuel + 1) json = .ok expr) : expr.Everywhere (ReadFrom source) := by
  have hself : ReadFrom source (.expr expr) := .json given h
  unfold Wire.exprOfJson at h
  split at h
  · exact ih.exprOfText given h
  · obtain rfl := Except.ok.inj h
    exact Expr.everywhere_value.mpr hself
  · split at h
    · simp only [bind_eq_ok_iff, pure_eq_ok_iff] at h
      obtain ⟨test, htest, rfl⟩ := h
      exact Expr.everywhere_condition.mpr ⟨hself, ih.conditionOfJson given htest⟩
    · obtain rfl := Except.ok.inj h
      exact Expr.everywhere_column.mpr hself

theorem valueOfJson_succ (hereditary : Hereditary source) {json : Json} {expr : Expr}
    (given : source json) (h : Wire.valueOfJson (fuel + 1) json = .ok expr) :
    expr.Everywhere (ReadFrom source) := by
  have hself : ReadFrom source (.expr expr) := .value given h
  unfold Wire.valueOfJson at h
  split at h
  · split at h
    · contradiction
    · exact ih.exprOfText given h
    · split at h
      · rename_i json hfound
        simp only [bind_eq_ok_iff, pure_eq_ok_iff] at h
        obtain ⟨test, htest, rfl⟩ := h
        exact Expr.everywhere_condition.mpr
          ⟨hself, ih.conditionOfJson (hereditary.embedded given (.condition hfound)) htest⟩
      · obtain rfl := Except.ok.inj h
        exact Expr.everywhere_value.mpr hself
  · obtain rfl := Except.ok.inj h
    exact Expr.everywhere_value.mpr hself

theorem conditionOfJson_succ (hereditary : Hereditary source) {json : Json} {test : Condition}
    (given : source json) (h : Wire.conditionOfJson (fuel + 1) json = .ok test) :
    test.Everywhere (ReadFrom source) := by
  have hself : ReadFrom source (.condition test) := .condition given h
  have hcolumn {name : String} {expr : Expr} (column : ReadsColumn fuel json name expr) :
      expr.Everywhere (ReadFrom source) := by
    obtain ⟨text, hget, hread⟩ := column
    exact ih.exprOfText (hereditary.string? given hget) hread
  have hslot {name : String} {expr : Expr} (slot : ReadsValue fuel json name expr) :
      expr.Everywhere (ReadFrom source) := by
    obtain ⟨found, hget, hread⟩ := slot
    exact ih.valueOfJson (hereditary.get? given hget) hread
  have hslots {name : String} {exprs : List Expr}
      (slots : ReadsList (Wire.valueOfJson fuel) json name exprs) :
      ∀ expr ∈ exprs, expr.Everywhere (ReadFrom source) := by
    obtain ⟨items, hitems, hread⟩ := slots
    exact ih.values (hereditary.array? given hitems) hread
  cases reading_of_conditionOfJson h with
  | compare _ column slot =>
    exact Condition.everywhere_compare.mpr ⟨hself, hcolumn column, hslot slot⟩
  | logical _ inside =>
    obtain ⟨items, hitems, hread⟩ := inside
    exact Condition.everywhere_logical.mpr
      ⟨hself, ih.conditions (hereditary.array? given hitems) hread⟩
  | between _ column low high =>
    exact Condition.everywhere_between.mpr ⟨hself, hcolumn column, hslot low, hslot high⟩
  | oneOf _ column slots =>
    exact Condition.everywhere_oneOf.mpr ⟨hself, hcolumn column, hslots slots⟩
  | noneOf _ column slots =>
    exact Condition.everywhere_noneOf.mpr ⟨hself, hcolumn column, hslots slots⟩
  | null _ column => exact Condition.everywhere_null.mpr ⟨hself, hcolumn column⟩
  | like _ column => exact Condition.everywhere_like.mpr ⟨hself, hcolumn column⟩
  | columns _ left right =>
    exact Condition.everywhere_columns.mpr ⟨hself, hcolumn left, hcolumn right⟩
  | not _ inside read =>
    exact Condition.everywhere_not.mpr
      ⟨hself, ih.conditionOfJson (hereditary.get? given inside) read⟩

theorem tableOfRecord_succ {record : TableRecord} {table : Table} (given : record.From source)
    (h : Wire.tableOfRecord (fuel + 1) record = .ok table) : table.Everywhere (ReadFrom source) := by
  unfold Wire.tableOfRecord at h
  split at h
  · obtain rfl := Except.ok.inj h
    exact Table.everywhere_named
  · split at h
    · simp only [bind_eq_ok_iff, pure_eq_ok_iff] at h
      obtain ⟨query, hquery, rfl⟩ := h
      exact Table.everywhere_nested.mpr (ih.selectOfJson given hquery)
    · contradiction

theorem joinOfRecord {record : JoinRecord} {join : Join} (given : record.From source)
    (h : PortableQuery.joinOfRecord fuel record = .ok join) :
    join.table.Everywhere (ReadFrom source) ∧
      ∀ test ∈ join.condition, test.Everywhere (ReadFrom source) := by
  simp only [PortableQuery.joinOfRecord, bind_eq_ok_iff] at h
  obtain ⟨kind, -, table, htable, h⟩ := h
  have htableFrom := ih.tableOfRecord given.1 htable
  split at h
  · simp only [bind_eq_ok_iff, pure_eq_ok_iff] at h
    obtain ⟨condition, hcondition, rfl⟩ := h
    obtain rfl := Except.ok.inj hcondition
    exact ⟨htableFrom, by simp⟩
  · rename_i json hjson
    simp only [bind_eq_ok_iff, map_eq_ok_iff, pure_eq_ok_iff] at h
    obtain ⟨_, ⟨test, htest, rfl⟩, rfl⟩ := h
    have htestFrom := ih.conditionOfJson (given.2 json hjson) htest
    exact ⟨htableFrom, by simpa using htestFrom⟩

theorem selectOfRecord_succ {record : SelectRecord} {query : Select} (given : record.From source)
    (h : Wire.selectOfRecord (fuel + 1) record = .ok query) : query.Everywhere (ReadFrom source) := by
  obtain ⟨hTables, hUnions, hJoins, hFields, hFilter, hHaving, hOrderBy, hGroupBy⟩ := given
  simp only [PortableQuery.selectOfRecord_succ, bind_eq_ok_iff, pure_eq_ok_iff] at h
  obtain ⟨unions, hunions, joins, hjoins, fields, hfields, orderBy, horderBy, tables, htables, filter,
    hfilter, having, hhaving, groupBy, hgroupBy, rfl⟩ := h
  rw [Select.everywhere_iff]
  refine ⟨?_, ?_, ?_, ih.conditions hFilter hfilter, ih.conditions hHaving hhaving, ?_,
    ih.exprs hGroupBy hgroupBy, ?_⟩
  · intro table htable
    obtain ⟨item, hitem, hread⟩ := exists_of_mem_mapM htables table htable
    exact ih.tableOfRecord (hTables item hitem) hread
  · intro join hjoin
    obtain ⟨item, hitem, hread⟩ := exists_of_mem_mapM hjoins join hjoin
    exact ih.joinOfRecord (hJoins item hitem) hread
  · intro field hfield
    obtain ⟨item, hitem, hread⟩ := exists_of_mem_mapM hfields field hfield
    simp only [fieldOfRecord, bind_eq_ok_iff, pure_eq_ok_iff] at hread
    obtain ⟨expr, hexpr, rfl⟩ := hread
    exact ih.exprOfJson (hFields item hitem) hexpr
  · intro key hkey
    obtain ⟨item, hitem, hread⟩ := exists_of_mem_mapM horderBy key hkey
    simp only [sortKeyOfRecord, bind_eq_ok_iff, pure_eq_ok_iff] at hread
    obtain ⟨direction, -, expr, hexpr, rfl⟩ := hread
    exact ih.exprOfJson (hOrderBy item hitem) hexpr
  · intro tail htail
    obtain ⟨item, hitem, hread⟩ := exists_of_mem_mapM hunions tail htail
    simp only [unionTailOfRecord, bind_eq_ok_iff, pure_eq_ok_iff] at hread
    obtain ⟨kind, -, query, hquery, rfl⟩ := hread
    exact ih.selectOfRecord (hUnions item hitem) hquery

theorem selectOfJson_succ (hereditary : Hereditary source) {json : Json} {query : Select}
    (given : source json) (h : Wire.selectOfJson (fuel + 1) json = .ok query) :
    query.Everywhere (ReadFrom source) := by
  unfold Wire.selectOfJson at h
  split at h
  · rename_i record hrecord
    exact ih.selectOfRecord (hereditary.select given hrecord) h
  · contradiction

end ReadersFrom

theorem readersFrom {source : Json → Prop} (hereditary : Hereditary source) (fuel : Nat) :
    ReadersFrom source fuel := by
  induction fuel with
  | zero =>
    constructor <;> intros <;>
      simp_all [exprOfText, exprOfJson, valueOfJson, conditionOfJson, tableOfRecord, selectOfRecord,
        selectOfJson]
  | succ fuel ih =>
    exact ⟨ih.exprOfText_succ hereditary, ih.exprOfJson_succ, ih.valueOfJson_succ hereditary,
      ih.conditionOfJson_succ hereditary, ih.tableOfRecord_succ, ih.selectOfRecord_succ,
      ih.selectOfJson_succ hereditary⟩

end Wire

/-! ## Statements -/

namespace Statement

variable {source : Json → Prop} (hereditary : Hereditary source) {fuel : Nat} {entries : Entries Json}

include hereditary

theorem table_from {record : TableRecord} {table : Table} (h : EntriesFrom source entries)
    (hrecord : (entries.get? "table").bind TableRecord.ofJson? = some record)
    (htable : tableOfRecord fuel record = .ok table) : table.Everywhere (ReadFrom source) := by
  obtain ⟨json, hjson, hread⟩ := Option.bind_eq_some_iff.mp hrecord
  exact (readersFrom hereditary fuel).tableOfRecord (hereditary.table (h.get? hjson) hread) htable

theorem filter_from {items : List Json} {tests : List Condition} (h : EntriesFrom source entries)
    (hitems : listField? entries "where" = some items)
    (htests : items.mapM (conditionOfJson fuel) = .ok tests) :
    ∀ test ∈ tests, test.Everywhere (ReadFrom source) :=
  (readersFrom hereditary fuel).conditions (h.list hereditary hitems) htests

theorem insertSelect_from {record : SelectRecord} {columns : Option (List String)}
    (h : EntriesFrom source entries)
    (hselect : insertSelect? fuel entries = some (some (record, columns))) : record.From source := by
  unfold insertSelect? at hselect
  split at hselect
  · simp at hselect
  · simp at hselect
  · rename_i query names hget
    simp only [Option.bind_eq_bind, Option.bind_eq_some_iff, Option.pure_def, Option.some.injEq,
      Prod.mk.injEq] at hselect
    obtain ⟨found, hfound, given, -, rfl, -⟩ := hselect
    exact hereditary.select (hereditary.item (h.get? hget) (by simp)) hfound
  · contradiction

theorem everywhere_of_insertOfEntries {mutation : Insert} (h : EntriesFrom source entries)
    (hread : insertOfEntries fuel entries = .ok mutation) :
    (Statement.insert mutation).Everywhere (ReadFrom source) := by
  simp only [insertOfEntries, bind_eq_ok_iff, orJsonError_eq_ok_iff] at hread
  obtain ⟨record, hrecord, hread⟩ := hread
  simp only [InsertRecord.ofJson?, Option.bind_eq_bind, Option.bind_eq_some_iff, Option.pure_def,
    Option.some.injEq] at hrecord
  obtain ⟨table, htable, rows, -, select, hselect, rfl⟩ := hrecord
  have htableRecord := Option.bind_eq_some_iff.mpr htable
  rw [everywhere_insert]
  simp only at hread
  split at hread
  · contradiction
  · simp only [bind_eq_ok_iff, pure_eq_ok_iff] at hread
    obtain ⟨held, hheld, rfl⟩ := hread
    exact ⟨table_from hereditary h htableRecord hheld, by simp [InsertSource.nodes]⟩
  · simp only [bind_eq_ok_iff, pure_eq_ok_iff] at hread
    obtain ⟨query, hquery, held, hheld, rfl⟩ := hread
    have hqueryFrom := (readersFrom hereditary fuel).selectOfRecord
      (insertSelect_from hereditary h hselect) hquery
    refine ⟨table_from hereditary h htableRecord hheld, ?_⟩
    simpa [InsertSource.nodes, Select.Everywhere] using hqueryFrom
  · simp only [bind_eq_ok_iff, pure_eq_ok_iff] at hread
    obtain ⟨held, hheld, rfl⟩ := hread
    exact ⟨table_from hereditary h htableRecord hheld, by simp⟩

theorem everywhere_of_deleteOfEntries {mutation : Delete} (h : EntriesFrom source entries)
    (hread : deleteOfEntries fuel entries = .ok mutation) :
    (Statement.delete mutation).Everywhere (ReadFrom source) := by
  simp only [deleteOfEntries, bind_eq_ok_iff, orJsonError_eq_ok_iff, pure_eq_ok_iff] at hread
  obtain ⟨record, hrecord, table, htable, filter, hfilter, rfl⟩ := hread
  simp only [DeleteRecord.ofJson?, Option.bind_eq_bind, Option.bind_eq_some_iff, Option.pure_def,
    Option.some.injEq] at hrecord
  obtain ⟨tableRecord, htableRecord, tests, htests, rfl⟩ := hrecord
  exact everywhere_delete.mpr
    ⟨table_from hereditary h (Option.bind_eq_some_iff.mpr htableRecord) htable,
      filter_from hereditary h htests hfilter⟩

/-- Assigned JSON comes from the JSON of the update. -/
theorem assignments_from {record : UpdateRecord} (h : EntriesFrom source entries)
    (hrecord : UpdateRecord.ofJson? entries = some record) :
    (entries.get? "table").bind TableRecord.ofJson? = some record.table ∧
      EntriesFrom source record.assignments ∧ listField? entries "where" = some record.filter := by
  simp only [UpdateRecord.ofJson?, Option.bind_eq_bind, Option.bind_eq_some_iff, Option.pure_def]
    at hrecord
  obtain ⟨table, htable, hrecord⟩ := hrecord
  have htableRecord := Option.bind_eq_some_iff.mpr htable
  split at hrecord
  · simp only [Option.bind_some, Option.bind_eq_some_iff, Option.some.injEq] at hrecord
    obtain ⟨tests, htests, rfl⟩ := hrecord
    exact ⟨htableRecord, by simp [EntriesFrom], htests⟩
  · rename_i json hget
    simp only [Option.bind_eq_some_iff, Option.some.injEq] at hrecord
    obtain ⟨given, hgiven, tests, htests, rfl⟩ := hrecord
    have hmembers := hereditary.members (h.get? hget)
    rw [hgiven] at hmembers
    exact ⟨htableRecord, hmembers, htests⟩

theorem everywhere_of_assignmentOfJson {json : Json} {expr : Expr} (given : source json)
    (hread : assignmentOfJson fuel json = .ok expr) : expr.Everywhere (ReadFrom source) := by
  unfold assignmentOfJson at hread
  split at hread
  · exact (readersFrom hereditary fuel).exprOfText given hread
  · exact (readersFrom hereditary fuel).valueOfJson given hread

theorem everywhere_of_updateOfEntries {mutation : Update} (h : EntriesFrom source entries)
    (hread : updateOfEntries fuel entries = .ok mutation) :
    (Statement.update mutation).Everywhere (ReadFrom source) := by
  simp only [updateOfEntries, bind_eq_ok_iff, orJsonError_eq_ok_iff, pure_eq_ok_iff] at hread
  obtain ⟨record, hrecord, assignments, hassignments, table, htable, filter, hfilter, rfl⟩ := hread
  obtain ⟨htableRecord, hgiven, htests⟩ := assignments_from hereditary h hrecord
  refine everywhere_update.mpr ⟨table_from hereditary h htableRecord htable, ?_,
    filter_from hereditary h htests hfilter⟩
  intro assignment hassignment
  obtain ⟨entry, hentry, hvalue⟩ := exists_of_mem_mapM hassignments assignment hassignment
  simp only [bind_eq_ok_iff, pure_eq_ok_iff] at hvalue
  obtain ⟨value, hvalue, rfl⟩ := hvalue
  exact everywhere_of_assignmentOfJson hereditary (hgiven entry hentry) hvalue

theorem createFields_from {nameField name : String} {record : SelectRecord} {query : Select}
    (h : EntriesFrom source entries)
    (hfields : createFields? fuel nameField entries = some (name, record))
    (hquery : selectOfRecord fuel record = .ok query) : query.Everywhere (ReadFrom source) := by
  simp only [createFields?, Option.bind_eq_bind, Option.bind_eq_some_iff, Option.pure_def,
    Option.some.injEq, Prod.mk.injEq] at hfields
  obtain ⟨_, -, found, ⟨json, hget, hrecord⟩, -, rfl⟩ := hfields
  exact (readersFrom hereditary fuel).selectOfRecord (hereditary.select (h.get? hget) hrecord) hquery

/-- All that occurs in a statement was read from JSON with the property. -/
theorem everywhere_of_statementOfJson {json : Json} {statement : Statement} (given : source json)
    (hread : statementOfJson fuel json = .ok statement) : statement.Everywhere (ReadFrom source) := by
  have hentries := hereditary.members given
  unfold statementOfJson at hread
  simp only at hread
  split_ifs at hread <;> simp only [bind_eq_ok_iff, pure_eq_ok_iff] at hread <;>
    obtain ⟨found, hfound, rfl⟩ := hread
  · exact (readersFrom hereditary fuel).selectOfJson given hfound
  · exact everywhere_of_insertOfEntries hereditary hentries hfound
  · exact everywhere_of_updateOfEntries hereditary hentries hfound
  · exact everywhere_of_deleteOfEntries hereditary hentries hfound
  · simp only [createTableOfEntries, bind_eq_ok_iff, orJsonError_eq_ok_iff, pure_eq_ok_iff] at hfound
    obtain ⟨⟨name, record⟩, hrecord, query, hquery, rfl⟩ := hfound
    exact createFields_from hereditary hentries hrecord hquery
  · simp only [createViewOfEntries, bind_eq_ok_iff, orJsonError_eq_ok_iff, pure_eq_ok_iff] at hfound
    obtain ⟨⟨name, record⟩, hrecord, orReplace, -, query, hquery, rfl⟩ := hfound
    exact createFields_from hereditary hentries hrecord hquery

/-- All that occurs in a statement was read from JSON of its text. -/
theorem everywhere_of_decode {text : String} {statement : Statement}
    (whole : ∀ json, Json.parse text = some json → source json)
    (h : Statement.decode text = .ok statement) : statement.Everywhere (ReadFrom source) := by
  cases hparse : Json.parse text with
  | none => exact absurd h (decode_ne_ok hparse statement)
  | some json =>
    rw [decode_eq_ok_iff hparse] at h
    exact everywhere_of_statementOfJson hereditary (whole json hparse) h

end Statement

end PortableQuery
