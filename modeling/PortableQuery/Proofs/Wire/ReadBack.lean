import PortableQuery.Proofs.Query.Occurrence
import PortableQuery.Proofs.Wire.Literal
import PortableQuery.Proofs.Wire.Record

/-!
# Written queries read back

What a query must hold to be carried: columns that no reader takes for something else, values where
values are expected, literals that JSON can hold, and text that does not nest too deep. A carried
query comes back from its own text exactly if its floating-point numbers do and no literal in it
passes for a select.
-/

namespace PortableQuery

open Text Calendar Wire

/-! ## What is carried -/

/-- Text that the slot of a column takes for a column. -/
def Wire.Plain (text : String) : Prop :=
  Sentinel.classify text = none ∧ looksLikeDate text = false ∧ conditionJson? text = none

instance (text : String) : Decidable (Plain text) :=
  inferInstanceAs (Decidable (Sentinel.classify text = none ∧ looksLikeDate text = false ∧
    conditionJson? text = none))

/-- Plain columns and function calls have no place in the slot of a value. -/
def Expr.FitsValueSlot : Expr → Prop
  | .column _ => False
  | .call _ _ => False
  | _ => True

/-- The expressions in the slots of values. -/
def Condition.valueSlots : Condition → List Expr
  | .compare _ value _ => [value]
  | .between _ low high => [low, high]
  | .oneOf _ values => values
  | .noneOf _ values => values
  | _ => []

/-- The JSON inside the text of an expression. -/
def Expr.payload? : Expr → Option Json
  | .column _ => none
  | .value (.date _) => none
  | .value literal => some literal.toJson
  | .raw literal => some literal.toJson
  | .call name args => some (.array (.string name :: Expr.encodeList args))
  | .operation operator operands => some (.array (.string operator :: Expr.encodeList operands))
  | .condition test => some test.toJson
  | .subquery query => some query.toJson

namespace Node

/-- What stands in a node is fit for the wire. -/
def Safe : Node → Prop
  | .expr (.column text) => Plain text
  | .expr (.value literal) => literal.Carried
  | .expr (.raw literal) => literal.Carried
  | .expr _ => True
  | .condition test => ∀ value ∈ test.valueSlots, value.FitsValueSlot

/-- The JSON inside the text of a node. -/
def payload? : Node → Option Json
  | .expr held => held.payload?
  | .condition _ => none

/-- The literal that a node holds. -/
def literal? : Node → Option Literal
  | .expr (.value literal) => some literal
  | .expr (.raw literal) => some literal
  | _ => none

/-- The JSON inside the text of a node nests no deeper than a reader follows. -/
def Shallow (node : Node) : Prop := ∀ json ∈ node.payload?, json.depth ≤ Json.depthLimit

def Carried (node : Node) : Prop := node.Safe ∧ node.Shallow

/-- Reading keeps the literal of a node. -/
def Stable : Node → Prop
  | .expr (.value literal) =>
    ¬literal.IsSelectLike ∧ ∀ x ∈ literal.floats, Json.FloatReadsBack x
  | .expr (.raw literal) => ∀ x ∈ literal.floats, Json.FloatReadsBack x
  | _ => True

end Node

-- The readers call one another: their equations are made here, before the proofs that use them.
attribute [local simp] exprOfText exprOfJson valueOfJson conditionOfJson tableOfRecord selectOfRecord
  selectOfJson

/-! ## Plain columns -/

theorem exprOfText_eq_column_iff {fuel : Nat} {text : String} :
    exprOfText (fuel + 1) text = .ok (.column text) ↔ Plain text := by
  unfold exprOfText Plain
  cases hsentinel : Sentinel.classify text with
  | some sentinel =>
    cases sentinel with
    | value payload =>
      simp only [bind_eq_ok_iff, reduceCtorEq, false_and, iff_false, not_exists, not_and]
      intro json _
      cases isSelectJson json <;> simp
    | date millis =>
      simp only [dateExpr]
      split <;> simp
    | _ => simp
  | none =>
    cases hdate : looksLikeDate text with
    | true => simp
    | false => cases hcondition : conditionJson? text <;> simp

/-- A text is a column of its own exactly if no mark, date or condition is seen in it. -/
theorem Expr.decode_eq_column_iff {text : String} :
    Expr.decode text = .ok (.column text) ↔ Plain text := by
  rw [Expr.decode, decodingFuel]
  exact exprOfText_eq_column_iff

/-! ## Lists of nodes -/

section Nodes

variable {nodes : List Node}

theorem Node.carried_of_mem
    (columns : ∀ text, Node.expr (.column text) ∈ nodes → Expr.decode text = .ok (.column text))
    (values : ∀ test, Node.condition test ∈ nodes → ∀ value ∈ test.valueSlots, value.FitsValueSlot)
    (literals : ∀ node ∈ nodes, ∀ literal ∈ node.literal?, literal.Carried)
    (nesting : ∀ node ∈ nodes, node.Shallow) : ∀ node ∈ nodes, node.Carried := by
  intro node hnode
  refine ⟨?_, nesting node hnode⟩
  cases node with
  | condition test => exact values test hnode
  | expr held =>
    cases held with
    | column text => exact Expr.decode_eq_column_iff.mp (columns text hnode)
    | value literal => exact literals _ hnode literal rfl
    | raw literal => exact literals _ hnode literal rfl
    | _ => trivial

theorem Node.stable_iff {node : Node} :
    node.Stable ↔ (∀ literal, node = .expr (.value literal) → ¬literal.IsSelectLike) ∧
      ∀ literal ∈ node.literal?, ∀ x ∈ literal.floats, Json.FloatReadsBack x := by
  cases node with
  | condition test => simp [Stable, literal?]
  | expr held => cases held <;> simp [Stable, literal?]

theorem Node.forall_stable_iff :
    (∀ node ∈ nodes, node.Stable) ↔
      (∀ literal, Node.expr (.value literal) ∈ nodes → ¬literal.IsSelectLike) ∧
        ∀ node ∈ nodes, ∀ literal ∈ node.literal?, ∀ x ∈ literal.floats, Json.FloatReadsBack x := by
  simp only [Node.stable_iff, imp_and, forall_and]
  refine and_congr_left fun _ ↦ ⟨fun h literal hnode ↦ h _ hnode literal rfl, ?_⟩
  rintro h node hnode literal rfl
  exact h literal hnode

end Nodes

/-! ## Readers at the text of each kind of expression -/

theorem Expr.encode_value {literal : Literal} (h : ∀ instant, literal ≠ .date instant) :
    (Expr.value literal).encode = valueMark ++ literal.toJson.compact := by
  cases literal with
  | date instant => exact absurd rfl (h instant)
  | _ => simp only [Expr.encode]

theorem Expr.payload?_value {literal : Literal} (h : ∀ instant, literal ≠ .date instant) :
    (Expr.value literal).payload? = some literal.toJson := by
  cases literal with
  | date instant => exact absurd rfl (h instant)
  | _ => simp only [Expr.payload?]

theorem parseJson_eq {text : String} {json : Json} (h : Json.parse text = some json) :
    parseJson text = .ok json := by
  simp [parseJson, h]

theorem isSelectJson_of_reread {json found : Json} (h : json.reread = some found) :
    isSelectJson found = isSelectJson json := by
  rw [isSelectJson, isSelectJson, Json.typeName?_of_reread h]

theorem isSelectJson_toJson (query : Select) : isSelectJson query.toJson = true := by
  simp [Select.toJson_eq, Select.members, isSelectJson, Json.typeName?, Json.get?, Entries.get?,
    Json.string?]

theorem isConditionJson_toJson (test : Condition) : isConditionJson test.toJson = true := by
  cases test <;>
    simp [Condition.toJson, isConditionJson, Json.typeName?, Json.get?, Entries.get?, Json.string?,
      conditionTypes]

/-- The text of a date is read as the date. -/
theorem exprOfText_dateText (fuel : Nat) (instant : Instant) :
    exprOfText (fuel + 1) (dateText instant.millis) = .ok (.value (.date instant)) := by
  obtain ⟨word, hword, hmillis⟩ := Literal.exists_int64?_millis instant
  simp [Sentinel.classify_dateText hword, dateExpr, hmillis, Literal.ofMillis?_millis]

theorem exprOfText_value_iff {literal : Literal} (fuel : Nat) (hcarried : literal.Carried)
    (hdepth : literal.toJson.depth ≤ Json.depthLimit) (hdate : ∀ instant, literal ≠ .date instant) :
    exprOfText (fuel + 1) (valueMark ++ literal.toJson.compact) = .ok (.value literal) ↔
      ¬literal.IsSelectLike ∧ ∀ x ∈ literal.floats, Json.FloatReadsBack x := by
  have hparse := Json.parse_compact (Literal.readable_toJson hcarried) hdepth
  rw [← Literal.map_ofPayload_iff hcarried hdate, ← Literal.isSelectJson_toJson_iff, exprOfText,
    Sentinel.classify_value]
  cases hreread : literal.toJson.reread with
  | none => simp [parseJson, hparse, hreread]
  | some found =>
    rw [hreread] at hparse
    rw [← isSelectJson_of_reread hreread]
    cases hselect : isSelectJson found <;> simp [parseJson_eq hparse, hselect]

theorem exprOfText_raw_iff {literal : Literal} (fuel : Nat) (hcarried : literal.Carried)
    (hdepth : literal.toJson.depth ≤ Json.depthLimit) :
    exprOfText (fuel + 1) (rawMark ++ literal.toJson.compact ++ rawMark) = .ok (.raw literal) ↔
      ∀ x ∈ literal.floats, Json.FloatReadsBack x := by
  have hparse := Json.parse_compact (Literal.readable_toJson hcarried) hdepth
  rw [← Literal.reread_eq_self_iff hcarried, Literal.reread, exprOfText, Sentinel.classify_raw]
  cases hreread : literal.toJson.reread with
  | none => simp [parseJson, hparse, hreread]
  | some found =>
    rw [hreread] at hparse
    simp [parseJson_eq hparse]

theorem depthItems_encodeList (exprs : List Expr) : Json.depthItems (Expr.encodeList exprs) = 0 := by
  induction exprs with
  | nil => rfl
  | cons expr more ih => simp [Expr.encodeList, Json.depthItems, Json.depth, ih]

theorem callParts_compact (name : String) (args : List Expr) (whole : String) :
    callParts (Json.array (.string name :: Expr.encodeList args)).compact whole =
      .ok (name, args.map fun arg ↦ .string arg.encode) := by
  have hfaithful : (Json.array (.string name :: Expr.encodeList args)).Faithful := by
    apply Json.faithful_array
    simp [Expr.encodeList_eq, Json.faithful_string]
  have hdepth : (Json.array (.string name :: Expr.encodeList args)).depth ≤ Json.depthLimit := by
    simp [Json.depth, Json.depthItems, depthItems_encodeList, Json.depthLimit]
  rw [callParts, Json.parse_compact_of_faithful hfaithful hdepth, Expr.encodeList_eq]

theorem toList_compact_toJson (test : Condition) : ∃ more, test.toJson.compact.toList = '{' :: more := by
  have hobject : ∃ members, test.toJson = .object members := by
    cases test <;> exact ⟨_, rfl⟩
  obtain ⟨members, hmembers⟩ := hobject
  exact ⟨_, by rw [hmembers, Json.compact, String.toList_ofList, Json.chars]⟩

/-- The text of a condition is no sentinel and holds the condition's JSON. -/
theorem conditionText (test : Condition) (hdepth : test.toJson.depth ≤ Json.depthLimit) :
    Sentinel.classify test.toJson.compact = none ∧ looksLikeDate test.toJson.compact = false ∧
      conditionJson? test.toJson.compact = some test.toJson := by
  obtain ⟨more, htext⟩ := toList_compact_toJson test
  have hparse := Json.parse_compact_of_faithful test.faithful_toJson hdepth
  have hstarts : startsWith "\x7b" test.toJson.compact = true := by simp [startsWith, htext]
  refine ⟨Sentinel.classify_of_head htext (by decide),
    startsWith_eq_false (show dateMark.toList = '!' :: _ from rfl) htext (by decide), ?_⟩
  simp [conditionJson?, hstarts, hparse, isConditionJson_toJson]

/-! ## Reading back -/

/-- In the slots of columns and of values. -/
def Expr.ReadsBack (expr : Expr) : Prop :=
  expr.Everywhere Node.Carried →
    (∀ fuel, expr.encode.length < fuel →
      (exprOfText fuel expr.encode = .ok expr ↔ expr.Everywhere Node.Stable)) ∧
    (expr.FitsValueSlot → ∀ fuel, expr.encode.length + 1 < fuel →
      (valueOfJson fuel (.string expr.encode) = .ok expr ↔ expr.Everywhere Node.Stable))

def Condition.ReadsBack (test : Condition) : Prop :=
  test.Everywhere Node.Carried → ∀ fuel, test.toJson.weight ≤ fuel →
    (conditionOfJson fuel test.toJson = .ok test ↔ test.Everywhere Node.Stable)

def Table.ReadsBack (table : Table) : Prop :=
  table.Everywhere Node.Carried → ∀ fuel, table.toJson.weight ≤ fuel →
    (tableOfRecord fuel table.record = .ok table ↔ table.Everywhere Node.Stable)

def Select.ReadsBack (query : Select) : Prop :=
  query.Everywhere Node.Carried → ∀ fuel, query.toJson.weight ≤ fuel + 1 →
    (selectOfRecord fuel query.record = .ok query ↔ query.Everywhere Node.Stable)

/-- A sentinel other than that of a call is read alike in both kinds of slots. -/
theorem Expr.readsBack_of_classify {expr : Expr} {sentinel : Sentinel}
    (hclassify : Sentinel.classify expr.encode = some sentinel)
    (hcall : expr.FitsValueSlot → ∀ payload, sentinel ≠ .call payload)
    (hread : expr.Everywhere Node.Carried → ∀ fuel, expr.encode.length ≤ fuel →
      (exprOfText (fuel + 1) expr.encode = .ok expr ↔ expr.Everywhere Node.Stable)) :
    expr.ReadsBack := by
  intro hcarried
  have hslot (fuel : Nat) (hfuel : expr.encode.length < fuel) :
      exprOfText fuel expr.encode = .ok expr ↔ expr.Everywhere Node.Stable := by
    obtain ⟨fuel, rfl⟩ : ∃ k, fuel = k + 1 := ⟨fuel - 1, by omega⟩
    exact hread hcarried fuel (by omega)
  refine ⟨hslot, ?_⟩
  intro hfits fuel hfuel
  obtain ⟨fuel, rfl⟩ : ∃ k, fuel = k + 1 := ⟨fuel - 1, by omega⟩
  rw [← hslot fuel (by omega), valueOfJson, hclassify]
  cases sentinel with
  | call payload => exact absurd rfl (hcall hfits payload)
  | _ => rfl

theorem Expr.readsBack_column (text : String) : (Expr.column text).ReadsBack := by
  intro hcarried
  refine ⟨?_, False.elim⟩
  intro fuel hfuel
  obtain ⟨fuel, rfl⟩ : ∃ k, fuel = k + 1 := ⟨fuel - 1, by omega⟩
  have hplain : Plain text := (Expr.everywhere_column.mp hcarried).1
  simpa [Expr.encode, Node.Stable] using exprOfText_eq_column_iff.mpr hplain

theorem Expr.readsBack_value (literal : Literal) : (Expr.value literal).ReadsBack := by
  by_cases hdate : ∃ instant, literal = .date instant
  · obtain ⟨instant, rfl⟩ := hdate
    obtain ⟨word, hword, -⟩ := Literal.exists_int64?_millis instant
    have hclassify : Sentinel.classify (Expr.value (.date instant)).encode = some (.date word) := by
      rw [Expr.encode, Sentinel.classify_dateText hword]
    apply Expr.readsBack_of_classify hclassify (by simp)
    intro _ fuel _
    simpa [Expr.encode, Node.Stable, Literal.IsSelectLike, Literal.floats] using
      exprOfText_dateText fuel instant
  · have hdate : ∀ instant, literal ≠ .date instant := fun instant h ↦ hdate ⟨instant, h⟩
    have hclassify : Sentinel.classify (Expr.value literal).encode = some (.value literal.toJson.compact) := by
      rw [Expr.encode_value hdate, Sentinel.classify_value]
    apply Expr.readsBack_of_classify hclassify (by simp)
    intro hcarried fuel _
    obtain ⟨hsafe, hshallow⟩ := Expr.everywhere_value.mp hcarried
    have hdepth := hshallow literal.toJson (Expr.payload?_value hdate)
    rw [Expr.everywhere_value, Expr.encode_value hdate]
    exact exprOfText_value_iff fuel hsafe hdepth hdate

theorem Expr.readsBack_raw (literal : Literal) : (Expr.raw literal).ReadsBack := by
  have hclassify : Sentinel.classify (Expr.raw literal).encode = some (.raw literal.toJson.compact) := by
    rw [Expr.encode, Sentinel.classify_raw]
  apply Expr.readsBack_of_classify hclassify (by simp)
  intro hcarried fuel _
  obtain ⟨hsafe, hshallow⟩ := Expr.everywhere_raw.mp hcarried
  rw [Expr.everywhere_raw, Expr.encode]
  exact exprOfText_raw_iff fuel hsafe (hshallow literal.toJson rfl)

/-- An expression among the arguments of a call, the keys of a select or its fields. -/
theorem Expr.ReadsBack.exprOfJson {expr : Expr} (h : expr.ReadsBack)
    (hcarried : expr.Everywhere Node.Carried) (fuel : Nat) (hfuel : expr.encode.length + 1 < fuel) :
    exprOfJson fuel (.string expr.encode) = .ok expr ↔ expr.Everywhere Node.Stable := by
  obtain ⟨fuel, rfl⟩ : ∃ k, fuel = k + 1 := ⟨fuel - 1, by omega⟩
  rw [Wire.exprOfJson]
  exact (h hcarried).1 fuel (by omega)

/-- The parts in a list read back one by one; each weighs no more than the list. -/
theorem mapM_parts_iff {α β : Type} (toJson : α → Json) {items : List α} {record : α → β}
    {read : β → Except Error α} {p : α → Prop}
    (h : ∀ item ∈ items, (toJson item).weight ≤ Json.weightItems (items.map toJson) →
      (read (record item) = .ok item ↔ p item)) :
    (items.map record).mapM read = .ok items ↔ ∀ item ∈ items, p item := by
  rw [mapM_map_eq_ok_iff]
  refine forall₂_congr fun item hitem ↦ h item hitem ?_
  exact Json.weight_le_weightItems (List.mem_map_of_mem hitem)

theorem mapM_exprOfJson_iff {exprs : List Expr} (h : ∀ expr ∈ exprs, expr.ReadsBack)
    (hcarried : ∀ expr ∈ exprs, expr.Everywhere Node.Carried) (fuel : Nat)
    (hfuel : Json.weightItems (exprs.map fun expr ↦ .string expr.encode) < fuel) :
    (exprs.map fun expr ↦ Json.string expr.encode).mapM (exprOfJson fuel) = .ok exprs ↔
      ∀ expr ∈ exprs, expr.Everywhere Node.Stable := by
  apply mapM_parts_iff fun expr : Expr ↦ .string expr.encode
  intro expr hexpr hweight
  rw [Json.weight] at hweight
  exact (h expr hexpr).exprOfJson (hcarried expr hexpr) fuel (by omega)

theorem mapM_valueOfJson_iff {exprs : List Expr} (h : ∀ expr ∈ exprs, expr.ReadsBack)
    (hcarried : ∀ expr ∈ exprs, expr.Everywhere Node.Carried)
    (hfits : ∀ expr ∈ exprs, expr.FitsValueSlot) (fuel : Nat)
    (hfuel : Json.weightItems (exprs.map fun expr ↦ .string expr.encode) < fuel) :
    (exprs.map fun expr ↦ Json.string expr.encode).mapM (valueOfJson fuel) = .ok exprs ↔
      ∀ expr ∈ exprs, expr.Everywhere Node.Stable := by
  apply mapM_parts_iff fun expr : Expr ↦ .string expr.encode
  intro expr hexpr hweight
  rw [Json.weight] at hweight
  exact (h expr hexpr (hcarried expr hexpr)).2 (hfits expr hexpr) fuel (by omega)

theorem length_callText (mark name : String) (args : List Expr) :
    Json.weightItems (args.map fun arg ↦ .string arg.encode) + 3 ≤
      (callText mark name (Expr.encodeList args)).length := by
  have hweight := Json.weight_le_length (Json.array (.string name :: Expr.encodeList args))
  simp only [Json.weight, Json.weightItems, Expr.encodeList_eq] at hweight
  have hclose : ")".length = 1 := rfl
  simp only [callText, String.length_append, Expr.encodeList_eq]
  omega

theorem Expr.readsBack_call (name : String) (args : List Expr) (h : ∀ arg ∈ args, arg.ReadsBack) :
    (Expr.call name args).ReadsBack := by
  have hclassify : Sentinel.classify (Expr.call name args).encode =
      some (.call (Json.array (.string name :: Expr.encodeList args)).compact) := by
    rw [Expr.encode, callText, Sentinel.classify_call]
  apply Expr.readsBack_of_classify hclassify (fun hfits ↦ hfits.elim)
  intro hcarried fuel hfuel
  have hlength := length_callText "FN(" name args
  rw [← Expr.encode] at hlength
  have hargs := mapM_exprOfJson_iff h (Expr.everywhere_call.mp hcarried).2 fuel (by omega)
  rw [exprOfText, hclassify, Expr.everywhere_call, ← hargs]
  simp [callParts_compact, Node.Stable]

theorem Expr.readsBack_operation (operator : String) (operands : List Expr)
    (h : ∀ operand ∈ operands, operand.ReadsBack) : (Expr.operation operator operands).ReadsBack := by
  have hclassify : Sentinel.classify (Expr.operation operator operands).encode =
      some (.operation (Json.array (.string operator :: Expr.encodeList operands)).compact) := by
    rw [Expr.encode, callText, Sentinel.classify_operation]
  apply Expr.readsBack_of_classify hclassify (by simp)
  intro hcarried fuel hfuel
  have hlength := length_callText "OP(" operator operands
  rw [← Expr.encode] at hlength
  have hoperands := mapM_exprOfJson_iff h (Expr.everywhere_operation.mp hcarried).2 fuel
    (by omega)
  rw [exprOfText, hclassify, Expr.everywhere_operation, ← hoperands]
  simp [callParts_compact, Node.Stable]

theorem Expr.readsBack_condition (test : Condition) (h : test.ReadsBack) :
    (Expr.condition test).ReadsBack := by
  intro hcarried
  obtain ⟨⟨-, hshallow⟩, hinside⟩ := Expr.everywhere_condition.mp hcarried
  obtain ⟨hclassify, hdate, hjson⟩ := conditionText test (hshallow test.toJson rfl)
  have hlength := Json.weight_le_length test.toJson
  have hread (fuel : Nat) (hfuel : (Expr.condition test).encode.length ≤ fuel) :
      (conditionOfJson fuel test.toJson = .ok test ↔ (Expr.condition test).Everywhere Node.Stable) := by
    rw [Expr.encode] at hfuel
    rw [Expr.everywhere_condition, h hinside fuel (by omega)]
    simp [Node.Stable]
  constructor
  · intro fuel hfuel
    obtain ⟨fuel, rfl⟩ : ∃ k, fuel = k + 1 := ⟨fuel - 1, by omega⟩
    rw [← hread fuel (by omega), Expr.encode, exprOfText, hclassify]
    simp [hdate, hjson]
  · intro _ fuel hfuel
    obtain ⟨fuel, rfl⟩ : ∃ k, fuel = k + 1 := ⟨fuel - 1, by omega⟩
    rw [← hread fuel (by omega), Expr.encode, valueOfJson, hclassify]
    simp [hjson]

/-- A select from its JSON. -/
theorem Select.ReadsBack.selectOfJson {query : Select} (h : query.ReadsBack)
    (hcarried : query.Everywhere Node.Carried) (fuel : Nat) (hfuel : query.toJson.weight ≤ fuel) :
    selectOfJson fuel query.toJson = .ok query ↔ query.Everywhere Node.Stable := by
  have hweight := Select.weight_toJson query
  obtain ⟨fuel, rfl⟩ : ∃ k, fuel = k + 1 := ⟨fuel - 1, by omega⟩
  rw [Wire.selectOfJson, SelectRecord.ofJson?_toJson query (fuel + 1) hfuel]
  exact h hcarried fuel hfuel

theorem Expr.readsBack_subquery (query : Select) (h : query.ReadsBack) :
    (Expr.subquery query).ReadsBack := by
  have hclassify : Sentinel.classify (Expr.subquery query).encode = some (.value query.toJson.compact) := by
    rw [Expr.encode, Sentinel.classify_value]
  apply Expr.readsBack_of_classify hclassify (by simp)
  intro hcarried fuel hfuel
  obtain ⟨⟨-, hshallow⟩, hinside⟩ := Expr.everywhere_subquery.mp hcarried
  have hparse := Json.parse_compact_of_faithful query.faithful_toJson (hshallow query.toJson rfl)
  have hlength := Json.weight_le_length query.toJson
  rw [Expr.encode, String.length_append] at hfuel
  rw [exprOfText, hclassify, Expr.everywhere_subquery, ← h.selectOfJson hinside fuel (by omega)]
  simp [parseJson_eq hparse, isSelectJson_toJson, Node.Stable]

/-! ## Conditions -/

theorem comparison_word (operator : Comparison) : comparison operator.word = .ok operator := by
  cases operator <;> rfl

theorem connective_word (operator : Connective) : connective operator.word = .ok operator := by
  cases operator <;> rfl

theorem Condition.readsBack_compare (key value : Expr) (operator : Comparison) (hkey : key.ReadsBack)
    (hvalue : value.ReadsBack) : (Condition.compare key value operator).ReadsBack := by
  intro hcarried fuel hfuel
  obtain ⟨⟨hslots, -⟩, hinKey, hinValue⟩ := Condition.everywhere_compare.mp hcarried
  simp only [Condition.toJson, Json.weight, Json.weightMembers] at hfuel
  obtain ⟨fuel, rfl⟩ : ∃ k, fuel = k + 1 := ⟨fuel - 1, by omega⟩
  have htype : "BinaryCondition".length = 15 := rfl
  have hkeyRead := (hkey hinKey).1 fuel (by omega)
  have hvalueRead := (hvalue hinValue).2 (hslots value (by simp [Condition.valueSlots])) fuel (by omega)
  rw [Condition.everywhere_compare, ← hkeyRead, ← hvalueRead]
  simp [Condition.toJson, Json.typeName?, Json.get?, Entries.get?, Json.string?,
    orJsonError, comparison_word, Node.Stable]

theorem Condition.readsBack_between (key low high : Expr) (hkey : key.ReadsBack) (hlow : low.ReadsBack)
    (hhigh : high.ReadsBack) : (Condition.between key low high).ReadsBack := by
  intro hcarried fuel hfuel
  obtain ⟨⟨hslots, -⟩, hinKey, hinLow, hinHigh⟩ := Condition.everywhere_between.mp hcarried
  simp only [Condition.toJson, Json.weight, Json.weightMembers] at hfuel
  obtain ⟨fuel, rfl⟩ : ∃ k, fuel = k + 1 := ⟨fuel - 1, by omega⟩
  have htype : "BetweenCondition".length = 16 := rfl
  have hkeyRead := (hkey hinKey).1 fuel (by omega)
  have hlowRead := (hlow hinLow).2 (hslots low (by simp [Condition.valueSlots])) fuel (by omega)
  have hhighRead := (hhigh hinHigh).2 (hslots high (by simp [Condition.valueSlots])) fuel (by omega)
  rw [Condition.everywhere_between, ← hkeyRead, ← hlowRead, ← hhighRead]
  simp [Condition.toJson, Json.typeName?, Json.get?, Entries.get?, Json.string?,
    orJsonError, Node.Stable]

theorem Condition.readsBack_oneOf (key : Expr) (values : List Expr) (hkey : key.ReadsBack)
    (hvalues : ∀ value ∈ values, value.ReadsBack) : (Condition.oneOf key values).ReadsBack := by
  intro hcarried fuel hfuel
  obtain ⟨⟨hslots, -⟩, hinKey, hinValues⟩ := Condition.everywhere_oneOf.mp hcarried
  simp only [Condition.toJson, Json.weight, Json.weightMembers, Expr.encodeList_eq] at hfuel
  obtain ⟨fuel, rfl⟩ : ∃ k, fuel = k + 1 := ⟨fuel - 1, by omega⟩
  have hkeyRead := (hkey hinKey).1 fuel (by omega)
  have hvaluesRead := mapM_valueOfJson_iff hvalues hinValues hslots fuel (by omega)
  rw [Condition.everywhere_oneOf, ← hkeyRead, ← hvaluesRead]
  simp [Condition.toJson, Json.typeName?, Json.get?, Entries.get?, Json.string?,
    Json.array?, orJsonError, Expr.encodeList_eq, Node.Stable]

theorem Condition.readsBack_noneOf (key : Expr) (values : List Expr) (hkey : key.ReadsBack)
    (hvalues : ∀ value ∈ values, value.ReadsBack) : (Condition.noneOf key values).ReadsBack := by
  intro hcarried fuel hfuel
  obtain ⟨⟨hslots, -⟩, hinKey, hinValues⟩ := Condition.everywhere_noneOf.mp hcarried
  simp only [Condition.toJson, Json.weight, Json.weightMembers, Expr.encodeList_eq] at hfuel
  obtain ⟨fuel, rfl⟩ : ∃ k, fuel = k + 1 := ⟨fuel - 1, by omega⟩
  have hkeyRead := (hkey hinKey).1 fuel (by omega)
  have hvaluesRead := mapM_valueOfJson_iff hvalues hinValues hslots fuel (by omega)
  rw [Condition.everywhere_noneOf, ← hkeyRead, ← hvaluesRead]
  simp [Condition.toJson, Json.typeName?, Json.get?, Entries.get?, Json.string?,
    Json.array?, orJsonError, Expr.encodeList_eq, Node.Stable]

theorem Condition.readsBack_null (key : Expr) (isNull : Bool) (hkey : key.ReadsBack) :
    (Condition.null key isNull).ReadsBack := by
  intro hcarried fuel hfuel
  obtain ⟨-, hinKey⟩ := Condition.everywhere_null.mp hcarried
  simp only [Condition.toJson, Json.weight, Json.weightMembers] at hfuel
  obtain ⟨fuel, rfl⟩ : ∃ k, fuel = k + 1 := ⟨fuel - 1, by omega⟩
  rw [Condition.everywhere_null, ← (hkey hinKey).1 fuel (by omega)]
  simp [Condition.toJson, Json.typeName?, Json.get?, Entries.get?, Json.string?,
    Json.bool?, orJsonError, Node.Stable]

theorem Condition.readsBack_like (key : Expr) (pattern : String) (isLike : Bool)
    (hkey : key.ReadsBack) : (Condition.like key pattern isLike).ReadsBack := by
  intro hcarried fuel hfuel
  obtain ⟨-, hinKey⟩ := Condition.everywhere_like.mp hcarried
  simp only [Condition.toJson, Json.weight, Json.weightMembers] at hfuel
  obtain ⟨fuel, rfl⟩ : ∃ k, fuel = k + 1 := ⟨fuel - 1, by omega⟩
  rw [Condition.everywhere_like, ← (hkey hinKey).1 fuel (by omega)]
  simp [Condition.toJson, Json.typeName?, Json.get?, Entries.get?, Json.string?,
    Json.bool?, orJsonError, Node.Stable]

theorem Condition.readsBack_columns (left right : Expr) (operator : Comparison)
    (hleft : left.ReadsBack) (hright : right.ReadsBack) :
    (Condition.columns left right operator).ReadsBack := by
  intro hcarried fuel hfuel
  obtain ⟨-, hinLeft, hinRight⟩ := Condition.everywhere_columns.mp hcarried
  simp only [Condition.toJson, Json.weight, Json.weightMembers] at hfuel
  obtain ⟨fuel, rfl⟩ : ∃ k, fuel = k + 1 := ⟨fuel - 1, by omega⟩
  have hleftRead := (hleft hinLeft).1 fuel (by omega)
  have hrightRead := (hright hinRight).1 fuel (by omega)
  rw [Condition.everywhere_columns, ← hleftRead, ← hrightRead]
  simp [Condition.toJson, Json.typeName?, Json.get?, Entries.get?, Json.string?,
    orJsonError, comparison_word, Node.Stable]

theorem mapM_conditionOfJson_iff {tests : List Condition} (h : ∀ test ∈ tests, test.ReadsBack)
    (hcarried : ∀ test ∈ tests, test.Everywhere Node.Carried) (fuel : Nat)
    (hfuel : Json.weightItems (tests.map Condition.toJson) ≤ fuel) :
    (tests.map Condition.toJson).mapM (conditionOfJson fuel) = .ok tests ↔
      ∀ test ∈ tests, test.Everywhere Node.Stable := by
  apply mapM_parts_iff Condition.toJson
  intro test htest hweight
  exact h test htest (hcarried test htest) fuel (by omega)

theorem Condition.readsBack_logical (members : List Condition) (operator : Connective)
    (hmembers : ∀ member ∈ members, member.ReadsBack) :
    (Condition.logical members operator).ReadsBack := by
  intro hcarried fuel hfuel
  obtain ⟨-, hinside⟩ := Condition.everywhere_logical.mp hcarried
  simp only [Condition.toJson, Json.weight, Json.weightMembers, Condition.toJsonList_eq] at hfuel
  obtain ⟨fuel, rfl⟩ : ∃ k, fuel = k + 1 := ⟨fuel - 1, by omega⟩
  rw [Condition.everywhere_logical, ← mapM_conditionOfJson_iff hmembers hinside fuel (by omega)]
  simp [Condition.toJson, Json.typeName?, Json.get?, Entries.get?, Json.string?,
    Json.array?, orJsonError, connective_word, Condition.toJsonList_eq, Node.Stable]

theorem Condition.readsBack_not (inner : Condition) (hinner : inner.ReadsBack) :
    (Condition.not inner).ReadsBack := by
  intro hcarried fuel hfuel
  obtain ⟨-, hinside⟩ := Condition.everywhere_not.mp hcarried
  simp only [Condition.toJson, Json.weight, Json.weightMembers] at hfuel
  obtain ⟨fuel, rfl⟩ : ∃ k, fuel = k + 1 := ⟨fuel - 1, by omega⟩
  rw [Condition.everywhere_not, ← hinner hinside fuel (by omega)]
  simp [Condition.toJson, Json.typeName?, Json.get?, Entries.get?, Json.string?,
    orJsonError, Node.Stable]

/-! ## Tables and selects -/

theorem unionKind_word (kind : UnionKind) : unionKind kind.word = .ok kind := by
  cases kind <;> rfl

theorem joinKind_word (kind : JoinKind) : joinKind (some kind.word) = .ok kind := by
  cases kind <;> rfl

theorem sortDirection_word (direction : SortDirection) :
    sortDirection (some direction.word) = .ok direction := by
  cases direction <;> rfl

theorem Table.readsBack_named (name : String) (label : Option String) :
    (Table.named name label).ReadsBack := by
  intro _ fuel hfuel
  simp only [Table.toJson, Json.weight] at hfuel
  obtain ⟨fuel, rfl⟩ : ∃ k, fuel = k + 1 := ⟨fuel - 1, by omega⟩
  simp [Table.record]

theorem Table.readsBack_nested (query : Select) (label : Option String) (h : query.ReadsBack) :
    (Table.nested query label).ReadsBack := by
  intro hcarried fuel hfuel
  simp only [Table.toJson, Json.weight, Json.weightMembers_append, Json.weightMembers] at hfuel
  obtain ⟨fuel, rfl⟩ : ∃ k, fuel = k + 1 := ⟨fuel - 1, by omega⟩
  have hread := h.selectOfJson (Table.everywhere_nested.mp hcarried) fuel (by omega)
  have hselect := isSelectJson_toJson query
  rw [Table.everywhere_nested, ← hread, Table.record, tableOfRecord]
  rw [Select.toJson_eq] at hselect ⊢
  simp [hselect]

theorem mapM_tableOfRecord_iff {tables : List Table} (h : ∀ table ∈ tables, table.ReadsBack)
    (hcarried : ∀ table ∈ tables, table.Everywhere Node.Carried) (fuel : Nat)
    (hfuel : Json.weightItems (tables.map Table.toJson) ≤ fuel) :
    (tables.map Table.record).mapM (tableOfRecord fuel) = .ok tables ↔
      ∀ table ∈ tables, table.Everywhere Node.Stable := by
  apply mapM_parts_iff Table.toJson
  intro table htable hweight
  exact h table htable (hcarried table htable) fuel (by omega)

/-- The reader of a join inside a select. -/
def joinOfRecord (fuel : Nat) (record : JoinRecord) : Except Error Join := do
  let kind ← joinKind record.kind
  let table ← tableOfRecord fuel record.table
  let condition ← match record.condition with
    | none => .ok none
    | some json => (conditionOfJson fuel json).map some
  return { table, condition, kind }

theorem joinOfRecord_iff {join : Join} (htable : join.table.ReadsBack)
    (hcondition : ∀ test ∈ join.condition, test.ReadsBack)
    (hcarried : join.table.Everywhere Node.Carried ∧
      ∀ test ∈ join.condition, test.Everywhere Node.Carried)
    (fuel : Nat) (hfuel : join.toJson.weight ≤ fuel) :
    joinOfRecord fuel join.record = .ok join ↔
      join.table.Everywhere Node.Stable ∧ ∀ test ∈ join.condition, test.Everywhere Node.Stable := by
  obtain ⟨table, condition, kind⟩ := join
  simp only [Join.toJson, Json.weight, Json.weightMembers_append, Json.weightMembers] at hfuel
  have htableRead := htable hcarried.1 fuel (by simp only; omega)
  cases condition with
  | none => simpa [joinOfRecord, Join.record, joinKind_word] using htableRead
  | some test =>
    simp only [Condition.toJsonOption, optionMember, Json.weightMembers] at hfuel
    have htestRead := hcondition test rfl (hcarried.2 test rfl) fuel (by omega)
    simp only at htableRead
    simp [joinOfRecord, Join.record, joinKind_word, htableRead, htestRead]

def fieldOfRecord (fuel : Nat) (record : FieldRecord) : Except Error Field := do
  let expr ← exprOfJson fuel record.name
  return { expr, label := record.label }

theorem fieldOfRecord_iff {field : Field} (h : field.expr.ReadsBack)
    (hcarried : field.expr.Everywhere Node.Carried) (fuel : Nat) (hfuel : field.toJson.weight ≤ fuel) :
    fieldOfRecord fuel field.record = .ok field ↔ field.expr.Everywhere Node.Stable := by
  obtain ⟨expr, label⟩ := field
  simp only [Field.toJson, Json.weight, Json.weightMembers_append, Json.weightMembers] at hfuel
  rw [← h.exprOfJson hcarried fuel (by simp only; omega)]
  simp [fieldOfRecord, Field.record]

def sortKeyOfRecord (fuel : Nat) (record : SortRecord) : Except Error SortKey := do
  let direction ← sortDirection record.direction
  let expr ← exprOfJson fuel record.field
  return { expr, direction }

theorem sortKeyOfRecord_iff {key : SortKey} (h : key.expr.ReadsBack)
    (hcarried : key.expr.Everywhere Node.Carried) (fuel : Nat) (hfuel : key.toJson.weight ≤ fuel) :
    sortKeyOfRecord fuel key.record = .ok key ↔ key.expr.Everywhere Node.Stable := by
  obtain ⟨expr, direction⟩ := key
  simp only [SortKey.toJson, Json.weight, Json.weightMembers] at hfuel
  rw [← h.exprOfJson hcarried fuel (by simp only; omega)]
  simp [sortKeyOfRecord, SortKey.record, sortDirection_word]

def unionTailOfRecord (fuel : Nat) (record : String × SelectRecord) : Except Error UnionTail := do
  let kind ← unionKind record.1
  let query ← selectOfRecord fuel record.2
  return { kind, query }

theorem unionTailOfRecord_iff {tail : UnionTail} (h : tail.query.ReadsBack)
    (hcarried : tail.query.Everywhere Node.Carried) (fuel : Nat) (hfuel : tail.toJson.weight ≤ fuel) :
    unionTailOfRecord fuel (tail.kind.word, tail.query.record) = .ok tail ↔
      tail.query.Everywhere Node.Stable := by
  have hweight := UnionTail.weight_toJson tail
  obtain ⟨kind, query⟩ := tail
  rw [← h hcarried fuel (by omega)]
  simp [unionTailOfRecord, unionKind_word]

/-- A select from its record, part by part. -/
theorem selectOfRecord_succ (fuel : Nat) (record : SelectRecord) :
    selectOfRecord (fuel + 1) record = do
      let unions ← record.unions.mapM (unionTailOfRecord fuel)
      let joins ← record.joins.mapM (joinOfRecord fuel)
      let fields ← record.fields.mapM (fieldOfRecord fuel)
      let orderBy ← record.orderBy.mapM (sortKeyOfRecord fuel)
      let tables ← record.tables.mapM (tableOfRecord fuel)
      let filter ← record.filter.mapM (conditionOfJson fuel)
      let having ← record.having.mapM (conditionOfJson fuel)
      let groupBy ← record.groupBy.mapM (exprOfJson fuel)
      return { tables, joins, fields, filter, having, orderBy, groupBy, limit := record.limit,
               offset := record.offset, unions } := by
  rw [selectOfRecord]
  rfl

theorem Select.readsBack_select (query : Select) (htables : ∀ table ∈ query.tables, table.ReadsBack)
    (hjoins : ∀ join ∈ query.joins, join.table.ReadsBack ∧ ∀ test ∈ join.condition, test.ReadsBack)
    (hfields : ∀ field ∈ query.fields, field.expr.ReadsBack)
    (hfilter : ∀ test ∈ query.filter, test.ReadsBack) (hhaving : ∀ test ∈ query.having, test.ReadsBack)
    (horderBy : ∀ key ∈ query.orderBy, key.expr.ReadsBack)
    (hgroupBy : ∀ expr ∈ query.groupBy, expr.ReadsBack)
    (hunions : ∀ tail ∈ query.unions, tail.query.ReadsBack) : query.ReadsBack := by
  intro hcarried fuel hfuel
  obtain ⟨hinTables, hinJoins, hinFields, hinFilter, hinHaving, hinOrderBy, hinGroupBy, hinUnions⟩ :=
    Select.everywhere_iff.mp hcarried
  have hweight := Select.weight_toJson query
  obtain ⟨fuel, rfl⟩ : ∃ k, fuel = k + 1 := ⟨fuel - 1, by omega⟩
  have hunionsRead : (query.unions.map fun tail ↦ (tail.kind.word, tail.query.record)).mapM
      (unionTailOfRecord fuel) = .ok query.unions ↔
        ∀ tail ∈ query.unions, tail.query.Everywhere Node.Stable := by
    apply mapM_parts_iff UnionTail.toJson
    intro tail htail hpart
    exact unionTailOfRecord_iff (hunions tail htail) (hinUnions tail htail) fuel (by omega)
  have hjoinsRead : (query.joins.map Join.record).mapM (joinOfRecord fuel) = .ok query.joins ↔
      ∀ join ∈ query.joins, join.table.Everywhere Node.Stable ∧
        ∀ test ∈ join.condition, test.Everywhere Node.Stable := by
    apply mapM_parts_iff Join.toJson
    intro join hjoin hpart
    exact joinOfRecord_iff (hjoins join hjoin).1 (hjoins join hjoin).2 (hinJoins join hjoin) fuel
      (by omega)
  have hfieldsRead : (query.fields.map Field.record).mapM (fieldOfRecord fuel) = .ok query.fields ↔
      ∀ field ∈ query.fields, field.expr.Everywhere Node.Stable := by
    apply mapM_parts_iff Field.toJson
    intro field hfield hpart
    exact fieldOfRecord_iff (hfields field hfield) (hinFields field hfield) fuel (by omega)
  have horderByRead : (query.orderBy.map SortKey.record).mapM (sortKeyOfRecord fuel) =
      .ok query.orderBy ↔ ∀ key ∈ query.orderBy, key.expr.Everywhere Node.Stable := by
    apply mapM_parts_iff SortKey.toJson
    intro key hkey hpart
    exact sortKeyOfRecord_iff (horderBy key hkey) (hinOrderBy key hkey) fuel (by omega)
  have htablesRead := mapM_tableOfRecord_iff htables hinTables fuel (by omega)
  have hfilterRead := mapM_conditionOfJson_iff hfilter hinFilter fuel (by omega)
  have hhavingRead := mapM_conditionOfJson_iff hhaving hinHaving fuel (by omega)
  have hgroupByRead := mapM_exprOfJson_iff hgroupBy hinGroupBy fuel (by omega)
  rw [Select.everywhere_iff, Select.record_eq, selectOfRecord_succ, ← hunionsRead, ← hjoinsRead,
    ← hfieldsRead, ← horderByRead, ← htablesRead, ← hfilterRead, ← hhavingRead, ← hgroupByRead]
  obtain ⟨tables, joins, fields, filter, having, orderBy, groupBy, limit, offset, unions⟩ := query
  simp only [bind_eq_ok_iff, pure_eq_ok_iff, Select.mk.injEq, true_and]
  constructor
  · rintro ⟨_, hU, _, hJ, _, hF, _, hO, _, hT, _, hW, _, hH, _, hG, rfl, rfl, rfl, rfl, rfl, rfl, rfl, rfl⟩
    exact ⟨hT, hJ, hF, hW, hH, hO, hG, hU⟩
  · rintro ⟨hT, hJ, hF, hW, hH, hO, hG, hU⟩
    exact ⟨_, hU, _, hJ, _, hF, _, hO, _, hT, _, hW, _, hH, _, hG, rfl, rfl, rfl, rfl, rfl, rfl, rfl, rfl⟩

theorem readsBack_steps :
    QueryInduction Expr.ReadsBack Condition.ReadsBack Table.ReadsBack Select.ReadsBack where
  column := Expr.readsBack_column
  value := Expr.readsBack_value
  raw := Expr.readsBack_raw
  call := Expr.readsBack_call
  operation := Expr.readsBack_operation
  condition := Expr.readsBack_condition
  subquery := Expr.readsBack_subquery
  compare := Condition.readsBack_compare
  between := Condition.readsBack_between
  oneOf := Condition.readsBack_oneOf
  noneOf := Condition.readsBack_noneOf
  null := Condition.readsBack_null
  like := Condition.readsBack_like
  columns := Condition.readsBack_columns
  logical := Condition.readsBack_logical
  not := Condition.readsBack_not
  named := Table.readsBack_named
  nested := Table.readsBack_nested
  select := Select.readsBack_select

theorem Expr.readsBack (expr : Expr) : expr.ReadsBack := readsBack_steps.forExpr expr

theorem Condition.readsBack (test : Condition) : test.ReadsBack := readsBack_steps.forCondition test

theorem Table.readsBack (table : Table) : table.ReadsBack := readsBack_steps.forTable table

theorem Select.readsBack (query : Select) : query.ReadsBack := readsBack_steps.forSelect query

end PortableQuery
