import PortableQuery.Proofs.Wire.Decoded
import PortableQuery.Proofs.Wire.RoundTrip
import PortableQuery.Query.Expr
import PortableQuery.Sql.Render

/-!
# Expressions in value position

What may be put into the slot of a value and what the reader of such a slot makes of it are decided
apart: any expression but a function call may be put there, but plain text is read as a string
literal. So all that is safe on the wire comes back from the slot of a value, up to its
floating-point numbers, and a column never does.
-/

namespace PortableQuery

open Wire Sql

namespace Expr

def literals (expr : Expr) : List Literal := expr.nodes.filterMap Node.literal?

def floats (expr : Expr) : List Decimal.Finite := expr.literals.flatMap Literal.floats

/-- An expression whose text is read back in the slot of a column, up to floating-point numbers. -/
structure WireSafe (expr : Expr) : Prop where
  /-- Every column is read as that column. -/
  columns : ∀ text, Node.expr (.column text) ∈ expr.nodes → Expr.decode text = .ok (.column text)
  /-- No slot of a value holds a column or a function call directly. -/
  values : ∀ test, Node.condition test ∈ expr.nodes → ∀ value ∈ test.valueSlots, value.FitsValueSlot
  literals : ∀ literal ∈ expr.literals, literal.Carried
  /-- No literal passes for a select. -/
  selects : ∀ literal, Node.expr (.value literal) ∈ expr.nodes → ¬literal.IsSelectLike
  nesting : ∀ json ∈ expr.nodes.filterMap Node.payload?, json.depth ≤ Json.depthLimit

/-- An expression that may be put into the slot of a value and that is safe on the wire, apart from
what the text of a column that stands there by itself is taken for. -/
structure ValueSafe (expr : Expr) : Prop where
  accepted : expr.asValue = .ok expr
  inside : (∃ text, expr = .column text) ∨ expr.WireSafe

theorem fitsValueSlot_iff {expr : Expr} :
    expr.FitsValueSlot ↔ expr.asValue = .ok expr ∧ ∀ text, expr ≠ .column text := by
  cases expr <;> simp [FitsValueSlot, asValue]

theorem WireSafe.carried {expr : Expr} (h : expr.WireSafe) : expr.Everywhere Node.Carried := by
  apply Node.carried_of_mem h.columns h.values
  · intro node hnode literal hliteral
    exact h.literals literal (List.mem_filterMap.mpr ⟨node, hnode, hliteral⟩)
  · intro node hnode json hjson
    exact h.nesting json (List.mem_filterMap.mpr ⟨node, hnode, hjson⟩)

/-- All that reading can change in a safe expression is its floating-point numbers. -/
theorem WireSafe.stable_iff {expr : Expr} (h : expr.WireSafe) :
    expr.Everywhere Node.Stable ↔ ∀ x ∈ expr.floats, Json.FloatReadsBack x := by
  have hfloats : (∀ node ∈ expr.nodes, ∀ literal ∈ node.literal?, ∀ x ∈ literal.floats,
      Json.FloatReadsBack x) ↔ ∀ x ∈ expr.floats, Json.FloatReadsBack x := by
    rw [floats, forall_mem_flatMap, Expr.literals]
    simp only [List.mem_filterMap, Option.mem_def]
    constructor
    · rintro hnodes literal ⟨node, hnode, hliteral⟩
      exact hnodes node hnode literal hliteral
    · intro hliterals node hnode literal hliteral
      exact hliterals literal ⟨node, hnode, hliteral⟩
  rw [Everywhere, Node.forall_stable_iff, hfloats]
  exact and_iff_right h.selects

theorem WireSafe.decode_iff {expr : Expr} (h : expr.WireSafe) :
    Expr.decode expr.encode = .ok expr ↔ ∀ x ∈ expr.floats, Json.FloatReadsBack x := by
  rw [← h.stable_iff, Expr.decode]
  apply (expr.readsBack h.carried).1
  rw [decodingFuel]
  omega

theorem WireSafe.ofValueSlot_iff {expr : Expr} (h : expr.WireSafe) (hfits : expr.FitsValueSlot) :
    Expr.ofValueSlot (.string expr.encode) = .ok expr ↔ ∀ x ∈ expr.floats, Json.FloatReadsBack x := by
  rw [← h.stable_iff, Expr.ofValueSlot]
  apply (expr.readsBack h.carried).2 hfits
  rw [decodingFuel, Json.weight]
  omega

theorem ValueSafe.ofValueSlot_iff {expr : Expr} (h : expr.ValueSafe) :
    Expr.ofValueSlot (.string expr.encode) = .ok expr ↔
      (∀ text, expr ≠ .column text) ∧ ∀ x ∈ expr.floats, Json.FloatReadsBack x := by
  by_cases hfits : expr.FitsValueSlot
  · have hcolumn := (fitsValueSlot_iff.mp hfits).2
    have hsafe : expr.WireSafe := h.inside.resolve_left fun ⟨text, htext⟩ ↦ hcolumn text htext
    rw [hsafe.ofValueSlot_iff hfits]
    exact (and_iff_right hcolumn).symm
  · -- A column is left, and the reader of values never gives one.
    constructor
    · intro hread
      exact absurd (fitsValueSlot_of_valueOfJson hread) hfits
    · rintro ⟨hcolumn, -⟩
      exact absurd (fitsValueSlot_iff.mpr ⟨h.accepted, hcolumn⟩) hfits

end Expr

/-! ## Conditions around values -/

namespace Condition

theorem depth_toJson_of_key? {test : Condition} {key : Expr} (h : test.key? = some key) :
    test.toJson.depth ≤ Json.depthLimit := by
  cases test with
  | columns left right operator => contradiction
  | logical members operator => contradiction
  | not inner => contradiction
  | _ => simp [toJson, Json.depth, Json.depthMembers, depthItems_encodeList, Json.depthLimit]

/-- What holds in a condition with a key holds of the condition, in its key and in its values. -/
theorem everywhere_of_key? {p : Node → Prop} {test : Condition} {key : Expr} (h : test.key? = some key)
    (htest : p (.condition test)) (hkey : key.Everywhere p)
    (hvalues : ∀ value ∈ test.valueSlots, value.Everywhere p) : test.Everywhere p := by
  cases test <;> simp_all [key?, valueSlots]

/-- A condition comes back from its text if its key and its values do, each from its own. -/
theorem decode_encode_of_parts {test : Condition} {key : Expr} (h : test.key? = some key)
    (hkey : key.WireSafe ∧ Expr.decode key.encode = .ok key)
    (hvalues : ∀ value ∈ test.valueSlots,
      value.ValueSafe ∧ Expr.ofValueSlot (.string value.encode) = .ok value) :
    Condition.decode test.encode = .ok test := by
  have hfits : ∀ value ∈ test.valueSlots, value.FitsValueSlot := fun value hvalue ↦
    fitsValueSlot_of_valueOfJson (hvalues value hvalue).2
  have hsafe : ∀ value ∈ test.valueSlots, value.WireSafe := by
    intro value hvalue
    have hcolumn := (Expr.fitsValueSlot_iff.mp (hfits value hvalue)).2
    exact (hvalues value hvalue).1.inside.resolve_left fun ⟨text, htext⟩ ↦ hcolumn text htext
  have hcarried : test.Everywhere Node.Carried :=
    everywhere_of_key? h ⟨hfits, by simp [Node.Shallow, Node.payload?]⟩ hkey.1.carried
      fun value hvalue ↦ (hsafe value hvalue).carried
  have hstable : test.Everywhere Node.Stable := by
    have htest : Node.Stable (.condition test) := trivial
    apply everywhere_of_key? h htest
    · exact hkey.1.stable_iff.mpr (hkey.1.decode_iff.mp hkey.2)
    · intro value hvalue
      have hread := (hvalues value hvalue).2
      rw [(hsafe value hvalue).ofValueSlot_iff (hfits value hvalue)] at hread
      exact (hsafe value hvalue).stable_iff.mpr hread
  have hparse := Json.parse_compact_of_faithful test.faithful_toJson (depth_toJson_of_key? h)
  have hweight := Json.weight_le_length test.toJson
  rw [Condition.decode, Condition.encode, parseJson_eq hparse]
  apply (test.readsBack hcarried _ _).mpr hstable
  rw [decodingFuel]
  omega

end Condition

/-- An expression that may be put into the slot of a value comes back from there exactly if it is no
column and its floating-point numbers come back from their texts. A condition whose values and key
come back is rendered alike before and after. -/
theorem Expr.ofValueSlot_encode_iff {expr : Expr} (h : expr.ValueSafe) :
    (Expr.ofValueSlot (.string expr.encode) = .ok expr ↔
      (∀ text, expr ≠ .column text) ∧
        ∀ x ∈ expr.floats, Json.parse (Json.compact (.float x)) = some (.float x)) ∧
    ∀ (test : Condition) (key : Expr), expr ∈ test.valueSlots → test.key? = some key →
      key.WireSafe ∧ Expr.decode key.encode = .ok key →
      (∀ value ∈ test.valueSlots,
        value.ValueSafe ∧ Expr.ofValueSlot (.string value.encode) = .ok value) →
      ∃ again, Condition.decode test.encode = .ok again ∧
        ∀ flavor, again.sql (.plain flavor) = test.sql (.plain flavor) := by
  refine ⟨h.ofValueSlot_iff, ?_⟩
  intro test key _ hkey hkeySafe hvalues
  exact ⟨test, Condition.decode_encode_of_parts hkey hkeySafe hvalues, fun _ ↦ rfl⟩

/-! ## A price and a column -/

def Select.fees : Select :=
  { Select.empty with tables := [.named "fees" none], fields := [⟨.column "amount", none⟩] }

/-- The price of an item less one half and the fees of the day. -/
def Expr.netPrice : Expr :=
  .operation "-" [.column "price", .value (.float (.finite Json.half)), .subquery Select.fees]

theorem Expr.nodes_netPrice :
    Expr.netPrice.nodes = [.expr Expr.netPrice, .expr (.column "price"),
      .expr (.value (.float (.finite Json.half))), .expr (.subquery Select.fees),
      .expr (.column "amount")] := rfl

theorem Expr.wireSafe_netPrice : Expr.netPrice.WireSafe := by
  constructor
  case columns =>
    have hplain : Plain "price" ∧ Plain "amount" := by decide
    rw [nodes_netPrice]
    simpa [Expr.netPrice, Expr.decode_eq_column_iff] using hplain
  case values => simp [nodes_netPrice]
  case literals =>
    have hliterals : Expr.netPrice.literals = [.float (.finite Json.half)] := rfl
    rw [hliterals, List.forall_mem_singleton]
    exact ⟨_, rfl⟩
  case selects =>
    rw [nodes_netPrice]
    simp [Expr.netPrice, Literal.IsSelectLike]
  case nesting =>
    have hpayloads : (Expr.netPrice.nodes.filterMap Node.payload?).map Json.depth = [1, 0, 3] := by decide
    rw [← List.forall_mem_map (f := Json.depth) (P := (· ≤ Json.depthLimit)), hpayloads]
    decide

theorem Expr.wireSafe_value_string (text : String) : (Expr.value (.string text)).WireSafe := by
  have hnodes : (Expr.value (.string text)).nodes = [.expr (.value (.string text))] := rfl
  constructor <;> simp [hnodes, Expr.literals, Node.literal?, Literal.Carried, Literal.IsSelectLike,
    Node.payload?, Expr.payload?, Literal.toJson, Json.depth]

theorem Expr.wireSafe_column {text : String} (h : Plain text) : (Expr.column text).WireSafe := by
  have hnodes : (Expr.column text).nodes = [.expr (.column text)] := rfl
  constructor <;> simp [hnodes, Expr.literals, Node.literal?, Expr.decode_eq_column_iff, h,
    Node.payload?, Expr.payload?]

/-- The price comes back and so does the condition that something is paid between it and a text, but
a column comes back as a text. -/
theorem Expr.ofValueSlot_encode_netPrice :
    (Expr.netPrice.ValueSafe ∧ Expr.ofValueSlot (.string Expr.netPrice.encode) = .ok Expr.netPrice ∧
      let test := Condition.between (.column "paid") Expr.netPrice (.value (.string "!D!soon"))
      ∃ again, Condition.decode test.encode = .ok again ∧
        ∀ flavor, again.sql (.plain flavor) = test.sql (.plain flavor)) ∧
    ((Expr.column "b").ValueSafe ∧
      Expr.ofValueSlot (.string (Expr.column "b").encode) ≠ .ok (.column "b")) := by
  have hprice : Expr.netPrice.ValueSafe := ⟨rfl, .inr wireSafe_netPrice⟩
  have hcolumn : (Expr.column "b").ValueSafe := ⟨rfl, .inl ⟨"b", rfl⟩⟩
  have hread : Expr.ofValueSlot (.string Expr.netPrice.encode) = .ok Expr.netPrice := by
    apply (Expr.ofValueSlot_encode_iff hprice).1.mpr
    refine ⟨by simp [Expr.netPrice], ?_⟩
    have hfloats : Expr.netPrice.floats = [Json.half] := rfl
    rw [hfloats, List.forall_mem_singleton]
    exact Json.floatReadsBack_half
  have htext : (Expr.value (.string "!D!soon")).ValueSafe := ⟨rfl, .inr (wireSafe_value_string _)⟩
  have hkey : (Expr.column "paid").WireSafe := wireSafe_column (by decide)
  have hkeyFloats : (Expr.column "paid").floats = [] := rfl
  have htextFloats : (Expr.value (.string "!D!soon")).floats = [] := rfl
  refine ⟨⟨hprice, hread, ?_⟩, hcolumn, ?_⟩
  · apply (Expr.ofValueSlot_encode_iff hprice).2 _ (.column "paid") (by simp [Condition.valueSlots]) rfl
    · exact ⟨hkey, hkey.decode_iff.mpr (by simp [hkeyFloats])⟩
    · intro value hvalue
      simp only [Condition.valueSlots, List.mem_cons, List.not_mem_nil, or_false] at hvalue
      rcases hvalue with rfl | rfl
      · exact ⟨hprice, hread⟩
      · exact ⟨htext, htext.ofValueSlot_iff.mpr (by simp [htextFloats])⟩
  · intro hback
    exact ((Expr.ofValueSlot_encode_iff hcolumn).1.mp hback).1 "b" rfl

end PortableQuery
