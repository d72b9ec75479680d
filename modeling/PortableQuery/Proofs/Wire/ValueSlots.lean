import PortableQuery.Proofs.Wire.Decoded

/-!
# The slots of values

Wherever a condition stands in a statement that was read, the slots of its values hold values and
nothing that could name a column or call a function. Plain text in such a slot is kept as it is: it
becomes a string literal with this text, even if it is the name of a column.
-/

namespace PortableQuery

open Wire

namespace Wire

/-- JSON that occurs in a text: the whole, its parts, and what stands inside its strings. -/
inductive Found (text : String) : Json → Prop
  | whole {json : Json} (parsed : Json.parse text = some json) : Found text json
  | item {items : List Json} {item : Json} (array : Found text (.array items))
      (inside : item ∈ items) : Found text item
  | member {members : List (String × Json)} {member : String × Json}
      (object : Found text (.object members)) (inside : member ∈ members) : Found text member.2
  | embedded {inner : String} {json : Json} (string : Found text (.string inner))
      (inside : Embedded inner json) : Found text json

theorem hereditary_found (text : String) : Hereditary (Found text) where
  item := .item
  member := .member
  embedded := .embedded

/-- A slot given as text that is neither marked nor a condition holds this text. -/
def KeepsText (given : Json) (slot : Expr) : Prop :=
  ∀ text, given = .string text → Sentinel.classify text = none → conditionJson? text = none →
    slot = .value (.string text)

theorem valueOfJson_string {text : String} (unmarked : Sentinel.classify text = none)
    (noCondition : conditionJson? text = none) (fuel : Nat) :
    valueOfJson (fuel + 1) (.string text) = .ok (.value (.string text)) := by
  simp only [valueOfJson, unmarked, noCondition]

theorem keepsText_of_valueOfJson {fuel : Nat} {given : Json} {slot : Expr}
    (h : valueOfJson fuel given = .ok slot) : KeepsText given slot := by
  rintro text rfl unmarked noCondition
  cases fuel with
  | zero => simp [valueOfJson] at h
  | succ fuel =>
    rw [valueOfJson_string unmarked noCondition] at h
    exact (Except.ok.inj h).symm

theorem keepsText_of_conditionOfJson {fuel : Nat} {json : Json} {test : Condition}
    (h : conditionOfJson fuel json = .ok test) :
    List.Forall₂ KeepsText (slotJsons json) test.valueSlots := by
  cases fuel with
  | zero => simp [conditionOfJson] at h
  | succ fuel =>
    apply (valueSlots_of_conditionOfJson h).imp
    exact fun _ _ ↦ keepsText_of_valueOfJson

end Wire

namespace Statement

/-- Every condition of a statement was read from JSON of its text, with values in its slots. -/
theorem valueSlots_of_decode {text : String} {statement : Statement}
    (h : Statement.decode text = .ok statement) (test : Condition)
    (occurs : Node.condition test ∈ statement.nodes) :
    (∀ slot ∈ test.valueSlots, slot.FitsValueSlot) ∧
      ∃ json, Found text json ∧ (∃ fuel, conditionOfJson fuel json = .ok test) ∧
        List.Forall₂ KeepsText (slotJsons json) test.valueSlots := by
  have hnodes := everywhere_of_decode (hereditary_found text) (fun _ parsed ↦ .whole parsed) h
  cases hnodes _ occurs with
  | condition given read =>
    exact ⟨fitsValueSlot_of_conditionOfJson read, _, given, ⟨_, read⟩,
      keepsText_of_conditionOfJson read⟩

/-- A deletion of what is among two texts: the name of a column, and an unfinished mark of a date. -/
def exclusionJson : Json :=
  .object [("type", .string "DeleteMutation"), ("table", .object [("source", .string "users")]),
    ("where", .array [.object [("type", .string "NotCondition"),
      ("condition", .object [("type", .string "NotInCondition"), ("key", .string "role"),
        ("values", .array [.string "role", .string "!D!soon"])])]])]

def exclusionTest : Condition :=
  .noneOf (.column "role") [.value (.string "role"), .value (.string "!D!soon")]

def exclusion : Statement :=
  .delete { table := .named "users" none, filter := [.not exclusionTest] }

theorem decode_exclusion : Statement.decode exclusionJson.compact = .ok exclusion := by
  have hwhole : exclusionJson.Faithful := by
    simp [exclusionJson, Json.Faithful, Json.Readable, Json.ReadableMembers, Json.ReadableItems,
      Json.reread, Json.rereadMembers, Json.rereadItems, Entries.keys]
  have hshallow : exclusionJson.depth ≤ Json.depthLimit := by decide
  have hread (fuel : Nat) : statementOfJson (fuel + 8) exclusionJson = .ok exclusion := rfl
  rw [decode_eq_ok_iff (Json.parse_compact_of_faithful hwhole hshallow), decodingFuel, hread]

theorem valueSlots_of_decode_exclusion :
    Statement.decode exclusionJson.compact = .ok exclusion ∧
      Node.condition exclusionTest ∈ exclusion.nodes ∧
      (∀ slot ∈ exclusionTest.valueSlots, slot.FitsValueSlot) ∧
      ∃ json, Found exclusionJson.compact json ∧
        (∃ fuel, conditionOfJson fuel json = .ok exclusionTest) ∧
        List.Forall₂ KeepsText (slotJsons json) exclusionTest.valueSlots := by
  have hoccurs : Node.condition exclusionTest ∈ exclusion.nodes := by
    simp [exclusion, exclusionTest, nodes, Table.nodes, Condition.nodes]
  exact ⟨decode_exclusion, hoccurs, valueSlots_of_decode decode_exclusion exclusionTest hoccurs⟩

end Statement

end PortableQuery
