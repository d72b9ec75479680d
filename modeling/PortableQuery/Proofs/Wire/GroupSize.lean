import PortableQuery.Proofs.Wire.ValueSlots

/-!
# The sizes of groups

Builders make no condition of an empty list. The reader has no such rule: a conjunction, a disjunction
or a list of choices gets as many members as its JSON has, and none if the array is empty. So empty
groups come out of a text exactly where empty arrays went into it.
-/

namespace PortableQuery

open Wire

/-- How many members a conjunction or disjunction has, or how many choices a list of choices. -/
def Condition.groupSize? : Condition → Option Nat
  | .logical members _ => some members.length
  | .oneOf _ values => some values.length
  | .noneOf _ values => some values.length
  | _ => none

def Statement.HasEmptyGroup (statement : Statement) : Prop :=
  ∃ test, Node.condition test ∈ statement.nodes ∧ test.groupSize? = some 0

namespace Wire

/-- The size of the group that an object of JSON describes. -/
def groupSize? (json : Json) : Option Nat :=
  match json.typeName? with
  | some "LogicalCondition" => ((json.get? "conditions").bind Json.array?).map List.length
  | some "InCondition" => ((json.get? "values").bind Json.array?).map List.length
  | some "NotInCondition" => ((json.get? "values").bind Json.array?).map List.length
  | _ => none

theorem ReadsList.length_eq {α : Type} {read : Json → Except Error α} {json : Json} {name : String}
    {results : List α} (h : ReadsList read json name results) :
    ((json.get? name).bind Json.array?).map List.length = some results.length := by
  obtain ⟨items, hitems, hread⟩ := h
  rw [hitems, Option.map_some, (mapM_eq_ok_iff.mp hread).length_eq]

/-- A group has the size that its JSON gives it. -/
theorem groupSize?_of_conditionOfJson {fuel : Nat} {json : Json} {test : Condition}
    (h : conditionOfJson fuel json = .ok test) : groupSize? json = test.groupSize? := by
  cases fuel with
  | zero => simp [conditionOfJson] at h
  | succ fuel =>
    cases reading_of_conditionOfJson h with
    | logical type inside =>
      rw [groupSize?, type]
      exact inside.length_eq
    | oneOf type _ slots =>
      rw [groupSize?, type]
      exact slots.length_eq
    | noneOf type _ slots =>
      rw [groupSize?, type]
      exact slots.length_eq
    | compare type => rw [groupSize?, type]; rfl
    | between type => rw [groupSize?, type]; rfl
    | null type => rw [groupSize?, type]; rfl
    | like type => rw [groupSize?, type]; rfl
    | columns type => rw [groupSize?, type]; rfl
    | not type => rw [groupSize?, type]; rfl

end Wire

namespace Statement

/-- JSON of a text from which a condition of a statement was read. -/
def ReadsCondition (statement : Statement) (text : String) (json : Json) : Prop :=
  Found text json ∧ ∃ test, Node.condition test ∈ statement.nodes ∧
    ∃ fuel, conditionOfJson fuel json = .ok test

theorem exists_readsCondition {text : String} {statement : Statement}
    (h : Statement.decode text = .ok statement) {test : Condition}
    (occurs : Node.condition test ∈ statement.nodes) :
    ∃ json, statement.ReadsCondition text json ∧ groupSize? json = test.groupSize? := by
  have hnodes := everywhere_of_decode (hereditary_found text) (fun _ parsed ↦ .whole parsed) h
  cases hnodes _ occurs with
  | @condition fuel json _ given read =>
    exact ⟨json, ⟨given, test, occurs, fuel, read⟩, groupSize?_of_conditionOfJson read⟩

/-- Every group of a statement that was read has as many members as the JSON that it was read from,
so the statement has an empty group exactly if one of its conditions was read from an empty array. -/
theorem hasEmptyGroup_of_decode_iff {text : String} {statement : Statement}
    (h : Statement.decode text = .ok statement) :
    (∀ test, Node.condition test ∈ statement.nodes →
      ∃ json, statement.ReadsCondition text json ∧ groupSize? json = test.groupSize?) ∧
    (statement.HasEmptyGroup ↔ ∃ json, statement.ReadsCondition text json ∧ groupSize? json = some 0) := by
  refine ⟨fun test occurs ↦ exists_readsCondition h occurs, ?_, ?_⟩
  · rintro ⟨test, occurs, empty⟩
    obtain ⟨json, reads, hsize⟩ := exists_readsCondition h occurs
    exact ⟨json, reads, hsize.trans empty⟩
  · rintro ⟨json, ⟨-, test, occurs, fuel, read⟩, empty⟩
    exact ⟨test, occurs, (groupSize?_of_conditionOfJson read).symm.trans empty⟩

/-- A deletion of what fails none of no conditions. -/
def purgeJson : Json :=
  .object [("type", .string "DeleteMutation"), ("table", .object [("source", .string "sessions")]),
    ("where", .array [.object [("type", .string "NotCondition"),
      ("condition", .object [("type", .string "LogicalCondition"), ("conditions", .array []),
        ("operator", .string "OR")])]])]

def purge : Statement :=
  .delete { table := .named "sessions" none, filter := [.not (.logical [] .or)] }

theorem decode_purge : Statement.decode purgeJson.compact = .ok purge := by
  have hwhole : purgeJson.Faithful := by
    simp [purgeJson, Json.Faithful, Json.Readable, Json.ReadableMembers, Json.ReadableItems,
      Json.reread, Json.rereadMembers, Json.rereadItems, Entries.keys]
  have hshallow : purgeJson.depth ≤ Json.depthLimit := by decide
  have hread (fuel : Nat) : statementOfJson (fuel + 8) purgeJson = .ok purge := rfl
  rw [decode_eq_ok_iff (Json.parse_compact_of_faithful hwhole hshallow), decodingFuel, hread]

theorem hasEmptyGroup_purge :
    Statement.decode purgeJson.compact = .ok purge ∧ purge.HasEmptyGroup ∧
      ∃ json, purge.ReadsCondition purgeJson.compact json ∧ groupSize? json = some 0 := by
  have hempty : purge.HasEmptyGroup :=
    ⟨.logical [] .or, by simp [purge, nodes, Table.nodes, Condition.nodes], rfl⟩
  exact ⟨decode_purge, hempty, (hasEmptyGroup_of_decode_iff decode_purge).2.mp hempty⟩

end Statement

end PortableQuery
