import PortableQuery.Proofs.Wire.Decoded
import PortableQuery.Proofs.Wire.RoundTrip

/-!
# Reading brings statements into a fixed form

Payloads written by hand may spell a statement in many ways. Whatever is read can be written, and
what is written then comes back as the same statement, unless a literal passes for a select or a
floating-point number is not read back from its own text.
-/

namespace PortableQuery

open Text Wire

namespace Statement

/-- What holds of every statement that is read from some text. -/
structure Safe (statement : Statement) : Prop where
  nodes : statement.Everywhere Node.Safe
  rows : (Row.listLiteral statement.rows).Carried
  assignments : (Entries.keys statement.assignments).Nodup

theorem Safe.carried {statement : Statement} (h : statement.Safe)
    (hnesting : ∀ json ∈ statement.texts, json.depth ≤ Json.depthLimit) : statement.Carried := by
  obtain ⟨hdepth, hshallow⟩ := forall_mem_texts.mp hnesting
  exact ⟨fun node hnode ↦ ⟨h.nodes node hnode, hshallow node hnode⟩, h.rows, h.assignments, hdepth⟩

/-- The members of an object, as the readers of mutations see them. -/
def FromText (entries : Entries Json) : Prop :=
  (Entries.keys entries).Nodup ∧ ∀ entry ∈ entries, entry.2.FromText

theorem fromText_members {json : Json} (h : json.FromText) : FromText (json.members?.getD []) := by
  cases json with
  | object members => exact h.members
  | _ => exact ⟨List.nodup_nil, by simp [Json.members?]⟩

theorem FromText.get? {entries : Entries Json} {name : String} {value : Json} (h : FromText entries)
    (hget : entries.get? name = some value) : value.FromText :=
  h.2 (name, value) (Entries.mem_of_get? hget)

/-! ## Rows -/

theorem carried_rowOfEntries {entries : Entries Json} (h : FromText entries) :
    (Entries.keys (rowOfEntries entries)).Nodup ∧
      ∀ cell ∈ rowOfEntries entries, cell.2.Carried := by
  constructor
  · rw [rowOfEntries_eq, Literal.keys_ofJsonMembers]
    exact h.1
  · simp only [rowOfEntries, List.forall_mem_map]
    intro entry hentry
    exact Literal.carried_ofJson (h.2 entry hentry).readable

theorem fromText_of_rowsField? {entries : Entries Json} {given : List (Entries Json)}
    (h : FromText entries) (hrows : rowsField? entries = some (some given)) :
    ∀ row ∈ given, FromText row := by
  unfold rowsField? at hrows
  split at hrows
  · simp at hrows
  · simp at hrows
  · rename_i items hget
    obtain ⟨found, hfound, heq⟩ := Option.map_eq_some_iff.mp hrows
    obtain rfl := Option.some.inj heq
    intro row hrow
    obtain ⟨item, hitem, hmembers⟩ := exists_of_mem_mapM_some hfound row hrow
    have hitemText := (h.get? hget).items item hitem
    cases item with
    | object members =>
      obtain rfl := Option.some.inj hmembers
      exact hitemText.members
    | _ => simp [Json.members?] at hmembers
  · contradiction

theorem carried_listLiteral_map {given : List (Entries Json)} (h : ∀ row ∈ given, FromText row) :
    (Row.listLiteral (given.map rowOfEntries)).Carried := by
  rw [carried_listLiteral_iff]
  simp only [List.forall_mem_map]
  exact ⟨fun row hrow ↦ (carried_rowOfEntries (h row hrow)).1,
    fun row hrow ↦ (carried_rowOfEntries (h row hrow)).2⟩

theorem carried_rows {fuel : Nat} {entries : Entries Json} {mutation : Insert} (h : FromText entries)
    (hread : insertOfEntries fuel entries = .ok mutation) :
    (Row.listLiteral (Statement.insert mutation).rows).Carried := by
  simp only [insertOfEntries, bind_eq_ok_iff, orJsonError_eq_ok_iff] at hread
  obtain ⟨record, hrecord, hread⟩ := hread
  simp only [InsertRecord.ofJson?, Option.bind_eq_bind, Option.bind_eq_some_iff, Option.pure_def,
    Option.some.injEq] at hrecord
  obtain ⟨table, -, rows, hrows, select, -, rfl⟩ := hrecord
  simp only at hread
  split at hread
  · contradiction
  · simp only [bind_eq_ok_iff, pure_eq_ok_iff] at hread
    obtain ⟨held, -, rfl⟩ := hread
    exact carried_listLiteral_map (fromText_of_rowsField? h hrows)
  · simp only [bind_eq_ok_iff, pure_eq_ok_iff] at hread
    obtain ⟨query, -, held, -, rfl⟩ := hread
    trivial
  · simp only [bind_eq_ok_iff, pure_eq_ok_iff] at hread
    obtain ⟨held, -, rfl⟩ := hread
    trivial

/-! ## Assignments -/

theorem keys_assignments {fuel : Nat} {entries : Entries Json} {assignments : Entries Expr}
    (h : entries.mapM (fun entry ↦ do return (entry.1, ← assignmentOfJson fuel entry.2)) =
      .ok assignments) : Entries.keys assignments = Entries.keys entries := by
  induction entries generalizing assignments with
  | nil =>
    rw [List.mapM_nil, pure_eq_ok_iff] at h
    simp [← h, Entries.keys]
  | cons entry more ih =>
    simp only [List.mapM_cons, bind_eq_ok_iff, pure_eq_ok_iff] at h ih
    obtain ⟨_, ⟨value, -, rfl⟩, others, hothers, rfl⟩ := h
    simpa [Entries.keys] using ih hothers

theorem nodup_keys_updateRecord {entries : Entries Json} {record : UpdateRecord} (h : FromText entries)
    (hrecord : UpdateRecord.ofJson? entries = some record) :
    (Entries.keys record.assignments).Nodup := by
  simp only [UpdateRecord.ofJson?, Option.bind_eq_bind, Option.bind_eq_some_iff, Option.pure_def]
    at hrecord
  obtain ⟨table, -, hrecord⟩ := hrecord
  split at hrecord
  · simp only [Option.bind_some, Option.bind_eq_some_iff, Option.some.injEq] at hrecord
    obtain ⟨tests, -, rfl⟩ := hrecord
    exact List.nodup_nil
  · rename_i json hget
    simp only [Option.bind_eq_some_iff, Option.some.injEq] at hrecord
    obtain ⟨given, hgiven, tests, -, rfl⟩ := hrecord
    have hmembers := fromText_members (h.get? hget)
    rw [hgiven] at hmembers
    exact hmembers.1

theorem nodup_assignments {fuel : Nat} {entries : Entries Json} {mutation : Update}
    (h : FromText entries) (hread : updateOfEntries fuel entries = .ok mutation) :
    (Entries.keys mutation.assignments).Nodup := by
  simp only [updateOfEntries, bind_eq_ok_iff, orJsonError_eq_ok_iff, pure_eq_ok_iff] at hread
  obtain ⟨record, hrecord, assignments, hassignments, table, -, filter, -, rfl⟩ := hread
  have hkeys := keys_assignments hassignments
  rw [hkeys]
  exact nodup_keys_updateRecord h hrecord

/-! ## Statements -/

theorem safe_of_statementOfJson {fuel : Nat} {json : Json} {statement : Statement}
    (h : json.FromText) (hread : statementOfJson fuel json = .ok statement) : statement.Safe := by
  have hentries := fromText_members h
  have hnodes : statement.Everywhere Node.Safe := fun node hnode ↦
    safe_of_readFrom (everywhere_of_statementOfJson hereditary_fromText h hread node hnode)
  unfold statementOfJson at hread
  simp only at hread
  split_ifs at hread <;> simp only [bind_eq_ok_iff, pure_eq_ok_iff] at hread <;>
    obtain ⟨found, hfound, rfl⟩ := hread
  · exact ⟨hnodes, trivial, List.nodup_nil⟩
  · exact ⟨hnodes, carried_rows hentries hfound, List.nodup_nil⟩
  · exact ⟨hnodes, trivial, nodup_assignments hentries hfound⟩
  · exact ⟨hnodes, trivial, List.nodup_nil⟩
  · exact ⟨hnodes, trivial, List.nodup_nil⟩
  · exact ⟨hnodes, trivial, List.nodup_nil⟩

/-- Everything that is read is fit for the wire. -/
theorem safe_of_decode {text : String} {statement : Statement}
    (h : Statement.decode text = .ok statement) : statement.Safe := by
  cases hparse : Json.parse text with
  | none => exact absurd h (decode_ne_ok hparse statement)
  | some json =>
    rw [decode_eq_ok_iff hparse] at h
    exact safe_of_statementOfJson (Json.parsed_of_parse hparse) h

/-- What was read comes back from its own text, and is written the same way again, exactly if no
literal in it passes for a select and its floating-point numbers are read back. -/
theorem decode_encode_of_decode_iff {text : String} {statement : Statement}
    (hdecode : Statement.decode text = .ok statement)
    (hnesting : ∀ json ∈ statement.texts, json.depth ≤ Json.depthLimit) :
    (Statement.decode statement.encode = .ok statement ↔
      (∀ literal, Node.expr (.value literal) ∈ statement.nodes → ¬literal.IsSelectLike) ∧
        ∀ x ∈ statement.floats, Json.parse (Json.compact (.float x)) = some (.float x)) ∧
    ((∀ literal, Node.expr (.value literal) ∈ statement.nodes → ¬literal.IsSelectLike) →
      (∀ x ∈ statement.floats, Json.parse (Json.compact (.float x)) = some (.float x)) →
      (Statement.decode statement.encode).map Statement.encode = .ok statement.encode) := by
  have hback : Statement.decode statement.encode = .ok statement ↔
      (∀ literal, Node.expr (.value literal) ∈ statement.nodes → ¬literal.IsSelectLike) ∧
        ∀ x ∈ statement.floats, Json.parse (Json.compact (.float x)) = some (.float x) := by
    rw [decode_encode_iff_stable ((safe_of_decode hdecode).carried hnesting), stable_iff]
    rfl
  refine ⟨hback, fun hselects hfloats ↦ ?_⟩
  rw [hback.mpr ⟨hselects, hfloats⟩]
  rfl

/-- A deletion written by hand: no type for the table, and an object in the slot of the value. -/
def payload (member : Json) : Json :=
  .object [("type", .string "DeleteMutation"), ("table", .object [("source", .string "readings")]),
    ("where", .array [.object [("type", .string "BinaryCondition"), ("key", .string "kind"),
      ("value", .object [("type", member)]), ("operator", .string "=")]])]

def deletion (literal : Literal) : Statement :=
  .delete { table := .named "readings" none,
            filter := [.compare (.column "kind") (.value (.map [("type", literal)])) .eq] }

theorem decode_payload {member : Json} (hfaithful : member.Faithful) (hdepth : member.depth = 0) :
    Statement.decode (payload member).compact = .ok (deletion (Literal.ofJson member)) := by
  have hwhole : (payload member).Faithful := by
    simp [payload, Json.Faithful, Json.Readable, Json.ReadableMembers, Json.ReadableItems, Json.reread,
      Json.rereadMembers, Json.rereadItems, Entries.keys, hfaithful.1, hfaithful.2]
  have hshallow : (payload member).depth ≤ Json.depthLimit := by
    simp [payload, Json.depth, Json.depthMembers, Json.depthItems, hdepth, Json.depthLimit]
  have hread (fuel : Nat) :
      statementOfJson (fuel + 8) (payload member) = .ok (deletion (Literal.ofJson member)) := rfl
  rw [decode_eq_ok_iff (Json.parse_compact_of_faithful hwhole hshallow), decodingFuel, hread]

theorem nodes_deletion (literal : Literal) :
    (deletion literal).nodes =
      [.condition (.compare (.column "kind") (.value (.map [("type", literal)])) .eq),
        .expr (.column "kind"), .expr (.value (.map [("type", literal)]))] := rfl

theorem shallow_deletion {literal : Literal} (h : literal.toJson.depth = 0) :
    ∀ json ∈ (deletion literal).texts, json.depth ≤ Json.depthLimit := by
  have hwhole : (deletion literal).toJson.depth = 3 := rfl
  rw [forall_mem_texts, nodes_deletion, hwhole]
  simp [Node.payload?, Expr.payload?, Literal.toJson, Literal.toJsonEntries, Json.depth,
    Json.depthMembers, h, Json.depthLimit]

/-- An object in the slot of a value is read and written for good, but one that names the type of a
select is read as a literal and written as a select. -/
theorem decode_encode_of_decode_payload :
    (let half : Decimal.Finite := ⟨false, 4602678819172646912⟩
     let read := deletion (.float (.finite half))
     Statement.decode (payload (.float half)).compact = .ok read ∧
      (∀ json ∈ read.texts, json.depth ≤ Json.depthLimit) ∧ Statement.decode read.encode = .ok read ∧
      (Statement.decode read.encode).map Statement.encode = .ok read.encode) ∧
    (let read := deletion (.string "SelectQuery")
     Statement.decode (payload (.string "SelectQuery")).compact = .ok read ∧
      (∀ json ∈ read.texts, json.depth ≤ Json.depthLimit) ∧ Statement.decode read.encode ≠ .ok read) := by
  have hhalf : Json.FloatReadsBack ⟨false, 4602678819172646912⟩ := Json.floatReadsBack_half
  constructor
  · have hfaithful : (Json.float ⟨false, 4602678819172646912⟩).Faithful :=
      ⟨trivial, by rw [Json.reread, Json.floatReadsBack_iff.mp hhalf, Option.map_some]⟩
    have hread := decode_payload hfaithful rfl
    have hshallow := @shallow_deletion (.float (.finite ⟨false, 4602678819172646912⟩)) rfl
    obtain ⟨hback, hagain⟩ := decode_encode_of_decode_iff hread hshallow
    have hselects : ∀ literal, Node.expr (.value literal) ∈
        (deletion (.float (.finite ⟨false, 4602678819172646912⟩))).nodes → ¬literal.IsSelectLike := by
      simp [nodes_deletion, Literal.IsSelectLike, Entries.get?]
    have hfloats : ∀ x ∈ (deletion (.float (.finite ⟨false, 4602678819172646912⟩))).floats,
        Json.parse (Json.compact (.float x)) = some (.float x) := by
      rw [show (deletion (.float (.finite ⟨false, 4602678819172646912⟩))).floats =
        [⟨false, 4602678819172646912⟩] from rfl, List.forall_mem_singleton]
      exact hhalf
    exact ⟨hread, hshallow, hback.mpr ⟨hselects, hfloats⟩, hagain hselects hfloats⟩
  · have hread : Statement.decode (payload (.string "SelectQuery")).compact =
        .ok (deletion (.string "SelectQuery")) := decode_payload (Json.faithful_string "SelectQuery") rfl
    have hshallow := @shallow_deletion (.string "SelectQuery") rfl
    refine ⟨hread, hshallow, fun hback ↦ ?_⟩
    have hselects := ((decode_encode_of_decode_iff hread hshallow).1.mp hback).1
    exact hselects (.map [("type", .string "SelectQuery")]) (by simp [nodes_deletion]) rfl

end Statement

end PortableQuery
