import PortableQuery.Dynamo.Compile
import PortableQuery.Proofs.Wire.Octets

/-!
# Attributes behind the wire

The rows of an insert are written as JSON and read again before they are compiled. Reading keeps what
decides the type of an attribute, whether a literal is a string or a number, and so a list makes the
same kind of set as before. What is lost are bytes, which come back as a list of numbers, and numbers
that are not read from their own text: rows give the same attributes exactly if they hold neither.
-/

namespace PortableQuery

open Wire Dynamo

/-! ## Reading lists and maps -/

theorem exists_forall₂_map_eq_iff {α β : Type} {R : α → α → Prop} {f : α → β} {items : List α} :
    (∃ items', List.Forall₂ R items items' ∧ items'.map f = items.map f) ↔
      ∀ item ∈ items, ∃ item', R item item' ∧ f item' = f item := by
  induction items with
  | nil => simp
  | cons item more ih =>
    rw [List.forall_mem_cons, ← ih]
    constructor
    · rintro ⟨items', hitems, heq⟩
      obtain ⟨item', more', hitem, hmore, rfl⟩ := List.forall₂_cons_left_iff.mp hitems
      obtain ⟨hfirst, hothers⟩ := List.cons.inj heq
      exact ⟨⟨item', hitem, hfirst⟩, more', hmore, hothers⟩
    · rintro ⟨⟨item', hitem, hfirst⟩, more', hmore, hothers⟩
      exact ⟨item' :: more', .cons hitem hmore, by rw [List.map_cons, List.map_cons, hfirst, hothers]⟩

theorem isSome_mapM_cons {α β : Type} (f : α → Option β) (item : α) (more : List α) :
    ((item :: more).mapM f).isSome = ((f item).isSome && (more.mapM f).isSome) := by
  rw [List.mapM_cons]
  cases f item with
  | none => rfl
  | some first => cases more.mapM f <;> rfl

theorem Json.rereadFloat_eq_some_iff {x y : Decimal.Finite} :
    Json.rereadFloat x = some y ↔ Json.parse (Json.compact (.float x)) = some (.float y) := by
  unfold rereadFloat
  split
  next z h => simp [h]
  next h =>
    simp only [reduceCtorEq, false_iff]
    exact h y

namespace Literal

/-- The literal is read as another one. -/
def ReadAs (literal again : Literal) : Prop := literal.reread = some again

/-- The entry of a map is read under its own name. -/
def EntryReadAs (entry again : String × Literal) : Prop :=
  again.1 = entry.1 ∧ entry.2.ReadAs again.2

theorem rereadItems_eq_some_iff {items again : List Literal} :
    (Json.rereadItems (toJsonItems items)).map ofJsonItems = some again ↔
      List.Forall₂ ReadAs items again := by
  induction items generalizing again with
  | nil => simp [toJsonItems, Json.rereadItems, ofJsonItems, eq_comm]
  | cons item more ih =>
    simp only [List.forall₂_cons_left_iff, ← ih, ReadAs, reread, toJsonItems, Json.rereadItems]
    cases item.toJson.reread <;> cases Json.rereadItems (toJsonItems more) <;>
      simp [ofJsonItems, eq_comm]

theorem rereadMembers_eq_some_iff {entries again : List (String × Literal)} :
    (Json.rereadMembers (toJsonEntries entries)).map ofJsonMembers = some again ↔
      List.Forall₂ EntryReadAs entries again := by
  induction entries generalizing again with
  | nil => simp [toJsonEntries, Json.rereadMembers, ofJsonMembers, eq_comm]
  | cons entry more ih =>
    obtain ⟨name, value⟩ := entry
    simp only [List.forall₂_cons_left_iff, ← ih]
    simp only [EntryReadAs, ReadAs, reread, toJsonEntries, Json.rereadMembers]
    cases value.toJson.reread <;> cases Json.rereadMembers (toJsonEntries more) <;>
      simp [ofJsonMembers, eq_comm]

/-- A list is read item by item. -/
theorem list_readAs_iff {items : List Literal} {again : Literal} :
    (Literal.list items).ReadAs again ↔
      ∃ items', List.Forall₂ ReadAs items items' ∧ again = .list items' := by
  simp only [← rereadItems_eq_some_iff, ReadAs, reread, toJson, Json.reread]
  cases Json.rereadItems (toJsonItems items) <;> simp [ofJson, eq_comm]

theorem map_readAs_iff {entries : List (String × Literal)} {again : Literal} :
    (Literal.map entries).ReadAs again ↔
      ∃ entries', List.Forall₂ EntryReadAs entries entries' ∧ again = .map entries' := by
  simp only [← rereadMembers_eq_some_iff, ReadAs, reread, toJson, Json.reread]
  cases Json.rereadMembers (toJsonEntries entries) <;> simp [ofJson, eq_comm]

/-- What holds no bytes and no floating-point numbers is read as itself. -/
theorem readAs_self_iff {literal again : Literal} (hcarried : literal.Carried)
    (hfloats : literal.floats = []) : literal.ReadAs again ↔ again = literal := by
  have hself : literal.reread = some literal := (reread_eq_self_iff hcarried).mpr (by simp [hfloats])
  rw [ReadAs, hself, Option.some.injEq, eq_comm]

theorem bytes_readAs_iff {octets : List UInt8} {again : Literal} :
    (Literal.bytes octets).ReadAs again ↔ again = .list (octets.map ofOctet) := by
  have hcarried : (Literal.bytes octets).listed.Carried :=
    carried_listed (by simp [Writable, parts, Proper])
  have hlisted : (Literal.bytes octets).listed.ReadAs again ↔ again = .list (octets.map ofOctet) :=
    readAs_self_iff hcarried (floats_listed (.bytes octets))
  rwa [ReadAs, reread, toJson_listed] at hlisted

theorem float_readAs_iff {x : Decimal.Finite} {again : Literal} :
    (Literal.float (.finite x)).ReadAs again ↔
      ∃ y, Json.parse (Json.compact (.float x)) = some (.float y) ∧ again = .float (.finite y) := by
  simp only [← Json.rereadFloat_eq_some_iff, ReadAs, reread, toJson, floatJson, Json.reread]
  cases Json.rereadFloat x <;> simp [ofJson, eq_comm]

/-! ## Kinds of attributes -/

/-- Strings are the same, and numbers are numbers. -/
def SameKind (literal again : Literal) : Prop :=
  again.string? = literal.string? ∧
    (Attribute.numberText? again).isSome = (Attribute.numberText? literal).isSome

/-- Reading keeps strings and keeps numbers apart from all else. -/
theorem ReadAs.sameKind {literal again : Literal} (h : literal.Writable) (hread : literal.ReadAs again) :
    literal.SameKind again := by
  cases literal with
  | float value =>
    obtain ⟨x, rfl⟩ := writable_float.mp h
    obtain ⟨y, -, rfl⟩ := float_readAs_iff.mp hread
    exact ⟨rfl, rfl⟩
  | bytes octets =>
    obtain rfl := bytes_readAs_iff.mp hread
    exact ⟨rfl, rfl⟩
  | list items =>
    obtain ⟨items', -, rfl⟩ := list_readAs_iff.mp hread
    exact ⟨rfl, rfl⟩
  | map entries =>
    obtain ⟨entries', -, rfl⟩ := map_readAs_iff.mp hread
    exact ⟨rfl, rfl⟩
  | _ =>
    obtain rfl := (readAs_self_iff (by simp [Carried]) rfl).mp hread
    exact ⟨rfl, rfl⟩

end Literal

namespace Dynamo.Attribute

theorem ofItems_eq (items : List Literal) : ofItems items = items.map ofLiteral := by
  induction items with
  | nil => rfl
  | cons item more ih => simp [ofItems, ih]

theorem ofEntries_eq (entries : List (String × Literal)) :
    ofEntries entries = entries.map fun entry ↦ (entry.1, ofLiteral entry.2) := by
  induction entries with
  | nil => rfl
  | cons entry more ih => simp [ofEntries, ih]

section Lists

variable {items again : List Literal} {texts : List String}

theorem ofLiteral_strings (hne : items ≠ []) (h : items.mapM Literal.string? = some texts) :
    ofLiteral (.list items) = .stringSet texts := by
  obtain ⟨item, more, rfl⟩ := List.exists_cons_of_ne_nil hne
  simp only [ofLiteral, h]

theorem ofLiteral_numbers (hne : items ≠ []) (hstrings : items.mapM Literal.string? = none)
    (h : items.mapM numberText? = some texts) : ofLiteral (.list items) = .numberSet texts := by
  obtain ⟨item, more, rfl⟩ := List.exists_cons_of_ne_nil hne
  simp only [ofLiteral, hstrings, h]

theorem ofLiteral_mixed (hne : items ≠ []) (hstrings : items.mapM Literal.string? = none)
    (hnumbers : items.mapM numberText? = none) :
    ofLiteral (.list items) = .list (items.map ofLiteral) := by
  obtain ⟨item, more, rfl⟩ := List.exists_cons_of_ne_nil hne
  simp only [ofLiteral, hstrings, hnumbers, ofItems_eq]

theorem map_ofLiteral_of_mapM {text? : Literal → Option String} {ofText : String → Attribute}
    (h : ∀ literal text, text? literal = some text → ofLiteral literal = ofText text)
    (htexts : items.mapM text? = some texts) : items.map ofLiteral = texts.map ofText := by
  induction items generalizing texts with
  | nil =>
    obtain rfl := Option.some.inj htexts
    rfl
  | cons item more ih =>
    simp only [List.mapM_cons, Option.bind_eq_bind, Option.bind_eq_some_iff, Option.pure_def,
      Option.some.injEq] at htexts
    obtain ⟨first, hfirst, others, hothers, rfl⟩ := htexts
    rw [List.map_cons, List.map_cons, h item first hfirst, ih hothers]

theorem ofLiteral_of_string? (literal : Literal) (text : String) (h : literal.string? = some text) :
    ofLiteral literal = .string text := by
  cases literal <;> simp_all [Literal.string?, ofLiteral]

theorem ofLiteral_of_numberText? (literal : Literal) (text : String)
    (h : numberText? literal = some text) : ofLiteral literal = .number text := by
  cases literal <;> simp_all [numberText?, ofLiteral]

theorem mapM_string?_of_sameKind (h : List.Forall₂ Literal.SameKind items again) :
    again.mapM Literal.string? = items.mapM Literal.string? := by
  induction h with
  | nil => rfl
  | cons hitem _ ih => rw [List.mapM_cons, List.mapM_cons, hitem.1, ih]

theorem isSome_mapM_numberText?_of_sameKind (h : List.Forall₂ Literal.SameKind items again) :
    (again.mapM numberText?).isSome = (items.mapM numberText?).isSome := by
  induction h with
  | nil => rfl
  | cons hitem _ ih => rw [isSome_mapM_cons, isSome_mapM_cons, hitem.2, ih]

/-- Items of the same kinds make the same kind of attribute, so the lists differ only where items
do. -/
theorem ofLiteral_list_eq_iff (h : List.Forall₂ Literal.SameKind items again) :
    ofLiteral (.list again) = ofLiteral (.list items) ↔ again.map ofLiteral = items.map ofLiteral := by
  have hstrings := mapM_string?_of_sameKind h
  have hnumbers := isSome_mapM_numberText?_of_sameKind h
  by_cases hne : items = []
  · subst hne
    obtain rfl := List.forall₂_nil_left_iff.mp h
    simp
  · have hne' : again ≠ [] := by
      rintro rfl
      exact hne (List.forall₂_nil_right_iff.mp h)
    cases hitems : items.mapM Literal.string? with
    | some texts =>
      rw [hitems] at hstrings
      rw [ofLiteral_strings hne hitems, ofLiteral_strings hne' hstrings,
        map_ofLiteral_of_mapM ofLiteral_of_string? hitems,
        map_ofLiteral_of_mapM ofLiteral_of_string? hstrings]
      simp
    | none =>
      rw [hitems] at hstrings
      cases hcounts : items.mapM numberText? with
      | some texts =>
        rw [hcounts, Option.isSome_some, Option.isSome_iff_exists] at hnumbers
        obtain ⟨texts', hcounts'⟩ := hnumbers
        rw [ofLiteral_numbers hne hitems hcounts, ofLiteral_numbers hne' hstrings hcounts',
          map_ofLiteral_of_mapM ofLiteral_of_numberText? hcounts,
          map_ofLiteral_of_mapM ofLiteral_of_numberText? hcounts', numberSet.injEq,
          List.map_inj_right fun _ _ heq ↦ Attribute.number.inj heq]
      | none =>
        rw [hcounts, Option.isSome_none, Option.isSome_eq_false_iff, Option.isNone_iff_eq_none]
          at hnumbers
        rw [ofLiteral_mixed hne hitems hcounts, ofLiteral_mixed hne' hstrings hnumbers, list.injEq]

theorem ofLiteral_list_ne_binary (items : List Literal) (octets : List UInt8) :
    ofLiteral (.list items) ≠ .binary octets := by
  by_cases hne : items = []
  · subst hne
    simp [ofLiteral]
  · cases hitems : items.mapM Literal.string? with
    | some texts => simp [ofLiteral_strings hne hitems]
    | none =>
      cases hcounts : items.mapM numberText? with
      | some texts => simp [ofLiteral_numbers hne hitems hcounts]
      | none => simp [ofLiteral_mixed hne hitems hcounts]

end Lists

end Dynamo.Attribute

/-! ## Attributes that are kept -/

namespace Literal

/-- Bytes are not kept, and a number is kept if its text reads as a number that is printed alike. -/
def KeepsAttribute : Literal → Prop
  | .bytes _ => False
  | .float (.finite x) => ∃ y, Json.parse (Json.compact (.float x)) = some (.float y) ∧
      Decimal.Binary64.plain (.finite y) = Decimal.Binary64.plain (.finite x)
  | _ => True

/-- The literal is read as one with the same attribute. -/
def Kept (literal : Literal) : Prop :=
  ∃ again, literal.ReadAs again ∧ Attribute.ofLiteral again = Attribute.ofLiteral literal

theorem kept_of_self {literal : Literal} (hcarried : literal.Carried) (hfloats : literal.floats = []) :
    literal.Kept :=
  ⟨literal, (readAs_self_iff hcarried hfloats).mpr rfl, rfl⟩

theorem kept_float_iff {x : Decimal.Finite} :
    (Literal.float (.finite x)).Kept ↔ (Literal.float (.finite x)).KeepsAttribute := by
  simp only [Kept, float_readAs_iff, KeepsAttribute]
  constructor
  · rintro ⟨_, ⟨y, hparse, rfl⟩, heq⟩
    exact ⟨y, hparse, Attribute.number.inj heq⟩
  · rintro ⟨y, hparse, heq⟩
    exact ⟨_, ⟨y, hparse, rfl⟩, congrArg Attribute.number heq⟩

theorem not_kept_bytes (octets : List UInt8) : ¬(Literal.bytes octets).Kept := by
  rintro ⟨again, hread, heq⟩
  obtain rfl := bytes_readAs_iff.mp hread
  exact Attribute.ofLiteral_list_ne_binary _ _ heq

theorem forall₂_sameKind {items again : List Literal} (h : ∀ item ∈ items, item.Writable)
    (hread : List.Forall₂ ReadAs items again) : List.Forall₂ SameKind items again := by
  induction hread with
  | nil => exact .nil
  | cons hitem _ ih =>
    obtain ⟨hfirst, hmore⟩ := List.forall_mem_cons.mp h
    exact .cons (hitem.sameKind hfirst) (ih hmore)

theorem kept_list_iff {items : List Literal} (h : ∀ item ∈ items, item.Writable) :
    (Literal.list items).Kept ↔ ∀ item ∈ items, item.Kept := by
  simp only [Kept, ← exists_forall₂_map_eq_iff, list_readAs_iff]
  constructor
  · rintro ⟨_, ⟨items', hread, rfl⟩, heq⟩
    exact ⟨items', hread, (Attribute.ofLiteral_list_eq_iff (forall₂_sameKind h hread)).mp heq⟩
  · rintro ⟨items', hread, heq⟩
    exact ⟨_, ⟨items', hread, rfl⟩,
      (Attribute.ofLiteral_list_eq_iff (forall₂_sameKind h hread)).mpr heq⟩

theorem ofLiteral_map (entries : List (String × Literal)) :
    Attribute.ofLiteral (.map entries) = .map (itemOf entries) := by
  rw [Attribute.ofLiteral, Attribute.ofEntries_eq]
  rfl

/-- The entries of a map are read under their names, each by itself. -/
theorem exists_entries_iff {entries : List (String × Literal)} :
    (∃ entries', List.Forall₂ EntryReadAs entries entries' ∧ itemOf entries' = itemOf entries) ↔
      ∀ entry ∈ entries, entry.2.Kept := by
  refine exists_forall₂_map_eq_iff.trans (forall₂_congr fun entry _ ↦ ?_)
  constructor
  · rintro ⟨⟨name, again⟩, ⟨-, hread⟩, heq⟩
    exact ⟨again, hread, (Prod.ext_iff.mp heq).2⟩
  · rintro ⟨again, hread, heq⟩
    exact ⟨(entry.1, again), ⟨rfl, hread⟩, Prod.ext rfl heq⟩

theorem kept_map_iff {entries : List (String × Literal)} :
    (Literal.map entries).Kept ↔ ∀ entry ∈ entries, entry.2.Kept := by
  rw [← exists_entries_iff, Kept]
  simp only [map_readAs_iff]
  constructor
  · rintro ⟨_, ⟨entries', hread, rfl⟩, heq⟩
    rw [ofLiteral_map, ofLiteral_map, Attribute.map.injEq] at heq
    exact ⟨entries', hread, heq⟩
  · rintro ⟨entries', hread, heq⟩
    exact ⟨_, ⟨entries', hread, rfl⟩, by rw [ofLiteral_map, ofLiteral_map, heq]⟩

/-- A literal keeps its attribute exactly if all that is inside it does. -/
theorem kept_iff {literal : Literal} (h : literal.Writable) :
    literal.Kept ↔ ∀ part ∈ literal.parts, part.KeepsAttribute := by
  induction literal using Literal.induction with
  | float value =>
    obtain ⟨x, rfl⟩ := writable_float.mp h
    simp [kept_float_iff, parts]
  | bytes octets => simp [not_kept_bytes, parts, KeepsAttribute]
  | list items ih =>
    have hitems := writable_list.mp h
    rw [kept_list_iff hitems, forall_mem_parts_list]
    refine Iff.trans (forall₂_congr fun item hitem ↦ ih item hitem (hitems item hitem)) ?_
    exact (and_iff_right trivial).symm
  | map entries ih =>
    have hentries := (writable_map.mp h).2
    rw [kept_map_iff, forall_mem_parts_map]
    refine Iff.trans (forall₂_congr fun entry hentry ↦ ih entry hentry (hentries entry hentry)) ?_
    exact (and_iff_right trivial).symm
  | _ => exact iff_of_true (kept_of_self (by simp [Carried]) rfl) (by simp [parts, KeepsAttribute])

end Literal

/-! ## Inserts -/

theorem Row.listLiteral_readAs_iff {rows rows' : List Row} :
    (listLiteral rows).ReadAs (listLiteral rows') ↔
      List.Forall₂ (List.Forall₂ Literal.EntryReadAs) rows rows' := by
  have hrow (row row' : Row) : (Literal.map row).ReadAs (.map row') ↔
      List.Forall₂ Literal.EntryReadAs row row' := by
    simp [Literal.map_readAs_iff]
  simp only [listLiteral, Literal.list_readAs_iff, Literal.list.injEq, exists_eq_right',
    List.forall₂_map_left_iff, List.forall₂_map_right_iff, hrow]

/-- The rows are read as rows with the same items exactly if all that is inside them is kept. -/
theorem Row.exists_rows_iff {rows : List Row} (h : ∀ row ∈ rows, ∀ cell ∈ row, cell.2.Writable) :
    (∃ rows', (listLiteral rows).ReadAs (listLiteral rows') ∧ rows'.map itemOf = rows.map itemOf) ↔
      ∀ row ∈ rows, ∀ cell ∈ row, ∀ part ∈ cell.2.parts, part.KeepsAttribute := by
  simp only [listLiteral_readAs_iff]
  refine exists_forall₂_map_eq_iff.trans (forall₂_congr fun row hrow ↦ ?_)
  refine Literal.exists_entries_iff.trans (forall₂_congr fun cell hcell ↦ ?_)
  exact Literal.kept_iff (h row hrow cell hcell)

namespace Dynamo

/-- The request that puts items into a table, one alone or several in a batch. -/
def itemsRequest (tableName : String) : List (Entries Attribute) → Except Error Request
  | [] => .error (.missing .insertValues)
  | [item] => .ok (.putItem { tableName, item })
  | items => .ok (.batchWriteItem { tableName, items })

theorem itemsRequest_inj {tableName : String} {items items' : List (Entries Attribute)} :
    itemsRequest tableName items = itemsRequest tableName items' ↔ items = items' := by
  rcases items with _ | ⟨item, _ | ⟨second, more⟩⟩ <;>
    rcases items' with _ | ⟨item', _ | ⟨second', more'⟩⟩ <;> simp [itemsRequest]

end Dynamo

theorem Insert.request_rows (name : String) (label : Option String) (rows : List Row) :
    Insert.request ⟨.named name label, some (.rows rows)⟩ = itemsRequest name (rows.map itemOf) := by
  rcases rows with _ | ⟨row, _ | ⟨second, more⟩⟩ <;> rfl

theorem exists_ok_itemsRequest (tableName : String) {items : List (Entries Attribute)}
    (h : items ≠ []) : ∃ request, itemsRequest tableName items = .ok request := by
  rcases items with _ | ⟨item, _ | ⟨second, more⟩⟩
  · contradiction
  · exact ⟨_, rfl⟩
  · exact ⟨_, rfl⟩

/-- What is read from the text of an insert of rows into a named table. -/
theorem Statement.decode_named_rows_iff {name : String} {label : Option String} {rows : List Row}
    {statement : Statement} (hreadable : (Row.listLiteral rows).toJson.Readable)
    (hdepth : (Statement.insert ⟨.named name label, some (.rows rows)⟩).toJson.depth ≤
      Json.depthLimit) :
    Statement.decode (Statement.insert ⟨.named name label, some (.rows rows)⟩).encode = .ok statement ↔
      ∃ rows', (Row.listLiteral rows).ReadAs (Row.listLiteral rows') ∧
        statement = .insert ⟨.named name label, some (.rows rows')⟩ := by
  rw [decode_insert_rows_iff hreadable hdepth, decodingFuel]
  simp [Table.record, tableOfRecord, Literal.ReadAs]

/-- An insert with rows is compiled to the same request behind the wire exactly if no cell of a row
holds bytes and every floating-point number in it is read from its text as one that is printed
alike. -/
theorem Insert.request_decode_encode_iff (options : Options) (name : String) (label : Option String)
    {rows : List Row} (hnames : ∀ row ∈ rows, (Entries.keys row).Nodup)
    (hcells : ∀ row ∈ rows, ∀ cell ∈ row, cell.2.Writable)
    (hdepth : (Statement.insert ⟨.named name label, some (.rows rows)⟩).toJson.depth ≤
      Json.depthLimit) :
    (Statement.decode (Statement.insert ⟨.named name label, some (.rows rows)⟩).encode >>=
        Statement.request options) =
        (Statement.insert ⟨.named name label, some (.rows rows)⟩).request options ↔
      ∀ row ∈ rows, ∀ cell ∈ row, ∀ part ∈ cell.2.parts, part.KeepsAttribute := by
  have hreadable := Literal.readable_toJson_of_writable (Statement.writable_listLiteral hnames hcells)
  rw [← Row.exists_rows_iff hcells, Statement.request, Insert.request_rows]
  constructor
  · intro h
    by_cases hne : rows = []
    · subst hne
      exact ⟨[], Row.listLiteral_readAs_iff.mpr .nil, rfl⟩
    · have hitems : rows.map itemOf ≠ [] := by simpa using hne
      obtain ⟨request, hrequest⟩ := exists_ok_itemsRequest name hitems
      rw [hrequest] at h
      obtain ⟨statement, hdecode, hagain⟩ := bind_eq_ok_iff.mp h
      obtain ⟨rows', hread, rfl⟩ := (Statement.decode_named_rows_iff hreadable hdepth).mp hdecode
      rw [Statement.request, Insert.request_rows, ← hrequest, itemsRequest_inj] at hagain
      exact ⟨rows', hread, hagain⟩
  · rintro ⟨rows', hread, heq⟩
    have hdecode := (Statement.decode_named_rows_iff hreadable hdepth).mpr ⟨rows', hread, rfl⟩
    calc
      _ = (Statement.insert ⟨.named name label, some (.rows rows')⟩).request options := by
        rw [hdecode]
        rfl
      _ = itemsRequest name (rows'.map itemOf) := Insert.request_rows name label rows'
      _ = itemsRequest name (rows.map itemOf) := by rw [heq]

/-- A reading with a date, a set of texts, a set of numbers and a list of all sorts. -/
def Row.reading (x : Decimal.Finite) : Row :=
  [("at", .date ⟨0, by decide, by decide⟩), ("tags", .list [.string "a", .string "!D!b"]),
    ("levels", .list [.int 7, .float (.finite x)]),
    ("notes", .list [.null, .bool true, .map [("unit", .string "mm")]])]

theorem Row.writable_reading (x : Decimal.Finite) : ∀ cell ∈ Row.reading x, cell.2.Writable := by
  simp [reading, Literal.Writable, Literal.parts, Literal.partsItems, Literal.partsEntries,
    Literal.Proper, Entries.keys]

theorem Row.keepsAttribute_reading {x : Decimal.Finite} (h : Json.FloatReadsBack x) :
    ∀ cell ∈ Row.reading x, ∀ part ∈ cell.2.parts, part.KeepsAttribute := by
  have hkeeps : (Literal.float (.finite x)).KeepsAttribute := ⟨x, h, rfl⟩
  simpa [reading, Literal.parts, Literal.partsItems, Literal.partsEntries, Literal.KeepsAttribute]
    using hkeeps

/-- One half is kept with all else in a reading; bytes within a list are not. -/
theorem Insert.request_decode_encode_readings :
    (let statement := Statement.insert ⟨.named "readings" none, some (.rows [Row.reading Json.half])⟩
     (Statement.decode statement.encode >>= Statement.request .default) = statement.request .default) ∧
    (let row : Row := [("blob", .list [.bytes [1, 2]])]
     let statement := Statement.insert ⟨.named "files" none, some (.rows [row])⟩
     (Statement.decode statement.encode >>= Statement.request .default) ≠
       statement.request .default) := by
  constructor
  · apply (Insert.request_decode_encode_iff .default "readings" none _ _ _).mpr
    · rw [List.forall_mem_singleton]
      exact Row.keepsAttribute_reading Json.floatReadsBack_half
    · simp [Row.reading, Entries.keys]
    · rw [List.forall_mem_singleton]
      exact Row.writable_reading _
    · decide
  · intro row statement hsame
    have hnames : ∀ given ∈ [row], (Entries.keys given).Nodup := by simp [row, Entries.keys]
    have hcells : ∀ given ∈ [row], ∀ cell ∈ given, cell.2.Writable := by
      simp [row, Literal.Writable, Literal.parts, Literal.partsItems, Literal.Proper]
    have hkept := (Insert.request_decode_encode_iff .default "files" none hnames hcells
      (by decide)).mp hsame
    simp [row, Literal.parts, Literal.partsItems, Literal.KeepsAttribute] at hkept

end PortableQuery
