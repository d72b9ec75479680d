import PortableQuery.Dynamo.Compile
import PortableQuery.Proofs.Dynamo.Condition
import PortableQuery.Query.Build

/-!
# The items that an update or a delete touches

An update or a delete touches the item that has the key of its request, if the item also passes the
condition of the request. The equalities on key columns make the key and all other conditions make
the condition, so a touched item satisfies the whole WHERE clause, unless two equalities ask for
different values of one key column: the key keeps only the last of them, and the condition none.
-/

namespace PortableQuery

open Dynamo

namespace Dynamo

/-- Whether an item has the attributes of a key. -/
def HasKey (store : Store) (item : Item) (key : Entries Attribute) : Prop :=
  ∀ entry ∈ key, store.compare .eq (item entry.1) (some entry.2)

/-- Whether an item passes the condition of a request; every item does if there is none. -/
def PassesText (store : Store) (item : Item) (names : Entries String) (values : Entries Attribute)
    (condition : Option String) : Prop :=
  ∀ text ∈ condition, ∃ test, Test.read? names values text = some test ∧ test.Passes store item

/-- Whether a request writes or deletes an item. -/
def Request.Touches (store : Store) (item : Item) : Request → Prop
  | .updateItem input =>
    HasKey store item input.key ∧
      PassesText store item input.names input.values input.condition
  | .deleteItem input =>
    HasKey store item input.key ∧
      PassesText store item input.names input.values input.condition
  | _ => False

/-- The column and the attribute of an equality on a key column. -/
def keyPair? (options : Options) (test : Condition) : Option (String × Attribute) :=
  match keyEquality? options test with
  | some (column, value) => value.toAttribute.toOption.map fun held ↦ (column, held)
  | none => none

/-- The equalities on key columns, each with the attribute that it asks for. -/
def keyPairs (options : Options) (filter : List Condition) : Entries Attribute :=
  filter.filterMap (keyPair? options)

/-- All equalities on one key column ask for the same value. -/
def KeysAgree (store : Store) (options : Options) (filter : List Condition) : Prop :=
  ∀ first ∈ keyPairs options filter, ∀ second ∈ keyPairs options filter, first.1 = second.1 →
    store.compare .eq (some first.2) (some second.2)

/-! ## The key -/

variable {store : Store} {item : Item} {options : Options} {filter : List Condition}

theorem keyEquality?_eq_some {test : Condition} {column : String} {value : Expr}
    (h : keyEquality? options test = some (column, value)) :
    ∃ key, test = .compare key value .eq ∧ key.columnName = column := by
  unfold keyEquality? at h
  split at h
  · rename_i key found
    split at h
    · obtain ⟨rfl, rfl⟩ := Prod.mk.inj (Option.some.inj h)
      exact ⟨key, rfl, rfl⟩
    · contradiction
  · contradiction

theorem keyPair?_of_toAttribute {test : Condition} {column : String} {value : Expr} {held : Attribute}
    (hequality : keyEquality? options test = some (column, value))
    (hheld : value.toAttribute = .ok held) : keyPair? options test = some (column, held) := by
  simp [keyPair?, hequality, hheld, Except.toOption]

theorem exists_of_keyPair? {test : Condition} {column : String} {held : Attribute}
    (h : keyPair? options test = some (column, held)) :
    ∃ value, keyEquality? options test = some (column, value) ∧ value.toAttribute = .ok held := by
  unfold keyPair? at h
  split at h
  · rename_i found value hequality
    cases hvalue : value.toAttribute with
    | error cause => simp [hvalue, Except.toOption] at h
    | ok attr =>
      simp only [hvalue, Except.toOption, Option.map_some, Option.some.injEq, Prod.mk.injEq] at h
      obtain ⟨rfl, rfl⟩ := h
      exact ⟨value, hequality, hvalue⟩
  · contradiction

/-- An equality on a key column holds of an item that has the attribute it asks for. -/
theorem holds_of_keyPair? {test : Condition} {column : String} {held : Attribute}
    (h : keyPair? options test = some (column, held)) :
    test.Holds store item ↔ store.compare .eq (item column) (some held) := by
  obtain ⟨value, hequality, hheld⟩ := exists_of_keyPair? h
  obtain ⟨key, rfl, rfl⟩ := keyEquality?_eq_some hequality
  simp [Condition.Holds, hheld]

/-- A later equality on a column takes the place of an earlier one. -/
theorem keyAttributes_eq {key result : Entries Attribute}
    (h : keyAttributes options key filter = .ok result) :
    result = Entries.insertAll key (keyPairs options filter) ∧
    ∀ test ∈ filter, (keyEquality? options test).isNone ∨ (keyPair? options test).isSome := by
  induction filter generalizing key with
  | nil =>
    simp only [keyAttributes, Except.ok.injEq] at h
    simp [keyPairs, Entries.insertAll, h]
  | cons test more ih =>
    rw [List.forall_mem_cons]
    cases hequality : keyEquality? options test with
    | none =>
      simp only [keyAttributes, hequality] at h
      obtain ⟨hresult, hmore⟩ := ih h
      have hpair : keyPair? options test = none := by simp [keyPair?, hequality]
      exact ⟨by rw [hresult, keyPairs, keyPairs, List.filterMap_cons_none hpair], .inl rfl, hmore⟩
    | some pair =>
      obtain ⟨column, value⟩ := pair
      simp only [keyAttributes, hequality, bind_eq_ok_iff] at h
      obtain ⟨held, hheld, h⟩ := h
      obtain ⟨hresult, hmore⟩ := ih h
      have hpair := keyPair?_of_toAttribute hequality hheld
      refine ⟨?_, .inr (by simp [hpair]), hmore⟩
      rw [hresult, keyPairs, keyPairs, List.filterMap_cons_some hpair]
      rfl

theorem extractKey_eq {verb : Verb} {key : Entries Attribute}
    (h : extractKey options verb filter = .ok key) :
    key = Entries.ofList (keyPairs options filter) ∧
    ∀ test ∈ filter, (keyEquality? options test).isNone ∨ (keyPair? options test).isSome := by
  unfold extractKey at h
  split at h
  · contradiction
  · simp only [bind_eq_ok_iff, pure_eq_ok_iff] at h
    obtain ⟨found, hfound, _, _, rfl⟩ := h
    exact keyAttributes_eq hfound

/-- An item with the key satisfies the equalities on key columns just when they agree. -/
theorem holds_iff_keysAgree {verb : Verb} {key : Entries Attribute}
    (hkey : extractKey options verb filter = .ok key) (has : HasKey store item key)
    (hresidual : ∀ test ∈ residual options filter, test.Holds store item) :
    (∀ test ∈ filter, test.Holds store item) ↔ KeysAgree store options filter := by
  obtain ⟨rfl, hpairs⟩ := extractKey_eq hkey
  constructor
  · -- Both equalities hold of the one attribute of the item.
    intro hall first hfirst second hsecond hcolumn
    obtain ⟨test, htest, hpair⟩ := List.mem_filterMap.mp hfirst
    obtain ⟨test', htest', hpair'⟩ := List.mem_filterMap.mp hsecond
    have heq := (holds_of_keyPair? hpair).mp (hall test htest)
    have heq' := (holds_of_keyPair? hpair').mp (hall test' htest')
    rw [← hcolumn] at heq'
    exact store.eq_trans (store.eq_symm heq) heq'
  · intro hagree test htest
    rcases hpairs test htest with hnone | hsome
    · exact hresidual test (by simp [residual, htest, hnone])
    · -- The key has the value of some equality on this column, and it agrees with this one.
      obtain ⟨pair, hpair⟩ := Option.isSome_iff_exists.mp hsome
      have hmem : pair ∈ keyPairs options filter := List.mem_filterMap.mpr ⟨test, htest, hpair⟩
      have hcolumn : pair.1 ∈ Entries.keys (Entries.ofList (keyPairs options filter)) :=
        Entries.mem_keys_ofList.mpr (List.mem_map_of_mem hmem)
      obtain ⟨entry, hentry, hname⟩ := List.mem_map.mp hcolumn
      have hlast : entry ∈ keyPairs options filter :=
        Entries.forall_mem_ofList (p := (· ∈ keyPairs options filter)) (fun _ h ↦ h) entry hentry
      rw [holds_of_keyPair? hpair, ← hname]
      exact store.eq_trans (has entry hentry) (hagree entry hlast pair hmem hname)

/-! ## The condition -/

section Text

variable {tests : List Condition} {phrases : List Phrase} {before after : Placeholders}
  {texts : List String}

theorem writeAll_isEmpty (hphrases : Condition.phrases tests = .ok phrases)
    (hwritten : before.writeAll phrases = (texts, after)) : texts.isEmpty = tests.isEmpty := by
  cases tests with
  | nil =>
    simp only [Condition.phrases, Except.ok.injEq] at hphrases
    subst hphrases
    simp only [Placeholders.writeAll, Prod.mk.injEq] at hwritten
    simp [← hwritten.1]
  | cons test more =>
    simp only [Condition.phrases, bind_eq_ok_iff, pure_eq_ok_iff] at hphrases
    obtain ⟨first, _, others, _, rfl⟩ := hphrases
    simp only [Placeholders.writeAll, Prod.mk.injEq] at hwritten
    simp [← hwritten.1]

/-- An item that passes the text of a request satisfies the conditions it was made from. -/
theorem holds_of_passesText (hphrases : Condition.phrases tests = .ok phrases)
    (hwritten : before.writeAll phrases = (texts, after))
    (passes : PassesText store item after.nameEntries after.valueEntries (conjunction? texts)) :
    ∀ test ∈ tests, test.Holds store item := by
  by_cases hnone : tests = []
  · simp [hnone]
  have htexts : texts.isEmpty = false := by
    rw [writeAll_isEmpty hphrases hwritten]
    simpa using hnone
  have hread := Condition.readAs_conjunction hphrases hnone hwritten
  obtain ⟨found, hfound, hpasses⟩ := passes _ (by rw [conjunction?, htexts]; rfl)
  rw [hfound] at hread
  simpa [Condition.Holds] using (hread.2 store item).mp hpasses

/-- Unless a group is empty, the text asks for no more than the conditions. -/
theorem passesText_of_holds (hphrases : Condition.phrases tests = .ok phrases)
    (hwritten : before.writeAll phrases = (texts, after)) (grouped : ∀ test ∈ tests, test.Grouped)
    (holds : ∀ test ∈ tests, test.Holds store item) :
    PassesText store item after.nameEntries after.valueEntries (conjunction? texts) := by
  intro text htext
  by_cases hnone : tests = []
  · have htexts : texts.isEmpty = true := by
      rw [writeAll_isEmpty hphrases hwritten, hnone]
      rfl
    simp [conjunction?, htexts] at htext
  have htexts : texts.isEmpty = false := by
    rw [writeAll_isEmpty hphrases hwritten]
    simpa using hnone
  have hread := Condition.readAs_conjunction hphrases hnone hwritten
  rw [conjunction?, htexts] at htext
  obtain rfl := Option.some.inj htext
  cases hfound : Test.read? after.nameEntries after.valueEntries (String.intercalate " AND " texts) with
  | none =>
    rw [hfound] at hread
    exact absurd (by simpa [Condition.Grouped, hnone] using grouped) hread
  | some found =>
    rw [hfound] at hread
    exact ⟨found, rfl, (hread.2 store item).mpr (by simpa [Condition.Holds] using holds)⟩

end Text

/-! ## Requests for one item -/

/-- The parts of a request that are made from a WHERE clause: the key from its equalities on key
columns, and the condition from the rest. Names and values may also stand for other parts. -/
structure Addresses (options : Options) (filter : List Condition) (key : Entries Attribute)
    (names : Entries String) (values : Entries Attribute) (condition : Option String) : Prop where
  extracted : ∃ verb, extractKey options verb filter = .ok key
  written : ∃ phrases, ∃ before after : Placeholders, ∃ texts,
    Condition.phrases (residual options filter) = .ok phrases ∧
    before.writeAll phrases = (texts, after) ∧ condition = conjunction? texts ∧
    names = after.nameEntries ∧ values = after.valueEntries

namespace Addresses

variable {key : Entries Attribute} {names : Entries String} {values : Entries Attribute}
  {condition : Option String}

theorem holds_residual (addresses : Addresses options filter key names values condition)
    (passes : PassesText store item names values condition) :
    ∀ test ∈ residual options filter, test.Holds store item := by
  obtain ⟨phrases, before, after, texts, hphrases, hwritten, rfl, rfl, rfl⟩ := addresses.written
  exact holds_of_passesText hphrases hwritten passes

theorem holds_iff (addresses : Addresses options filter key names values condition)
    (has : HasKey store item key) (passes : PassesText store item names values condition) :
    (∀ test ∈ filter, test.Holds store item) ↔ KeysAgree store options filter := by
  obtain ⟨verb, hkey⟩ := addresses.extracted
  exact holds_iff_keysAgree hkey has (addresses.holds_residual passes)

/-- No item of the WHERE clause is left out. -/
theorem touches (addresses : Addresses options filter key names values condition)
    (grouped : ∀ test ∈ filter, test.Grouped) (holds : ∀ test ∈ filter, test.Holds store item) :
    HasKey store item key ∧ PassesText store item names values condition := by
  obtain ⟨verb, hkey⟩ := addresses.extracted
  obtain ⟨phrases, before, after, texts, hphrases, hwritten, rfl, rfl, rfl⟩ := addresses.written
  have hmem {test : Condition} (h : test ∈ residual options filter) : test ∈ filter :=
    (List.mem_filter.mp h).1
  refine ⟨?_, passesText_of_holds hphrases hwritten (fun test h ↦ grouped test (hmem h))
    fun test h ↦ holds test (hmem h)⟩
  rw [(extractKey_eq hkey).1]
  refine Entries.forall_mem_ofList fun pair hpair ↦ ?_
  obtain ⟨test, htest, hpair⟩ := List.mem_filterMap.mp hpair
  exact (holds_of_keyPair? hpair).mp (holds test htest)

end Addresses

end Dynamo

theorem Delete.addresses_of_request {options : Options} {mutation : Delete} {request : Request}
    (h : mutation.request options = .ok request) :
    ∃ input, request = .deleteItem input ∧
      Addresses options mutation.filter input.key input.names input.values input.condition := by
  simp only [Delete.request, bind_eq_ok_iff] at h
  obtain ⟨tableName, _, h⟩ := h
  split at h
  · contradiction
  · simp only [bind_eq_ok_iff, pure_eq_ok_iff] at h
    obtain ⟨key, hkey, phrases, hphrases, rfl⟩ := h
    exact ⟨_, rfl, ⟨.delete, hkey⟩, phrases, .empty, _, _, hphrases, rfl, rfl, rfl, rfl⟩

theorem Update.addresses_of_request {options : Options} {mutation : Update} {request : Request}
    (h : mutation.request options = .ok request) :
    ∃ input, request = .updateItem input ∧
      Addresses options mutation.filter input.key input.names input.values input.condition := by
  simp only [Update.request, bind_eq_ok_iff] at h
  obtain ⟨tableName, _, h⟩ := h
  split at h
  · contradiction
  · split at h
    · contradiction
    · simp only [bind_eq_ok_iff, pure_eq_ok_iff] at h
      obtain ⟨assignments, _, key, hkey, phrases, hphrases, rfl⟩ := h
      exact ⟨_, rfl, ⟨.update, hkey⟩, phrases, _, _, _, hphrases, rfl, rfl, rfl, rfl⟩

namespace Statement

/-- The WHERE clause of an update or a delete. -/
def filter? : Statement → Option (List Condition)
  | .update mutation => some mutation.filter
  | .delete mutation => some mutation.filter
  | _ => none

variable {options : Options} {statement : Statement} {filter : List Condition} {request : Request}

/-- The request of a statement with a WHERE clause, and the items that it touches. -/
theorem exists_addresses (hfilter : statement.filter? = some filter)
    (compiled : statement.request options = .ok request) :
    ∃ key names values condition, Addresses options filter key names values condition ∧
      ∀ store item, request.Touches store item ↔
        HasKey store item key ∧ PassesText store item names values condition := by
  cases statement with
  | update mutation =>
    obtain rfl := Option.some.inj hfilter
    obtain ⟨input, rfl, haddresses⟩ := Update.addresses_of_request compiled
    exact ⟨_, _, _, _, haddresses, fun _ _ ↦ Iff.rfl⟩
  | delete mutation =>
    obtain rfl := Option.some.inj hfilter
    obtain ⟨input, rfl, haddresses⟩ := Delete.addresses_of_request compiled
    exact ⟨_, _, _, _, haddresses, fun _ _ ↦ Iff.rfl⟩
  | _ => contradiction

/-- An update or a delete touches every item that its WHERE clause selects. -/
theorem touches_of_holds (hfilter : statement.filter? = some filter)
    (compiled : statement.request options = .ok request) (grouped : ∀ test ∈ filter, test.Grouped)
    {store : Store} {item : Item} (holds : ∀ test ∈ filter, test.Holds store item) :
    request.Touches store item := by
  obtain ⟨key, names, values, condition, haddresses, htouches⟩ := exists_addresses hfilter compiled
  exact (htouches store item).mpr (haddresses.touches grouped holds)

/-- An item that an update or a delete touches satisfies the whole WHERE clause if and only if the
equalities on each key column agree. -/
theorem holds_iff_of_touches {store : Store} {item : Item} (hfilter : statement.filter? = some filter)
    (compiled : statement.request options = .ok request) (touched : request.Touches store item) :
    (∀ test ∈ filter, test.Holds store item) ↔ KeysAgree store options filter := by
  obtain ⟨key, names, values, condition, haddresses, htouches⟩ := exists_addresses hfilter compiled
  obtain ⟨hkey, hpasses⟩ := (htouches store item).mp touched
  exact haddresses.holds_iff hkey hpasses

end Statement

/-! ## Two equalities on one key column -/

namespace Dynamo

/-- A store in which only texts are ordered and only texts have parts. -/
def textStore : Store where
  compare operator left right :=
    match operator, left, right with
    | .eq, some a, some b => a = b
    | .eq, _, _ => False
    | .ne, some a, some b => a ≠ b
    | .ne, _, _ => True
    | .lt, some (.string a), some (.string b) => a < b
    | .le, some (.string a), some (.string b) => a ≤ b
    | .gt, some (.string a), some (.string b) => b < a
    | .ge, some (.string a), some (.string b) => b ≤ a
    | _, _, _ => False
  contains left right :=
    match left, right with
    | some (.string text), some (.string part) => part.toList <:+: text.toList
    | _, _ => False
  beginsWith left right :=
    match left, right with
    | some (.string text), some (.string start) => start.toList <+: text.toList
    | _, _ => False
  eq_symm {a b} h := by
    cases a <;> cases b <;> simp_all
  eq_trans {a b c} h h' := by
    cases a <;> cases b <;> cases c <;> simp_all

/-- The item with the key `pk` and nothing else. -/
def keyItem (text : String) : Item := fun name ↦ if name = "pk" then some (.string text) else none

/-- The key schema of a table with the partition key `pk`. -/
def keyOptions : Options := { Options.default with partitionKey := some "pk" }

/-- A deletion by two equalities on the partition key, of an item without a note. -/
def twoKeys (first second : String) : Delete :=
  (((Delete.ofTable (.named "t" none)).addFilter
    (some (.compare (.column "pk") (.value (.string first)) .eq))).addFilter
    (some (.compare (.column "pk") (.value (.string second)) .eq))).addFilter
    (some (.null (.column "note") true))

def twoKeysRequest (second : String) : Request :=
  .deleteItem
    { tableName := "t", key := [("pk", .string second)]
      condition := some "attribute_not_exists(#n0)", names := [("#n0", "note")], values := [] }

theorem request_twoKeys (first second : String) :
    (Statement.delete (twoKeys first second)).request keyOptions = .ok (twoKeysRequest second) := rfl

theorem touches_twoKeys (second : String) :
    (twoKeysRequest second).Touches textStore (keyItem second) := by
  constructor
  · simp [HasKey, keyItem, textStore]
  · rintro text ⟨rfl⟩
    exact ⟨.absent (.name "note"), rfl, rfl⟩

theorem keysAgree_twoKeys (first second : String) :
    KeysAgree textStore keyOptions (twoKeys first second).filter ↔ first = second := by
  have hpairs : keyPairs keyOptions (twoKeys first second).filter =
      [("pk", .string first), ("pk", .string second)] := rfl
  simp only [KeysAgree, hpairs, List.forall_mem_cons, textStore]
  simp [eq_comm]

end Dynamo

/-- The deletion of what is `a` and `b` deletes the item `b`, which is not `a`. -/
theorem Statement.holds_iff_of_touches_twoKeys :
    (Statement.delete (twoKeys "a" "b")).request keyOptions = .ok (twoKeysRequest "b") ∧
    (twoKeysRequest "b").Touches textStore (keyItem "b") ∧
    (¬ ∀ test ∈ (twoKeys "a" "b").filter, test.Holds textStore (keyItem "b")) ∧
    ∀ test ∈ (twoKeys "b" "b").filter, test.Holds textStore (keyItem "b") := by
  have hdiffer := holds_iff_of_touches rfl (request_twoKeys "a" "b") (touches_twoKeys "b")
  have hagree := holds_iff_of_touches rfl (request_twoKeys "b" "b") (touches_twoKeys "b")
  rw [keysAgree_twoKeys] at hdiffer hagree
  refine ⟨request_twoKeys "a" "b", touches_twoKeys "b", ?_, hagree.mpr rfl⟩
  intro hall
  exact absurd (hdiffer.mp hall) (by decide)

end PortableQuery
