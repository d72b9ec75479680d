import PortableQuery.Proofs.Dynamo.Acceptance
import PortableQuery.Proofs.Dynamo.Addressing

/-!
# The updates and deletes that a key-value store takes

An update or a delete is taken if its WHERE clause has an equality on every key column of the table,
asks there for values that are not computed, and can be compiled for the rest. The key of the request
then has the key columns of the table and no others, and its condition joins what is left of the WHERE
clause. An update must set some columns besides, to values that are not computed.
-/

namespace PortableQuery

open Dynamo

/-- The partition key or the sort key of a table. -/
def Dynamo.Options.IsKeyColumn (options : Options) (column : String) : Prop :=
  options.partitionKey = some column ∨ options.sortKey = some column

/-- A condition that asks for a value of a column. -/
inductive Condition.Equates (column : String) (value : Expr) : Condition → Prop
  | intro {key : Expr} (onColumn : key.columnName = column) :
      Equates column value (.compare key value .eq)

def Condition.IsKeyEquality (options : Options) (test : Condition) : Prop :=
  ∃ column value, test.Equates column value ∧ options.IsKeyColumn column

namespace Dynamo

/-- A WHERE clause from which the key of an item can be made. -/
structure Addressable (options : Options) (filter : List Condition) : Prop where
  nonempty : filter ≠ []
  configured : ∃ column, options.partitionKey = some column
  keyed : ∀ column, options.IsKeyColumn column → ∃ test ∈ filter, ∃ value, test.Equates column value
  stored : ∀ test ∈ filter, ∀ column value,
    test.Equates column value → options.IsKeyColumn column → value.IsStored
  compiles : ∀ test ∈ filter, ¬ test.IsKeyEquality options → ∃ phrase, test.phrase = .ok phrase

variable {options : Options} {filter : List Condition}

/-! ## Equalities on key columns -/

theorem isKey_iff {column : String} : options.isKey column = true ↔ options.IsKeyColumn column := by
  simp [Options.isKey, Options.IsKeyColumn]

theorem keyEquality?_eq_some_iff {test : Condition} {column : String} {value : Expr} :
    keyEquality? options test = some (column, value) ↔
      test.Equates column value ∧ options.IsKeyColumn column := by
  constructor
  · intro h
    obtain ⟨key, rfl, hcolumn⟩ := keyEquality?_eq_some h
    refine ⟨.intro hcolumn, ?_⟩
    by_contra hkey
    rw [keyEquality?, hcolumn, if_neg (mt isKey_iff.mp hkey)] at h
    contradiction
  · rintro ⟨⟨rfl⟩, hkey⟩
    rw [keyEquality?, if_pos (isKey_iff.mpr hkey)]

theorem isSome_keyEquality?_iff {test : Condition} :
    (keyEquality? options test).isSome = true ↔ test.IsKeyEquality options := by
  simp [Option.isSome_iff_exists, Condition.IsKeyEquality, keyEquality?_eq_some_iff]

instance (options : Options) : DecidablePred (Condition.IsKeyEquality options) :=
  fun _ ↦ decidable_of_iff _ isSome_keyEquality?_iff

theorem residual_eq (options : Options) (filter : List Condition) :
    residual options filter = filter.filter fun test ↦ ¬ test.IsKeyEquality options := by
  refine List.filter_congr fun test _ ↦ ?_
  rw [Bool.eq_iff_iff, decide_eq_true_iff, ← isSome_keyEquality?_iff]
  simp

/-! ## The key -/

/-- The causes for which an update or a delete is refused. -/
def RefusesMutation (error : Error) : Prop :=
  (∃ clause, error = .missing clause) ∨ Backend.dynamodb.Lacks error

theorem refusesMutation_of_lacks (error : Error) (lacks : Backend.dynamodb.Lacks error) :
    RefusesMutation error := .inr lacks

/-- No equality on a key column asks for a computed value. -/
theorem decided_keyAttributes (options : Options) (key : Entries Attribute) (filter : List Condition) :
    Decided RefusesMutation
      (∀ test ∈ filter, ∀ column value,
        test.Equates column value → options.IsKeyColumn column → value.IsStored)
      (keyAttributes options key filter) := by
  induction filter generalizing key with
  | nil => exact .accepts key (by simp)
  | cons test more ih =>
    cases hequality : keyEquality? options test with
    | none =>
      simp only [keyAttributes, hequality]
      apply (ih key).of_iff
      rw [List.forall_mem_cons, and_iff_right]
      intro column value equates isKey
      rw [keyEquality?_eq_some_iff.mpr ⟨equates, isKey⟩] at hequality
      contradiction
    | some pair =>
      obtain ⟨column, value⟩ := pair
      simp only [keyAttributes, hequality]
      have hvalue := value.decided_toAttribute.mono refusesMutation_of_lacks
      apply (hvalue.bind fun held ↦ ih (Entries.insert column held key)).of_iff
      rw [List.forall_mem_cons]
      apply and_congr_left'
      obtain ⟨equates, isKey⟩ := keyEquality?_eq_some_iff.mp hequality
      constructor
      · intro stored
        exact stored column value equates isKey
      · intro stored other wanted equates isKey
        rw [keyEquality?_eq_some_iff.mpr ⟨equates, isKey⟩] at hequality
        obtain ⟨-, rfl⟩ := Prod.mk.inj (Option.some.inj hequality)
        exact stored

theorem decided_requireKeys (verb : Verb) (key : Entries Attribute) (columns : List String) :
    Decided RefusesMutation (∀ column ∈ columns, column ∈ key.keys) (requireKeys verb key columns) := by
  induction columns with
  | nil => exact .accepts () (by simp)
  | cons column more ih =>
    rw [requireKeys]
    by_cases hcolumn : column ∈ key.keys
    · rw [if_pos (Entries.isSome_get?_iff.mpr hcolumn)]
      exact ih.of_iff (by simp [hcolumn])
    · rw [if_neg (mt Entries.isSome_get?_iff.mp hcolumn)]
      exact .refuses (.inl ⟨_, rfl⟩) fun all ↦ hcolumn (all column (by simp))

/-- The key has a column for every equality on a key column. -/
theorem mem_keys_of_keyAttributes {key : Entries Attribute} {column : String}
    (h : keyAttributes options [] filter = .ok key) :
    column ∈ key.keys ↔
      options.IsKeyColumn column ∧ ∃ test ∈ filter, ∃ value, test.Equates column value := by
  obtain ⟨rfl, hpairs⟩ := keyAttributes_eq h
  rw [← Entries.ofList, Entries.mem_keys_ofList]
  constructor
  · intro hmem
    obtain ⟨⟨name, held⟩, hpair, rfl⟩ := List.mem_map.mp hmem
    obtain ⟨test, htest, hpair⟩ := List.mem_filterMap.mp hpair
    obtain ⟨value, hequality, -⟩ := exists_of_keyPair? hpair
    obtain ⟨equates, isKey⟩ := keyEquality?_eq_some_iff.mp hequality
    exact ⟨isKey, test, htest, value, equates⟩
  · rintro ⟨isKey, test, htest, value, equates⟩
    have hequality := keyEquality?_eq_some_iff.mpr ⟨equates, isKey⟩
    rcases hpairs test htest with hnone | hsome
    · rw [hequality] at hnone
      contradiction
    · obtain ⟨⟨name, held⟩, hpair⟩ := Option.isSome_iff_exists.mp hsome
      obtain ⟨_, hname, -⟩ := exists_of_keyPair? hpair
      obtain ⟨rfl, -⟩ := Prod.mk.inj (Option.some.inj (hequality.symm.trans hname))
      exact List.mem_map_of_mem (List.mem_filterMap.mpr ⟨test, htest, hpair⟩)

theorem keyAttributes_of_extractKey {verb : Verb} {key : Entries Attribute}
    (h : extractKey options verb filter = .ok key) : keyAttributes options [] filter = .ok key := by
  unfold extractKey at h
  split at h
  · contradiction
  · simp only [bind_eq_ok_iff, pure_eq_ok_iff] at h
    obtain ⟨found, hfound, _, _, rfl⟩ := h
    exact hfound

theorem decided_extractKey (options : Options) (verb : Verb) (filter : List Condition) :
    Decided RefusesMutation
      ((∃ column, options.partitionKey = some column) ∧
        (∀ test ∈ filter, ∀ column value,
          test.Equates column value → options.IsKeyColumn column → value.IsStored) ∧
        ∀ column, options.IsKeyColumn column → ∃ test ∈ filter, ∃ value, test.Equates column value)
      (extractKey options verb filter) := by
  unfold extractKey
  split
  · rename_i hnone
    exact .refuses (.inl ⟨_, rfl⟩) (by simp [hnone])
  · rename_i partitionKey hsome
    have hkey := decided_keyAttributes options [] filter
    refine ((hkey.bind_of_ok fun key hkey ↦ ?_).of_iff (and_iff_right ⟨partitionKey, hsome⟩))
    refine ((decided_requireKeys verb key _).map _).of_iff ?_
    have hcolumns (column : String) :
        column ∈ partitionKey :: options.sortKey.toList ↔ options.IsKeyColumn column := by
      simp [Options.IsKeyColumn, hsome, eq_comm]
    simp only [hcolumns, mem_keys_of_keyAttributes hkey]
    exact forall₂_congr fun column isKey ↦ by simp [isKey]

/-! ## Requests -/

/-- The conditions of a WHERE clause that are compiled. -/
theorem decided_residual (options : Options) (filter : List Condition) :
    Decided RefusesMutation
      (∀ test ∈ filter, ¬ test.IsKeyEquality options → ∃ phrase, test.phrase = .ok phrase)
      (Condition.phrases (residual options filter)) := by
  have hphrases := (Condition.decided_phrases (residual options filter)).mono refusesMutation_of_lacks
  refine hphrases.of_iff ?_
  rw [residual_eq]
  simp only [List.mem_filter, decide_eq_true_eq, and_imp,
    (Condition.decided_phrase _).exists_ok_iff]

theorem decided_requireName (table : Table) :
    Decided RefusesMutation (∃ name, table.LeadsTo name) (table.requireName .dynamodb) := by
  unfold Table.requireName
  cases hname : table.name? with
  | some name => exact .accepts name ⟨name, Table.name?_eq_some_iff.mp hname⟩
  | none =>
    refine .refuses (.inl ⟨_, rfl⟩) ?_
    simp [← Table.name?_eq_some_iff, hname]

theorem decided_assignmentPhrases (assignments : Entries Expr) :
    Decided RefusesMutation (∀ assignment ∈ assignments, assignment.2.IsStored)
      (assignmentPhrases assignments) := by
  induction assignments with
  | nil => exact .accepts [] (by simp)
  | cons assignment more ih =>
    have hvalue := assignment.2.decided_toAttribute.mono refusesMutation_of_lacks
    rw [assignmentPhrases]
    exact (hvalue.bind fun _ ↦ ih.map _).of_iff List.forall_mem_cons

/-- The key and the condition that are made from a WHERE clause, under the names and values of the
request. -/
structure Keyed (options : Options) (filter : List Condition) (key : Entries Attribute)
    (names : Entries String) (values : Entries Attribute) (condition : Option String) : Prop where
  columns : ∀ column, column ∈ key.keys ↔ options.IsKeyColumn column
  nodup : key.keys.Nodup
  joined : ∃ texts,
    List.Forall₂ (Compiled names values)
      (filter.filter fun test ↦ ¬ test.IsKeyEquality options) texts ∧
    condition = if texts = [] then none else some (String.intercalate " AND " texts)
  absent_iff : condition = none ↔ ∀ test ∈ filter, test.IsKeyEquality options

theorem keyed_of_addresses {key : Entries Attribute} {names : Entries String}
    {values : Entries Attribute} {condition : Option String}
    (addresses : Addresses options filter key names values condition) :
    Keyed options filter key names values condition := by
  obtain ⟨verb, hkey⟩ := addresses.extracted
  obtain ⟨phrases, before, after, texts, hphrases, hwritten, rfl, rfl, rfl⟩ := addresses.written
  have hempty : texts = [] ↔ ∀ test ∈ filter, test.IsKeyEquality options := by
    rw [← List.isEmpty_iff, writeAll_isEmpty hphrases hwritten, residual_eq]
    simp
  have htexts : List.Forall₂ (Compiled after.nameEntries after.valueEntries)
      (residual options filter) (before.writeAll phrases).1 :=
    compiled_writeAll hphrases (by rw [hwritten]; exact .refl _)
  constructor
  case columns =>
    intro column
    rw [mem_keys_of_keyAttributes (keyAttributes_of_extractKey hkey)]
    obtain ⟨-, -, hkeyed⟩ := (decided_extractKey options verb filter).exists_ok_iff.mp ⟨key, hkey⟩
    exact and_iff_left_of_imp (hkeyed column)
  case nodup =>
    rw [(extractKey_eq hkey).1]
    exact Entries.nodup_keys_ofList _
  case joined =>
    rw [hwritten, residual_eq] at htexts
    refine ⟨texts, htexts, ?_⟩
    simp [conjunction?]
  case absent_iff =>
    rw [← hempty]
    simp [conjunction?]

end Dynamo

/-- Every request for one item is made from a WHERE clause in the same steps. -/
theorem Dynamo.decided_addressed {α : Type} (options : Options) (verb : Verb) {filter : List Condition}
    (nonempty : filter ≠ []) (make : Entries Attribute → List Phrase → α) :
    Decided RefusesMutation (Addressable options filter) (do
      let key ← extractKey options verb filter
      let conditions ← Condition.phrases (residual options filter)
      return make key conditions) := by
  have hkey := decided_extractKey options verb filter
  have hrest := decided_residual options filter
  refine (hkey.bind fun key ↦ hrest.map (make key)).of_iff ?_
  constructor
  · intro addressable
    exact ⟨⟨addressable.configured, addressable.stored, addressable.keyed⟩, addressable.compiles⟩
  · rintro ⟨⟨configured, stored, keyed⟩, compiles⟩
    exact ⟨nonempty, configured, keyed, stored, compiles⟩

theorem Delete.decided_request (options : Options) (mutation : Delete) :
    Decided RefusesMutation
      ((∃ name, mutation.table.LeadsTo name) ∧ Addressable options mutation.filter)
      (mutation.request options) := by
  unfold Delete.request
  refine (decided_requireName mutation.table).bind fun name ↦ ?_
  split
  · rename_i hempty
    exact .refuses (.inl ⟨_, rfl⟩) fun addressable ↦ addressable.nonempty (List.isEmpty_iff.mp hempty)
  · rename_i hsome
    exact decided_addressed options .delete (mt List.isEmpty_iff.mpr hsome) _

theorem Update.decided_request (options : Options) (mutation : Update) :
    Decided RefusesMutation
      ((∃ name, mutation.table.LeadsTo name) ∧ mutation.assignments ≠ [] ∧
        (∀ assignment ∈ mutation.assignments, assignment.2.IsStored) ∧
        Addressable options mutation.filter)
      (mutation.request options) := by
  unfold Update.request
  refine (decided_requireName mutation.table).bind fun name ↦ ?_
  split
  · rename_i hnone
    exact .refuses (.inl ⟨_, rfl⟩) fun accepted ↦ accepted.1 (List.isEmpty_iff.mp hnone)
  rename_i hassigned
  split
  · rename_i hempty
    exact .refuses (.inl ⟨_, rfl⟩) fun accepted ↦
      accepted.2.2.nonempty (List.isEmpty_iff.mp hempty)
  · rename_i hsome
    refine Decided.of_iff ?_ (and_iff_right (mt List.isEmpty_iff.mpr hassigned))
    exact (decided_assignmentPhrases mutation.assignments).bind fun phrases ↦
      decided_addressed options .update (mt List.isEmpty_iff.mpr hsome) _

/-! ## What is sent -/

theorem Table.leadsTo_of_requireName {backend : Backend} {table : Table} {name : String}
    (h : table.requireName backend = .ok name) : table.LeadsTo name := by
  unfold Table.requireName at h
  split at h
  · rename_i found hfound
    obtain rfl := Except.ok.inj h
    exact Table.name?_eq_some_iff.mp hfound
  · contradiction

theorem Delete.leadsTo_of_request {options : Options} {mutation : Delete} {input : DeleteRequest}
    (h : mutation.request options = .ok (.deleteItem input)) : mutation.table.LeadsTo input.tableName := by
  simp only [Delete.request, bind_eq_ok_iff] at h
  obtain ⟨name, hname, h⟩ := h
  split at h
  · contradiction
  · simp only [bind_eq_ok_iff, pure_eq_ok_iff] at h
    obtain ⟨key, -, phrases, -, hinput⟩ := h
    obtain rfl := Request.deleteItem.inj hinput
    exact Table.leadsTo_of_requireName hname

theorem Update.leadsTo_of_request {options : Options} {mutation : Update} {input : UpdateRequest}
    (h : mutation.request options = .ok (.updateItem input)) : mutation.table.LeadsTo input.tableName := by
  simp only [Update.request, bind_eq_ok_iff] at h
  obtain ⟨name, hname, h⟩ := h
  split at h
  · contradiction
  split at h
  · contradiction
  · simp only [bind_eq_ok_iff, pure_eq_ok_iff] at h
    obtain ⟨assigned, -, key, -, phrases, -, hinput⟩ := h
    obtain rfl := Request.updateItem.inj hinput
    exact Table.leadsTo_of_requireName hname

/-- A delete is taken exactly if its table has a name and its WHERE clause addresses an item; an update
must also set something, and only to values that are not computed. What is sent has the key columns of
the table for its key, and the conditions that are no equality on a key column, in their order, for
its condition. A refusal names a clause that is missing or a feature that is not supported. -/
theorem Dynamo.request_keyed_iff (options : Options) :
    (∀ mutation : Delete,
      ((∃ request, mutation.request options = .ok request) ↔
        (∃ name, mutation.table.LeadsTo name) ∧ Addressable options mutation.filter) ∧
      (∀ request, mutation.request options = .ok request →
        ∃ input, request = .deleteItem input ∧ mutation.table.LeadsTo input.tableName ∧
          Keyed options mutation.filter input.key input.names input.values input.condition) ∧
      ∀ error, mutation.request options = .error error → RefusesMutation error) ∧
    ∀ mutation : Update,
      ((∃ request, mutation.request options = .ok request) ↔
        (∃ name, mutation.table.LeadsTo name) ∧ mutation.assignments ≠ [] ∧
          (∀ assignment ∈ mutation.assignments, assignment.2.IsStored) ∧
          Addressable options mutation.filter) ∧
      (∀ request, mutation.request options = .ok request →
        ∃ input, request = .updateItem input ∧ mutation.table.LeadsTo input.tableName ∧
          Keyed options mutation.filter input.key input.names input.values input.condition) ∧
      ∀ error, mutation.request options = .error error → RefusesMutation error := by
  constructor
  · intro mutation
    have hdecided := mutation.decided_request options
    refine ⟨hdecided.exists_ok_iff, ?_, fun error ↦ hdecided.cause_of_error⟩
    intro request h
    obtain ⟨input, rfl, addresses⟩ := Delete.addresses_of_request h
    exact ⟨input, rfl, Delete.leadsTo_of_request h, keyed_of_addresses addresses⟩
  · intro mutation
    have hdecided := mutation.decided_request options
    refine ⟨hdecided.exists_ok_iff, ?_, fun error ↦ hdecided.cause_of_error⟩
    intro request h
    obtain ⟨input, rfl, addresses⟩ := Update.addresses_of_request h
    exact ⟨input, rfl, Update.leadsTo_of_request h, keyed_of_addresses addresses⟩

end PortableQuery
