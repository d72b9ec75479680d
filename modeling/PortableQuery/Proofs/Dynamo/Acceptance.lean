import PortableQuery.Dynamo.Compile
import PortableQuery.Dynamo.Partiql
import PortableQuery.Proofs.Dynamo.Resolution
import PortableQuery.Proofs.Query.Lineage
import PortableQuery.Proofs.Query.Occurrence
import PortableQuery.Proofs.Wire.Octets

/-!
# The selects that a key-value store takes

Both backends take selects without joins, groups, unions and offset whose first table leads to a name.
Beyond that a request asks for values that are not computed, and says nothing about keys and fields.
PartiQL can compute, but it knows neither sub-queries nor literals with bytes in them. A refusal always
names a feature of the language, or the name of the table that is missing.
-/

namespace PortableQuery

open Dynamo

/-- The backend does not know a feature. -/
def Backend.Lacks (backend : Backend) (error : Error) : Prop :=
  ∃ feature, error = .unsupported backend feature

/-! ## Values of requests -/

/-- A literal, or a column, which stands for its text. -/
def Expr.IsStored : Expr → Prop
  | .value _ => True
  | .raw _ => True
  | .column _ => True
  | _ => False

theorem Expr.decided_toAttribute (expr : Expr) :
    Decided Backend.dynamodb.Lacks expr.IsStored expr.toAttribute := by
  cases expr with
  | column text => exact .accepts _ trivial
  | value literal => exact .accepts _ trivial
  | raw literal => exact .accepts _ trivial
  | call name args => exact .refuses ⟨_, rfl⟩ id
  | operation operator operands => exact .refuses ⟨_, rfl⟩ id
  | condition test => exact .refuses ⟨_, rfl⟩ id
  | subquery query => exact .refuses ⟨_, rfl⟩ id

theorem Dynamo.decided_attributes (exprs : List Expr) :
    Decided Backend.dynamodb.Lacks (∀ expr ∈ exprs, expr.IsStored) (attributes exprs) := by
  rw [attributes_eq_mapM]
  exact Decided.mapM fun expr _ ↦ expr.decided_toAttribute

namespace Condition

/-- A condition itself, the members of a group and what is negated, at any depth. -/
inductive Comprises : Condition → Condition → Prop
  | self {test : Condition} : Comprises test test
  | member {members : List Condition} {operator : Connective} {member inner : Condition}
      (found : member ∈ members) (inside : Comprises member inner) :
      Comprises (.logical members operator) inner
  | negated {negated inner : Condition} (inside : Comprises negated inner) :
      Comprises (.not negated) inner

/-- No value in a condition is computed. -/
def IsStored (test : Condition) : Prop :=
  ∀ inner, test.Comprises inner → ∀ slot ∈ inner.valueSlots, slot.IsStored

def isSimple : Condition → Bool
  | .logical _ _ => false
  | .not _ => false
  | _ => true

theorem isStored_iff_of_isSimple {test : Condition} (simple : test.isSimple = true) :
    test.IsStored ↔ ∀ slot ∈ test.valueSlots, slot.IsStored := by
  constructor
  · intro stored
    exact stored test .self
  · intro stored inner comprises
    cases comprises with
    | self => exact stored
    | member found inside => contradiction
    | negated inside => contradiction

theorem isStored_logical {members : List Condition} {operator : Connective} :
    (logical members operator).IsStored ↔ ∀ member ∈ members, member.IsStored := by
  constructor
  · intro stored member found inner inside
    exact stored inner (.member found inside)
  · intro stored inner comprises
    cases comprises with
    | self => simp [valueSlots]
    | member found inside => exact stored _ found inner inside

theorem isStored_not {inner : Condition} : (not inner).IsStored ↔ inner.IsStored := by
  constructor
  · intro stored test inside
    exact stored test (.negated inside)
  · intro stored test comprises
    cases comprises with
    | self => simp [valueSlots]
    | negated inside => exact stored test inside

theorem decided_of_isSimple {test : Condition} (simple : test.isSimple = true)
    (decided : Decided Backend.dynamodb.Lacks (∀ slot ∈ test.valueSlots, slot.IsStored) test.phrase) :
    Decided Backend.dynamodb.Lacks test.IsStored test.phrase :=
  decided.of_iff (isStored_iff_of_isSimple simple)

-- Any key has a name and any pattern is a string, so that only the slots of values can be refused.
theorem decided_phrase (test : Condition) :
    Decided Backend.dynamodb.Lacks test.IsStored test.phrase := by
  induction test using Condition.induction with
  | compare key value operator =>
    apply decided_of_isSimple rfl
    rw [phrase]
    exact (value.decided_toAttribute.map _).of_iff (by simp [valueSlots])
  | between key low high =>
    apply decided_of_isSimple rfl
    rw [phrase]
    exact (low.decided_toAttribute.bind fun _ ↦ high.decided_toAttribute.map _).of_iff
      (by simp [valueSlots])
  | oneOf key values =>
    apply decided_of_isSimple rfl
    rw [phrase]
    exact (decided_attributes values).map _
  | noneOf key values =>
    apply decided_of_isSimple rfl
    rw [phrase]
    exact (decided_attributes values).map _
  | null key isNull =>
    apply decided_of_isSimple rfl
    rw [phrase]
    exact .accepts _ (by simp [valueSlots])
  | like key pattern isLike =>
    apply decided_of_isSimple rfl
    rw [phrase]
    exact .accepts _ (by simp [valueSlots])
  | columns left right operator =>
    apply decided_of_isSimple rfl
    rw [phrase]
    exact .accepts _ (by simp [valueSlots])
  | logical members operator inside =>
    rw [phrase, phrases_eq_mapM]
    exact ((Decided.mapM inside).map _).of_iff isStored_logical
  | not inner inside =>
    rw [phrase]
    exact (inside.map _).of_iff isStored_not

theorem decided_phrases (tests : List Condition) :
    Decided Backend.dynamodb.Lacks (∀ test ∈ tests, test.IsStored) (phrases tests) := by
  rw [phrases_eq_mapM]
  exact Decided.mapM fun test _ ↦ decided_phrase test

end Condition

/-! ## What PartiQL writes -/

/-- There are no bytes in a literal, at any depth. -/
def Literal.IsByteless (literal : Literal) : Prop :=
  ∀ part ∈ literal.parts, ∀ octets, part ≠ .bytes octets

namespace Dynamo

theorem literalTexts_eq_mapM (items : List Literal) : literalTexts items = items.mapM literalText :=
  eq_mapM (by rw [literalTexts]) (fun _ _ ↦ by rw [literalTexts]) items

theorem entryTexts_eq_mapM (entries : List (String × Literal)) :
    entryTexts entries = entries.mapM fun entry ↦ do
      return quoted entry.1 ++ ": " ++ (← literalText entry.2) := by
  refine eq_mapM (by rw [entryTexts]) (fun entry more ↦ ?_) entries
  rw [entryTexts]
  simp

theorem decided_literalText (literal : Literal) :
    Decided Backend.partiql.Lacks literal.IsByteless (literalText literal) := by
  induction literal using Literal.induction with
  | null => exact .accepts _ (by simp [Literal.IsByteless, Literal.parts])
  | bool value => cases value <;> exact .accepts _ (by simp [Literal.IsByteless, Literal.parts])
  | int value => exact .accepts _ (by simp [Literal.IsByteless, Literal.parts])
  | float value => exact .accepts _ (by simp [Literal.IsByteless, Literal.parts])
  | string value => exact .accepts _ (by simp [Literal.IsByteless, Literal.parts])
  | date value => exact .accepts _ (by simp [Literal.IsByteless, Literal.parts])
  | bytes octets => exact .refuses ⟨_, rfl⟩ (by simp [Literal.IsByteless, Literal.parts])
  | list items inside =>
    rw [literalText, literalTexts_eq_mapM]
    refine ((Decided.mapM inside).map _).of_iff (Literal.forall_mem_parts_list.trans ?_)
    exact and_iff_right (by simp)
  | map entries inside =>
    rw [literalText, entryTexts_eq_mapM]
    refine ((Decided.mapM fun entry hentry ↦ (inside entry hentry).map _).map _).of_iff
      (Literal.forall_mem_parts_map.trans ?_)
    exact and_iff_right (by simp)

end Dynamo

/-- What PartiQL can write: everything but sub-queries and literals with bytes. -/
def Node.InPartiql : Node → Prop
  | .expr (.subquery _) => False
  | .expr (.value literal) => literal.IsByteless
  | _ => True

theorem Expr.partiqlList_eq_mapM (position : Position) (exprs : List Expr) :
    partiqlList position exprs = exprs.mapM (partiql position) :=
  eq_mapM (by rw [partiqlList]) (fun _ _ ↦ by rw [partiqlList]) exprs

theorem Condition.partiqlList_eq_mapM (tests : List Condition) :
    partiqlList tests = tests.mapM partiql :=
  eq_mapM (by rw [partiqlList]) (fun _ _ ↦ by rw [partiqlList]) tests

/-- Whether an expression can be written does not depend on its position. -/
def Expr.IsDecided (expr : Expr) : Prop :=
  ∀ position, Decided Backend.partiql.Lacks (expr.Everywhere Node.InPartiql) (expr.partiql position)

def Condition.IsDecided (test : Condition) : Prop :=
  Decided Backend.partiql.Lacks (test.Everywhere Node.InPartiql) test.partiql

theorem Expr.decided_partiqlList {exprs : List Expr} (inside : ∀ expr ∈ exprs, expr.IsDecided)
    (position : Position) :
    Decided Backend.partiql.Lacks (∀ expr ∈ exprs, expr.Everywhere Node.InPartiql)
      (partiqlList position exprs) := by
  rw [partiqlList_eq_mapM]
  exact Decided.mapM fun expr hexpr ↦ inside expr hexpr position

theorem partiql_steps :
    QueryInduction Expr.IsDecided Condition.IsDecided (fun _ ↦ True) (fun _ ↦ True) where
  column text position := .accepts _ (by simp [Node.InPartiql])
  value literal position := by
    rw [Expr.partiql, Expr.everywhere_value]
    exact decided_literalText literal
  raw literal position := .accepts _ (by simp [Node.InPartiql])
  call name args inside position := by
    rw [Expr.partiql]
    exact ((Expr.decided_partiqlList inside .value).map _).of_iff (by simp [Node.InPartiql])
  operation operator operands inside position := by
    rw [Expr.partiql]
    exact ((Expr.decided_partiqlList inside .identifier).map _).of_iff (by simp [Node.InPartiql])
  condition test inside position := by
    rw [Expr.partiql]
    exact inside.of_iff (by simp [Node.InPartiql])
  subquery query _ position := .refuses ⟨_, rfl⟩ (by simp [Node.InPartiql])
  compare key value operator hkey hvalue := by
    rw [Condition.IsDecided, Condition.partiql]
    exact ((hkey .identifier).bind fun _ ↦ (hvalue .value).map _).of_iff (by simp [Node.InPartiql])
  between key low high hkey hlow hhigh := by
    rw [Condition.IsDecided, Condition.partiql]
    exact ((hkey .identifier).bind fun _ ↦ (hlow .value).bind fun _ ↦ (hhigh .value).map _).of_iff
      (by simp [Node.InPartiql])
  oneOf key values hkey hvalues := by
    rw [Condition.IsDecided, Condition.partiql]
    exact ((hkey .identifier).bind fun _ ↦ (Expr.decided_partiqlList hvalues .value).map _).of_iff
      (by simp [Node.InPartiql])
  noneOf key values hkey hvalues := by
    rw [Condition.IsDecided, Condition.partiql]
    exact ((hkey .identifier).bind fun _ ↦ (Expr.decided_partiqlList hvalues .value).map _).of_iff
      (by simp [Node.InPartiql])
  null key isNull hkey := by
    rw [Condition.IsDecided, Condition.partiql]
    exact ((hkey .identifier).map _).of_iff (by simp [Node.InPartiql])
  like key pattern isLike hkey := by
    rw [Condition.IsDecided, Condition.partiql]
    exact ((hkey .identifier).map _).of_iff (by simp [Node.InPartiql])
  columns left right operator hleft hright := by
    rw [Condition.IsDecided, Condition.partiql]
    exact ((hleft .identifier).bind fun _ ↦ (hright .identifier).map _).of_iff (by simp [Node.InPartiql])
  logical members operator inside := by
    rw [Condition.IsDecided, Condition.partiql, Condition.partiqlList_eq_mapM]
    exact ((Decided.mapM inside).map _).of_iff (by simp [Node.InPartiql])
  not inner inside := by
    rw [Condition.IsDecided, Condition.partiql]
    exact (inside.map _).of_iff (by simp [Node.InPartiql])
  named _ _ := trivial
  nested _ _ _ := trivial
  select _ _ _ _ _ _ _ _ _ := trivial

theorem decided_whereText (tests : List Condition) :
    Decided Backend.partiql.Lacks (∀ test ∈ tests, test.Everywhere Node.InPartiql) (whereText tests) := by
  rw [whereText, Condition.partiqlList_eq_mapM]
  exact (Decided.mapM fun test _ ↦ partiql_steps.forCondition test).map _

theorem decided_fieldTexts (fields : List Field) :
    Decided Backend.partiql.Lacks (∀ field ∈ fields, field.expr.Everywhere Node.InPartiql)
      (fieldTexts fields) := by
  induction fields with
  | nil => exact .accepts [] (by simp)
  | cons field more ih =>
    have hfield := partiql_steps.forExpr field.expr .identifier
    rw [fieldTexts]
    exact (hfield.bind fun _ ↦ ih.map _).of_iff List.forall_mem_cons

theorem decided_sortTexts (keys : List SortKey) :
    Decided Backend.partiql.Lacks (∀ key ∈ keys, key.expr.Everywhere Node.InPartiql)
      (sortTexts keys) := by
  induction keys with
  | nil => exact .accepts [] (by simp)
  | cons key more ih =>
    have hkey := partiql_steps.forExpr key.expr .identifier
    rw [sortTexts]
    exact (hkey.bind fun _ ↦ ih.map _).of_iff List.forall_mem_cons

/-! ## Selects -/

namespace Select

/-- A select without the clauses that no key-value store evaluates. -/
structure IsElementary (query : Select) : Prop where
  joins : query.joins = []
  groupBy : query.groupBy = []
  having : query.having = []
  unions : query.unions = []
  offset : query.offset = none

/-- The first table of a select leads to a name. -/
def HasSource (query : Select) : Prop :=
  ∃ first more name, query.tables = first :: more ∧ first.LeadsTo name

/-- The causes for which a select is refused. -/
def Refuses (backend : Backend) (query : Select) (error : Error) : Prop :=
  backend.Lacks error ∨ error = .missing (.tableName backend) ∧ ¬ query.HasSource

theorem unsupported?_eq_none_iff {query : Select} : query.unsupported? = none ↔ query.IsElementary := by
  unfold unsupported?
  constructor
  · intro h
    split_ifs at h with hjoins hgroupBy hhaving hunions hoffset
    exact ⟨by simpa using hjoins, by simpa using hgroupBy, by simpa using hhaving,
      by simpa using hunions, by simpa using hoffset⟩
  · intro elementary
    simp [elementary.joins, elementary.groupBy, elementary.having, elementary.unions, elementary.offset]

theorem decided_checkSupported (backend : Backend) (query : Select) :
    Decided backend.Lacks query.IsElementary (query.checkSupported backend) := by
  unfold checkSupported
  split
  · rename_i feature h
    refine .refuses ⟨feature, rfl⟩ ?_
    rw [← unsupported?_eq_none_iff, h]
    simp
  · rename_i h
    exact .accepts () (unsupported?_eq_none_iff.mp h)

/-- The name of the table and what is done with it. -/
theorem decided_source {α : Type} {backend : Backend} {query : Select} {accepted : Prop}
    {next : Table → String → Except Error α}
    (after : ∀ table name, Decided (query.Refuses backend) accepted (next table name)) :
    Decided (query.Refuses backend) (query.HasSource ∧ accepted) (do
      let table ← query.requireTable backend
      let name ← table.requireName backend
      next table name) := by
  unfold requireTable Table.requireName
  cases htables : query.tables with
  | nil =>
    have hsource : ¬ query.HasSource := by simp [HasSource, htables]
    exact .refuses (.inr ⟨rfl, hsource⟩) fun both ↦ hsource both.1
  | cons first more =>
    simp only [Bind.bind, Except.bind]
    cases hname : first.name? with
    | none =>
      have hsource : ¬ query.HasSource := by
        simp [HasSource, htables, ← Table.name?_eq_some_iff, hname]
      exact .refuses (.inr ⟨rfl, hsource⟩) fun both ↦ hsource both.1
    | some name =>
      have hsource : query.HasSource :=
        ⟨first, more, name, htables, Table.name?_eq_some_iff.mp hname⟩
      exact (after first name).of_iff (and_iff_right hsource)

theorem decided_request (options : Options) (query : Select) :
    Decided (query.Refuses .dynamodb)
      (query.IsElementary ∧ query.HasSource ∧ ∀ test ∈ query.filter, test.IsStored)
      (query.request options) := by
  have hlacks : ∀ error, Backend.dynamodb.Lacks error → query.Refuses .dynamodb error := fun _ ↦ .inl
  have hchecked := (query.decided_checkSupported .dynamodb).mono hlacks
  have hphrases := (Condition.decided_phrases query.filter).mono hlacks
  unfold Select.request
  refine hchecked.bind fun _ ↦ decided_source fun table name ↦ hphrases.bind_total fun phrases ↦ ?_
  dsimp only
  split
  · exact ⟨_, rfl⟩
  · exact ⟨_, rfl⟩

theorem decided_partiql (query : Select) :
    Decided (query.Refuses .partiql)
      (query.IsElementary ∧ (∀ field ∈ query.fields, field.expr.Everywhere Node.InPartiql) ∧
        query.HasSource ∧ (∀ test ∈ query.filter, test.Everywhere Node.InPartiql) ∧
        ∀ key ∈ query.orderBy, key.expr.Everywhere Node.InPartiql)
      query.partiql := by
  have hlacks : ∀ error, Backend.partiql.Lacks error → query.Refuses .partiql error := fun _ ↦ .inl
  have hchecked := (query.decided_checkSupported .partiql).mono hlacks
  have hfields := (decided_fieldTexts query.fields).mono hlacks
  have hfilter := (decided_whereText query.filter).mono hlacks
  have hsorted := (decided_sortTexts query.orderBy).mono hlacks
  unfold Select.partiql
  exact hchecked.bind fun _ ↦ hfields.bind fun _ ↦ decided_source fun _ _ ↦
    hfilter.bind fun _ ↦ hsorted.map _

/-- Both backends take an elementary select whose first table leads to a name: the one if no value is
computed, in groups and negations at any depth, and the other if no field, condition or sort key holds
a sub-query or a literal with bytes. All that is in them is written, but for the inside of a sub-query,
which is refused as it is. A refusal names a feature, or else no name of a table is found. -/
theorem compiles_iff (options : Options) (query : Select) :
    ((∃ request, query.request options = .ok request) ↔
      query.IsElementary ∧ query.HasSource ∧
        ∀ test ∈ query.filter, ∀ inner, test.Comprises inner →
          ∀ slot ∈ inner.valueSlots, slot.IsStored) ∧
    ((∃ text, query.partiql = .ok text) ↔
      query.IsElementary ∧ query.HasSource ∧
        (∀ field ∈ query.fields, field.expr.Everywhere Node.InPartiql) ∧
        (∀ test ∈ query.filter, test.Everywhere Node.InPartiql) ∧
        ∀ key ∈ query.orderBy, key.expr.Everywhere Node.InPartiql) ∧
    ∀ error, query.request options = .error error ∨ query.partiql = .error error →
      (∃ backend feature, error = .unsupported backend feature) ∨
        (∃ clause, error = .missing clause) ∧ ¬ query.HasSource := by
  have hrequest := decided_request options query
  have hpartiql := decided_partiql query
  refine ⟨hrequest.exists_ok_iff, ?_, ?_⟩
  · rw [hpartiql.exists_ok_iff, and_left_comm (b := query.HasSource)]
  · intro error h
    have hcause : ∃ backend, query.Refuses backend error := by
      rcases h with h | h
      · exact ⟨.dynamodb, hrequest.cause_of_error h⟩
      · exact ⟨.partiql, hpartiql.cause_of_error h⟩
    obtain ⟨backend, ⟨feature, hfeature⟩ | ⟨hmissing, hsource⟩⟩ := hcause
    · exact .inl ⟨backend, feature, hfeature⟩
    · exact .inr ⟨⟨_, hmissing⟩, hsource⟩

end Select

end PortableQuery
