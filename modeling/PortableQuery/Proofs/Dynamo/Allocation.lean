import Mathlib.Data.List.Induction
import Mathlib.Data.List.Nodup
import PortableQuery.Proofs.Dynamo.AttributeText
import PortableQuery.Proofs.Dynamo.Placeholder

/-!
# Allocation of placeholders

Names and literals are used in some order, and each of them gets a placeholder. The placeholders are
numbered by first use, names and values apart; a name is shared with equal names and a literal with
the literals that become the same attribute. So what has a placeholder after any uses is what they
have in them, each once, and further uses only add to it.

A ledger keeps the same in four tables: what each placeholder stands for, and under each name and
under the JSON text of each value the placeholder it has. As attributes are told apart by this text,
the ledger gives the same placeholders, and its tables stay inverse to each other.
-/

namespace PortableQuery

/-! ## First occurrences -/

section EraseDups

variable {α : Type} [BEq α] [LawfulBEq α]

theorem eraseDups_concat (items : List α) (item : α) :
    (items ++ [item]).eraseDups =
      if item ∈ items.eraseDups then items.eraseDups else items.eraseDups ++ [item] := by
  rw [List.eraseDups_append]
  by_cases hmem : item ∈ items <;> simp [hmem, List.removeAll, List.eraseDups_cons]

theorem nodup_eraseDups (items : List α) : items.eraseDups.Nodup := by
  induction items using List.reverseRecOn with
  | nil => exact List.nodup_nil
  | append_singleton items item ih =>
    rw [eraseDups_concat]
    split
    · exact ih
    · rename_i hnew
      rw [← List.concat_eq_append]
      exact List.Nodup.concat hnew ih

theorem eraseDups_prefix (items more : List α) : items.eraseDups <+: (items ++ more).eraseDups := by
  rw [List.eraseDups_append]
  exact List.prefix_append _ _

theorem idxOf_of_getElem? {items : List α} (distinct : items.Nodup) {item : α} {place : Nat}
    (h : items[place]? = some item) : items.idxOf item = place := by
  obtain ⟨hlt, rfl⟩ := List.getElem?_eq_some_iff.mp h
  exact distinct.idxOf_getElem place hlt

theorem idxOf?_eq (items : List α) (item : α) :
    items.idxOf? item = if item ∈ items then some (items.idxOf item) else none := by
  split
  · rename_i hmem
    have hlt := List.idxOf_lt_length_of_mem hmem
    rw [List.idxOf_eq_getD_idxOf?] at hlt ⊢
    cases hfound : items.idxOf? item with
    | none => simp [hfound] at hlt
    | some index => rfl
  · rename_i habsent
    exact List.idxOf?_eq_none_iff.mpr habsent

theorem idxOf_of_prefix {items more : List α} {item : α} (grown : items <+: more) (h : item ∈ items) :
    more.idxOf item = items.idxOf item := by
  obtain ⟨added, rfl⟩ := grown
  exact List.idxOf_append_of_mem h

/-- An item that is new is added at the end, which is where it was to be found. -/
theorem idxOf_added (items : List α) (item : α) :
    (if item ∈ items then items else items ++ [item]).idxOf item = items.idxOf item := by
  split
  · rfl
  · rename_i habsent
    rw [List.idxOf_append_of_notMem habsent, List.idxOf_eq_length habsent, List.idxOf_cons_self,
      Nat.add_zero]

end EraseDups

namespace Dynamo

instance : DecidableEq Attribute := fun held other ↦ decidable_of_iff _ (Attribute.same_iff held other)

/-- A use of a name or of a literal in an expression. -/
inductive Use
  | name (name : String)
  | value (literal : Literal)

namespace Use

def name? : Use → Option String
  | .name column => some column
  | .value _ => none

/-- The attribute that a literal is stored as. -/
def attribute? : Use → Option Attribute
  | .name _ => none
  | .value literal => some (.ofLiteral literal)

/-- The names used, each once, in the order of first use. -/
def names (uses : List Use) : List String := (uses.filterMap name?).eraseDups

/-- The attributes used, each once, in the order of first use. -/
def attributes (uses : List Use) : List Attribute := (uses.filterMap attribute?).eraseDups

end Use

namespace Placeholders

def use (placeholders : Placeholders) : Use → String × Placeholders
  | .name name => placeholders.addName name
  | .value literal => placeholders.addValue (.ofLiteral literal)

/-- The placeholders of uses one after the other, and what has a placeholder behind them. -/
def useAll (placeholders : Placeholders) : List Use → List String × Placeholders
  | [] => ([], placeholders)
  | use :: more =>
    let (mark, placeholders) := placeholders.use use
    let (marks, placeholders) := placeholders.useAll more
    (mark :: marks, placeholders)

/-- The placeholder of a use by its place among the names or the values. -/
def mark (placeholders : Placeholders) : Use → String
  | .name name => nameMark (placeholders.names.idxOf name)
  | .value literal => valueMark (placeholders.values.idxOf (.ofLiteral literal))

/-- The placeholders that are there behind some uses. -/
def behind (uses : List Use) : Placeholders := ⟨Use.names uses, Use.attributes uses⟩

/-! ## One use -/

theorem addName_eq (placeholders : Placeholders) (name : String) :
    placeholders.addName name =
      (nameMark (placeholders.names.idxOf name),
        { placeholders with
          names := if name ∈ placeholders.names then placeholders.names
            else placeholders.names ++ [name] }) := by
  have hfound : placeholders.names.findIdx? (· == name) = _ := idxOf?_eq placeholders.names name
  rw [addName, hfound]
  split_ifs with hmem
  · rfl
  · rw [List.idxOf_eq_length hmem]

theorem same_eq_beq (held : Attribute) : Attribute.same held = (· == held) := by
  funext other
  rw [Bool.eq_iff_iff, Attribute.same_iff, beq_iff_eq, eq_comm]

theorem addValue_eq (placeholders : Placeholders) (held : Attribute) :
    placeholders.addValue held =
      (valueMark (placeholders.values.idxOf held),
        { placeholders with
          values := if held ∈ placeholders.values then placeholders.values
            else placeholders.values ++ [held] }) := by
  have hfound : placeholders.values.findIdx? (· == held) = _ := idxOf?_eq placeholders.values held
  rw [addValue, same_eq_beq, hfound]
  split_ifs with hmem
  · rfl
  · rw [List.idxOf_eq_length hmem]

theorem behind_name (uses : List Use) (name : String) :
    behind (uses ++ [.name name]) =
      { behind uses with
        names := if name ∈ (behind uses).names then (behind uses).names
          else (behind uses).names ++ [name] } := by
  have hnames : (uses ++ [Use.name name]).filterMap Use.name? = uses.filterMap Use.name? ++ [name] := by
    simp [Use.name?]
  have hattributes : (uses ++ [Use.name name]).filterMap Use.attribute? = uses.filterMap Use.attribute? := by
    simp [Use.attribute?]
  rw [behind, Use.names, Use.attributes, hnames, hattributes, eraseDups_concat]
  rfl

theorem behind_value (uses : List Use) (literal : Literal) :
    behind (uses ++ [.value literal]) =
      { behind uses with
        values := if .ofLiteral literal ∈ (behind uses).values then (behind uses).values
          else (behind uses).values ++ [.ofLiteral literal] } := by
  have hnames : (uses ++ [Use.value literal]).filterMap Use.name? = uses.filterMap Use.name? := by
    simp [Use.name?]
  have hattributes : (uses ++ [Use.value literal]).filterMap Use.attribute? =
      uses.filterMap Use.attribute? ++ [.ofLiteral literal] := by
    simp [Use.attribute?]
  rw [behind, Use.names, Use.attributes, hnames, hattributes, eraseDups_concat]
  rfl

/-- One more use gets its placeholder among those that are there behind it. -/
theorem use_behind (uses : List Use) (use : Use) :
    (behind uses).use use = ((behind (uses ++ [use])).mark use, behind (uses ++ [use])) := by
  cases use with
  | name name => rw [Placeholders.use, addName_eq, behind_name, mark, idxOf_added]
  | value literal => rw [Placeholders.use, addValue_eq, behind_value, mark, idxOf_added]

theorem behind_extends (uses more : List Use) : (behind uses).Extends (behind (uses ++ more)) where
  names := by
    rw [behind, behind, Use.names, Use.names, List.filterMap_append]
    exact eraseDups_prefix _ _
  values := by
    rw [behind, behind, Use.attributes, Use.attributes, List.filterMap_append]
    exact eraseDups_prefix _ _

theorem mem_names_behind {uses : List Use} {name : String} (h : Use.name name ∈ uses) :
    name ∈ (behind uses).names := by
  rw [behind, Use.names, List.mem_eraseDups]
  exact List.mem_filterMap.mpr ⟨_, h, rfl⟩

theorem mem_values_behind {uses : List Use} {literal : Literal} (h : Use.value literal ∈ uses) :
    Attribute.ofLiteral literal ∈ (behind uses).values := by
  rw [behind, Use.attributes, List.mem_eraseDups]
  exact List.mem_filterMap.mpr ⟨_, h, rfl⟩

/-- Further uses change no placeholder. -/
theorem mark_append {uses : List Use} {use : Use} (h : use ∈ uses) (more : List Use) :
    (behind (uses ++ more)).mark use = (behind uses).mark use := by
  have hextends := behind_extends uses more
  cases use with
  | name name => rw [mark, idxOf_of_prefix hextends.names (mem_names_behind h), mark]
  | value literal => rw [mark, idxOf_of_prefix hextends.values (mem_values_behind h), mark]

/-! ## Uses in a row -/

theorem useAll_append (placeholders : Placeholders) (uses more : List Use) :
    placeholders.useAll (uses ++ more) =
      ((placeholders.useAll uses).1 ++ ((placeholders.useAll uses).2.useAll more).1,
        ((placeholders.useAll uses).2.useAll more).2) := by
  induction uses generalizing placeholders with
  | nil => rfl
  | cons use uses ih => simp [useAll, ih]

theorem useAll_singleton (placeholders : Placeholders) (use : Use) :
    placeholders.useAll [use] = ([(placeholders.use use).1], (placeholders.use use).2) := rfl

/-- Behind any uses, the placeholders are those of the distinct names and attributes in them. -/
theorem useAll_empty (uses : List Use) :
    empty.useAll uses = (uses.map (behind uses).mark, behind uses) := by
  induction uses using List.reverseRecOn with
  | nil => rfl
  | append_singleton uses use ih =>
    have hmarks : uses.map (behind uses).mark = uses.map (behind (uses ++ [use])).mark :=
      List.map_congr_left fun earlier hearlier ↦ (mark_append hearlier [use]).symm
    rw [useAll_append, ih, useAll_singleton, use_behind, hmarks, List.map_append, List.map_singleton]

end Placeholders

/-! ## What the placeholders are -/

section Marks

variable {uses : List Use}

open Placeholders

theorem mark_name_inj {name other : String} (used : Use.name name ∈ uses) :
    (behind uses).mark (.name name) = (behind uses).mark (.name other) ↔ name = other := by
  rw [mark, mark, nameMark_injective.eq_iff, List.idxOf_inj (mem_names_behind used)]

theorem mark_value_inj {literal other : Literal} (used : Use.value literal ∈ uses) :
    (behind uses).mark (.value literal) = (behind uses).mark (.value other) ↔
      Attribute.ofLiteral literal = Attribute.ofLiteral other := by
  rw [mark, mark, valueMark_injective.eq_iff, List.idxOf_inj (mem_values_behind used)]

theorem mark_name_of_place {name : String} {place : Nat} (h : (Use.names uses)[place]? = some name) :
    (behind uses).mark (.name name) = nameMark place :=
  congrArg nameMark (idxOf_of_getElem? (nodup_eraseDups _) h)

theorem mark_value_of_place {literal : Literal} {place : Nat}
    (h : (Use.attributes uses)[place]? = some (.ofLiteral literal)) :
    (behind uses).mark (.value literal) = valueMark place :=
  congrArg valueMark (idxOf_of_getElem? (nodup_eraseDups _) h)

theorem get?_nameEntries_mark {name : String} (used : Use.name name ∈ uses) :
    Entries.get? (behind uses).nameEntries ((behind uses).mark (.name name)) = some name := by
  rw [nameEntries, mark, Entries.get?_mapIdx nameMark_injective]
  exact List.getElem?_idxOf (mem_names_behind used)

theorem get?_valueEntries_mark {literal : Literal} (used : Use.value literal ∈ uses) :
    Entries.get? (behind uses).valueEntries ((behind uses).mark (.value literal)) =
      some (.ofLiteral literal) := by
  rw [valueEntries, mark, Entries.get?_mapIdx valueMark_injective]
  exact List.getElem?_idxOf (mem_values_behind used)

end Marks

/-! ## Ledgers -/

/-- Two tables: what each placeholder stands for, and under the key of each item its placeholder. -/
structure Register (α : Type) where
  entries : Entries α
  marks : Entries String

namespace Register

variable {α : Type}

/-- The placeholder of an item, which is the old one for a key that has been used. -/
def add (register : Register α) (mark : Nat → String) (key : String) (item : α) :
    String × Register α :=
  match register.marks.get? key with
  | some found => (found, register)
  | none =>
    let new := mark register.entries.length
    (new,
      { entries := Entries.insert new item register.entries
        marks := Entries.insert key new register.marks })

/-- The tables of items by their places. -/
def ofItems (mark : Nat → String) (key : α → String) (items : List α) : Register α where
  entries := items.mapIdx fun place item ↦ (mark place, item)
  marks := items.mapIdx fun place item ↦ (key item, mark place)

theorem get?_mapIdx_key (mark : Nat → String) (key : α → String) (items : List α) (name : String) :
    Entries.get? (items.mapIdx fun place item ↦ (key item, mark place)) name =
      (items.findIdx? fun item ↦ key item == name).map mark := by
  induction items generalizing mark with
  | nil => rfl
  | cons item more ih =>
    rw [List.mapIdx_cons, Entries.get?, List.findIdx?_cons, ih]
    by_cases hkey : key item = name
    · simp [hkey]
    · simp [hkey, Function.comp_def]

theorem mark_notMem_keys {mark : Nat → String} (distinct : Function.Injective mark) (items : List α) :
    mark items.length ∉ Entries.keys (items.mapIdx fun place item ↦ (mark place, item)) := by
  intro hmem
  obtain ⟨entry, hentry, hmark⟩ := List.mem_map.mp hmem
  obtain ⟨place, hplace, rfl⟩ := List.mem_mapIdx.mp hentry
  exact absurd (distinct hmark) (Nat.ne_of_lt hplace)

theorem key_notMem_keys {mark : Nat → String} {key : α → String} {items : List α} {name : String}
    (new : items.findIdx? (fun item ↦ key item == name) = none) :
    name ∉ Entries.keys (items.mapIdx fun place item ↦ (key item, mark place)) := by
  rw [← Entries.isSome_get?_iff, get?_mapIdx_key, new]
  exact Bool.false_ne_true

/-- Adding keeps the two tables those of a list of items. -/
theorem add_ofItems {mark : Nat → String} (distinct : Function.Injective mark) (key : α → String)
    (items : List α) (item : α) :
    (ofItems mark key items).add mark (key item) item =
      match items.findIdx? fun held ↦ key held == key item with
      | some place => (mark place, ofItems mark key items)
      | none => (mark items.length, ofItems mark key (items ++ [item])) := by
  rw [add, ofItems, get?_mapIdx_key]
  cases hfound : items.findIdx? fun held ↦ key held == key item with
  | some place => rfl
  | none =>
    simp only [Option.map_none, List.length_mapIdx, ofItems, List.mapIdx_concat,
      Entries.keys_insert_of_not_mem (mark_notMem_keys distinct items),
      Entries.keys_insert_of_not_mem (key_notMem_keys hfound)]

end Register

/-- Placeholders kept in four tables. Names are looked up as they are and values by their JSON text. -/
structure Ledger where
  names : Register String
  values : Register Attribute

namespace Ledger

def addName (ledger : Ledger) (name : String) : String × Ledger :=
  let (mark, names) := ledger.names.add Placeholders.nameMark name name
  (mark, { ledger with names := names })

def addValue (ledger : Ledger) (held : Attribute) : String × Ledger :=
  let (mark, values) := ledger.values.add Placeholders.valueMark held.jsonText held
  (mark, { ledger with values := values })

def use (ledger : Ledger) : Use → String × Ledger
  | .name name => ledger.addName name
  | .value literal => ledger.addValue (.ofLiteral literal)

def useAll (ledger : Ledger) : List Use → List String × Ledger
  | [] => ([], ledger)
  | use :: more =>
    let (mark, ledger) := ledger.use use
    let (marks, ledger) := ledger.useAll more
    (mark :: marks, ledger)

def empty : Ledger := { names := ⟨[], []⟩, values := ⟨[], []⟩ }

/-- The tables of some placeholders. -/
def ofPlaceholders (placeholders : Placeholders) : Ledger where
  names := .ofItems Placeholders.nameMark id placeholders.names
  values := .ofItems Placeholders.valueMark Attribute.jsonText placeholders.values

theorem addName_ofPlaceholders (placeholders : Placeholders) (name : String) :
    (ofPlaceholders placeholders).addName name =
      ((placeholders.addName name).1, ofPlaceholders (placeholders.addName name).2) := by
  have hadd := Register.add_ofItems Placeholders.nameMark_injective id placeholders.names name
  simp only [id] at hadd
  unfold addName Placeholders.addName
  rw [ofPlaceholders, hadd]
  cases placeholders.names.findIdx? (· == name) <;> rfl

theorem addValue_ofPlaceholders (placeholders : Placeholders) (held : Attribute) :
    (ofPlaceholders placeholders).addValue held =
      ((placeholders.addValue held).1, ofPlaceholders (placeholders.addValue held).2) := by
  -- To have the same text is to be the same attribute.
  have hsame : (fun other : Attribute ↦ other.jsonText == held.jsonText) = Attribute.same held := by
    funext other
    rw [Bool.eq_iff_iff, beq_iff_eq, Attribute.jsonText_inj, Attribute.same_iff, eq_comm]
  have hadd := Register.add_ofItems Placeholders.valueMark_injective Attribute.jsonText
    placeholders.values held
  rw [hsame] at hadd
  unfold addValue Placeholders.addValue
  rw [ofPlaceholders, hadd]
  cases placeholders.values.findIdx? (Attribute.same held) <;> rfl

theorem use_ofPlaceholders (placeholders : Placeholders) (use : Use) :
    (ofPlaceholders placeholders).use use =
      ((placeholders.use use).1, ofPlaceholders (placeholders.use use).2) := by
  cases use with
  | name name => exact addName_ofPlaceholders placeholders name
  | value literal => exact addValue_ofPlaceholders placeholders (.ofLiteral literal)

/-- A ledger gives the same placeholders, and its tables are those of the same names and values. -/
theorem useAll_ofPlaceholders (placeholders : Placeholders) (uses : List Use) :
    (ofPlaceholders placeholders).useAll uses =
      ((placeholders.useAll uses).1, ofPlaceholders (placeholders.useAll uses).2) := by
  induction uses generalizing placeholders with
  | nil => rfl
  | cons use more ih => simp only [useAll, Placeholders.useAll, use_ofPlaceholders, ih]

end Ledger

/-! ## Allocation -/

/-- Placeholders given to uses one by one, with what they are put down for at the end. -/
structure Allocation (uses : List Use) (marks : List String) (names : Entries String)
    (values : Entries Attribute) : Prop where
  length_eq : marks.length = uses.length
  /-- Uses of names share a placeholder exactly if the names are equal. -/
  name_shared : ∀ (i j : Nat) (name other : String),
    uses[i]? = some (Use.name name) → uses[j]? = some (Use.name other) →
      (marks[i]? = marks[j]? ↔ name = other)
  /-- Uses of literals share a placeholder exactly if the literals become equal attributes. -/
  value_shared : ∀ (i j : Nat) (literal other : Literal),
    uses[i]? = some (Use.value literal) → uses[j]? = some (Use.value other) →
      (marks[i]? = marks[j]? ↔ Attribute.ofLiteral literal = Attribute.ofLiteral other)
  /-- Distinct names are numbered by first use. -/
  name_mark : ∀ (i place : Nat) (name : String),
    uses[i]? = some (Use.name name) → (Use.names uses)[place]? = some name →
      marks[i]? = some (Placeholders.nameMark place)
  value_mark : ∀ (i place : Nat) (literal : Literal),
    uses[i]? = some (Use.value literal) →
    (Use.attributes uses)[place]? = some (Attribute.ofLiteral literal) →
      marks[i]? = some (Placeholders.valueMark place)
  /-- The distinct names are put down in this order, each under its placeholder. -/
  names_eq : names = (Use.names uses).mapIdx fun place name ↦ (Placeholders.nameMark place, name)
  values_eq : values =
    (Use.attributes uses).mapIdx fun place held ↦ (Placeholders.valueMark place, held)
  /-- The placeholder of a name is put down for this name. -/
  name_given : ∀ (i : Nat) (name : String),
    uses[i]? = some (Use.name name) → marks[i]?.bind names.get? = some name
  value_given : ∀ (i : Nat) (literal : Literal),
    uses[i]? = some (Use.value literal) →
      marks[i]?.bind values.get? = some (Attribute.ofLiteral literal)

namespace Placeholders

theorem allocation_behind (uses : List Use) :
    Allocation uses (uses.map (behind uses).mark) (behind uses).nameEntries
      (behind uses).valueEntries where
  length_eq := List.length_map _
  name_shared i j name other hi hj := by
    rw [List.getElem?_map, List.getElem?_map, hi, hj, Option.map_some, Option.map_some,
      Option.some_inj, mark_name_inj (List.mem_of_getElem? hi)]
  value_shared i j literal other hi hj := by
    rw [List.getElem?_map, List.getElem?_map, hi, hj, Option.map_some, Option.map_some,
      Option.some_inj, mark_value_inj (List.mem_of_getElem? hi)]
  name_mark i place name hi hplace := by
    rw [List.getElem?_map, hi, Option.map_some, mark_name_of_place hplace]
  value_mark i place literal hi hplace := by
    rw [List.getElem?_map, hi, Option.map_some, mark_value_of_place hplace]
  names_eq := rfl
  values_eq := rfl
  name_given i name hi := by
    rw [List.getElem?_map, hi, Option.map_some, Option.bind_some,
      get?_nameEntries_mark (List.mem_of_getElem? hi)]
  value_given i literal hi := by
    rw [List.getElem?_map, hi, Option.map_some, Option.bind_some,
      get?_valueEntries_mark (List.mem_of_getElem? hi)]

theorem entries_prefix {before after : Placeholders} (h : before.Extends after) :
    before.nameEntries <+: after.nameEntries ∧ before.valueEntries <+: after.valueEntries := by
  obtain ⟨⟨names, hnames⟩, values, hvalues⟩ := h
  rw [nameEntries, nameEntries, valueEntries, valueEntries, ← hnames, ← hvalues, List.mapIdx_append,
    List.mapIdx_append]
  exact ⟨List.prefix_append _ _, List.prefix_append _ _⟩

/-- Placeholders are a stable numbering of the distinct names and attributes, further uses only add
to them, and the tables of a ledger give the same. -/
theorem useAll_allocation (uses : List Use) :
    Allocation uses (empty.useAll uses).1 (empty.useAll uses).2.nameEntries
      (empty.useAll uses).2.valueEntries ∧
    (∀ more, (empty.useAll uses).1 <+: (empty.useAll (uses ++ more)).1 ∧
      (empty.useAll uses).2.nameEntries <+: (empty.useAll (uses ++ more)).2.nameEntries ∧
      (empty.useAll uses).2.valueEntries <+: (empty.useAll (uses ++ more)).2.valueEntries) ∧
    Ledger.empty.useAll uses =
      ((empty.useAll uses).1, Ledger.ofPlaceholders (empty.useAll uses).2) := by
  refine ⟨?_, ?_, Ledger.useAll_ofPlaceholders empty uses⟩
  · rw [useAll_empty]
    exact allocation_behind uses
  · intro more
    constructor
    · rw [useAll_append]
      exact List.prefix_append _ _
    · rw [useAll_empty, useAll_empty]
      exact entries_prefix (behind_extends uses more)

example : (empty.useAll [.name "status", .value (.int 1), .value (.string "1"), .name "age",
    .value (.int 1), .name "status"]).1 = ["#n0", ":v0", ":v1", "#n1", ":v0", "#n0"] := by
  decide

end Placeholders

end Dynamo

end PortableQuery
