import PortableQuery.Proofs.Dynamo.Transport

/-!
# Sets in attributes

The sets in an attribute come from the lists in its literal, at any depth: a list of only strings or
only numbers, with at least one item, becomes the set of their texts in the same order. No item is
left out, so a set has a member twice just when two items of its list have the same text.
-/

namespace PortableQuery

open Text Dynamo

namespace Dynamo.Attribute

/-! ## Attributes inside attributes -/

mutual

/-- An attribute and all attributes inside it. -/
def parts : Attribute → List Attribute
  | .list items => .list items :: partsItems items
  | .map entries => .map entries :: partsEntries entries
  | other => [other]

def partsItems : List Attribute → List Attribute
  | [] => []
  | item :: more => item.parts ++ partsItems more

def partsEntries : List (String × Attribute) → List Attribute
  | [] => []
  | (_, held) :: more => held.parts ++ partsEntries more

end

/-- The members of a set. -/
def members? : Attribute → Option (List String)
  | .stringSet texts => some texts
  | .numberSet texts => some texts
  | _ => none

/-- Every set in the attribute is one that a store takes: it has a member, and none of them twice. -/
def HasProperSets (held : Attribute) : Prop :=
  ∀ part ∈ held.parts, ∀ texts, part.members? = some texts → texts ≠ [] ∧ texts.Nodup

/-- A set holds its members as texts and nothing else. -/
theorem parts_of_members? {held : Attribute} {texts : List String} (h : held.members? = some texts) :
    held.parts = [held] := by
  cases held <;> simp_all [members?, parts]

theorem partsItems_eq (items : List Attribute) : partsItems items = items.flatMap parts := by
  induction items with
  | nil => rfl
  | cons item more ih => rw [partsItems, ih, List.flatMap_cons]

theorem partsEntries_eq (entries : List (String × Attribute)) :
    partsEntries entries = entries.flatMap fun entry ↦ entry.2.parts := by
  induction entries with
  | nil => rfl
  | cons entry more ih => rw [partsEntries, ih, List.flatMap_cons]

end Dynamo.Attribute

namespace Literal

theorem partsItems_eq (items : List Literal) : partsItems items = items.flatMap parts := by
  induction items with
  | nil => rfl
  | cons item more ih => rw [partsItems, ih, List.flatMap_cons]

theorem partsEntries_eq (entries : List (String × Literal)) :
    partsEntries entries = entries.flatMap fun entry ↦ entry.2.parts := by
  induction entries with
  | nil => rfl
  | cons entry more ih => rw [partsEntries, ih, List.flatMap_cons]

/-- A list of only strings or only numbers in which two items have the same text. -/
def RepeatsMember (literal : Literal) : Prop :=
  ∃ items texts, literal = .list items ∧ ¬ texts.Nodup ∧
    (items.mapM string? = some texts ∨ items.mapM Attribute.numberText? = some texts)

end Literal

/-! ## What becomes a set -/

theorem mapM_eq_some_iff {α β : Type} {f : α → Option β} {items : List α} {results : List β} :
    items.mapM f = some results ↔
      List.Forall₂ (fun item result ↦ f item = some result) items results := by
  induction items generalizing results with
  | nil => simp [eq_comm]
  | cons item more ih =>
    simp only [List.mapM_cons, Option.bind_eq_bind, Option.bind_eq_some_iff, Option.pure_def,
      Option.some.injEq, List.forall₂_cons_left_iff, ih]
    constructor
    · rintro ⟨first, hfirst, others, hothers, rfl⟩
      exact ⟨first, others, hfirst, hothers, rfl⟩
    · rintro ⟨first, others, hfirst, hothers, rfl⟩
      exact ⟨first, hfirst, others, hothers, rfl⟩

theorem Literal.mapM_string?_eq_some_iff {items : List Literal} {texts : List String} :
    items.mapM Literal.string? = some texts ↔ items = texts.map .string := by
  have hstring (item : Literal) (text : String) : item.string? = some text ↔ item = .string text := by
    cases item <;> simp [string?]
  simp only [mapM_eq_some_iff, hstring]
  rw [← List.forall₂_map_right_iff, List.forall₂_eq_eq_eq]

namespace Dynamo.Attribute

variable {literal : Literal} {items : List Literal} {texts : List String}

theorem ne_nil_of_mapM {text? : Literal → Option String} (h : items.mapM text? = some texts) :
    items ≠ [] ↔ texts ≠ [] := by
  have hlength := (mapM_eq_some_iff.mp h).length_eq
  rw [← List.length_pos_iff, hlength, List.length_pos_iff]

/-- A list of numbers with an item in it is no list of strings. -/
theorem mapM_string?_eq_none (hne : items ≠ []) (h : items.mapM numberText? = some texts) :
    items.mapM Literal.string? = none := by
  obtain ⟨item, more, rfl⟩ := List.exists_cons_of_ne_nil hne
  cases item <;> simp_all [numberText?, Literal.string?]

theorem ofLiteral_list_cases (items : List Literal) :
    (∃ texts, texts ≠ [] ∧ items.mapM Literal.string? = some texts ∧
      ofLiteral (.list items) = .stringSet texts) ∨
    (∃ texts, texts ≠ [] ∧ items.mapM numberText? = some texts ∧
      ofLiteral (.list items) = .numberSet texts) ∨
    ofLiteral (.list items) = .list (items.map ofLiteral) := by
  by_cases hne : items = []
  · subst hne
    exact .inr (.inr rfl)
  cases hstrings : items.mapM Literal.string? with
  | some texts =>
    exact .inl ⟨texts, (ne_nil_of_mapM hstrings).mp hne, rfl, ofLiteral_strings hne hstrings⟩
  | none =>
    cases hnumbers : items.mapM numberText? with
    | some texts =>
      exact .inr (.inl ⟨texts, (ne_nil_of_mapM hnumbers).mp hne, rfl,
        ofLiteral_numbers hne hstrings hnumbers⟩)
    | none => exact .inr (.inr (ofLiteral_mixed hne hstrings hnumbers))

theorem ofLiteral_eq_stringSet_iff :
    ofLiteral literal = .stringSet texts ↔ texts ≠ [] ∧ literal = .list (texts.map .string) := by
  constructor
  · intro h
    cases literal with
    | list items =>
      obtain ⟨found, hne, hstrings, heq⟩ | ⟨found, -, -, heq⟩ | heq := ofLiteral_list_cases items
      · rw [heq, stringSet.injEq] at h
        obtain rfl := h
        exact ⟨hne, congrArg _ (Literal.mapM_string?_eq_some_iff.mp hstrings)⟩
      · simp [heq] at h
      · simp [heq] at h
    | _ => simp [ofLiteral] at h
  · rintro ⟨hne, rfl⟩
    have hstrings : (texts.map Literal.string).mapM Literal.string? = some texts :=
      Literal.mapM_string?_eq_some_iff.mpr rfl
    exact ofLiteral_strings ((ne_nil_of_mapM hstrings).mpr hne) hstrings

theorem ofLiteral_eq_numberSet_iff :
    ofLiteral literal = .numberSet texts ↔
      texts ≠ [] ∧ ∃ items, literal = .list items ∧ items.mapM numberText? = some texts := by
  constructor
  · intro h
    cases literal with
    | list items =>
      obtain ⟨found, -, -, heq⟩ | ⟨found, hne, hnumbers, heq⟩ | heq := ofLiteral_list_cases items
      · simp [heq] at h
      · rw [heq, numberSet.injEq] at h
        obtain rfl := h
        exact ⟨hne, items, rfl, hnumbers⟩
      · simp [heq] at h
    | _ => simp [ofLiteral] at h
  · rintro ⟨hne, items, rfl, hnumbers⟩
    have hitems := (ne_nil_of_mapM hnumbers).mpr hne
    exact ofLiteral_numbers hitems (mapM_string?_eq_none hitems hnumbers) hnumbers

theorem members?_eq_some_iff {held : Attribute} :
    held.members? = some texts ↔ held = .stringSet texts ∨ held = .numberSet texts := by
  cases held <;> simp [members?]

/-! ## Sets inside attributes -/

/-- Strings and numbers hold nothing and become no sets. -/
theorem parts_of_text {item : Literal} {text : String}
    (h : item.string? = some text ∨ numberText? item = some text) :
    item.parts = [item] ∧ (ofLiteral item).members? = none := by
  cases item <;> simp_all [Literal.string?, numberText?, Literal.parts, ofLiteral, members?]

/-- Nothing inside a list of strings or of numbers becomes a set. -/
theorem members?_of_mem_partsItems
    (h : items.mapM Literal.string? = some texts ∨ items.mapM numberText? = some texts)
    {source : Literal} (hsource : source ∈ Literal.partsItems items) :
    (ofLiteral source).members? = none := by
  rw [Literal.partsItems_eq, List.mem_flatMap] at hsource
  obtain ⟨item, hitem, hsource⟩ := hsource
  obtain ⟨text, htext⟩ : ∃ text, item.string? = some text ∨ numberText? item = some text := by
    rcases h with h | h
    · obtain ⟨text, -, htext⟩ := exists_mem_of_forall₂ (mapM_eq_some_iff.mp h).flip item hitem
      exact ⟨text, .inl htext⟩
    · obtain ⟨text, -, htext⟩ := exists_mem_of_forall₂ (mapM_eq_some_iff.mp h).flip item hitem
      exact ⟨text, .inr htext⟩
  obtain ⟨hparts, hnone⟩ := parts_of_text htext
  rw [hparts, List.mem_singleton] at hsource
  rwa [hsource]

theorem mem_flatMap_parts_iff {α : Type} {members : List α} {held : α → List Attribute}
    {sources : α → List Literal} {set : Attribute}
    (h : ∀ member ∈ members, set ∈ held member ↔ ∃ source ∈ sources member, ofLiteral source = set) :
    set ∈ members.flatMap held ↔ ∃ source ∈ members.flatMap sources, ofLiteral source = set := by
  simp only [List.mem_flatMap]
  constructor
  · rintro ⟨member, hmember, hset⟩
    obtain ⟨source, hsource, rfl⟩ := (h member hmember).mp hset
    exact ⟨source, ⟨member, hmember, hsource⟩, rfl⟩
  · rintro ⟨source, ⟨member, hmember, hsource⟩, rfl⟩
    exact ⟨member, hmember, (h member hmember).mpr ⟨source, hsource, rfl⟩⟩

/-- The sets in an attribute are what lists in its literal become. -/
theorem mem_parts_ofLiteral_iff {set : Attribute} (isSet : set.members? ≠ none) :
    set ∈ (ofLiteral literal).parts ↔ ∃ source ∈ literal.parts, ofLiteral source = set := by
  induction literal using Literal.induction with
  | list items ih =>
    have hinside := mem_flatMap_parts_iff ih
    rw [← Literal.partsItems_eq] at hinside
    have hnothing {texts : List String}
        (h : items.mapM Literal.string? = some texts ∨ items.mapM numberText? = some texts) :
        ¬ ∃ source ∈ Literal.partsItems items, ofLiteral source = set := by
      rintro ⟨source, hsource, rfl⟩
      exact isSet (members?_of_mem_partsItems h hsource)
    rw [Literal.parts, List.exists_mem_cons_iff]
    obtain ⟨texts, -, hstrings, heq⟩ | ⟨texts, -, hnumbers, heq⟩ | heq := ofLiteral_list_cases items
    · rw [heq, parts_of_members? rfl, List.mem_singleton, or_iff_left (hnothing (.inl hstrings)),
        eq_comm]
    · rw [heq, parts_of_members? rfl, List.mem_singleton, or_iff_left (hnothing (.inr hnumbers)),
        eq_comm]
    · have hlist : ∀ held, set ≠ .list held := by
        rintro held rfl
        exact isSet rfl
      rw [heq, parts, List.mem_cons, partsItems_eq, List.flatMap_map, hinside,
        or_iff_right (hlist _), or_iff_right (hlist _).symm]
  | map entries ih =>
    have hmap : ∀ held, set ≠ .map held := by
      rintro held rfl
      exact isSet rfl
    rw [Literal.parts, List.exists_mem_cons_iff, Literal.partsEntries_eq, ofLiteral, ofEntries_eq,
      parts, List.mem_cons, partsEntries_eq, List.flatMap_map, mem_flatMap_parts_iff ih,
      or_iff_right (hmap _), or_iff_right (hmap _).symm]
  | _ => simp [ofLiteral, parts, Literal.parts, eq_comm]

theorem stringSet_mem_parts_iff : .stringSet texts ∈ (ofLiteral literal).parts ↔
    texts ≠ [] ∧ .list (texts.map .string) ∈ literal.parts := by
  rw [mem_parts_ofLiteral_iff (by simp [members?])]
  simp only [ofLiteral_eq_stringSet_iff]
  constructor
  · rintro ⟨source, hsource, hne, rfl⟩
    exact ⟨hne, hsource⟩
  · rintro ⟨hne, hsource⟩
    exact ⟨_, hsource, hne, rfl⟩

theorem numberSet_mem_parts_iff : .numberSet texts ∈ (ofLiteral literal).parts ↔
    texts ≠ [] ∧ ∃ items, .list items ∈ literal.parts ∧ items.mapM numberText? = some texts := by
  rw [mem_parts_ofLiteral_iff (by simp [members?])]
  simp only [ofLiteral_eq_numberSet_iff]
  constructor
  · rintro ⟨source, hsource, hne, items, rfl, htexts⟩
    exact ⟨hne, items, hsource, htexts⟩
  · rintro ⟨hne, items, hsource, htexts⟩
    exact ⟨_, hsource, hne, items, rfl, htexts⟩

/-- Every set has a member. All have distinct members exactly if no list of strings or of numbers has
two items of the same text. -/
theorem hasProperSets_ofLiteral_iff (literal : Literal) :
    (ofLiteral literal).HasProperSets ↔ ∀ part ∈ literal.parts, ¬ part.RepeatsMember := by
  constructor
  · rintro proper part hpart ⟨items, texts, rfl, hrepeats, htexts⟩
    have hne : texts ≠ [] := by
      rintro rfl
      exact hrepeats List.nodup_nil
    rcases htexts with htexts | htexts
    · rw [Literal.mapM_string?_eq_some_iff.mp htexts] at hpart
      exact hrepeats (proper _ (stringSet_mem_parts_iff.mpr ⟨hne, hpart⟩) texts rfl).2
    · exact hrepeats (proper _ (numberSet_mem_parts_iff.mpr ⟨hne, items, hpart, htexts⟩) texts rfl).2
  · intro distinct part hpart texts hmembers
    rcases members?_eq_some_iff.mp hmembers with rfl | rfl
    · obtain ⟨hne, hlist⟩ := stringSet_mem_parts_iff.mp hpart
      refine ⟨hne, by_contra fun hrepeats ↦ distinct _ hlist ⟨_, texts, rfl, hrepeats, .inl ?_⟩⟩
      exact Literal.mapM_string?_eq_some_iff.mpr rfl
    · obtain ⟨hne, items, hlist, htexts⟩ := numberSet_mem_parts_iff.mp hpart
      exact ⟨hne, by_contra fun hrepeats ↦ distinct _ hlist ⟨items, texts, rfl, hrepeats, .inr htexts⟩⟩

/-- A string set in an attribute is a non-empty list of strings in its literal, in the same order and
with every item, and a number set is such a list of numbers. So every set has a member, and all sets
have distinct members exactly if no such list has two items of the same text. -/
theorem hasProperSets_iff (literal : Literal) :
    (∀ texts, .stringSet texts ∈ (ofLiteral literal).parts ↔
      texts ≠ [] ∧ .list (texts.map .string) ∈ literal.parts) ∧
    (∀ texts, .numberSet texts ∈ (ofLiteral literal).parts ↔
      texts ≠ [] ∧ ∃ items, .list items ∈ literal.parts ∧
        List.Forall₂ (fun item text ↦ numberText? item = some text) items texts) ∧
    ((ofLiteral literal).HasProperSets ↔ ∀ part ∈ literal.parts, ¬ part.RepeatsMember) := by
  refine ⟨fun _ ↦ stringSet_mem_parts_iff, fun texts ↦ ?_, hasProperSets_ofLiteral_iff literal⟩
  rw [numberSet_mem_parts_iff]
  simp only [mapM_eq_some_iff]

/-- Equal strings are two members, and so are an integer and a floating-point number of one text. -/
example : ofLiteral (.list [.string "x", .string "x"]) = .stringSet ["x", "x"] ∧
    ofLiteral (.map [("a", .list [.int 0, .float (.finite (.zero true))])]) =
      .map [("a", .numberSet ["0", "0"])] := by
  exact ⟨rfl, rfl⟩

end Dynamo.Attribute

end PortableQuery
