import PortableQuery.Proofs.Json.Printed

/-!
# What a reader produces

Every value that is read has integers of 64 bits, names each member of an object once and nests no
deeper than the reader follows.
-/

namespace PortableQuery

namespace Json

open Text

/-- Values as a reader produces them. -/
structure Parsed (depth : Nat) (json : Json) : Prop where
  readable : json.Readable
  depth_le : json.depth ≤ depth

theorem depthItems_le_iff {items : List Json} {depth : Nat} :
    depthItems items ≤ depth ↔ ∀ item ∈ items, item.depth ≤ depth := by
  induction items with
  | nil => simp [depthItems]
  | cons item more ih => simp only [depthItems, Nat.max_le, List.forall_mem_cons, ih]

theorem depthMembers_le_iff {members : List (String × Json)} {depth : Nat} :
    depthMembers members ≤ depth ↔ ∀ member ∈ members, member.2.depth ≤ depth := by
  induction members with
  | nil => simp [depthMembers]
  | cons member more ih => simp only [depthMembers, Nat.max_le, List.forall_mem_cons, ih]

theorem parsed_array_iff {items : List Json} {depth : Nat} :
    Parsed (depth + 1) (.array items) ↔ ∀ item ∈ items, Parsed depth item := by
  constructor
  · rintro ⟨hreadable, hdepth⟩ item hitem
    rw [Json.depth, Nat.add_le_add_iff_right] at hdepth
    exact ⟨readableItems_iff.mp hreadable item hitem, depthItems_le_iff.mp hdepth item hitem⟩
  · intro h
    refine ⟨readableItems_iff.mpr fun item hitem ↦ (h item hitem).readable, ?_⟩
    rw [Json.depth, Nat.add_le_add_iff_right]
    exact depthItems_le_iff.mpr fun item hitem ↦ (h item hitem).depth_le

theorem parsed_object_iff {members : List (String × Json)} {depth : Nat} :
    Parsed (depth + 1) (.object members) ↔
      (Entries.keys members).Nodup ∧ ∀ member ∈ members, Parsed depth member.2 := by
  constructor
  · rintro ⟨⟨hkeys, hreadable⟩, hdepth⟩
    rw [Json.depth, Nat.add_le_add_iff_right] at hdepth
    refine ⟨hkeys, fun member hmember ↦ ?_⟩
    exact ⟨readableMembers_iff.mp hreadable member hmember, depthMembers_le_iff.mp hdepth member hmember⟩
  · rintro ⟨hkeys, h⟩
    refine ⟨⟨hkeys, readableMembers_iff.mpr fun member hmember ↦ (h member hmember).readable⟩, ?_⟩
    rw [Json.depth, Nat.add_le_add_iff_right]
    exact depthMembers_le_iff.mpr fun member hmember ↦ (h member hmember).depth_le

theorem parsed_float (depth : Nat) (x : Decimal.Finite) : Parsed depth (.float x) :=
  ⟨trivial, Nat.zero_le depth⟩

theorem parsed_integer {n : Int} (depth : Nat) (hlow : -2 ^ 63 ≤ n) (hhigh : n < 2 ^ 64) :
    Parsed depth (.integer n) :=
  ⟨⟨hlow, hhigh⟩, Nat.zero_le depth⟩

theorem parsed_integerOf? {negative : Bool} {whole : List Char} {json : Json} (depth : Nat)
    (h : integerOf? negative whole = some json) : Parsed depth json := by
  have hfloat {found : Option Decimal.Finite} (h : found.map Json.float = some json) :
      Parsed depth json := by
    obtain ⟨x, -, rfl⟩ := Option.map_eq_some_iff.mp h
    exact parsed_float depth x
  unfold integerOf? at h
  dsimp only at h
  split_ifs at h with hnegative hrange hbig hword
  · obtain rfl := Option.some.inj h
    exact parsed_integer depth (by omega) (by omega)
  · exact hfloat h
  · exact hfloat h
  · obtain rfl := Option.some.inj h
    exact parsed_integer depth (by omega) (by omega)
  · exact hfloat h

theorem parsed_numberEnd {negative : Bool} {whole fraction text rest : List Char} {json : Json}
    (depth : Nat) (h : numberEnd negative whole fraction text = some (json, rest)) :
    Parsed depth json := by
  have hexponent {text : List Char} (h : ((exponentPart? text).bind fun found ↦
      (floatOf? negative whole fraction found.1).bind fun x ↦ some (Json.float x, found.2)) =
        some (json, rest)) : Parsed depth json := by
    obtain ⟨found, -, h⟩ := Option.bind_eq_some_iff.mp h
    obtain ⟨x, -, hfound⟩ := Option.bind_eq_some_iff.mp h
    obtain ⟨rfl, -⟩ := Prod.mk.inj (Option.some.inj hfound)
    exact parsed_float depth x
  unfold numberEnd at h
  dsimp only at h
  split at h
  · exact hexponent h
  · exact hexponent h
  · split at h
    · obtain ⟨found, hfound, heq⟩ := Option.map_eq_some_iff.mp h
      obtain ⟨rfl, -⟩ := Prod.mk.inj heq
      exact parsed_integerOf? depth hfound
    · obtain ⟨x, -, heq⟩ := Option.map_eq_some_iff.mp h
      obtain ⟨rfl, -⟩ := Prod.mk.inj heq
      exact parsed_float depth x

theorem parsed_number {negative : Bool} {text rest : List Char} {json : Json} (depth : Nat)
    (h : number negative text = some (json, rest)) : Parsed depth json := by
  unfold number at h
  dsimp only at h
  split at h
  · contradiction
  · split at h
    · split at h
      · contradiction
      · exact parsed_numberEnd depth h
    · exact parsed_numberEnd depth h

/-- What each of the readers produces within a bound on values, items and members. -/
def ReadersSound (fuel : Nat) : Prop :=
  (∀ depth text json rest, value fuel depth text = some (json, rest) → Parsed depth json) ∧
  (∀ depth text found rest, items fuel depth text = some (found, rest) →
    ∀ item ∈ found, Parsed depth item) ∧
  (∀ depth text found rest, members fuel depth text = some (found, rest) →
    ∀ member ∈ found, Parsed depth member.2)

theorem parsed_value {fuel depth : Nat} {text rest : List Char} {json : Json}
    (ih : ReadersSound fuel) (h : value (fuel + 1) depth text = some (json, rest)) :
    Parsed depth json := by
  obtain ⟨-, hitems, hmembers⟩ := ih
  unfold value at h
  split at h
  · obtain ⟨rfl, -⟩ := Prod.mk.inj (Option.some.inj h)
    exact ⟨trivial, Nat.zero_le depth⟩
  · obtain ⟨rfl, -⟩ := Prod.mk.inj (Option.some.inj h)
    exact ⟨trivial, Nat.zero_le depth⟩
  · obtain ⟨rfl, -⟩ := Prod.mk.inj (Option.some.inj h)
    exact ⟨trivial, Nat.zero_le depth⟩
  · obtain ⟨_, -, heq⟩ := Option.map_eq_some_iff.mp h
    obtain ⟨rfl, -⟩ := Prod.mk.inj heq
    exact ⟨trivial, Nat.zero_le depth⟩
  · split at h
    · contradiction
    · split at h
      · obtain ⟨rfl, -⟩ := Prod.mk.inj (Option.some.inj h)
        exact parsed_array_iff.mpr (by simp)
      · obtain ⟨⟨found, _⟩, hfound, heq⟩ := Option.map_eq_some_iff.mp h
        obtain ⟨rfl, -⟩ := Prod.mk.inj heq
        exact parsed_array_iff.mpr (hitems _ _ _ _ hfound)
  · split at h
    · contradiction
    · split at h
      · obtain ⟨rfl, -⟩ := Prod.mk.inj (Option.some.inj h)
        exact parsed_object_iff.mpr (by simp [Entries.keys])
      · obtain ⟨⟨found, _⟩, hfound, heq⟩ := Option.map_eq_some_iff.mp h
        obtain ⟨rfl, -⟩ := Prod.mk.inj heq
        exact parsed_object_iff.mpr ⟨Entries.nodup_keys_ofList found,
          Entries.forall_mem_ofList (hmembers _ _ _ _ hfound)⟩
  · exact parsed_number depth h
  · exact parsed_number depth h

theorem parsed_items {fuel depth : Nat} {text rest : List Char} {found : List Json}
    (ih : ReadersSound fuel) (h : items (fuel + 1) depth text = some (found, rest)) :
    ∀ item ∈ found, Parsed depth item := by
  obtain ⟨hvalue, hitems, -⟩ := ih
  unfold items at h
  split at h
  · contradiction
  · rename_i item _ hitem
    split at h
    · obtain ⟨⟨others, _⟩, hothers, heq⟩ := Option.map_eq_some_iff.mp h
      obtain ⟨rfl, -⟩ := Prod.mk.inj heq
      exact List.forall_mem_cons.mpr ⟨hvalue _ _ _ _ hitem, hitems _ _ _ _ hothers⟩
    · obtain ⟨rfl, -⟩ := Prod.mk.inj (Option.some.inj h)
      exact List.forall_mem_singleton.mpr (hvalue _ _ _ _ hitem)
    · contradiction

theorem parsed_members {fuel depth : Nat} {text rest : List Char} {found : List (String × Json)}
    (ih : ReadersSound fuel) (h : members (fuel + 1) depth text = some (found, rest)) :
    ∀ member ∈ found, Parsed depth member.2 := by
  obtain ⟨hvalue, -, hmembers⟩ := ih
  unfold members at h
  split at h
  · split at h
    · contradiction
    · split at h
      · split at h
        · contradiction
        · rename_i _ _ hfound
          dsimp only at h
          split at h
          · obtain ⟨⟨others, _⟩, hothers, heq⟩ := Option.map_eq_some_iff.mp h
            obtain ⟨rfl, -⟩ := Prod.mk.inj heq
            exact List.forall_mem_cons.mpr ⟨hvalue _ _ _ _ hfound, hmembers _ _ _ _ hothers⟩
          · obtain ⟨rfl, -⟩ := Prod.mk.inj (Option.some.inj h)
            exact List.forall_mem_singleton.mpr (hvalue _ _ _ _ hfound)
          · contradiction
      · contradiction
  · contradiction

theorem readersSound (fuel : Nat) : ReadersSound fuel := by
  induction fuel with
  | zero =>
    refine ⟨?_, ?_, ?_⟩
    · intro depth text json rest h
      simp [value] at h
    · intro depth text found rest h
      simp [items] at h
    · intro depth text found rest h
      simp [members] at h
  | succ fuel ih =>
    exact ⟨fun _ _ _ _ ↦ parsed_value ih, fun _ _ _ _ ↦ parsed_items ih,
      fun _ _ _ _ ↦ parsed_members ih⟩

theorem parsed_of_parse {text : String} {json : Json} (h : parse text = some json) :
    Parsed depthLimit json := by
  unfold parse parseChars at h
  split at h
  · rename_i hvalue
    split at h
    · obtain rfl := Option.some.inj h
      exact (readersSound _).1 _ _ _ _ hvalue
    · contradiction
  · contradiction

/-! ## Parts -/

theorem Parsed.mono {depth bound : Nat} {json : Json} (h : Parsed depth json) (hle : depth ≤ bound) :
    Parsed bound json :=
  ⟨h.readable, Nat.le_trans h.depth_le hle⟩

theorem Parsed.items {depth : Nat} {found : List Json} (h : Parsed depth (.array found)) :
    ∀ item ∈ found, Parsed depth item := by
  have hdepth := h.depth_le
  rw [Json.depth] at hdepth
  obtain ⟨depth, rfl⟩ : ∃ k, depth = k + 1 := ⟨depth - 1, by omega⟩
  intro item hitem
  exact (parsed_array_iff.mp h item hitem).mono (by omega)

theorem Parsed.members {depth : Nat} {found : List (String × Json)} (h : Parsed depth (.object found)) :
    (Entries.keys found).Nodup ∧ ∀ member ∈ found, Parsed depth member.2 := by
  have hdepth := h.depth_le
  rw [Json.depth] at hdepth
  obtain ⟨depth, rfl⟩ : ∃ k, depth = k + 1 := ⟨depth - 1, by omega⟩
  obtain ⟨hkeys, hmembers⟩ := parsed_object_iff.mp h
  exact ⟨hkeys, fun member hmember ↦ (hmembers member hmember).mono (by omega)⟩

end Json

end PortableQuery
