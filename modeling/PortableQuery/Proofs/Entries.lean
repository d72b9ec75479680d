import PortableQuery.Entries

/-!
# Entries

Inserting under a name touches no other name, and collecting pairs keeps every name once: each of
them with the value of one of the given pairs, and names that are distinct already as they are.
-/

namespace PortableQuery.Entries

variable {α : Type}

theorem keys_append (first second : Entries α) : keys (first ++ second) = keys first ++ keys second := by
  simp [keys]

theorem get?_append (first second : Entries α) (name : String) :
    get? (first ++ second) name = (get? first name).or (get? second name) := by
  induction first with
  | nil => simp [get?]
  | cons pair more ih =>
    obtain ⟨key, value⟩ := pair
    by_cases hkey : key = name <;> simp [get?, hkey, ih]

theorem mem_of_get? {entries : Entries α} {name : String} {value : α}
    (h : entries.get? name = some value) : (name, value) ∈ entries := by
  induction entries with
  | nil => simp [get?] at h
  | cons pair more ih =>
    obtain ⟨key, held⟩ := pair
    unfold get? at h
    split at h
    · rename_i hkey
      simp [hkey, Option.some.inj h]
    · simp [ih h]

theorem isSome_get?_iff {entries : Entries α} {name : String} :
    (get? entries name).isSome ↔ name ∈ keys entries := by
  induction entries with
  | nil => simp [get?, keys]
  | cons pair more ih =>
    obtain ⟨key, held⟩ := pair
    by_cases hkey : key = name
    · simp [get?, keys, hkey]
    · simpa [get?, keys, hkey, Ne.symm hkey] using ih

theorem get?_eq_none_iff {entries : Entries α} {name : String} :
    get? entries name = none ↔ name ∉ keys entries := by
  rw [← isSome_get?_iff, Bool.not_eq_true, Option.isSome_eq_false_iff, Option.isNone_iff_eq_none]

theorem get?_of_mem {entries : Entries α} (distinct : (keys entries).Nodup) {name : String} {value : α}
    (h : (name, value) ∈ entries) : get? entries name = some value := by
  induction entries with
  | nil => contradiction
  | cons pair more ih =>
    obtain ⟨key, held⟩ := pair
    obtain ⟨hkey, hmore⟩ := List.nodup_cons.mp distinct
    rw [get?]
    rcases List.mem_cons.mp h with heq | hmem
    · obtain ⟨rfl, rfl⟩ := Prod.mk.inj heq
      exact if_pos rfl
    · have hne : key ≠ name := by
        rintro rfl
        exact hkey (List.mem_map.mpr ⟨_, hmem, rfl⟩)
      rw [if_neg hne, ih hmore hmem]

theorem get?_filter {keep : String → Bool} {name : String} (kept : keep name = true)
    (entries : Entries α) : get? (entries.filter (keep ·.1)) name = get? entries name := by
  induction entries with
  | nil => rfl
  | cons pair more ih =>
    obtain ⟨key, held⟩ := pair
    by_cases hkey : key = name
    · subst hkey
      simp [kept, get?]
    · by_cases hkeep : keep key <;> simp [hkeep, get?, hkey, ih]

/-- Values under names that are made from their places. -/
theorem get?_mapIdx {key : Nat → String} (distinct : Function.Injective key) (items : List α)
    (index : Nat) :
    get? (items.mapIdx fun i item ↦ (key i, item)) (key index) = items[index]? := by
  induction items generalizing key index with
  | nil => rfl
  | cons item more ih =>
    rw [List.mapIdx_cons, get?]
    cases index with
    | zero => simp
    | succ index =>
      have hne : key 0 ≠ key (index + 1) := by
        intro h
        have := distinct h
        omega
      have hnext : Function.Injective fun i ↦ key (i + 1) := by
        intro i j h
        have := distinct h
        omega
      rw [if_neg hne, List.getElem?_cons_succ]
      exact ih hnext index

/-! ## Insertion -/

theorem keys_insert (name : String) (value : α) (entries : Entries α) :
    keys (insert name value entries) =
      if name ∈ keys entries then keys entries else keys entries ++ [name] := by
  induction entries with
  | nil => simp [insert, keys]
  | cons pair more ih =>
    obtain ⟨key, old⟩ := pair
    by_cases hkey : key = name
    · simp [insert, keys, hkey]
    · simp only [keys] at ih
      by_cases hmem : name ∈ more.map Prod.fst <;>
        simp [insert, hkey, keys, ih, Ne.symm hkey, hmem]

theorem mem_keys_insert {name key : String} {value : α} {entries : Entries α} :
    key ∈ keys (insert name value entries) ↔ key = name ∨ key ∈ keys entries := by
  rw [keys_insert]
  split
  · rename_i hmem
    constructor
    · exact .inr
    · rintro (rfl | h)
      · exact hmem
      · exact h
  · simp [or_comm]

theorem nodup_keys_insert {name : String} {value : α} {entries : Entries α}
    (h : (keys entries).Nodup) : (keys (insert name value entries)).Nodup := by
  rw [keys_insert]
  split
  · exact h
  · rename_i habsent
    refine List.nodup_append.mpr ⟨h, by simp, ?_⟩
    intro key hkey other hother
    obtain rfl := List.mem_singleton.mp hother
    rintro rfl
    exact habsent hkey

theorem forall_mem_insert {p : String × α → Prop} {name : String} {value : α} {entries : Entries α}
    (hvalue : p (name, value)) (h : ∀ entry ∈ entries, p entry) :
    ∀ entry ∈ insert name value entries, p entry := by
  induction entries with
  | nil => simpa [insert] using hvalue
  | cons pair more ih =>
    obtain ⟨key, old⟩ := pair
    obtain ⟨hold, hmore⟩ := List.forall_mem_cons.mp h
    by_cases hkey : key = name
    · simp only [insert, hkey, if_true]
      exact List.forall_mem_cons.mpr ⟨hvalue, hmore⟩
    · simp only [insert, hkey, if_false]
      exact List.forall_mem_cons.mpr ⟨hold, ih hmore⟩

/-! ## Collecting pairs -/

theorem insertAll_invariant {p : String × α → Prop} (more : Entries α) (hmore : ∀ entry ∈ more, p entry) :
    ∀ entries : Entries α, (keys entries).Nodup → (∀ entry ∈ entries, p entry) →
      (keys (insertAll entries more)).Nodup ∧ ∀ entry ∈ insertAll entries more, p entry := by
  induction more with
  | nil =>
    intro entries hkeys hentries
    exact ⟨hkeys, hentries⟩
  | cons pair more ih =>
    intro entries hkeys hentries
    obtain ⟨hpair, hothers⟩ := List.forall_mem_cons.mp hmore
    exact ih hothers (insert pair.1 pair.2 entries) (nodup_keys_insert hkeys)
      (forall_mem_insert hpair hentries)

theorem mem_keys_insertAll {key : String} {entries more : Entries α} :
    key ∈ keys (insertAll entries more) ↔ key ∈ keys entries ∨ key ∈ keys more := by
  induction more generalizing entries with
  | nil => simp [insertAll, keys]
  | cons pair more ih =>
    have hstep : insertAll entries (pair :: more) = insertAll (insert pair.1 pair.2 entries) more := rfl
    rw [hstep, ih, mem_keys_insert]
    simp [keys, or_assoc, or_left_comm]

theorem nodup_keys_ofList (pairs : Entries α) : (keys (ofList pairs)).Nodup :=
  (insertAll_invariant (p := fun _ ↦ True) pairs (by simp) [] (by simp [keys]) (by simp)).1

theorem forall_mem_ofList {p : String × α → Prop} {pairs : Entries α}
    (h : ∀ entry ∈ pairs, p entry) : ∀ entry ∈ ofList pairs, p entry :=
  (insertAll_invariant pairs h [] (by simp [keys]) (by simp)).2

theorem mem_keys_ofList {key : String} {pairs : Entries α} :
    key ∈ keys (ofList pairs) ↔ key ∈ keys pairs := by
  rw [ofList, mem_keys_insertAll]
  simp [keys]

theorem insertAll_of_nodup (entries more : Entries α) (h : (keys (entries ++ more)).Nodup) :
    insertAll entries more = entries ++ more := by
  induction more generalizing entries with
  | nil => simp [insertAll]
  | cons pair more ih =>
    have habsent : pair.1 ∉ keys entries := by
      simp only [keys, List.map_append, List.map_cons, List.nodup_append] at h
      intro hmem
      exact h.2.2 pair.1 hmem pair.1 (by simp) rfl
    have hstep : insertAll entries (pair :: more) = insertAll (entries ++ [pair]) more := by
      simp only [insertAll, List.foldl_cons, keys_insert_of_not_mem habsent]
    rw [hstep, ih (entries ++ [pair]) (by simpa using h)]
    simp

theorem ofList_of_nodup {pairs : Entries α} (h : (keys pairs).Nodup) : ofList pairs = pairs := by
  exact insertAll_of_nodup [] pairs h

end PortableQuery.Entries
