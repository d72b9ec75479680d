import PortableQuery.Proofs.Entries
import PortableQuery.Proofs.Json.FloatText

/-!
# Printed JSON reads back

`parse_compact` says what a reader makes of the compact text of a value whose integers fit 64 bits,
whose objects name each member once and which does not nest too deep: the value itself, with every
floating-point number replaced by what its own text reads as. A value without floating-point numbers
is read back as it is.
-/

namespace PortableQuery

namespace Json

open Text

/-! ## Trees -/

/-- Induction over values, with the items and members of a value at hand as members of its lists. -/
theorem induction {P : Json → Prop} (null : P .null) (bool : ∀ value, P (.bool value))
    (integer : ∀ value, P (.integer value)) (float : ∀ value, P (.float value))
    (string : ∀ value, P (.string value))
    (array : ∀ items, (∀ item ∈ items, P item) → P (.array items))
    (object : ∀ members, (∀ member ∈ members, P member.2) → P (.object members)) (json : Json) :
    P json := by
  refine @Json.rec P (fun items ↦ ∀ item ∈ items, P item) (fun members ↦ ∀ member ∈ members, P member.2)
    (fun member ↦ P member.2) null bool integer float string array object ?_ ?_ ?_ ?_ ?_ json
  · simp
  · intro item more hitem hmore
    exact List.forall_mem_cons.mpr ⟨hitem, hmore⟩
  · simp
  · intro member more hmember hmore
    exact List.forall_mem_cons.mpr ⟨hmember, hmore⟩
  · intro name value hvalue
    exact hvalue

mutual

/-- How deep arrays and objects nest. -/
def depth : Json → Nat
  | .array items => depthItems items + 1
  | .object members => depthMembers members + 1
  | _ => 0

def depthItems : List Json → Nat
  | [] => 0
  | item :: more => max item.depth (depthItems more)

def depthMembers : List (String × Json) → Nat
  | [] => 0
  | (_, value) :: more => max value.depth (depthMembers more)

end

mutual

/-- Values that a reader can produce: integers fit 64 bits and objects name each member once. -/
def Readable : Json → Prop
  | .integer n => -2 ^ 63 ≤ n ∧ n < 2 ^ 64
  | .array items => ReadableItems items
  | .object members => (Entries.keys members).Nodup ∧ ReadableMembers members
  | _ => True

def ReadableItems : List Json → Prop
  | [] => True
  | item :: more => item.Readable ∧ ReadableItems more

def ReadableMembers : List (String × Json) → Prop
  | [] => True
  | (_, value) :: more => value.Readable ∧ ReadableMembers more

end

theorem readableItems_iff {items : List Json} :
    ReadableItems items ↔ ∀ item ∈ items, item.Readable := by
  induction items with
  | nil => simp [ReadableItems]
  | cons item more ih => simp [ReadableItems, ih]

theorem readableMembers_iff {members : List (String × Json)} :
    ReadableMembers members ↔ ∀ member ∈ members, member.2.Readable := by
  induction members with
  | nil => simp [ReadableMembers]
  | cons member more ih => simp [ReadableMembers, ih]

/-- What the text of a floating-point number reads as. -/
def rereadFloat (x : Decimal.Finite) : Option Decimal.Finite :=
  match parse (compact (.float x)) with
  | some (.float y) => some y
  | _ => none

mutual

/-- The value with each floating-point number replaced by what its text reads as. -/
def reread : Json → Option Json
  | .float x => (rereadFloat x).map .float
  | .array items => (rereadItems items).map .array
  | .object members => (rereadMembers members).map .object
  | other => some other

def rereadItems : List Json → Option (List Json)
  | [] => some []
  | item :: more =>
    match item.reread, rereadItems more with
    | some item, some more => some (item :: more)
    | _, _ => none

def rereadMembers : List (String × Json) → Option (List (String × Json))
  | [] => some []
  | (name, value) :: more =>
    match value.reread, rereadMembers more with
    | some value, some more => some ((name, value) :: more)
    | _, _ => none

end

/-! ## Reading -/

theorem skipBlank_of_not_blank {c : Char} (h : isBlank c = false) (text : List Char) :
    skipBlank (c :: text) = c :: text := by
  simp [skipBlank, h]

theorem not_blank_of_isDigit {c : Char} (h : c.isDigit = true) :
    isBlank c = false ∧ c ∉ [']', '!', 'F', 'O'] := by
  have hne {d : Char} (hd : d.isDigit = false) : c ≠ d := by
    rintro rfl
    rw [hd] at h
    contradiction
  refine ⟨by simp [isBlank, hne (d := ' ') rfl, hne (d := '\t') rfl, hne (d := '\r') rfl,
    hne (d := '\n') rfl], ?_⟩
  simp [hne (d := ']') rfl, hne (d := '!') rfl, hne (d := 'F') rfl, hne (d := 'O') rfl]

/-- A printed value begins with a character that is no blank, no closing bracket and none of those
with which the mark of a sentinel begins. -/
theorem head_chars (json : Json) :
    ∃ c more, chars json = c :: more ∧ isBlank c = false ∧ c ∉ [']', '!', 'F', 'O'] := by
  cases json with
  | null => exact ⟨'n', _, rfl, by decide⟩
  | bool value => cases value <;> exact ⟨_, _, rfl, by decide⟩
  | integer n =>
    cases n with
    | ofNat n =>
      obtain ⟨c, more, hdigits⟩ := List.exists_cons_of_ne_nil (Numeral.digits_ne_nil n)
      exact ⟨c, more, hdigits, not_blank_of_isDigit (Numeral.isDigit_of_mem_digits (n := n)
        (by simp [hdigits]))⟩
    | negSucc n => exact ⟨'-', _, rfl, by decide⟩
  | float x =>
    obtain ⟨text, htext⟩ := exists_floatText x
    obtain ⟨c, more, hwhole⟩ := List.exists_cons_of_ne_nil text.whole_ne_nil
    have hc := not_blank_of_isDigit (text.whole_digits c (by simp [hwhole]))
    cases hsign : x.negative with
    | true => exact ⟨'-', text.chars, by simp [chars, htext, hsign, Decimal.signChars], by decide⟩
    | false =>
      exact ⟨c, more ++ (text.fractionChars ++ text.exponentChars),
        by simp [chars, htext, hsign, Decimal.signChars, FloatText.chars, hwhole], hc⟩
  | string text => exact ⟨'"', _, rfl, by decide⟩
  | array items => exact ⟨'[', _, rfl, by decide⟩
  | object members => exact ⟨'{', _, rfl, by decide⟩

theorem length_chars_pos (json : Json) : 0 < (chars json).length := by
  obtain ⟨c, more, hchars, -⟩ := head_chars json
  simp [hchars]

theorem parse_compact_eq (json : Json) : parse (compact json) = parseChars (chars json) := by
  simp [parse, compact]

theorem exists_value_float (x : Decimal.Finite) : ∀ fuel depth rest, Ends rest →
    value (fuel + 1) depth (chars (.float x) ++ rest) =
      (rereadFloat x).map fun y ↦ (Json.float y, rest) := by
  obtain ⟨text, htext⟩ := exists_floatText x
  have hvalue (fuel depth : Nat) (rest : List Char) (hrest : Ends rest) :
      value (fuel + 1) depth (chars (.float x) ++ rest) =
        (text.number? x.negative).map fun y ↦ (Json.float y, rest) := by
    rw [chars, htext]
    exact text.value_chars fuel depth x.negative hrest
  have hreread : rereadFloat x = text.number? x.negative := by
    have halone := hvalue (2 * (chars (.float x)).length + 1) depthLimit [] ends_nil
    rw [List.append_nil] at halone
    rw [rereadFloat, parse_compact_eq, parseChars, halone]
    cases text.number? x.negative <;> simp [skipBlank]
  rw [hreread]
  exact hvalue

/-- How the text of a value is read wherever it stands. -/
def ReadsBack (json : Json) : Prop :=
  ∀ fuel depth rest, (chars json).length ≤ fuel → json.depth ≤ depth → json.Readable → Ends rest →
    value fuel depth (chars json ++ rest) = json.reread.map (·, rest)

theorem items_itemChars {first : Json} {more : List Json}
    (hread : ∀ item ∈ first :: more, item.ReadsBack) (fuel depth : Nat) (rest : List Char)
    (hfuel : (itemChars (first :: more)).length + 1 ≤ fuel)
    (hdepth : depthItems (first :: more) ≤ depth) (hreadable : ReadableItems (first :: more)) :
    items fuel depth (itemChars (first :: more) ++ ']' :: rest) =
      (rereadItems (first :: more)).map (·, rest) := by
  induction more generalizing first fuel with
  | nil =>
    obtain ⟨fuel, rfl⟩ : ∃ k, fuel = k + 1 := ⟨fuel - 1, by omega⟩
    simp only [itemChars] at hfuel
    simp only [depthItems, Nat.max_le] at hdepth
    have hfirst := hread first (by simp) fuel depth (']' :: rest) (by omega) hdepth.1 hreadable.1
      (ends_cons (by simp))
    simp only [itemChars, items, hfirst]
    cases hreread : first.reread <;> simp [rereadItems, hreread, skipBlank, isBlank]
  | cons second more ih =>
    obtain ⟨fuel, rfl⟩ : ∃ k, fuel = k + 1 := ⟨fuel - 1, by omega⟩
    simp only [itemChars, List.length_append, List.length_cons] at hfuel
    simp only [depthItems, Nat.max_le] at hdepth
    have hfirst := hread first (by simp) fuel depth (',' :: (itemChars (second :: more) ++ ']' :: rest))
      (by omega) hdepth.1 hreadable.1 (ends_cons (by simp))
    have hothers := ih (fun item hitem ↦ hread item (List.mem_cons_of_mem _ hitem)) fuel
      (by have := length_chars_pos first; omega) (by simpa [depthItems, Nat.max_le] using hdepth.2) hreadable.2
    simp only [itemChars, List.append_assoc, List.cons_append, items, hfirst]
    cases hreread : first.reread with
    | none => simp [rereadItems, hreread]
    | some found =>
      have hblank : skipBlank (',' :: (itemChars (second :: more) ++ ']' :: rest)) =
          ',' :: (itemChars (second :: more) ++ ']' :: rest) := skipBlank_of_not_blank (by decide) _
      simp only [Option.map_some, hblank, hothers]
      rw [show rereadItems (first :: second :: more) =
        (rereadItems (second :: more)).map (found :: ·) by
          rw [rereadItems, hreread]
          cases rereadItems (second :: more) <;> rfl]
      simp [Option.map_map, Function.comp_def]

theorem rereadMembers_cons_some {name : String} {value found : Json}
    (hreread : value.reread = some found) (more : List (String × Json)) :
    rereadMembers ((name, value) :: more) = (rereadMembers more).map ((name, found) :: ·) := by
  rw [rereadMembers, hreread]
  cases rereadMembers more <;> rfl

/-- A member is read up to what follows its value. -/
theorem members_member (name : String) {value : Json} (hread : value.ReadsBack) (fuel depth : Nat)
    (rest : List Char) (hfuel : (chars value).length ≤ fuel) (hdepth : value.depth ≤ depth)
    (hreadable : value.Readable) (hrest : Ends rest) :
    members (fuel + 1) depth (stringChars name ++ ':' :: (chars value ++ rest)) =
      match value.reread with
      | none => none
      | some found =>
        match skipBlank rest with
        | ',' :: rest =>
          (members fuel depth rest).map fun (more, rest) ↦ ((name, found) :: more, rest)
        | '}' :: rest => some ([(name, found)], rest)
        | _ => none := by
  have hvalue := hread fuel depth rest hfuel hdepth hreadable hrest
  have hname := stringBody_escaped name.toList (':' :: (chars value ++ rest))
  simp only [members, stringChars, List.cons_append, List.append_assoc,
    skipBlank_of_not_blank (show isBlank '"' = false by decide), List.nil_append, hname,
    skipBlank_of_not_blank (show isBlank ':' = false by decide), hvalue, String.ofList_toList]
  cases value.reread <;> rfl

theorem members_memberChars {name : String} {value : Json} {more : List (String × Json)}
    (hread : ∀ member ∈ (name, value) :: more, member.2.ReadsBack) (fuel depth : Nat)
    (rest : List Char) (hfuel : (memberChars ((name, value) :: more)).length + 1 ≤ fuel)
    (hdepth : depthMembers ((name, value) :: more) ≤ depth)
    (hreadable : ReadableMembers ((name, value) :: more)) :
    members fuel depth (memberChars ((name, value) :: more) ++ '}' :: rest) =
      (rereadMembers ((name, value) :: more)).map (·, rest) := by
  induction more generalizing name value fuel with
  | nil =>
    obtain ⟨fuel, rfl⟩ : ∃ k, fuel = k + 1 := ⟨fuel - 1, by omega⟩
    simp only [memberChars, List.length_append, List.length_cons] at hfuel
    simp only [depthMembers, Nat.max_le] at hdepth
    have hfirst : value.ReadsBack := hread (name, value) (by simp)
    have hmember := members_member name hfirst fuel depth ('}' :: rest) (by omega) hdepth.1 hreadable.1 (ends_cons (by simp))
    simp only [memberChars, List.append_assoc, List.cons_append, hmember,
      skipBlank_of_not_blank (show isBlank '}' = false by decide)]
    cases hreread : value.reread <;> simp [rereadMembers, hreread]
  | cons second more ih =>
    obtain ⟨fuel, rfl⟩ : ∃ k, fuel = k + 1 := ⟨fuel - 1, by omega⟩
    obtain ⟨nextName, nextValue⟩ := second
    simp only [memberChars, List.length_append, List.length_cons] at hfuel
    simp only [depthMembers, Nat.max_le] at hdepth
    have hfirst : value.ReadsBack := hread (name, value) (by simp)
    have hmember := members_member name hfirst fuel depth
      (',' :: (memberChars ((nextName, nextValue) :: more) ++ '}' :: rest)) (by omega) hdepth.1 hreadable.1
      (ends_cons (by simp))
    have hothers := ih (fun member h ↦ hread member (List.mem_cons_of_mem _ h)) fuel
      (by omega) (by simpa [depthMembers, Nat.max_le] using hdepth.2) hreadable.2
    simp only [memberChars, List.append_assoc, List.cons_append, hmember,
      skipBlank_of_not_blank (show isBlank ',' = false by decide), hothers]
    cases hreread : value.reread with
    | none => simp [rereadMembers, hreread]
    | some found =>
      simp [rereadMembers_cons_some hreread, Option.map_map, Function.comp_def]

theorem keys_rereadMembers {members found : List (String × Json)}
    (h : rereadMembers members = some found) : Entries.keys found = Entries.keys members := by
  induction members generalizing found with
  | nil =>
    obtain rfl := Option.some.inj h
    rfl
  | cons member more ih =>
    obtain ⟨name, value⟩ := member
    cases hvalue : value.reread with
    | none => simp [rereadMembers, hvalue] at h
    | some first =>
      rw [rereadMembers_cons_some hvalue, Option.map_eq_some_iff] at h
      obtain ⟨others, hothers, rfl⟩ := h
      have hkeys := ih hothers
      simp only [Entries.keys, List.map_cons, List.cons.injEq, true_and] at hkeys ⊢
      exact hkeys

theorem readsBack_array {items : List Json} (hread : ∀ item ∈ items, item.ReadsBack) :
    (Json.array items).ReadsBack := by
  intro fuel depth rest hfuel hdepth hreadable _
  have hpos := length_chars_pos (.array items)
  obtain ⟨fuel, rfl⟩ : ∃ k, fuel = k + 1 := ⟨fuel - 1, by omega⟩
  rw [Json.depth] at hdepth
  obtain ⟨depth, rfl⟩ : ∃ k, depth = k + 1 := ⟨depth - 1, by omega⟩
  cases items with
  | nil => simp [chars, itemChars, value, skipBlank, isBlank, reread, rereadItems]
  | cons first more =>
    simp only [chars, List.length_cons, List.length_append, List.length_nil] at hfuel
    have hitems := items_itemChars hread fuel depth rest (by omega) (by omega) hreadable
    obtain ⟨c, tail, hhead, hblank, hmarks⟩ := head_chars first
    have hclose : c ≠ ']' := List.ne_of_not_mem_cons hmarks
    obtain ⟨behind, hchars⟩ : ∃ behind, itemChars (first :: more) ++ ']' :: rest = c :: behind := by
      cases more <;> simp [itemChars, hhead]
    have hopen : value (fuel + 1) (depth + 1) ('[' :: c :: behind) =
        (Json.items fuel depth (c :: behind)).map fun found ↦ (Json.array found.1, found.2) := by
      rw [value, skipBlank_of_not_blank (by decide)]
      simp [skipBlank_of_not_blank hblank, hclose]
    simp only [chars, List.cons_append, List.append_assoc, List.nil_append]
    rw [hchars, hopen, ← hchars, hitems, reread, Option.map_map, Option.map_map]
    rfl

theorem readsBack_object {members : List (String × Json)}
    (hread : ∀ member ∈ members, member.2.ReadsBack) : (Json.object members).ReadsBack := by
  intro fuel depth rest hfuel hdepth hreadable _
  have hpos := length_chars_pos (.object members)
  obtain ⟨fuel, rfl⟩ : ∃ k, fuel = k + 1 := ⟨fuel - 1, by omega⟩
  rw [Json.depth] at hdepth
  obtain ⟨depth, rfl⟩ : ∃ k, depth = k + 1 := ⟨depth - 1, by omega⟩
  obtain ⟨hnodup, hreadable⟩ := hreadable
  cases members with
  | nil => simp [chars, memberChars, value, skipBlank, isBlank, reread, rereadMembers]
  | cons first more =>
    obtain ⟨name, held⟩ := first
    simp only [chars, List.length_cons, List.length_append, List.length_nil] at hfuel
    have hmembers := members_memberChars hread fuel depth rest (by omega) (by omega) hreadable
    obtain ⟨behind, hchars⟩ :
        ∃ behind, memberChars ((name, held) :: more) ++ '}' :: rest = '"' :: behind := by
      cases more <;> simp [memberChars, stringChars]
    have hopen : value (fuel + 1) (depth + 1) ('{' :: '"' :: behind) =
        (Json.members fuel depth ('"' :: behind)).map fun (found, rest) ↦
          (Json.object (Entries.ofList found), rest) := by
      rw [value, skipBlank_of_not_blank (by decide)]
      simp [skipBlank_of_not_blank (show isBlank '"' = false by decide)]
    simp only [chars, List.cons_append, List.append_assoc, List.nil_append]
    rw [hchars, hopen, ← hchars, hmembers, reread]
    cases hreread : rereadMembers ((name, held) :: more) with
    | none => rfl
    | some found =>
      have hkeys : (Entries.keys found).Nodup := by rwa [keys_rereadMembers hreread]
      simp [Entries.ofList_of_nodup hkeys]

theorem readsBack (json : Json) : json.ReadsBack := by
  induction json using Json.induction with
  | array items ih => exact readsBack_array ih
  | object members ih => exact readsBack_object ih
  | null =>
    intro fuel depth rest hfuel _ _ _
    obtain ⟨fuel, rfl⟩ : ∃ k, fuel = k + 1 := ⟨fuel - 1, by simp [chars] at hfuel; omega⟩
    simp [chars, value, skipBlank, isBlank, reread]
  | bool flag =>
    intro fuel depth rest hfuel _ _ _
    have hpos := length_chars_pos (.bool flag)
    obtain ⟨fuel, rfl⟩ : ∃ k, fuel = k + 1 := ⟨fuel - 1, by omega⟩
    cases flag <;> simp [chars, value, skipBlank, isBlank, reread]
  | integer n =>
    intro fuel depth rest hfuel _ hreadable hrest
    have hpos := length_chars_pos (.integer n)
    obtain ⟨fuel, rfl⟩ : ∃ k, fuel = k + 1 := ⟨fuel - 1, by omega⟩
    exact value_intChars fuel depth hreadable.1 hreadable.2 hrest
  | float x =>
    intro fuel depth rest hfuel _ _ hrest
    have hpos := length_chars_pos (.float x)
    obtain ⟨fuel, rfl⟩ : ∃ k, fuel = k + 1 := ⟨fuel - 1, by omega⟩
    rw [exists_value_float x fuel depth rest hrest, reread, Option.map_map]
    rfl
  | string text =>
    intro fuel depth rest hfuel _ _ _
    have hpos := length_chars_pos (.string text)
    obtain ⟨fuel, rfl⟩ : ∃ k, fuel = k + 1 := ⟨fuel - 1, by omega⟩
    have hbody := stringBody_escaped text.toList rest
    simp [chars, stringChars, value, skipBlank, isBlank, reread, hbody]

theorem parse_compact {json : Json} (hreadable : json.Readable) (hdepth : json.depth ≤ depthLimit) :
    parse (compact json) = json.reread := by
  have hread := readsBack json (2 * (chars json).length + 2) depthLimit [] (by omega) hdepth hreadable
    ends_nil
  rw [List.append_nil] at hread
  rw [parse_compact_eq, parseChars, hread]
  cases json.reread <;> simp [skipBlank]

/-! ## What reading back keeps -/

/-- The text of a floating-point number reads as that number. -/
def FloatReadsBack (x : Decimal.Finite) : Prop := parse (compact (.float x)) = some (.float x)

theorem floatReadsBack_iff {x : Decimal.Finite} : FloatReadsBack x ↔ rereadFloat x = some x := by
  unfold FloatReadsBack rereadFloat
  split
  · rename_i y h
    simp [h]
  · rename_i h
    simp only [reduceCtorEq, iff_false]
    exact h x

instance (x : Decimal.Finite) : Decidable (FloatReadsBack x) := decidable_of_iff _ floatReadsBack_iff.symm

/-- One half. -/
def half : Decimal.Finite := ⟨false, 4602678819172646912⟩

theorem floatReadsBack_half : FloatReadsBack half := by
  decide +kernel

/-- A member is read back under its name. -/
theorem get?_rereadMembers {members found : List (String × Json)} (name : String)
    (h : rereadMembers members = some found) :
    (Entries.get? members name = none ∧ Entries.get? found name = none) ∨
      ∃ value other, Entries.get? members name = some value ∧ Entries.get? found name = some other ∧
        value.reread = some other := by
  induction members generalizing found with
  | nil =>
    obtain rfl := Option.some.inj h
    exact .inl ⟨rfl, rfl⟩
  | cons member more ih =>
    obtain ⟨key, value⟩ := member
    cases hvalue : value.reread with
    | none => simp [rereadMembers, hvalue] at h
    | some first =>
      rw [rereadMembers_cons_some hvalue, Option.map_eq_some_iff] at h
      obtain ⟨others, hothers, rfl⟩ := h
      by_cases hkey : key = name
      · exact .inr ⟨value, first, by simp [Entries.get?, hkey], by simp [Entries.get?, hkey], hvalue⟩
      · simpa [Entries.get?, hkey] using ih hothers

theorem string?_of_reread {json found : Json} (h : json.reread = some found) :
    found.string? = json.string? := by
  cases json <;> simp only [reread, Option.map_eq_some_iff, Option.some.injEq] at h <;>
    first
    | (subst h; rfl)
    | (obtain ⟨_, -, rfl⟩ := h; rfl)

/-- Reading text back keeps what an object stands for. -/
theorem typeName?_of_reread {json found : Json} (h : json.reread = some found) :
    found.typeName? = json.typeName? := by
  cases json with
  | object members =>
    rw [reread, Option.map_eq_some_iff] at h
    obtain ⟨others, hothers, rfl⟩ := h
    simp only [typeName?, get?]
    obtain ⟨hmissing, hstill⟩ | ⟨value, other, hvalue, hother, hreread⟩ :=
      get?_rereadMembers "type" hothers
    · rw [hmissing, hstill]
    · simp [hvalue, hother, string?_of_reread hreread]
  | array items =>
    rw [reread, Option.map_eq_some_iff] at h
    obtain ⟨others, -, rfl⟩ := h
    rfl
  | float x =>
    rw [reread, Option.map_eq_some_iff] at h
    obtain ⟨y, -, rfl⟩ := h
    rfl
  | _ =>
    obtain rfl := Option.some.inj h
    rfl

end Json

end PortableQuery
