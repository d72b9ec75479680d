import PortableQuery.Proofs.Wire.Sentinel
import PortableQuery.Wire.Decode

/-!
# Literals on the wire

A literal is carried by JSON if it holds no bytes, only finite numbers and no name twice in a map.
Such a literal comes back from its JSON text exactly if each of its floating-point numbers comes back
from its own text: everything else is read as it was written.
-/

namespace PortableQuery

open Text Calendar Wire

namespace Literal

/-- Induction over literals, with the items of lists and the entries of maps as members. -/
theorem induction {P : Literal → Prop} (null : P .null) (bool : ∀ value, P (.bool value))
    (int : ∀ value, P (.int value)) (float : ∀ value, P (.float value))
    (string : ∀ value, P (.string value)) (date : ∀ value, P (.date value))
    (bytes : ∀ value, P (.bytes value)) (list : ∀ items, (∀ item ∈ items, P item) → P (.list items))
    (map : ∀ entries, (∀ entry ∈ entries, P entry.2) → P (.map entries)) (literal : Literal) :
    P literal := by
  refine @Literal.rec P (fun items ↦ ∀ item ∈ items, P item) (fun entries ↦ ∀ entry ∈ entries, P entry.2)
    (fun entry ↦ P entry.2) null bool int float string date bytes list map ?_ ?_ ?_ ?_ ?_ literal
  · simp
  · intro item more hitem hmore
    exact List.forall_mem_cons.mpr ⟨hitem, hmore⟩
  · simp
  · intro entry more hentry hmore
    exact List.forall_mem_cons.mpr ⟨hentry, hmore⟩
  · intro name value hvalue
    exact hvalue

mutual

/-- Literals that JSON can hold: no bytes, only finite numbers, and no name twice in a map. -/
def Carried : Literal → Prop
  | .float value => ∃ number, value = .finite number
  | .bytes _ => False
  | .list items => CarriedItems items
  | .map entries => (Entries.keys entries).Nodup ∧ CarriedEntries entries
  | _ => True

def CarriedItems : List Literal → Prop
  | [] => True
  | item :: more => item.Carried ∧ CarriedItems more

def CarriedEntries : List (String × Literal) → Prop
  | [] => True
  | (_, value) :: more => value.Carried ∧ CarriedEntries more

end

mutual

/-- The finite floating-point numbers in a literal. -/
def floats : Literal → List Decimal.Finite
  | .float (.finite number) => [number]
  | .list items => floatsItems items
  | .map entries => floatsEntries entries
  | _ => []

def floatsItems : List Literal → List Decimal.Finite
  | [] => []
  | item :: more => item.floats ++ floatsItems more

def floatsEntries : List (String × Literal) → List Decimal.Finite
  | [] => []
  | (_, value) :: more => value.floats ++ floatsEntries more

end

/-- A map that a reader of expressions takes for a select. -/
def IsSelectLike : Literal → Prop
  | .map entries => Entries.get? entries "type" = some (.string "SelectQuery")
  | _ => False

theorem carriedItems_iff {items : List Literal} :
    CarriedItems items ↔ ∀ item ∈ items, item.Carried := by
  induction items with
  | nil => simp [CarriedItems]
  | cons item more ih => simp [CarriedItems, ih]

theorem carriedEntries_iff {entries : List (String × Literal)} :
    CarriedEntries entries ↔ ∀ entry ∈ entries, entry.2.Carried := by
  induction entries with
  | nil => simp [CarriedEntries]
  | cons entry more ih => simp [CarriedEntries, ih]

theorem toJsonItems_eq (items : List Literal) : toJsonItems items = items.map toJson := by
  induction items with
  | nil => rfl
  | cons item more ih => simp [toJsonItems, ih]

theorem toJsonEntries_eq (entries : List (String × Literal)) :
    toJsonEntries entries = entries.map fun entry ↦ (entry.1, entry.2.toJson) := by
  induction entries with
  | nil => rfl
  | cons entry more ih => simp [toJsonEntries, ih]

theorem keys_toJsonEntries (entries : List (String × Literal)) :
    Entries.keys (toJsonEntries entries) = Entries.keys entries := by
  simp [toJsonEntries_eq, Entries.keys, Function.comp_def]

theorem readable_toJson {literal : Literal} (h : literal.Carried) : literal.toJson.Readable := by
  induction literal using Literal.induction with
  | int value =>
    have hlow := value.le_toInt
    have hhigh := value.toInt_lt
    simp only [toJson, Json.Readable]
    constructor <;> omega
  | float value =>
    obtain ⟨number, rfl⟩ := h
    simp [toJson, floatJson, Json.Readable]
  | bytes octets => exact h.elim
  | list items ih =>
    have hitems := carriedItems_iff.mp h
    simp only [toJson, Json.Readable, Json.readableItems_iff, toJsonItems_eq, List.forall_mem_map]
    intro item hitem
    exact ih item hitem (hitems item hitem)
  | map entries ih =>
    have hentries := carriedEntries_iff.mp h.2
    simp only [toJson, Json.Readable, keys_toJsonEntries]
    refine ⟨h.1, ?_⟩
    simp only [Json.readableMembers_iff, toJsonEntries_eq, List.forall_mem_map]
    intro entry hentry
    exact ih entry hentry (hentries entry hentry)
  | _ => simp [toJson, Json.Readable]

/-! ## Strings and dates -/

theorem ofMillis?_millis (instant : Instant) : Instant.ofMillis? instant.millis = some instant := by
  rw [Instant.ofMillis?, dif_pos ⟨instant.lower, instant.upper⟩]

/-- Every instant has its milliseconds in a 64-bit word. -/
theorem exists_int64?_millis (instant : Instant) :
    ∃ word, Numeral.int64? instant.millis = some word ∧ word.toInt = instant.millis := by
  have hlow : Int64.minValue.toInt ≤ instant.millis := Int.le_trans (by decide) instant.lower
  have hhigh : instant.millis ≤ Int64.maxValue.toInt := Int.le_trans instant.upper (by decide)
  have hword : Numeral.int64? instant.millis = some (Int64.ofInt instant.millis) := by
    rw [Numeral.int64?, if_pos ⟨hlow, hhigh⟩]
  exact ⟨_, hword, Numeral.toInt_of_int64? hword⟩

theorem startsWith_valueMark (text : String) : startsWith valueMark (valueMark ++ text) = true := by
  simp [startsWith, valueMark]

theorem dropValueMark_append (text : String) : dropValueMark (valueMark ++ text) = text := by
  simp [dropValueMark, valueMark]

theorem dropValueMark_of_not_startsWith {text : String} (h : startsWith valueMark text = false) :
    dropValueMark text = text := by
  unfold dropValueMark
  split
  · rename_i rest htext
    simp [startsWith, valueMark, htext] at h
  · rfl

theorem classify_ne_date_of_not_startsWith {text : String} (h : startsWith dateMark text = false)
    (word : Int64) : Sentinel.classify text ≠ some (.date word) := by
  intro hdate
  unfold Sentinel.classify Sentinel.ofChars? at hdate
  split at hdate
  case h_2 rest htext => simp [startsWith, dateMark, htext] at h
  all_goals simp at hdate

theorem ofJsonString_toJson (text : String) :
    ofJsonString (if needsEscape text then valueMark ++ text else text) = .string text := by
  cases hescape : needsEscape text with
  | true => simp [ofJsonString, startsWith_valueMark, dropValueMark_append]
  | false =>
    simp only [needsEscape, Bool.or_eq_false_iff] at hescape
    have hplain := classify_ne_date_of_not_startsWith hescape.2
    rw [if_neg (by decide), ofJsonString, if_neg (by simp [hescape.1])]
    split
    · rename_i millis hdate
      exact absurd hdate (hplain millis)
    · rfl

theorem ofJsonString_dateText (instant : Instant) :
    ofJsonString (dateText instant.millis) = .date instant := by
  obtain ⟨word, hword, hmillis⟩ := exists_int64?_millis instant
  have hmark : startsWith valueMark (dateText instant.millis) = false := by
    simp [startsWith, valueMark, dateText, dateMark, List.isPrefixOf]
  simp [ofJsonString, hmark, Sentinel.classify_dateText hword, hmillis, ofMillis?_millis]

theorem ofJsonInteger_toInt (word : Int64) : ofJsonInteger word.toInt = .int word := by
  rw [ofJsonInteger, Numeral.int64?_toInt]

/-! ## Reading back -/

/-- What a literal's JSON text reads as. -/
def reread (literal : Literal) : Option Literal := literal.toJson.reread.map ofJson

theorem map_rereadItems {items : List Literal} {p : Literal → Prop}
    (h : ∀ item ∈ items, (item.reread = some item ↔ p item)) :
    (Json.rereadItems (toJsonItems items)).map ofJsonItems = some items ↔ ∀ item ∈ items, p item := by
  induction items with
  | nil => simp [toJsonItems, Json.rereadItems, ofJsonItems]
  | cons item more ih =>
    obtain ⟨hitem, hmore⟩ := List.forall_mem_cons.mp h
    rw [List.forall_mem_cons, ← ih hmore, ← hitem, reread, toJsonItems, Json.rereadItems]
    cases item.toJson.reread <;> cases Json.rereadItems (toJsonItems more) <;> simp [ofJsonItems]

theorem map_rereadMembers (p : Literal → Prop) {entries : List (String × Literal)}
    (h : ∀ entry ∈ entries, (entry.2.reread = some entry.2 ↔ p entry.2)) :
    (Json.rereadMembers (toJsonEntries entries)).map ofJsonMembers = some entries ↔
      ∀ entry ∈ entries, p entry.2 := by
  induction entries with
  | nil => simp [toJsonEntries, Json.rereadMembers, ofJsonMembers]
  | cons entry more ih =>
    obtain ⟨name, value⟩ := entry
    obtain ⟨hvalue, hmore⟩ := List.forall_mem_cons.mp h
    rw [List.forall_mem_cons, ← ih hmore, ← hvalue, reread, toJsonEntries, Json.rereadMembers]
    cases value.toJson.reread <;> cases Json.rereadMembers (toJsonEntries more) <;>
      simp [ofJsonMembers]

theorem forall_mem_floatsItems {items : List Literal} {p : Decimal.Finite → Prop} :
    (∀ x ∈ floatsItems items, p x) ↔ ∀ item ∈ items, ∀ x ∈ item.floats, p x := by
  induction items with
  | nil => simp [floatsItems]
  | cons item more ih => simp only [floatsItems, List.forall_mem_append, List.forall_mem_cons, ih]

theorem forall_mem_floatsEntries {entries : List (String × Literal)} {p : Decimal.Finite → Prop} :
    (∀ x ∈ floatsEntries entries, p x) ↔ ∀ entry ∈ entries, ∀ x ∈ entry.2.floats, p x := by
  induction entries with
  | nil => simp [floatsEntries]
  | cons entry more ih => simp only [floatsEntries, List.forall_mem_append, List.forall_mem_cons, ih]

/-- A literal comes back from its JSON text exactly if its floating-point numbers do. -/
theorem reread_eq_self_iff {literal : Literal} (h : literal.Carried) :
    literal.reread = some literal ↔ ∀ x ∈ literal.floats, Json.FloatReadsBack x := by
  induction literal using Literal.induction with
  | null => simp [reread, toJson, Json.reread, ofJson, floats]
  | bool value => simp [reread, toJson, Json.reread, ofJson, floats]
  | int value => simp [reread, toJson, Json.reread, ofJson, floats, ofJsonInteger_toInt]
  | float value =>
    obtain ⟨number, rfl⟩ := h
    simp only [reread, toJson, floatJson, Json.reread, floats, List.mem_singleton, forall_eq,
      Json.floatReadsBack_iff, Option.map_map]
    cases Json.rereadFloat number <;> simp [ofJson]
  | string text => simp [reread, toJson, Json.reread, ofJson, floats, ofJsonString_toJson]
  | date instant => simp [reread, toJson, Json.reread, ofJson, floats, ofJsonString_dateText]
  | bytes octets => exact h.elim
  | list items ih =>
    have hitems := carriedItems_iff.mp h
    have hlist := map_rereadItems fun item hitem ↦ ih item hitem (hitems item hitem)
    rw [floats, forall_mem_floatsItems, ← hlist, reread, toJson, Json.reread]
    cases Json.rereadItems (toJsonItems items) <;> simp [ofJson]
  | map entries ih =>
    have hentries := carriedEntries_iff.mp h.2
    have hmap := map_rereadMembers (fun value ↦ ∀ x ∈ value.floats, Json.FloatReadsBack x)
      fun entry hentry ↦ ih entry hentry (hentries entry hentry)
    rw [floats, forall_mem_floatsEntries, ← hmap, reread, toJson, Json.reread]
    cases Json.rereadMembers (toJsonEntries entries) <;> simp [ofJson]

/-! ## Payloads -/

theorem ofPayload_of_string?_eq_none {json : Json} (h : json.string? = none) :
    ofPayload json = ofJson json := by
  cases json <;> first | rfl | simp [Json.string?] at h

/-- In the payload of a value sentinel as well, but a date has a sentinel of its own. -/
theorem map_ofPayload_iff {literal : Literal} (h : literal.Carried)
    (hdate : ∀ instant, literal ≠ .date instant) :
    literal.toJson.reread.map ofPayload = some literal ↔
      ∀ x ∈ literal.floats, Json.FloatReadsBack x := by
  rw [← reread_eq_self_iff h]
  cases hstring : literal.toJson.string? with
  | none =>
    have hsame : literal.toJson.reread.map ofPayload = literal.reread := by
      apply Option.map_congr
      intro json hjson
      exact ofPayload_of_string?_eq_none (by rw [Json.string?_of_reread hjson, hstring])
    rw [hsame]
  | some written =>
    cases literal with
    | string text =>
      have hpayload : dropValueMark (if needsEscape text then valueMark ++ text else text) = text := by
        cases hescape : needsEscape text with
        | true => exact dropValueMark_append text
        | false =>
          simp only [needsEscape, Bool.or_eq_false_iff] at hescape
          exact dropValueMark_of_not_startsWith hescape.1
      simp [reread, toJson, Json.reread, ofPayload, ofJson, hpayload, ofJsonString_toJson]
    | date instant => exact absurd rfl (hdate instant)
    | float value =>
      obtain ⟨number, rfl⟩ := h
      simp [toJson, floatJson, Json.string?] at hstring
    | _ => simp [toJson, Json.string?] at hstring

theorem get?_toJsonEntries (entries : List (String × Literal)) (name : String) :
    Entries.get? (toJsonEntries entries) name = (Entries.get? entries name).map toJson := by
  induction entries with
  | nil => rfl
  | cons entry more ih =>
    obtain ⟨key, value⟩ := entry
    by_cases hkey : key = name <;> simp [toJsonEntries, Entries.get?, hkey, ih]

theorem string?_toJson_eq_select {literal : Literal} :
    literal.toJson.string? = some "SelectQuery" ↔ literal = .string "SelectQuery" := by
  cases literal with
  | string text =>
    simp only [toJson, Json.string?, Option.some.injEq, Literal.string.injEq]
    cases hescape : needsEscape text with
    | true =>
      have hmarked : valueMark ++ text ≠ "SelectQuery" := by
        intro heq
        have hlists := congrArg String.toList heq
        simp [valueMark] at hlists
      have hneeds : text ≠ "SelectQuery" := by
        rintro rfl
        exact absurd hescape (by decide)
      simp [hmarked, hneeds]
    | false => simp
  | date instant =>
    have hdate : dateText instant.millis ≠ "SelectQuery" := by
      intro heq
      have hlists := congrArg String.toList heq
      simp [dateText, dateMark] at hlists
    simp [toJson, Json.string?, hdate]
  | float value => cases value <;> simp [toJson, floatJson, Json.string?]
  | _ => simp [toJson, Json.string?]

theorem isSelectJson_toJson_iff {literal : Literal} :
    isSelectJson literal.toJson = true ↔ literal.IsSelectLike := by
  cases literal with
  | map entries =>
    simp only [isSelectJson, toJson, Json.typeName?, Json.get?, get?_toJsonEntries, IsSelectLike,
      beq_iff_eq]
    cases Entries.get? entries "type" with
    | none => simp
    | some value => simpa using string?_toJson_eq_select
  | float value =>
    cases value <;> simp [isSelectJson, toJson, floatJson, Json.typeName?, Json.get?, IsSelectLike]
  | _ => simp [isSelectJson, toJson, Json.typeName?, Json.get?, IsSelectLike]

end Literal

end PortableQuery
