import Mathlib.Data.List.Nodup
import PortableQuery.Dynamo.Attribute
import PortableQuery.Proofs.Json.Scalar

/-!
# Attributes by their JSON text

Attributes are told apart by the compact text of their JSON. There are no numbers in this JSON, as
those of an attribute travel as text, so every part of the text ends by itself: nothing that is
written behind a part can be taken for a piece of it. Octets are read back from their base64.
-/

namespace PortableQuery

namespace Dynamo

/-! ## Base64 -/

/-- The place of a character in the alphabet. -/
def sextet (c : Char) : Nat := ((List.range 64).map base64Char).idxOf c

/-- The octets of a text in base64. -/
def base64Octets : List Char → List UInt8
  | a :: b :: c :: d :: rest =>
    let first := sextet a * 4 + sextet b / 16
    let second := sextet b % 16 * 16 + sextet c / 4
    let third := sextet c % 4 * 64 + sextet d
    if c = '=' then [.ofNat first]
    else if d = '=' then [.ofNat first, .ofNat second]
    else .ofNat first :: .ofNat second :: .ofNat third :: base64Octets rest
  | _ => []

theorem toNat_base64Char : ∀ n < 64, (base64Char n).toNat =
    if n < 26 then 65 + n else if n < 52 then 71 + n else if n < 62 then n - 4
    else if n = 62 then 43 else 47 := by decide

theorem base64Char_inj {m n : Nat} (hm : m < 64) (hn : n < 64) (h : base64Char m = base64Char n) :
    m = n := by
  have hcode := congrArg Char.toNat h
  rw [toNat_base64Char m hm, toNat_base64Char n hn] at hcode
  grind

theorem sextet_base64Char {n : Nat} (hn : n < 64) : sextet (base64Char n) = n := by
  have hdistinct : ((List.range 64).map base64Char).Nodup :=
    List.nodup_range.map_on fun _ hm _ hn ↦
      base64Char_inj (List.mem_range.mp hm) (List.mem_range.mp hn)
  have hlength : n < ((List.range 64).map base64Char).length := by simpa using hn
  have hchar : ((List.range 64).map base64Char)[n] = base64Char n := by simp
  rw [sextet, ← hchar, hdistinct.idxOf_getElem]

theorem base64Char_ne_padding {n : Nat} (hn : n < 64) : base64Char n ≠ '=' := by
  have halphabet : ∀ n < 64, base64Char n ≠ '=' := by decide
  exact halphabet n hn

theorem ofNat_eq_of_eq_toNat (octet : UInt8) {n : Nat} (h : n = octet.toNat) :
    UInt8.ofNat n = octet := by
  rw [h, UInt8.ofNat_toNat]

theorem base64Octets_base64Chars (octets : List UInt8) :
    base64Octets (base64Chars octets) = octets := by
  induction octets using base64Chars.induct with
  | case1 a b c rest ih =>
    have ha := a.toNat_lt
    have hb := b.toNat_lt
    have hc := c.toNat_lt
    simp (disch := omega) only [base64Chars, base64Octets, sextet_base64Char,
      base64Char_ne_padding, if_false]
    rw [ofNat_eq_of_eq_toNat a (by omega), ofNat_eq_of_eq_toNat b (by omega),
      ofNat_eq_of_eq_toNat c (by omega), ih]
  | case2 a b =>
    have ha := a.toNat_lt
    have hb := b.toNat_lt
    simp (disch := omega) only [base64Chars, base64Octets, sextet_base64Char,
      base64Char_ne_padding, if_false, if_true]
    rw [ofNat_eq_of_eq_toNat a (by omega), ofNat_eq_of_eq_toNat b (by omega)]
  | case3 a =>
    have ha := a.toNat_lt
    simp (disch := omega) only [base64Chars, base64Octets, sextet_base64Char, if_true]
    rw [ofNat_eq_of_eq_toNat a (by omega)]
  | case4 => rfl

theorem base64_inj {octets others : List UInt8} : base64 octets = base64 others ↔ octets = others := by
  constructor
  · intro h
    have hchars : base64Chars octets = base64Chars others := String.ofList_injective h
    rw [← base64Octets_base64Chars octets, hchars, base64Octets_base64Chars]
  · exact congrArg base64

end Dynamo

namespace Json

/-! ## Texts that end by themselves -/

/-- Values without numbers. -/
inductive Numberless : Json → Prop
  | null : Numberless .null
  | bool (value : Bool) : Numberless (.bool value)
  | string (text : String) : Numberless (.string text)
  | array {items : List Json} (each : ∀ item ∈ items, Numberless item) : Numberless (.array items)
  | object {members : List (String × Json)} (each : ∀ member ∈ members, Numberless member.2) :
      Numberless (.object members)

theorem stringChars_append_inj {text other : String} {rest rest' : List Char}
    (h : stringChars text ++ rest = stringChars other ++ rest') : text = other ∧ rest = rest' := by
  simp only [stringChars, List.cons_append, List.append_assoc, List.cons_inj_right,
    List.nil_append] at h
  have hread := stringBody_escaped text.toList rest
  rw [h, stringBody_escaped] at hread
  obtain ⟨htext, hrest⟩ := Prod.mk.inj (Option.some.inj hread)
  exact ⟨(String.toList_inj.mp htext).symm, hrest.symm⟩

theorem itemChars_cons (item : Json) (more : List Json) :
    itemChars (item :: more) = chars item ++ more.flatMap fun next ↦ ',' :: chars next := by
  induction more generalizing item with
  | nil => rw [itemChars, List.flatMap_nil, List.append_nil]
  | cons next others ih =>
    rw [itemChars, ih, List.flatMap_cons, List.cons_append]
    exact List.cons_ne_nil _ _

def memberText (member : String × Json) : List Char := stringChars member.1 ++ ':' :: chars member.2

theorem memberChars_cons (member : String × Json) (more : List (String × Json)) :
    memberChars (member :: more) = memberText member ++ more.flatMap fun next ↦ ',' :: memberText next := by
  induction more generalizing member with
  | nil => rw [memberChars, List.flatMap_nil, List.append_nil, memberText]
  | cons next others ih =>
    rw [memberChars, ih]
    · simp [memberText]
    · exact List.cons_ne_nil _ _

section Commas

variable {α : Type} {text : α → List Char} {close : Char} {items others : List α}
  {rest rest' : List Char}

/-- Texts with a comma in front of each, and a bracket behind them. -/
theorem flatMap_comma_append_inj (hclose : close ≠ ',')
    (distinct : ∀ item ∈ items, ∀ other ∈ others, ∀ {rest rest' : List Char},
      text item ++ rest = text other ++ rest' → item = other ∧ rest = rest')
    (h : (items.flatMap fun item ↦ ',' :: text item) ++ close :: rest =
      (others.flatMap fun other ↦ ',' :: text other) ++ close :: rest') :
    items = others ∧ rest = rest' := by
  induction items generalizing others with
  | nil =>
    cases others with
    | nil => simpa using h
    | cons other others => simp [hclose] at h
  | cons item items ih =>
    cases others with
    | nil => simp [Ne.symm hclose] at h
    | cons other others =>
      simp only [List.flatMap_cons, List.cons_append, List.cons_inj_right, List.append_assoc] at h
      obtain ⟨rfl, hmore⟩ := distinct item List.mem_cons_self other List.mem_cons_self h
      obtain ⟨rfl, hrest⟩ := ih (fun item hitem other hother ↦
        distinct item (List.mem_cons_of_mem _ hitem) other (List.mem_cons_of_mem _ hother)) hmore
      exact ⟨rfl, hrest⟩

/-- Texts with commas between them, none of which begins with the bracket behind them. -/
theorem commas_append_inj {body : List α → List Char} (body_nil : body [] = [])
    (body_cons : ∀ item more, body (item :: more) =
      text item ++ more.flatMap fun next ↦ ',' :: text next)
    (hclose : close ≠ ',')
    (starts : ∀ item ∈ items ++ others, ∃ c more, text item = c :: more ∧ c ≠ close)
    (distinct : ∀ item ∈ items, ∀ other ∈ others, ∀ {rest rest' : List Char},
      text item ++ rest = text other ++ rest' → item = other ∧ rest = rest')
    (h : body items ++ close :: rest = body others ++ close :: rest') :
    items = others ∧ rest = rest' := by
  cases items with
  | nil =>
    cases others with
    | nil => simpa [body_nil] using h
    | cons other others =>
      obtain ⟨c, more, htext, hc⟩ := starts other (by simp)
      simp [body_nil, body_cons, htext, Ne.symm hc] at h
  | cons item items =>
    cases others with
    | nil =>
      obtain ⟨c, more, htext, hc⟩ := starts item (by simp)
      simp [body_nil, body_cons, htext, hc] at h
    | cons other others =>
      rw [body_cons, body_cons, List.append_assoc, List.append_assoc] at h
      obtain ⟨rfl, hmore⟩ := distinct item List.mem_cons_self other List.mem_cons_self h
      obtain ⟨rfl, hrest⟩ := flatMap_comma_append_inj hclose (fun item hitem other hother ↦
        distinct item (List.mem_cons_of_mem _ hitem) other (List.mem_cons_of_mem _ hother)) hmore
      exact ⟨rfl, hrest⟩

end Commas

theorem Numberless.starts {json : Json} (h : json.Numberless) :
    ∃ c more, json.chars = c :: more ∧ c ≠ ']' := by
  cases h with
  | bool value => cases value <;> exact ⟨_, _, rfl, by decide⟩
  | _ => exact ⟨_, _, rfl, by decide⟩

/-- The text of a value without numbers determines the value and where the text ends. -/
theorem Numberless.append_inj {json other : Json} (first : json.Numberless) (second : other.Numberless)
    {rest rest' : List Char} (h : json.chars ++ rest = other.chars ++ rest') :
    json = other ∧ rest = rest' := by
  induction first generalizing other rest rest' with
  | null =>
    cases second with
    | null => exact ⟨rfl, List.append_cancel_left h⟩
    | bool value => cases value <;> simp [chars] at h
    | _ => simp [chars, stringChars] at h
  | bool value =>
    cases second with
    | bool other =>
      have hvalue : value = other := by
        cases value <;> cases other <;> first | rfl | simp [chars] at h
      subst hvalue
      exact ⟨rfl, List.append_cancel_left h⟩
    | _ => cases value <;> simp [chars, stringChars] at h
  | string text =>
    cases second with
    | string other =>
      obtain ⟨rfl, hrest⟩ := stringChars_append_inj h
      exact ⟨rfl, hrest⟩
    | bool value => cases value <;> simp [chars, stringChars] at h
    | _ => simp [chars, stringChars] at h
  | @array items each ih =>
    cases second with
    | @array others hothers =>
      simp only [chars, List.cons_append, List.cons_inj_right, List.append_assoc,
        List.nil_append] at h
      obtain ⟨rfl, hrest⟩ := commas_append_inj (by rw [itemChars]) itemChars_cons (by decide)
        (fun item hitem ↦ (List.forall_mem_append.mpr ⟨each, hothers⟩ item hitem).starts)
        (fun item hitem other hother ↦ ih item hitem (hothers other hother)) h
      exact ⟨rfl, hrest⟩
    | bool value => cases value <;> simp [chars] at h
    | _ => simp [chars, stringChars] at h
  | @object members each ih =>
    cases second with
    | @object others hothers =>
      have hmember : ∀ member ∈ members, ∀ other ∈ others, ∀ {rest rest' : List Char},
          memberText member ++ rest = memberText other ++ rest' → member = other ∧ rest = rest' := by
        intro member hmember other hother rest rest' h
        rw [memberText, memberText, List.append_assoc, List.append_assoc] at h
        obtain ⟨hname, hvalue⟩ := stringChars_append_inj h
        obtain ⟨hheld, hrest⟩ := ih member hmember (hothers other hother) (List.cons.inj hvalue).2
        exact ⟨Prod.ext hname hheld, hrest⟩
      simp only [chars, List.cons_append, List.cons_inj_right, List.append_assoc,
        List.nil_append] at h
      obtain ⟨rfl, hrest⟩ := commas_append_inj (by rw [memberChars]) memberChars_cons (by decide)
        (fun member _ ↦ ⟨_, _, rfl, by decide⟩) hmember h
      exact ⟨rfl, hrest⟩
    | bool value => cases value <;> simp [chars] at h
    | _ => simp [chars, stringChars] at h

theorem compact_inj {json other : Json} (first : json.Numberless) (second : other.Numberless) :
    json.compact = other.compact ↔ json = other := by
  constructor
  · intro h
    have hchars : json.chars ++ [] = other.chars ++ [] :=
      congrArg (· ++ []) (String.ofList_injective h)
    exact (first.append_inj second hchars).1
  · exact congrArg compact

end Json

namespace Dynamo.Attribute

/-! ## Attributes -/

theorem numberless_member {json : Json} (name : String) (h : json.Numberless) :
    (Json.object [(name, json)]).Numberless :=
  .object (List.forall_mem_singleton.mpr h)

theorem numberless_texts (texts : List String) : (Json.array (texts.map .string)).Numberless :=
  .array (List.forall_mem_map.mpr fun text _ ↦ .string text)

mutual

theorem numberless_toJson : ∀ held : Attribute, held.toJson.Numberless
  | .string text => numberless_member "S" (.string text)
  | .number text => numberless_member "N" (.string text)
  | .binary _ => numberless_member "B" (.string _)
  | .stringSet texts => numberless_member "SS" (numberless_texts texts)
  | .numberSet texts => numberless_member "NS" (numberless_texts texts)
  | .list items => numberless_member "L" (.array (numberless_toJsonItems items))
  | .map entries => numberless_member "M" (.object (numberless_toJsonEntries entries))
  | .null => numberless_member "NULL" (.bool true)
  | .bool value => numberless_member "BOOL" (.bool value)

theorem numberless_toJsonItems : ∀ items, ∀ json ∈ toJsonItems items, json.Numberless
  | [] => List.forall_mem_nil _
  | item :: more => List.forall_mem_cons.mpr ⟨numberless_toJson item, numberless_toJsonItems more⟩

theorem numberless_toJsonEntries :
    ∀ entries, ∀ member ∈ toJsonEntries entries, member.2.Numberless
  | [] => List.forall_mem_nil _
  | (_, held) :: more =>
    List.forall_mem_cons.mpr ⟨numberless_toJson held, numberless_toJsonEntries more⟩

end

theorem texts_inj {texts others : List String} :
    texts.map Json.string = others.map Json.string ↔ texts = others :=
  List.map_inj_right fun _ _ ↦ Json.string.inj

mutual

theorem toJson_inj : ∀ held other : Attribute, held.toJson = other.toJson ↔ held = other
  | .string _, other => by cases other <;> simp [toJson]
  | .number _, other => by cases other <;> simp [toJson]
  | .binary _, other => by cases other <;> simp [toJson, base64_inj]
  | .stringSet _, other => by cases other <;> simp [toJson, texts_inj]
  | .numberSet _, other => by cases other <;> simp [toJson, texts_inj]
  | .list items, other => by cases other <;> simp [toJson, toJsonItems_inj items]
  | .map entries, other => by cases other <;> simp [toJson, toJsonEntries_inj entries]
  | .null, other => by cases other <;> simp [toJson]
  | .bool _, other => by cases other <;> simp [toJson]

theorem toJsonItems_inj :
    ∀ items others : List Attribute, toJsonItems items = toJsonItems others ↔ items = others
  | [], others => by cases others <;> simp [toJsonItems]
  | item :: more, others => by
    cases others with
    | nil => simp [toJsonItems]
    | cons other others => simp [toJsonItems, toJson_inj item, toJsonItems_inj more]

theorem toJsonEntries_inj : ∀ entries others : List (String × Attribute),
    toJsonEntries entries = toJsonEntries others ↔ entries = others
  | [], others => by cases others <;> simp [toJsonEntries]
  | (name, held) :: more, others => by
    cases others with
    | nil => simp [toJsonEntries]
    | cons other others =>
      obtain ⟨name', held'⟩ := other
      simp [toJsonEntries, toJson_inj held, toJsonEntries_inj more]

end

/-- The text under which a value is looked up. -/
def jsonText (held : Attribute) : String := held.toJson.compact

theorem jsonText_inj {held other : Attribute} : held.jsonText = other.jsonText ↔ held = other := by
  rw [jsonText, jsonText, Json.compact_inj held.numberless_toJson other.numberless_toJson,
    toJson_inj]

end Dynamo.Attribute

end PortableQuery
