import PortableQuery.Proofs.Json.Parsed
import PortableQuery.Proofs.Wire.Provenance

/-!
# What the readers of queries produce

Whatever text a query is read from, its columns are plain, values stand where values are expected
and its literals can be carried by JSON: a lenient reader lands on queries that can be written.
-/

namespace PortableQuery

open Text Calendar Wire

/-! ## Numbers -/

namespace Decimal

theorem roundDiv_le (num den : Nat) : roundDiv num den ≤ num / den + 1 := by
  simp only [roundDiv]
  split_ifs <;> omega

/-- Shifted by all but fifty-three of its bits, a number rounds to at most `2 ^ 53`. -/
theorem roundDiv_shift_le (n : Nat) : roundDiv n (2 ^ (Nat.log2 n - 52)) ≤ 2 ^ 53 := by
  have hquotient : n / 2 ^ (Nat.log2 n - 52) < 2 ^ 53 := by
    rw [Nat.div_lt_iff_lt_mul (Nat.two_pow_pos _), ← Nat.pow_add]
    exact Nat.lt_of_lt_of_le Nat.lt_log2_self (Nat.pow_le_pow_right (by decide) (by omega))
  have hround := roundDiv_le n (2 ^ (Nat.log2 n - 52))
  omega

theorem log2_mul_two_pow_lt {n bits shift : Nat} (hbits : 0 < bits) (h : n < 2 ^ bits) :
    Nat.log2 (n * 2 ^ shift) < bits + shift := by
  by_cases hzero : n * 2 ^ shift = 0
  · rw [hzero, Nat.log2_zero]
    omega
  · rw [Nat.log2_lt hzero, Nat.pow_add]
    exact Nat.mul_lt_mul_of_pos_right h (Nat.two_pow_pos shift)

/-- A number below `2 ^ 64` has a finite nearest code. -/
theorem nearestCode_lt_magnitudes {n : Nat} (h : n < 2 ^ 64) : nearestCode n 1 < magnitudes := by
  have hlog := @log2_mul_two_pow_lt n 64 1074 (by decide) h
  have hround := roundDiv_shift_le (n * 2 ^ 1074)
  simp only [nearestCode, Nat.div_one, Nat.one_mul, magnitudes]
  generalize n * 2 ^ 1074 = scaled at hlog hround
  have hshift : (Nat.log2 scaled - 52) * 2 ^ 52 ≤ 1085 * 2 ^ 52 := Nat.mul_le_mul_right _ (by omega)
  omega

theorem Finite.exists_ofCode? (negative : Bool) {code : Nat} (h : code < magnitudes) :
    ∃ number, Finite.ofCode? negative code = some number := by
  rw [Finite.ofCode?, dif_pos h]
  exact ⟨_, rfl⟩

theorem Binary64.exists_finite_ofInt {n : Int} (hlow : -2 ^ 63 ≤ n) (hhigh : n < 2 ^ 64) :
    ∃ number, Binary64.ofInt n = .finite number := by
  have hsize : n.natAbs < 2 ^ 64 := by omega
  obtain ⟨number, hnumber⟩ := Finite.exists_ofCode? (n < 0) (nearestCode_lt_magnitudes hsize)
  exact ⟨number, by rw [Binary64.ofInt, Binary64.ofRatio, hnumber, Option.map_some, Option.getD_some]⟩

end Decimal

/-! ## Literals -/

namespace Literal

theorem keys_ofJsonMembers (members : List (String × Json)) :
    Entries.keys (ofJsonMembers members) = Entries.keys members := by
  induction members with
  | nil => rfl
  | cons member more ih =>
    obtain ⟨name, value⟩ := member
    simpa [ofJsonMembers, Entries.keys] using ih

theorem carried_ofJsonString (text : String) : (ofJsonString text).Carried := by
  unfold ofJsonString
  split
  · trivial
  · split
    · split <;> trivial
    · trivial

theorem carriedItems_ofJsonItems {items : List Json} (h : ∀ item ∈ items, (ofJson item).Carried) :
    CarriedItems (ofJsonItems items) := by
  induction items with
  | nil => trivial
  | cons item more ih =>
    obtain ⟨hitem, hmore⟩ := List.forall_mem_cons.mp h
    exact ⟨hitem, ih hmore⟩

theorem carriedEntries_ofJsonMembers {members : List (String × Json)}
    (h : ∀ member ∈ members, (ofJson member.2).Carried) : CarriedEntries (ofJsonMembers members) := by
  induction members with
  | nil => trivial
  | cons member more ih =>
    obtain ⟨hmember, hmore⟩ := List.forall_mem_cons.mp h
    exact ⟨hmember, ih hmore⟩

theorem carried_ofJson {json : Json} (h : json.Readable) : (ofJson json).Carried := by
  induction json using Json.induction with
  | integer n =>
    simp only [ofJson, ofJsonInteger]
    split
    · trivial
    · exact Decimal.Binary64.exists_finite_ofInt h.1 h.2
  | float x => exact ⟨x, rfl⟩
  | string text => exact carried_ofJsonString text
  | array items ih =>
    have hitems := Json.readableItems_iff.mp h
    exact carriedItems_ofJsonItems fun item hitem ↦ ih item hitem (hitems item hitem)
  | object members ih =>
    have hmembers := Json.readableMembers_iff.mp h.2
    refine ⟨?_, carriedEntries_ofJsonMembers fun member hmember ↦
      ih member hmember (hmembers member hmember)⟩
    rw [keys_ofJsonMembers]
    exact h.1
  | _ => trivial

theorem carried_ofPayload {json : Json} (h : json.Readable) : (ofPayload json).Carried := by
  cases json with
  | string text => trivial
  | _ => exact carried_ofJson h

end Literal

/-! ## Expressions -/

/-- Values that occur in the JSON of some text. -/
abbrev Json.FromText (json : Json) : Prop := Json.Parsed Json.depthLimit json

namespace Wire

theorem hereditary_fromText : Hereditary Json.FromText where
  item h := h.items _
  member h := h.members.2 _
  embedded _ inside := by
    cases inside with
    | payload _ _ parsed => exact Json.parsed_of_parse parsed
    | condition found => exact Json.parsed_of_parse (parse_of_conditionJson? found)

/-- The text of JSON that is no condition is plain. -/
theorem plain_compact {json : Json} (h : json.FromText)
    (hcondition : isConditionJson json = false) : Plain json.compact := by
  obtain ⟨c, more, hchars, -, hmarks⟩ := Json.head_chars json
  have htext : json.compact.toList = c :: more := by rw [Json.compact, String.toList_ofList, hchars]
  simp only [List.mem_cons, List.not_mem_nil, or_false, not_or] at hmarks
  refine ⟨Sentinel.classify_of_head htext (by simp [hmarks]),
    startsWith_eq_false (show dateMark.toList = '!' :: _ from rfl) htext hmarks.2.1, ?_⟩
  unfold conditionJson?
  split
  · rw [Json.parse_compact h.readable h.depth_le]
    cases hreread : json.reread with
    | none => rfl
    | some found =>
      have hname := Json.typeName?_of_reread hreread
      have hfound : isConditionJson found = false := by
        rw [isConditionJson, hname]
        exact hcondition
      simp [hfound]
  · rfl

/-- Every sentinel but that of a call is read as something that fits the slot of a value. -/
theorem fitsValueSlot_of_exprOfText {fuel : Nat} {text : String} {expr : Expr} {sentinel : Sentinel}
    (hclassify : Sentinel.classify text = some sentinel) (hcall : ∀ payload, sentinel ≠ .call payload)
    (h : exprOfText fuel text = .ok expr) : expr.FitsValueSlot := by
  cases fuel with
  | zero => simp [exprOfText] at h
  | succ fuel =>
    rw [exprOfText, hclassify] at h
    cases sentinel with
    | value payload =>
      simp only [bind_eq_ok_iff] at h
      obtain ⟨json, -, h⟩ := h
      split at h
      · simp only [bind_eq_ok_iff, pure_eq_ok_iff] at h
        obtain ⟨query, -, rfl⟩ := h
        trivial
      · obtain rfl := pure_eq_ok_iff.mp h
        trivial
    | date millis =>
      simp only [dateExpr] at h
      split at h
      · obtain rfl := Except.ok.inj h
        trivial
      · contradiction
    | raw payload =>
      simp only [bind_eq_ok_iff, pure_eq_ok_iff] at h
      obtain ⟨json, -, rfl⟩ := h
      trivial
    | call payload => exact absurd rfl (hcall payload)
    | operation payload =>
      simp only [bind_eq_ok_iff, pure_eq_ok_iff] at h
      obtain ⟨⟨name, args⟩, -, operands, -, rfl⟩ := h
      trivial

/-- In the slot of a value there is no column and no call. -/
theorem fitsValueSlot_of_valueOfJson {fuel : Nat} {json : Json} {expr : Expr}
    (h : valueOfJson fuel json = .ok expr) : expr.FitsValueSlot := by
  cases fuel with
  | zero => simp [valueOfJson] at h
  | succ fuel =>
    unfold valueOfJson at h
    split at h
    · split at h
      · contradiction
      · rename_i sentinel hcall hclassify
        exact fitsValueSlot_of_exprOfText hclassify (fun payload heq ↦ hcall payload heq) h
      · split at h
        · simp only [bind_eq_ok_iff, pure_eq_ok_iff] at h
          obtain ⟨test, -, rfl⟩ := h
          trivial
        · obtain rfl := Except.ok.inj h
          trivial
    · obtain rfl := Except.ok.inj h
      trivial

theorem safe_of_exprOfText {fuel : Nat} {text : String} {expr : Expr}
    (h : exprOfText fuel text = .ok expr) : Node.Safe (.expr expr) := by
  cases fuel with
  | zero => simp [exprOfText] at h
  | succ fuel =>
    unfold exprOfText at h
    split at h
    · simp only [bind_eq_ok_iff] at h
      obtain ⟨json, hparse, h⟩ := h
      split at h
      · simp only [bind_eq_ok_iff, pure_eq_ok_iff] at h
        obtain ⟨query, -, rfl⟩ := h
        trivial
      · obtain rfl := pure_eq_ok_iff.mp h
        exact Literal.carried_ofPayload (Json.parsed_of_parse (parse_of_parseJson hparse)).readable
    · simp only [dateExpr] at h
      split at h
      · obtain rfl := Except.ok.inj h
        trivial
      · contradiction
    · simp only [bind_eq_ok_iff, pure_eq_ok_iff] at h
      obtain ⟨json, hparse, rfl⟩ := h
      exact Literal.carried_ofJson (Json.parsed_of_parse (parse_of_parseJson hparse)).readable
    · simp only [bind_eq_ok_iff, pure_eq_ok_iff] at h
      obtain ⟨_, -, exprs, -, rfl⟩ := h
      trivial
    · simp only [bind_eq_ok_iff, pure_eq_ok_iff] at h
      obtain ⟨_, -, exprs, -, rfl⟩ := h
      trivial
    · rename_i hclassify
      split at h
      · contradiction
      · rename_i hdate
        split at h
        · simp only [bind_eq_ok_iff, pure_eq_ok_iff] at h
          obtain ⟨test, -, rfl⟩ := h
          trivial
        · rename_i hcondition
          obtain rfl := Except.ok.inj h
          exact ⟨hclassify, by simpa using hdate, hcondition⟩

theorem safe_of_exprOfJson {fuel : Nat} {json : Json} {expr : Expr} (hjson : json.FromText)
    (h : exprOfJson fuel json = .ok expr) : Node.Safe (.expr expr) := by
  cases fuel with
  | zero => simp [exprOfJson] at h
  | succ fuel =>
    unfold exprOfJson at h
    split at h
    · exact safe_of_exprOfText h
    · obtain rfl := Except.ok.inj h
      trivial
    · split at h
      · simp only [bind_eq_ok_iff, pure_eq_ok_iff] at h
        obtain ⟨test, -, rfl⟩ := h
        trivial
      · rename_i hcondition
        obtain rfl := Except.ok.inj h
        exact plain_compact hjson (by simpa using hcondition)

theorem safe_of_valueOfJson {fuel : Nat} {json : Json} {expr : Expr} (hjson : json.FromText)
    (h : valueOfJson fuel json = .ok expr) : Node.Safe (.expr expr) := by
  cases fuel with
  | zero => simp [valueOfJson] at h
  | succ fuel =>
    unfold valueOfJson at h
    split at h
    · split at h
      · contradiction
      · exact safe_of_exprOfText h
      · split at h
        · simp only [bind_eq_ok_iff, pure_eq_ok_iff] at h
          obtain ⟨test, -, rfl⟩ := h
          trivial
        · obtain rfl := Except.ok.inj h
          trivial
    · obtain rfl := Except.ok.inj h
      exact Literal.carried_ofJson hjson.readable

/-! ## Conditions -/

/-- The JSON that a condition gives for the slots of its values. -/
def slotJsons (json : Json) : List Json :=
  match json.typeName? with
  | some "BinaryCondition" => (json.get? "value").toList
  | some "BetweenCondition" => (json.get? "from").toList ++ (json.get? "to").toList
  | some "InCondition" => ((json.get? "values").bind Json.array?).getD []
  | some "NotInCondition" => ((json.get? "values").bind Json.array?).getD []
  | _ => []

/-- Every slot of a value is filled by the reader of values. -/
theorem valueSlots_of_conditionOfJson {fuel : Nat} {json : Json} {test : Condition}
    (h : conditionOfJson (fuel + 1) json = .ok test) :
    List.Forall₂ (fun given slot ↦ valueOfJson fuel given = .ok slot) (slotJsons json)
      test.valueSlots := by
  cases reading_of_conditionOfJson h with
  | compare type _ slot =>
    obtain ⟨given, hget, hread⟩ := slot
    rw [slotJsons, type, hget]
    exact .cons hread .nil
  | between type _ low high =>
    obtain ⟨givenLow, hgetLow, hlow⟩ := low
    obtain ⟨givenHigh, hgetHigh, hhigh⟩ := high
    rw [slotJsons, type, hgetLow, hgetHigh]
    exact .cons hlow (.cons hhigh .nil)
  | oneOf type _ slots =>
    obtain ⟨items, hitems, hread⟩ := slots
    rw [slotJsons, type, hitems]
    exact mapM_eq_ok_iff.mp hread
  | noneOf type _ slots =>
    obtain ⟨items, hitems, hread⟩ := slots
    rw [slotJsons, type, hitems]
    exact mapM_eq_ok_iff.mp hread
  | logical type _ =>
    rw [slotJsons, type]
    exact .nil
  | null type _ =>
    rw [slotJsons, type]
    exact .nil
  | like type _ =>
    rw [slotJsons, type]
    exact .nil
  | columns type _ _ =>
    rw [slotJsons, type]
    exact .nil
  | not type _ _ =>
    rw [slotJsons, type]
    exact .nil

theorem fitsValueSlot_of_conditionOfJson {fuel : Nat} {json : Json} {test : Condition}
    (h : conditionOfJson fuel json = .ok test) : ∀ slot ∈ test.valueSlots, slot.FitsValueSlot := by
  cases fuel with
  | zero => simp [conditionOfJson] at h
  | succ fuel =>
    intro slot hslot
    obtain ⟨given, -, hread⟩ := exists_mem_of_forall₂ (valueSlots_of_conditionOfJson h) slot hslot
    exact fitsValueSlot_of_valueOfJson hread

/-- Whatever the readers make from the JSON of a text is fit for the wire. -/
theorem safe_of_readFrom {node : Node} (h : ReadFrom Json.FromText node) : node.Safe := by
  cases h with
  | text _ read => exact safe_of_exprOfText read
  | json given read => exact safe_of_exprOfJson given read
  | value given read => exact safe_of_valueOfJson given read
  | condition _ read => exact fitsValueSlot_of_conditionOfJson read

end Wire

end PortableQuery
