import PortableQuery.Json.Printer
import PortableQuery.Json.Reader
import PortableQuery.Proofs.Text.Numeral

/-!
# Printed strings and integers read back

An escaped string is read up to its closing quote and gives the text that was escaped. An integer of
64 bits, signed or unsigned, is read up to what follows it and is read as itself.
-/

namespace PortableQuery.Json

open Text

/-! ## Strings -/

theorem hexUnit?_hexDigit : ∀ n < 32, hexUnit? '0' '0' (hexDigit (n / 16)) (hexDigit (n % 16)) =
    some n := by decide

/-- The ways in which a character of a string is written. -/
inductive WrittenAs (c : Char) : List Char → Prop
  | letter {letter : Char} (stands : simpleEscape? letter = some c) : WrittenAs c ['\\', letter]
  | unit (low : c.toNat < 0x20) :
      WrittenAs c ['\\', 'u', '0', '0', hexDigit (c.toNat / 16), hexDigit (c.toNat % 16)]
  | itself (quote : c ≠ '"') (backslash : c ≠ '\\') (high : 0x20 ≤ c.toNat) : WrittenAs c [c]

theorem writtenAs_escapeChar (c : Char) : WrittenAs c (escapeChar c) := by
  by_cases hletter : c ∈ ['"', '\\', '\n', '\r', '\t', '\x08', '\x0c']
  · have hescapes : ∀ c ∈ ['"', '\\', '\n', '\r', '\t', '\x08', '\x0c'],
        ∃ letter, escapeChar c = ['\\', letter] ∧ simpleEscape? letter = some c := by
      simp [escapeChar, simpleEscape?]
    obtain ⟨letter, hescape, hstands⟩ := hescapes c hletter
    rw [hescape]
    exact .letter hstands
  · simp only [List.mem_cons, List.not_mem_nil, or_false, not_or] at hletter
    by_cases hlow : c.toNat < 0x20
    · simp only [escapeChar, hletter, hlow, if_true, if_false]
      exact .unit hlow
    · simp only [escapeChar, hletter, hlow, if_false]
      exact .itself hletter.1 hletter.2.1 (Nat.le_of_not_lt hlow)

theorem stringBody_escapeChar (c : Char) (rest : List Char) :
    stringBody (escapeChar c ++ rest) = (stringBody rest).map fun (text, rest) ↦ (c :: text, rest) := by
  have hwritten := writtenAs_escapeChar c
  generalize escapeChar c = written at hwritten ⊢
  cases hwritten with
  | @letter letter stands =>
    have hnotUnit : letter ≠ 'u' := by
      rintro rfl
      simp [simpleEscape?] at stands
    simp [stringBody, hnotUnit, stands]
  | unit low =>
    have hunit := hexUnit?_hexDigit c.toNat low
    have hsurrogate : isHighSurrogate c.toNat = false ∧ isLowSurrogate c.toNat = false := by
      simp only [isHighSurrogate, isLowSurrogate, Bool.and_eq_false_iff, decide_eq_false_iff_not]
      omega
    simp [stringBody, hunit, hsurrogate, Char.ofNat_toNat]
  | itself quote backslash high => simp [stringBody, backslash, Nat.not_lt.mpr high]

theorem stringBody_escaped (text rest : List Char) :
    stringBody (text.flatMap escapeChar ++ '"' :: rest) = some (text, rest) := by
  induction text with
  | nil => simp [stringBody]
  | cons c text ih => rw [List.flatMap_cons, List.append_assoc, stringBody_escapeChar, ih]; rfl

/-! ## Numbers -/

/-- What follows a value in printed text: nothing, a comma or a closing bracket. -/
def Ends (rest : List Char) : Prop := ∀ c ∈ rest.head?, c = ',' ∨ c = ']' ∨ c = '}'

theorem ends_nil : Ends [] := by simp [Ends]

theorem ends_cons {c : Char} {rest : List Char} (h : c = ',' ∨ c = ']' ∨ c = '}') :
    Ends (c :: rest) := by
  simpa [Ends] using h

theorem Ends.stops {rest : List Char} (h : Ends rest) : Numeral.Stops rest := by
  intro c hc
  rcases h c hc with rfl | rfl | rfl <;> rfl

/-- A whole part that no number may have: a zero in front of other digits. -/
def hasLeadingZero (whole : List Char) : Bool := whole.head? == some '0' && 1 < whole.length

/-- What a reader does behind the whole part of a number. -/
def numberRest (negative : Bool) (whole : List Char) : List Char → Option (Json × List Char)
  | '.' :: more =>
    let (fraction, rest) := Numeral.spanDigits more
    if fraction.isEmpty then none else numberEnd negative whole fraction rest
  | rest => numberEnd negative whole [] rest

theorem number_append {negative : Bool} {whole text : List Char} (hne : whole ≠ [])
    (hdigits : ∀ c ∈ whole, c.isDigit = true) (htext : Numeral.Stops text) :
    number negative (whole ++ text) =
      if hasLeadingZero whole then none else numberRest negative whole text := by
  have hspan := Numeral.spanDigits_append hdigits htext
  have hempty : whole.isEmpty = false := by simpa using hne
  simp only [number, hspan, hempty, Bool.false_or, hasLeadingZero]
  congr 1
  cases text with
  | nil => rfl
  | cons c more =>
    by_cases hpoint : c = '.'
    · subst hpoint
      rfl
    · simp [numberRest, hpoint]

theorem number_of_digits {negative : Bool} {whole rest : List Char} (hne : whole ≠ [])
    (hdigits : ∀ c ∈ whole, c.isDigit = true) (hrest : Ends rest) :
    number negative (whole ++ rest) =
      if hasLeadingZero whole then none else (integerOf? negative whole).map (·, rest) := by
  have hend : numberRest negative whole rest = (integerOf? negative whole).map (·, rest) := by
    cases rest with
    | nil => rfl
    | cons c more => rcases hrest c (by simp) with rfl | rfl | rfl <;> simp [numberRest, numberEnd]
  rw [number_append hne hdigits hrest.stops, hend]

theorem hasLeadingZero_digits (n : Nat) : hasLeadingZero (Numeral.digits n) = false := by
  by_cases hhead : (Numeral.digits n).head? = some '0'
  · simp [hasLeadingZero, Numeral.length_digits_of_head_zero hhead]
  · simp [hasLeadingZero, hhead]

theorem number_false_digits {n : Nat} {rest : List Char} (hn : n < 2 ^ 64) (hrest : Ends rest) :
    number false (Numeral.digits n ++ rest) = some (.integer n, rest) := by
  rw [number_of_digits (Numeral.digits_ne_nil n) (fun _ ↦ Numeral.isDigit_of_mem_digits) hrest,
    hasLeadingZero_digits, integerOf?, Numeral.value_digits]
  simp only [Bool.false_eq_true, if_false, if_pos hn, Option.map_some]

theorem number_true_digits {n : Nat} {rest : List Char} (hpos : 0 < n) (hn : n ≤ 2 ^ 63)
    (hrest : Ends rest) :
    number true (Numeral.digits n ++ rest) = some (.integer (-n), rest) := by
  rw [number_of_digits (Numeral.digits_ne_nil n) (fun _ ↦ Numeral.isDigit_of_mem_digits) hrest,
    hasLeadingZero_digits, integerOf?, Numeral.value_digits]
  simp only [Bool.false_eq_true, if_false, if_true, if_pos (And.intro hpos hn), Option.map_some]

/-! ## From values to numbers -/

theorem value_of_minus (fuel depth : Nat) (text : List Char) :
    value (fuel + 1) depth ('-' :: text) = number true text := by
  simp [value, skipBlank, isBlank]

theorem value_of_digit (fuel depth : Nat) {c : Char} (hc : c.isDigit = true) (text : List Char) :
    value (fuel + 1) depth (c :: text) = number false (c :: text) := by
  have hdigit {d : Char} (hd : d.isDigit = false) : c ≠ d := by
    rintro rfl
    rw [hd] at hc
    contradiction
  have hblank : skipBlank (c :: text) = c :: text := by
    simp [skipBlank, isBlank, hdigit (d := ' ') rfl, hdigit (d := '\t') rfl,
      hdigit (d := '\r') rfl, hdigit (d := '\n') rfl]
  rw [value, hblank]
  simp [hdigit (d := 'n') rfl, hdigit (d := 't') rfl, hdigit (d := 'f') rfl,
    hdigit (d := '"') rfl, hdigit (d := '[') rfl, hdigit (d := '{') rfl, hdigit (d := '-') rfl]

theorem value_intChars {n : Int} {rest : List Char} (fuel depth : Nat) (hlow : -2 ^ 63 ≤ n)
    (hhigh : n < 2 ^ 64) (hrest : Ends rest) :
    value (fuel + 1) depth (Numeral.intChars n ++ rest) = some (.integer n, rest) := by
  cases n with
  | ofNat n =>
    simp only [Int.ofNat_eq_natCast] at hhigh
    obtain ⟨c, more, hdigits⟩ := List.exists_cons_of_ne_nil (Numeral.digits_ne_nil n)
    have hc : c.isDigit = true := Numeral.isDigit_of_mem_digits (n := n) (by simp [hdigits])
    have hnumber := number_false_digits (n := n) (by omega) hrest
    rw [hdigits] at hnumber
    rw [Numeral.intChars, hdigits, List.cons_append, value_of_digit fuel depth hc]
    exact hnumber
  | negSucc n =>
    have hbound : n + 1 ≤ 2 ^ 63 := by omega
    rw [Numeral.intChars, List.cons_append, value_of_minus,
      number_true_digits (Nat.succ_pos n) hbound hrest]
    rfl

end PortableQuery.Json
