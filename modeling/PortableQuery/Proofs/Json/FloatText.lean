import PortableQuery.Proofs.Json.Scalar

/-!
# Printed floating-point numbers

Every layout of a floating-point number has a whole part and at least a fraction or an exponent, so
it is read to its end and gives a floating-point number. Which number that is depends on the text
alone and not on what follows it. It need not be the number that was printed: the quick way of
reading loses the last bit now and then.
-/

namespace PortableQuery.Json

open Text

/-- The exponent of a floating-point text: its sign and its digits. -/
structure ExponentText where
  negative : Bool
  run : List Char

def ExponentText.chars (exponent : ExponentText) : List Char :=
  'e' :: (if exponent.negative then '-' else '+') :: exponent.run

def ExponentText.number (exponent : ExponentText) : Int :=
  if exponent.negative then -(Numeral.value exponent.run : Int) else Numeral.value exponent.run

theorem exponentPart?_append {exponent : ExponentText} {rest : List Char}
    (hne : exponent.run ≠ []) (hdigits : ∀ c ∈ exponent.run, c.isDigit = true) (hrest : Ends rest) :
    exponentPart? ((if exponent.negative then '-' else '+') :: (exponent.run ++ rest)) =
      some (exponent.number, rest) := by
  have hspan := Numeral.spanDigits_append hdigits hrest.stops
  have hempty : exponent.run.isEmpty = false := by simpa using hne
  cases hsign : exponent.negative <;>
    simp [exponentPart?, hspan, hempty, ExponentText.number, hsign]

/-- The text of a floating-point number by its parts, at least one of the last two being there. -/
structure FloatText where
  whole : List Char
  fraction : List Char
  exponent : Option ExponentText
  whole_ne_nil : whole ≠ []
  whole_digits : ∀ c ∈ whole, c.isDigit = true
  fraction_digits : ∀ c ∈ fraction, c.isDigit = true
  exponent_ne_nil : ∀ e ∈ exponent, e.run ≠ []
  exponent_digits : ∀ e ∈ exponent, ∀ c ∈ e.run, c.isDigit = true
  not_integer : fraction ≠ [] ∨ exponent.isSome

namespace FloatText

def fractionChars (text : FloatText) : List Char :=
  match text.fraction with
  | [] => []
  | fraction => '.' :: fraction

def exponentChars (text : FloatText) : List Char :=
  match text.exponent with
  | none => []
  | some exponent => exponent.chars

def chars (text : FloatText) : List Char := text.whole ++ (text.fractionChars ++ text.exponentChars)

/-- The number that a reader finds behind a sign. -/
def number? (text : FloatText) (negative : Bool) : Option Decimal.Finite :=
  if hasLeadingZero text.whole then none
  else floatOf? negative text.whole text.fraction ((text.exponent.map ExponentText.number).getD 0)

theorem numberEnd_exponentChars (text : FloatText) (negative : Bool) {rest : List Char}
    (hrest : Ends rest) :
    numberEnd negative text.whole text.fraction (text.exponentChars ++ rest) =
      (floatOf? negative text.whole text.fraction
        ((text.exponent.map ExponentText.number).getD 0)).map fun y ↦ (Json.float y, rest) := by
  cases hexponent : text.exponent with
  | none =>
    have hfraction : text.fraction.isEmpty = false := by
      simpa [hexponent] using text.not_integer
    simp only [exponentChars, hexponent, List.nil_append]
    cases rest with
    | nil => simp [numberEnd, hfraction]
    | cons c more => rcases hrest c (by simp) with rfl | rfl | rfl <;> simp [numberEnd, hfraction]
  | some exponent =>
    have hread := exponentPart?_append (text.exponent_ne_nil exponent hexponent)
      (text.exponent_digits exponent hexponent) hrest
    simp only [exponentChars, hexponent, ExponentText.chars, List.cons_append, numberEnd, hread,
      Option.bind_eq_bind, Option.bind_some, Option.map_some, Option.getD_some]
    cases floatOf? negative text.whole text.fraction exponent.number <;> rfl

theorem stops_exponentChars (text : FloatText) {rest : List Char} (hrest : Ends rest) :
    Numeral.Stops (text.exponentChars ++ rest) := by
  cases hexponent : text.exponent with
  | none => simpa [exponentChars, hexponent] using hrest.stops
  | some exponent =>
    simp only [exponentChars, hexponent, ExponentText.chars, List.cons_append]
    exact Numeral.stops_cons (by decide)

theorem stops_behind_whole (text : FloatText) {rest : List Char} (hrest : Ends rest) :
    Numeral.Stops (text.fractionChars ++ (text.exponentChars ++ rest)) := by
  cases hfraction : text.fraction with
  | nil => simpa [fractionChars, hfraction] using stops_exponentChars text hrest
  | cons d more =>
    simp only [fractionChars, hfraction, List.cons_append]
    exact Numeral.stops_cons (by decide)

theorem numberRest_chars (text : FloatText) (negative : Bool) {rest : List Char}
    (hrest : Ends rest) :
    numberRest negative text.whole (text.fractionChars ++ (text.exponentChars ++ rest)) =
      (floatOf? negative text.whole text.fraction
        ((text.exponent.map ExponentText.number).getD 0)).map fun y ↦ (Json.float y, rest) := by
  have hend := numberEnd_exponentChars text negative hrest
  cases hfraction : text.fraction with
  | nil =>
    obtain ⟨exponent, hexponent⟩ : ∃ exponent, text.exponent = some exponent := by
      simpa [hfraction, Option.isSome_iff_exists] using text.not_integer
    rw [hfraction] at hend
    rw [← hend]
    simp [fractionChars, hfraction, exponentChars, hexponent, ExponentText.chars, numberRest]
  | cons d more =>
    have hspan := Numeral.spanDigits_append text.fraction_digits (stops_exponentChars text hrest)
    rw [hfraction] at hspan hend
    simp only [List.cons_append] at hspan
    simp only [fractionChars, hfraction, List.cons_append, numberRest, hspan, List.isEmpty_cons,
      Bool.false_eq_true, if_false, hend]

theorem number_chars (text : FloatText) (negative : Bool) {rest : List Char} (hrest : Ends rest) :
    number negative (text.chars ++ rest) =
      (text.number? negative).map fun y ↦ (Json.float y, rest) := by
  rw [chars, List.append_assoc, List.append_assoc, number_append text.whole_ne_nil text.whole_digits
    (stops_behind_whole text hrest), numberRest_chars text negative hrest, number?]
  cases hasLeadingZero text.whole <;> rfl

theorem value_chars (text : FloatText) (fuel depth : Nat) (negative : Bool) {rest : List Char}
    (hrest : Ends rest) :
    value (fuel + 1) depth (Decimal.signChars negative ++ text.chars ++ rest) =
      (text.number? negative).map fun y ↦ (Json.float y, rest) := by
  have hnumber := number_chars text negative hrest
  cases negative with
  | true => simpa [Decimal.signChars, value_of_minus] using hnumber
  | false =>
    obtain ⟨c, more, hwhole⟩ := List.exists_cons_of_ne_nil text.whole_ne_nil
    have hc : c.isDigit = true := text.whole_digits c (by simp [hwhole])
    simpa [Decimal.signChars, chars, hwhole, value_of_digit fuel depth hc] using hnumber

end FloatText

/-! ## Layouts -/

theorem isDigit_of_mem_zeros {count : Int} {c : Char} (h : c ∈ Decimal.zeros count) :
    c.isDigit = true := by
  rw [List.eq_of_mem_replicate h]
  rfl

theorem exists_positional_whole {digits : List Char} {point : Int} (hne : digits ≠ [])
    (hdigits : ∀ c ∈ digits, c.isDigit = true) (hpoint : digits.length ≤ point) :
    ∃ text : FloatText, Decimal.positional digits point ++ ['.', '0'] = text.chars := by
  have hlength : 0 < digits.length := List.length_pos_iff.mpr hne
  let text : FloatText :=
    { whole := digits ++ Decimal.zeros (point - digits.length)
      fraction := ['0']
      exponent := none
      whole_ne_nil := by simp [hne]
      whole_digits := by
        intro c hc
        rcases List.mem_append.mp hc with h | h
        · exact hdigits c h
        · exact isDigit_of_mem_zeros h
      fraction_digits := by simp
      exponent_ne_nil := by simp
      exponent_digits := by simp
      not_integer := by simp }
  refine ⟨text, ?_⟩
  rw [Decimal.positional, if_neg (by omega), if_pos hpoint]
  rfl

theorem exists_positional_inside {digits : List Char} {point : Int} (hne : digits ≠ [])
    (hdigits : ∀ c ∈ digits, c.isDigit = true) (hpoint : point < digits.length) :
    ∃ text : FloatText, Decimal.positional digits point = text.chars := by
  by_cases hfront : point ≤ 0
  · let text : FloatText :=
      { whole := ['0']
        fraction := Decimal.zeros (-point) ++ digits
        exponent := none
        whole_ne_nil := by simp
        whole_digits := by simp
        fraction_digits := by
          intro c hc
          rcases List.mem_append.mp hc with h | h
          · exact isDigit_of_mem_zeros h
          · exact hdigits c h
        exponent_ne_nil := by simp
        exponent_digits := by simp
        not_integer := by simp [hne] }
    refine ⟨text, ?_⟩
    obtain ⟨d, more, hfraction⟩ : ∃ d more, Decimal.zeros (-point) ++ digits = d :: more :=
      List.exists_cons_of_ne_nil (by simp [hne])
    simp only [Decimal.positional, if_pos hfront, FloatText.chars, FloatText.fractionChars,
      FloatText.exponentChars, text, hfraction, List.append_nil, List.cons_append, List.nil_append]
  · have hpos : 0 < point.toNat := by omega
    have hlt : point.toNat < digits.length := by omega
    let text : FloatText :=
      { whole := digits.take point.toNat
        fraction := digits.drop point.toNat
        exponent := none
        whole_ne_nil := by simp [hne]; omega
        whole_digits := fun c hc ↦ hdigits c (List.mem_of_mem_take hc)
        fraction_digits := fun c hc ↦ hdigits c (List.mem_of_mem_drop hc)
        exponent_ne_nil := by simp
        exponent_digits := by simp
        not_integer := by simp; omega }
    refine ⟨text, ?_⟩
    obtain ⟨d, more, hfraction⟩ : ∃ d more, digits.drop point.toNat = d :: more :=
      List.exists_cons_of_ne_nil (by simp; omega)
    simp only [Decimal.positional, if_neg hfront, if_neg (show ¬(digits.length : Int) ≤ point by omega),
      FloatText.chars, FloatText.fractionChars, FloatText.exponentChars, text, hfraction,
      List.append_nil]

theorem exists_exponential {digits : List Char} {point : Int} (hne : digits ≠ [])
    (hdigits : ∀ c ∈ digits, c.isDigit = true) :
    ∃ text : FloatText, Decimal.exponential digits point = text.chars := by
  obtain ⟨d, more, rfl⟩ := List.exists_cons_of_ne_nil hne
  let text : FloatText :=
    { whole := [d]
      fraction := more
      exponent := some ⟨decide (point - 1 < 0), Numeral.digits (point - 1).natAbs⟩
      whole_ne_nil := by simp
      whole_digits := by
        intro c hc
        rw [List.mem_singleton.mp hc]
        exact hdigits d (by simp)
      fraction_digits := fun c hc ↦ hdigits c (by simp [hc])
      exponent_ne_nil := by simp [Numeral.digits_ne_nil]
      exponent_digits := by
        intro e he c hc
        obtain rfl := Option.some.inj he
        exact Numeral.isDigit_of_mem_digits hc
      not_integer := by simp }
  refine ⟨text, ?_⟩
  cases more <;>
    simp [Decimal.exponential, FloatText.chars, FloatText.fractionChars, FloatText.exponentChars,
      ExponentText.chars, text]

theorem exists_floatText (x : Decimal.Finite) :
    ∃ text : FloatText, Decimal.jsonChars x = Decimal.signChars x.negative ++ text.chars := by
  suffices hbody : ∃ text : FloatText, _ = text.chars by
    obtain ⟨text, htext⟩ := hbody
    exact ⟨text, congrArg (Decimal.signChars x.negative ++ ·) htext⟩
  split
  · have hzero : ∃ text : FloatText, Decimal.positional ['0'] 1 ++ ['.', '0'] = text.chars :=
      exists_positional_whole (by simp) (by simp) (by simp)
    simpa [Decimal.positional, Decimal.zeros] using hzero
  · have hne := Numeral.digits_ne_nil (Decimal.shortest .toEven x.code).significand
    have hdigits : ∀ c ∈ (Decimal.shortest .toEven x.code).digits, c.isDigit = true :=
      fun _ ↦ Numeral.isDigit_of_mem_digits
    dsimp only
    split
    case isTrue hwhole => exact exists_positional_whole hne hdigits hwhole.1
    case isFalse hwhole =>
      split
      case isTrue hinside => exact exists_positional_inside hne hdigits (by omega)
      case isFalse => exact exists_exponential hne hdigits

end PortableQuery.Json
