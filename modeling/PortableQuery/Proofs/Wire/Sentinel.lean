import PortableQuery.Calendar.Instant
import PortableQuery.Proofs.Json.Printed
import PortableQuery.Wire.Literal

/-!
# Sentinels are told apart

The text written for each kind of sentinel is classified as that kind with its payload intact.
Printed JSON is never taken for a sentinel.
-/

namespace PortableQuery.Wire

open Text Calendar

theorem beforeEnding?_append (body ending : List Char) :
    beforeEnding? ending (body ++ ending) = some body := by
  have hsuffix : ending.isSuffixOf (body ++ ending) = true := by simp
  rw [beforeEnding?, if_pos hsuffix]
  simp

namespace Sentinel

theorem classify_value (payload : String) : classify (valueMark ++ payload) = some (.value payload) := by
  simp [classify, valueMark, ofChars?]

theorem classify_call (payload : String) :
    classify ("FN(" ++ payload ++ ")") = some (.call payload) := by
  simp [classify, ofChars?, beforeEnding?_append]

theorem classify_operation (payload : String) :
    classify ("OP(" ++ payload ++ ")") = some (.operation payload) := by
  simp [classify, ofChars?, beforeEnding?_append]

theorem classify_raw (json : Json) :
    classify (rawMark ++ json.compact ++ rawMark) = some (.raw json.compact) := by
  obtain ⟨c, more, hchars, -, hmarks⟩ := Json.head_chars json
  have hbang : c ≠ '!' := by simp_all
  have hbody := beforeEnding?_append (c :: more) ['!', '!']
  simp only [List.cons_append] at hbody
  simp [classify, rawMark, Json.compact, hchars, ofChars?, hbang, hbody]

theorem dateBody?_intChars {millis : Int} {word : Int64} (h : Numeral.int64? millis = some word) :
    dateBody? (Numeral.intChars millis ++ ['!', '!']) = some word := by
  have hspan (n : Nat) : Numeral.spanDigits (Numeral.digits n ++ ['!', '!']) =
      (Numeral.digits n, ['!', '!']) :=
    Numeral.spanDigits_append (fun _ ↦ Numeral.isDigit_of_mem_digits) (Numeral.stops_cons (by decide))
  cases millis with
  | ofNat n =>
    obtain ⟨c, more, hdigits⟩ := List.exists_cons_of_ne_nil (Numeral.digits_ne_nil n)
    have hdigit := Numeral.isDigit_of_mem_digits (n := n) (c := c) (by simp [hdigits])
    have hminus : c ≠ '-' := by
      rintro rfl
      exact absurd hdigit (by decide)
    have hhead : Numeral.intChars (.ofNat n) ++ ['!', '!'] = c :: (more ++ ['!', '!']) := by
      simp [Numeral.intChars, hdigits]
    have hspan := hspan n
    rw [hdigits, List.cons_append] at hspan
    have hvalue := Numeral.value_digits n
    rw [hdigits] at hvalue
    rw [hhead]
    simpa [dateBody?, hminus, hspan, hvalue] using h
  | negSucc n =>
    have hnonempty := Numeral.digits_ne_nil (n + 1)
    simp only [Numeral.intChars, List.cons_append, dateBody?, hspan]
    simpa [hnonempty, Numeral.value_digits, Int.negSucc_eq] using h

theorem classify_dateText {millis : Int} {word : Int64} (h : Numeral.int64? millis = some word) :
    classify (dateText millis) = some (.date word) := by
  have hbody := dateBody?_intChars h
  simp [classify, dateText, dateMark, rawMark, Numeral.ofInt, ofChars?, hbody]

/-- Text that begins with none of the first characters of a mark is plain. -/
theorem classify_of_head {c : Char} {more : List Char} {text : String} (htext : text.toList = c :: more)
    (hmark : c ∉ ['!', 'F', 'O']) : classify text = none := by
  simp only [List.mem_cons, List.not_mem_nil, or_false, not_or] at hmark
  rw [classify, htext, ofChars?]
  · intro rest
    simp [hmark]
  · intro rest
    simp [hmark]
  · intro rest
    simp [hmark]
  · intro rest
    simp [hmark]
  · intro rest
    simp [hmark]

end Sentinel

theorem startsWith_eq_false {c d : Char} {more rest : List Char} {mark text : String}
    (hmark : mark.toList = d :: rest) (htext : text.toList = c :: more) (h : c ≠ d) :
    startsWith mark text = false := by
  simp [startsWith, hmark, htext, List.isPrefixOf, Ne.symm h]

end PortableQuery.Wire
