import PortableQuery.Decimal.Binary64
import PortableQuery.Text.Numeral

/-!
# Reading decimal numbers

Two ways of turning `significand * 10 ^ exponent` into a binary number. `nearest` is exact up to
one final rounding. `scaled` is the quick way of JSON readers: the significand and the power of
ten are each rounded first and multiplied or divided with another rounding, so the last bit may
differ from the nearest number when the significand is long or the exponent large.
-/

namespace PortableQuery.Decimal

open Text

/-- The number lies below `10 ^ point` and not below a tenth of that, where `point` counts the digits
in front of the decimal point. So the powers of ten that are computed stay small: from `10 ^ 309` on
everything is infinite, and below `10 ^ -324` nothing is left. -/
def nearest (negative : Bool) (significand : Nat) (exponent : Int) : Binary64 :=
  let point := (Numeral.digits significand).length + exponent
  if significand = 0 ∨ point ≤ -324 then .finite (Finite.zero negative)
  else if 309 < point then .infinity negative
  else match exponent with
    | .ofNat k => Binary64.ofRatio negative (significand * 10 ^ k) 1
    | .negSucc k => Binary64.ofRatio negative significand (10 ^ (k + 1))

/-- The code of a power of ten, for exponents up to 308. -/
def tenPower (k : Nat) : Nat := nearestCode (10 ^ k) 1

def timesTenPower (code k : Nat) : Nat :=
  nearestCode (units code * units (tenPower k)) (2 ^ 1074 * 2 ^ 1074)

def overTenPower (code k : Nat) : Nat := nearestCode (units code) (units (tenPower k))

/-- Divides by `10 ^ k` in steps of at most 308 places. After two full steps nothing is left of a
64-bit significand. -/
def scaleDown (code k : Nat) : Nat :=
  if k ≤ 308 then overTenPower code k
  else if k ≤ 616 then overTenPower (overTenPower code 308) (k - 308)
  else 0

/-- `none` when the result would be infinite. -/
def scaled (negative : Bool) (significand : Nat) (exponent : Int) : Option Finite :=
  let code := nearestCode significand 1
  match exponent with
  | .ofNat k =>
    if k ≤ 308 then Finite.ofCode? negative (timesTenPower code k)
    else if code = 0 then some (Finite.zero negative)
    else none
  | .negSucc k => Finite.ofCode? negative (scaleDown code (k + 1))

/-- Reads `[sign] digits [. digits] [e [sign] digits]` filling the whole text, with digits on at
least one side of the point; also the words for infinity and not-a-number. -/
def readBinary64? (text : String) : Option Binary64 :=
  let (negative, body) := match text.toList with
    | '-' :: rest => (true, rest)
    | '+' :: rest => (false, rest)
    | rest => (false, rest)
  let word := body.map Char.toLower
  if word = "nan".toList then some .nan
  else if word = "inf".toList || word = "infinity".toList then some (.infinity negative)
  else
    let (whole, rest) := Numeral.spanDigits body
    let (fraction, rest) := match rest with
      | '.' :: more => Numeral.spanDigits more
      | _ => ([], rest)
    if whole.isEmpty && fraction.isEmpty then none
    else
      let exponent? := match rest with
        | [] => some 0
        | mark :: more => if mark = 'e' || mark = 'E' then Numeral.readInt? more else none
      exponent?.map fun exponent =>
        nearest negative (Numeral.value (whole ++ fraction)) (exponent - fraction.length)

end PortableQuery.Decimal
