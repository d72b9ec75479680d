import PortableQuery.Text.Numeral

/-!
# Binary floating point, 64 bits

Finite magnitudes are numbered by `code` in increasing order: the eleven exponent bits followed by
the fifty-two fraction bits, read as one number. A magnitude is a whole number of `units` of
`2 ^ -1074`, so every operation here is exact arithmetic on naturals followed by one rounding.
-/

namespace PortableQuery.Decimal

/-- How many finite magnitudes there are. -/
abbrev magnitudes : Nat := 2047 * 2 ^ 52

structure Finite where
  negative : Bool
  code : Fin magnitudes
  deriving DecidableEq

inductive Binary64
  | nan
  | infinity (negative : Bool)
  | finite (number : Finite)
  deriving DecidableEq

/-- The quotient rounded to the nearest integer, halves going to the even one. -/
def roundDiv (num den : Nat) : Nat :=
  let quotient := num / den
  let twice := 2 * (num % den)
  if twice < den then quotient
  else if den < twice then quotient + 1
  else if quotient % 2 = 0 then quotient
  else quotient + 1

/-- The magnitude of a code, counted in units of `2 ^ -1074`. -/
def units (code : Nat) : Nat :=
  if code < 2 ^ 52 then code else (2 ^ 52 + code % 2 ^ 52) * 2 ^ (code / 2 ^ 52 - 1)

/-- The code nearest to `num / den`, halves going to the even code. A result of `magnitudes` or
more lies beyond every finite magnitude. Fifty-three significant bits are kept: all but the last
fifty-three of the unit count are shifted out and the rounding may carry into the next binade,
whose codes follow on. -/
def nearestCode (num den : Nat) : Nat :=
  let scaled := num * 2 ^ 1074
  let shift := Nat.log2 (scaled / den) - 52
  shift * 2 ^ 52 + roundDiv scaled (den * 2 ^ shift)

namespace Finite

def ofCode? (negative : Bool) (code : Nat) : Option Finite :=
  if fits : code < magnitudes then some ⟨negative, code, fits⟩ else none

def zero (negative : Bool) : Finite := ⟨negative, 0, by decide⟩

def isZero (number : Finite) : Bool := number.code.val == 0

/-- Equality of the numbers denoted: the two zeros are equal. -/
def same (a b : Finite) : Bool :=
  a.code.val == b.code.val && (a.negative == b.negative || a.code.val == 0)

end Finite

namespace Binary64

/-- The nearest number to a signed ratio; beyond the finite range it is an infinity. -/
def ofRatio (negative : Bool) (num den : Nat) : Binary64 :=
  ((Finite.ofCode? negative (nearestCode num den)).map .finite).getD (.infinity negative)

def ofInt (n : Int) : Binary64 := ofRatio (n < 0) n.natAbs 1

/-- Numeric equality: not-a-number differs from everything and the two zeros are equal. -/
def same : Binary64 → Binary64 → Bool
  | .finite a, .finite b => a.same b
  | .infinity a, .infinity b => a == b
  | _, _ => false

end Binary64

end PortableQuery.Decimal
