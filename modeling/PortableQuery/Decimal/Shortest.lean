import PortableQuery.Decimal.Reader

/-!
# Shortest decimal digits

The fewest decimal digits that read back as a given number, and of those the nearest to it. On the
grid of `n` significant digits a number has two neighbours, so it is enough to try those two for
`n = 1, 2, …, 17`: seventeen digits always suffice.
-/

namespace PortableQuery.Decimal

/-- Where a number lies exactly halfway between its two neighbours. -/
inductive Tie
  | toEven
  | up

/-- `significand * 10 ^ exponent`. -/
structure Scientific where
  significand : Nat
  exponent : Int
  deriving DecidableEq

namespace Scientific

/-- The code nearest to the number. -/
def code (x : Scientific) : Nat :=
  match x.exponent with
  | .ofNat k => nearestCode (x.significand * 10 ^ k) 1
  | .negSucc k => nearestCode x.significand (10 ^ (k + 1))

def stripZeros : Nat → Scientific → Scientific
  | 0, x => x
  | fuel + 1, x =>
    if x.significand % 10 = 0 ∧ x.significand ≠ 0 then
      stripZeros fuel ⟨x.significand / 10, x.exponent + 1⟩
    else x

/-- The same number without trailing zeros in its significand. -/
def normalize (x : Scientific) : Scientific := stripZeros (Text.Numeral.digits x.significand).length x

def digits (x : Scientific) : List Char := Text.Numeral.digits x.significand

/-- The power of ten just above the number: it is `0.d₁d₂… * 10 ^ point`. -/
def point (x : Scientific) : Int := x.digits.length + x.exponent

end Scientific

def leadingZeros : Nat → Nat → Nat → Nat
  | 0, _, _ => 0
  | fuel + 1, num, den => if den ≤ num * 10 then 0 else leadingZeros fuel (num * 10) den + 1

/-- The least power of ten above `num / den`, for a positive ratio. -/
def magnitudePoint (num den : Nat) : Int :=
  if den ≤ num then (Text.Numeral.digits (num / den)).length
  else -(leadingZeros 400 num den : Int)

/-- The neighbour of `num / den` on the grid of `count` digits that reads back as `code`. -/
def neighbour? (tie : Tie) (code num den : Nat) (point : Int) (count : Nat) : Option Scientific :=
  let exponent := point - count
  let (num, den) := match exponent with
    | .ofNat k => (num, den * 10 ^ k)
    | .negSucc k => (num * 10 ^ (k + 1), den)
  let low : Scientific := ⟨num / den, exponent⟩
  let high : Scientific := ⟨num / den + 1, exponent⟩
  let twice := 2 * (num % den)
  let preferLow := decide (twice < den) || (twice == den && match tie with
    | .toEven => num / den % 2 == 0
    | .up => false)
  let lowReads := low.code == code
  let highReads := high.code == code
  if lowReads && (preferLow || !highReads) then some low
  else if highReads then some high
  else none

/-- The shortest digits of a magnitude; zero has the single digit zero. -/
def shortest (tie : Tie) (code : Nat) : Scientific :=
  if code = 0 then ⟨0, 0⟩
  else
    let num := units code
    let den := 2 ^ 1074
    let point := magnitudePoint num den
    match (List.range 17).findSome? fun n => neighbour? tie code num den point (n + 1) with
    | some found => found.normalize
    | none => ⟨num, -1074⟩

end PortableQuery.Decimal
