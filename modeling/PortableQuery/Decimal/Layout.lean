import PortableQuery.Decimal.Shortest

/-!
# Layouts of floating-point numbers

The two ways in which shortest digits are laid out: the one of JSON texts, with an exponent for
very large and very small numbers, and the plain one, which never has an exponent.
-/

namespace PortableQuery.Decimal

open Text

def signChars (negative : Bool) : List Char := if negative then ['-'] else []

def zeros (count : Int) : List Char := List.replicate count.toNat '0'

/-- Digits with the point inside, before or behind them; zeros fill the gap. -/
def positional (digits : List Char) (point : Int) : List Char :=
  if point ≤ 0 then '0' :: '.' :: (zeros (-point) ++ digits)
  else if digits.length ≤ point then digits ++ zeros (point - digits.length)
  else digits.take point.toNat ++ '.' :: digits.drop point.toNat

def exponential (digits : List Char) (point : Int) : List Char :=
  let exponent := point - 1
  let body := match digits with
    | [] => ['0']
    | [d] => [d]
    | d :: more => d :: '.' :: more
  body ++ 'e' :: (if exponent < 0 then '-' else '+') :: Numeral.digits exponent.natAbs

/-- JSON: positional from `1e-5` up to below `1e16`, always with a point; a tie between two digit
strings goes to the even one. -/
def jsonChars (x : Finite) : List Char :=
  signChars x.negative ++
    if x.isZero then ['0', '.', '0']
    else
      let shortestDigits := shortest .toEven x.code
      let digits := shortestDigits.digits
      let point := shortestDigits.point
      if digits.length ≤ point ∧ point ≤ 16 then positional digits point ++ ['.', '0']
      else if -5 < point ∧ point ≤ 16 then positional digits point
      else exponential digits point

/-- Plain text: never an exponent, no point behind whole numbers, and zero has no sign. -/
def Binary64.plain : Binary64 → String
  | .nan => "NaN"
  | .infinity negative => if negative then "-inf" else "inf"
  | .finite x =>
    if x.isZero then "0"
    else
      let shortestDigits := shortest .up x.code
      String.ofList (signChars x.negative ++ positional shortestDigits.digits shortestDigits.point)

end PortableQuery.Decimal
