/-!
# Decimal numerals

Integers as decimal text and back. Only the ten ASCII digits count as digits.
-/

namespace PortableQuery.Text.Numeral

/-- Powers of naturals and integers are those of the core library, whatever algebra is in scope. -/
@[default_instance 20000]
instance (priority := 20000) corePow {α : Type} [NatPow α] : Pow α Nat := instPowNat

def digits (n : Nat) : List Char := Nat.toDigits 10 n

def ofNat (n : Nat) : String := String.ofList (digits n)

def intChars : Int → List Char
  | .ofNat n => digits n
  | .negSucc n => '-' :: digits (n + 1)

def ofInt (n : Int) : String := String.ofList (intChars n)

/-- The number written by a run of digits. -/
def value (run : List Char) : Nat :=
  run.foldl (fun soFar c => soFar * 10 + (c.toNat - '0'.toNat)) 0

/-- The leading digits and what follows them. -/
def spanDigits (text : List Char) : List Char × List Char := text.span Char.isDigit

/-- Zero-padded on the left to at least `width` digits. -/
def padded (width n : Nat) : String :=
  let run := digits n
  String.ofList (List.replicate (width - run.length) '0' ++ run)

/-- The integer as a signed 64-bit word, if it fits. -/
def int64? (n : Int) : Option Int64 :=
  if Int64.minValue.toInt ≤ n ∧ n ≤ Int64.maxValue.toInt then some (Int64.ofInt n) else none

/-- The integer as an unsigned 64-bit word, if it fits. -/
def uint64? (n : Int) : Option UInt64 :=
  if 0 ≤ n ∧ n < 2 ^ 64 then some (UInt64.ofNat n.toNat) else none

/-- Reads an optional sign and digits that must fill the whole text. -/
def readInt? (text : List Char) : Option Int :=
  let (negative, run) := match text with
    | '-' :: rest => (true, rest)
    | '+' :: rest => (false, rest)
    | rest => (false, rest)
  if run.isEmpty || !run.all Char.isDigit then none
  else some (if negative then -(value run : Int) else value run)

end PortableQuery.Text.Numeral
