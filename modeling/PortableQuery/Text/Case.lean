import PortableQuery.Text.CaseData

/-!
# Letter case

Lower case after the Unicode rules: the simple mapping of each character, two characters for the
dotted capital I, and a capital sigma that becomes a final sigma at the end of a word. Upper case is
needed only to recognise ASCII words, so `asciiUpper?` knows just the characters that an upper-case
mapping turns into ASCII.
-/

namespace PortableQuery.Text.Case

def Run.covers (run : Run) (n : Nat) : Bool :=
  run.first ≤ n && n ≤ run.last && (n - run.first) % run.step == 0

def lowerChar (c : Char) : Char :=
  match lowerRuns.find? fun run => run.covers c.toNat with
  | some run => Char.ofNat (c.toNat + run.shift).toNat
  | none => c

def inRanges (ranges : List (Nat × Nat)) (c : Char) : Bool :=
  ranges.any fun (first, last) => first ≤ c.toNat && c.toNat ≤ last

/-- The nearest character that is not passed over is cased. -/
def casedNext (text : List Char) : Bool :=
  match text.dropWhile (inRanges ignorableRanges) with
  | c :: _ => inRanges casedRanges c
  | [] => false

/-- Lower case of the text behind `before`, which is given in reverse. -/
def lowerFrom (before : List Char) : List Char → List Char
  | [] => []
  | c :: rest =>
    let here :=
      if c = 'Σ' then [if casedNext before && !casedNext rest then 'ς' else 'σ']
      else if c = 'İ' then ['i', Char.ofNat 0x307]
      else [lowerChar c]
    here ++ lowerFrom (c :: before) rest

def lower (text : String) : String := String.ofList (lowerFrom [] text.toList)

/-- The upper case of a character where all of it is ASCII. -/
def asciiUpper? (c : Char) : Option (List Char) :=
  if c.toNat < 128 then some [c.toUpper]
  else if c = 'ı' then some ['I']
  else if c = 'ſ' then some ['S']
  else if c = 'ß' then some ['S', 'S']
  else match c.toNat - 0xFB00, decide (0xFB00 ≤ c.toNat) with
    | 0, true => some ['F', 'F']
    | 1, true => some ['F', 'I']
    | 2, true => some ['F', 'L']
    | 3, true => some ['F', 'F', 'I']
    | 4, true => some ['F', 'F', 'L']
    | 5, true => some ['S', 'T']
    | 6, true => some ['S', 'T']
    | _, _ => none

/-- The upper case of a text, if it is ASCII. -/
def asciiUpperText? (text : String) : Option String :=
  (text.toList.mapM asciiUpper?).map fun parts => String.ofList parts.flatten

end PortableQuery.Text.Case
