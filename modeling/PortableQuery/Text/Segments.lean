import PortableQuery.Text.Quoted

/-!
# Dotted names

A dotted name is a sequence of segments. Quoting a name quotes each segment on its own.
-/

namespace PortableQuery.Text.Segments

/-- Splits at every dot; a name without dots is one segment. -/
def split : List Char → List (List Char)
  | [] => [[]]
  | c :: rest =>
    if c = '.' then [] :: split rest
    else match split rest with
      | [] => [[c]]
      | segment :: more => (c :: segment) :: more

def join : List (List Char) → List Char
  | [] => []
  | [segment] => segment
  | segment :: more => segment ++ '.' :: join more

/-- Each segment quoted, the dots between them left outside the quotes. Quotes are doubled before
the name is split, which is the same as doubling them in every segment unless the quote is a dot. -/
def quoteChars (quote : Char) (name : List Char) : List Char :=
  join ((split (Quoted.double quote name)).map fun segment => quote :: (segment ++ [quote]))

def quote (mark : Char) (name : String) : String :=
  String.ofList (quoteChars mark name.toList)

end PortableQuery.Text.Segments
