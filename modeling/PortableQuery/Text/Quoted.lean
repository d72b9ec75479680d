/-!
# Quoted text

A quote character inside quoted text is written twice. The same rule serves string literals and
identifiers; only the quote character differs.
-/

namespace PortableQuery.Text.Quoted

/-- Writes every occurrence of `quote` twice. -/
def double (quote : Char) : List Char → List Char
  | [] => []
  | c :: rest => if c = quote then c :: c :: double quote rest else c :: double quote rest

def chars (quote : Char) (text : List Char) : List Char :=
  quote :: (double quote text ++ [quote])

def encode (quote : Char) (text : String) : String :=
  String.ofList (chars quote text.toList)

end PortableQuery.Text.Quoted
