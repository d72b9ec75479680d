import PortableQuery.Sql.Escape

/-!
# Column templates

The text of a column may hold string literals between `&` marks and identifiers between `#` marks.
String literals are put in first; the closing mark of one is the last `&` before the next `#`.
Identifiers follow, and what comes out is taken as a column or as an expression written out in full.
Empty markers are left as they stand.
-/

namespace PortableQuery.Sql

open Text

/-- The text before and behind the last occurrence of a mark. -/
def splitLast? (mark : Char) : List Char → Option (List Char × List Char)
  | [] => none
  | c :: rest =>
    match splitLast? mark rest with
    | some (before, behind) => some (c :: before, behind)
    | none => if c = mark then some ([], rest) else none

/-- The text before and behind the first occurrence of a mark. -/
def splitFirst? (mark : Char) : List Char → Option (List Char × List Char)
  | [] => none
  | c :: rest =>
    if c = mark then some ([], rest)
    else match splitFirst? mark rest with
      | some (before, behind) => some (c :: before, behind)
      | none => none

namespace Dialect

def expandStringsWith (dialect : Dialect) : Nat → List Char → List Char
  | 0, text => text
  | _ + 1, [] => []
  | fuel + 1, c :: rest =>
    if c = '&' then
      match splitLast? '&' (rest.takeWhile (· ≠ '#')) with
      | some (d :: literal, behind) =>
        Quoted.chars dialect.stringQuote (d :: literal) ++
          expandStringsWith dialect fuel (behind ++ rest.dropWhile (· ≠ '#'))
      | _ => '&' :: expandStringsWith dialect fuel rest
    else c :: expandStringsWith dialect fuel rest

/-- Puts string literals in the place of their markers. -/
def expandStrings (dialect : Dialect) (text : List Char) : List Char :=
  expandStringsWith dialect text.length text

def expandIdentifiersWith (dialect : Dialect) : Nat → List Char → List Char
  | 0, text => text
  | _ + 1, [] => []
  | fuel + 1, c :: rest =>
    if c = '#' then
      match splitFirst? '#' rest with
      | some (d :: name, behind) =>
        (dialect.identifier (String.ofList (d :: name))).toList ++
          expandIdentifiersWith dialect fuel behind
      | _ => '#' :: expandIdentifiersWith dialect fuel rest
    else c :: expandIdentifiersWith dialect fuel rest

/-- Puts quoted identifiers in the place of their markers. -/
def expandIdentifiers (dialect : Dialect) (text : List Char) : List Char :=
  expandIdentifiersWith dialect text.length text

/-- A column's text with all markers expanded. -/
def expand (dialect : Dialect) (text : String) : String :=
  String.ofList (dialect.expandIdentifiers (dialect.expandStrings text.toList))

def column (dialect : Dialect) (text : String) : String :=
  dialect.lenientIdentifier (dialect.expand text)

end Dialect

end PortableQuery.Sql
