/-!
# Operators and keywords

The closed vocabularies of the query language, each with the words it is written in. Keywords of
joins and sort directions are read without regard to ASCII case.
-/

namespace PortableQuery

def asciiUpper (text : String) : String := String.ofList (text.toList.map Char.toUpper)

def asciiLower (text : String) : String := String.ofList (text.toList.map Char.toLower)

inductive Comparison
  | eq
  | ne
  | gt
  | lt
  | ge
  | le
  deriving DecidableEq

namespace Comparison

def word : Comparison → String
  | .eq => "="
  | .ne => "!="
  | .gt => ">"
  | .lt => "<"
  | .ge => ">="
  | .le => "<="

/-- The spelling of backends that write inequality as `<>`. -/
def angleWord : Comparison → String
  | .ne => "<>"
  | other => other.word

def ofWord? (text : String) : Option Comparison :=
  if text = "=" then some .eq
  else if text = "!=" || text = "<>" then some .ne
  else if text = ">" then some .gt
  else if text = "<" then some .lt
  else if text = ">=" then some .ge
  else if text = "<=" then some .le
  else none

end Comparison

inductive Connective
  | and
  | or
  deriving DecidableEq

namespace Connective

def word : Connective → String
  | .and => "AND"
  | .or => "OR"

def ofWord? (text : String) : Option Connective :=
  if text = "AND" then some .and else if text = "OR" then some .or else none

end Connective

inductive SortDirection
  | asc
  | desc
  deriving DecidableEq

namespace SortDirection

def word : SortDirection → String
  | .asc => "ASC"
  | .desc => "DESC"

def ofWord? (text : String) : Option SortDirection :=
  let text := asciiUpper text
  if text = "ASC" then some .asc else if text = "DESC" then some .desc else none

end SortDirection

inductive JoinKind
  | inner
  | left
  | right
  | full
  | cross
  deriving DecidableEq

namespace JoinKind

def word : JoinKind → String
  | .inner => "INNER"
  | .left => "LEFT"
  | .right => "RIGHT"
  | .full => "FULL"
  | .cross => "CROSS"

def ofWord? (text : String) : Option JoinKind :=
  let text := asciiUpper text
  if text = "INNER" then some .inner
  else if text = "LEFT" then some .left
  else if text = "RIGHT" then some .right
  else if text = "FULL" then some .full
  else if text = "CROSS" then some .cross
  else none

end JoinKind

inductive UnionKind
  | distinct
  | all
  deriving DecidableEq

namespace UnionKind

def word : UnionKind → String
  | .distinct => "UNION"
  | .all => "UNION ALL"

def ofWord? (text : String) : Option UnionKind :=
  if text = "UNION" then some .distinct
  else if text = "UNION ALL" || text = "UNION_ALL" then some .all
  else none

end UnionKind

end PortableQuery
