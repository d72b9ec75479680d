/-!
# Patterns

A key-value store can test for a prefix, for a part and for equality. A pattern is reduced to one of
these by the wildcards at its two ends; there is no test for a suffix, so a wildcard in front makes a
test for a part.
-/

namespace PortableQuery.Dynamo

inductive LikeTest
  | contains (term : String)
  | beginsWith (term : String)
  | equals (term : String)
  deriving DecidableEq

def LikeTest.ofPattern (pattern : String) : LikeTest :=
  let chars := pattern.toList
  let inFront := chars.head? == some '%'
  let atEnd := chars.getLast? == some '%'
  if inFront && atEnd then .contains (String.ofList chars.tail.dropLast)
  else if atEnd then .beginsWith (String.ofList chars.dropLast)
  else if inFront then .contains (String.ofList chars.tail)
  else .equals pattern

end PortableQuery.Dynamo
