import PortableQuery.Dynamo.Like
import PortableQuery.Dynamo.Placeholder
import PortableQuery.Error
import PortableQuery.Query.Expr

/-!
# Conditions of a key-value store

Conditions as phrases. A key is the name of an attribute and a value must be a literal: nothing is
computed on the way.
-/

namespace PortableQuery

open Dynamo

/-- The attribute that an expression in a value position stands for. The text of a column is taken
as a string. -/
def Expr.toAttribute : Expr → Except Error Attribute
  | .value literal => .ok (.ofLiteral literal)
  | .raw literal => .ok (.ofLiteral literal)
  | .column text => .ok (.string text)
  | other => .error (.unsupported .dynamodb (.computedValue other.encode))

namespace Dynamo

def attributes : List Expr → Except Error (List Attribute)
  | [] => .ok []
  | expr :: more => do
    let first ← expr.toAttribute
    let others ← attributes more
    return first :: others

/-- Phrases with a word between them. -/
def joinPhrases (separator : String) : List Phrase → Phrase
  | [] => []
  | [phrase] => phrase
  | phrase :: more => phrase ++ Token.word separator :: joinPhrases separator more

def valueList (values : List Attribute) : Phrase :=
  joinPhrases ", " (values.map fun value => [Token.value value])

def likePhrase (name : String) (pattern : String) (isLike : Bool) : Phrase :=
  let negation := if isLike then "" else "NOT "
  let test (function term : String) : Phrase :=
    [.word (negation ++ function ++ "("), .name name, .word ", ", .value (.string term), .word ")"]
  match LikeTest.ofPattern pattern with
  | .contains term => test "contains" term
  | .beginsWith term => test "begins_with" term
  | .equals term =>
    [.name name, .word (if isLike then " = " else " <> "), .value (.string term)]

end Dynamo

mutual

def Condition.phrase : Condition → Except Error Phrase
  | .compare key value operator => do
    let value ← value.toAttribute
    return [.name key.columnName, .word (" " ++ operator.angleWord ++ " "), .value value]
  | .between key low high => do
    let low ← low.toAttribute
    let high ← high.toAttribute
    return [.name key.columnName, .word " BETWEEN ", .value low, .word " AND ", .value high]
  | .oneOf key values => do
    let values ← attributes values
    return Token.name key.columnName :: Token.word " IN (" :: (valueList values ++ [.word ")"])
  | .noneOf key values => do
    let values ← attributes values
    return Token.word "NOT (" :: Token.name key.columnName :: Token.word " IN (" ::
      (valueList values ++ [.word "))"])
  | .null key isNull =>
    .ok [.word (if isNull then "attribute_not_exists(" else "attribute_exists("),
      .name key.columnName, .word ")"]
  | .like key pattern isLike => .ok (likePhrase key.columnName pattern isLike)
  | .columns left right operator =>
    .ok [.name left.columnName, .word (" " ++ operator.angleWord ++ " "), .name right.columnName]
  | .logical members operator => do
    let members ← Condition.phrases members
    return Token.word "(" :: (joinPhrases (" " ++ operator.word ++ " ") members ++ [.word ")"])
  | .not inner => do
    let inner ← inner.phrase
    return Token.word "NOT (" :: (inner ++ [.word ")"])

def Condition.phrases : List Condition → Except Error (List Phrase)
  | [] => .ok []
  | condition :: more => do
    let first ← condition.phrase
    let others ← Condition.phrases more
    return first :: others

end

end PortableQuery
