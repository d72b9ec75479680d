import PortableQuery.Dynamo.Attribute
import PortableQuery.Text.Numeral

/-!
# Placeholders

Requests name attributes and values only by placeholders: `#n0`, `#n1`, … for names and `:v0`, `:v1`,
… for values, numbered by first use. A phrase is the text of an expression before placeholders are
put in: words of the expression language, names and values.
-/

namespace PortableQuery.Dynamo

open Text

inductive Token
  | word (text : String)
  | name (name : String)
  | value (held : Attribute)

abbrev Phrase := List Token

/-- The names and values that have a placeholder, in the order of first use. -/
structure Placeholders where
  names : List String
  values : List Attribute

namespace Placeholders

def empty : Placeholders := { names := [], values := [] }

def nameMark (index : Nat) : String := "#n" ++ Numeral.ofNat index

def valueMark (index : Nat) : String := ":v" ++ Numeral.ofNat index

/-- The placeholder of a name, which is the old one for a name that has been used. -/
def addName (placeholders : Placeholders) (name : String) : String × Placeholders :=
  match placeholders.names.findIdx? (· == name) with
  | some index => (nameMark index, placeholders)
  | none =>
    (nameMark placeholders.names.length, { placeholders with names := placeholders.names ++ [name] })

/-- The placeholder of a value, which is the old one for a value that has been used. -/
def addValue (placeholders : Placeholders) (value : Attribute) : String × Placeholders :=
  match placeholders.values.findIdx? (Attribute.same value) with
  | some index => (valueMark index, placeholders)
  | none =>
    (valueMark placeholders.values.length,
      { placeholders with values := placeholders.values ++ [value] })

/-- The text of a phrase with placeholders for its names and values. -/
def write (placeholders : Placeholders) : Phrase → String × Placeholders
  | [] => ("", placeholders)
  | token :: more =>
    let (text, placeholders) := match token with
      | .word text => (text, placeholders)
      | .name name => placeholders.addName name
      | .value value => placeholders.addValue value
    let (rest, placeholders) := placeholders.write more
    (text ++ rest, placeholders)

def writeAll (placeholders : Placeholders) : List Phrase → List String × Placeholders
  | [] => ([], placeholders)
  | phrase :: more =>
    let (text, placeholders) := placeholders.write phrase
    let (rest, placeholders) := placeholders.writeAll more
    (text :: rest, placeholders)

/-- Every name under its placeholder. -/
def nameEntries (placeholders : Placeholders) : Entries String :=
  placeholders.names.mapIdx fun index name => (nameMark index, name)

/-- Every value under its placeholder. -/
def valueEntries (placeholders : Placeholders) : Entries Attribute :=
  placeholders.values.mapIdx fun index value => (valueMark index, value)

end Placeholders

end PortableQuery.Dynamo
