import PortableQuery.Query.Basic

/-!
# Building conditions

A list of alternatives that is empty makes no condition at all, and neither does a conjunction or
disjunction of absent conditions.
-/

namespace PortableQuery.Condition

def oneOf? (key : Expr) (values : List Expr) : Option Condition :=
  if values.isEmpty then none else some (.oneOf key values)

def noneOf? (key : Expr) (values : List Expr) : Option Condition :=
  if values.isEmpty then none else some (.noneOf key values)

/-- The present conditions joined by a connective. -/
def logical? (operator : Connective) (members : List (Option Condition)) : Option Condition :=
  let present := members.filterMap id
  if present.isEmpty then none else some (.logical present operator)

/-! ## Search terms -/

/-- What the mark in front of a search term asks for. -/
inductive SearchMark
  | compare (operator : Comparison)
  | words
  | noWords
  | unlike

/-- The mark of a search term and the term behind it. -/
def searchMark? : List Char → Option (SearchMark × List Char)
  | '>' :: '=' :: term => some (.compare .ge, term)
  | '<' :: '=' :: term => some (.compare .le, term)
  | '>' :: term => some (.compare .gt, term)
  | '<' :: term => some (.compare .lt, term)
  | '~' :: term => some (.words, term)
  | '!' :: '~' :: term => some (.noWords, term)
  | '!' :: term => some (.unlike, term)
  | _ => none

/-- Patterns for a word that starts with the term: at the start or behind a delimiter. -/
def wordPatterns (delimiters : List String) (term : String) : List String :=
  (term ++ "%") :: delimiters.map fun delimiter => "%" ++ delimiter ++ term ++ "%"

def stringValue (text : String) : Expr := .value (.string text)

/-- The condition that a search term puts on a column: comparisons, words starting with the term,
no such words, or inequality; a term without a mark asks for equality. -/
def ofSearchTerm (column : Expr) (delimiters : List String) (text : String) : Condition :=
  match searchMark? text.toList with
  | none => .compare column (stringValue text) .eq
  | some (mark, term) =>
    let term := String.ofList term
    match mark with
    | .compare operator => .compare column (stringValue term) operator
    | .words =>
      .logical ((wordPatterns delimiters term).map fun pattern => .like column pattern true) .or
    | .noWords =>
      .logical ((wordPatterns delimiters term).map fun pattern => .like column pattern false) .and
    | .unlike => .compare column (stringValue (term ++ "%")) .ne

end PortableQuery.Condition
