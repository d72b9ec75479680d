import PortableQuery.Sql.DateAdd

/-!
# Functions

How each dialect spells a function call whose arguments are already rendered.
-/

namespace PortableQuery.Sql

def callText (name : String) (args : List String) : String :=
  name ++ "(" ++ String.intercalate "," args ++ ")"

def postgresCall (name : String) (args : List String) : String :=
  if name = "YEAR" || name = "MONTH" then
    "EXTRACT(" ++ name ++ " FROM " ++ String.intercalate ", " args ++ ")"
  else if name = "IFNULL" then callText "COALESCE" args
  else if name = "IF" then
    match args with
    | [condition, yes, no] => "CASE WHEN " ++ condition ++ " THEN " ++ yes ++ " ELSE " ++ no ++ " END"
    | args => callText name args
  else callText name args

def sqliteCall (name : String) (args : List String) : String :=
  let joined := String.intercalate ", " args
  if name = "MONTH" then "strftime('%m', " ++ joined ++ ", 'localtime')"
  else if name = "YEAR" then "strftime('%Y', " ++ joined ++ ", 'localtime')"
  else if name = "IF" then "IIF(" ++ joined ++ ")"
  else callText name args

namespace Dialect

/-- Spells a call. `args` are the arguments themselves and `rendered` their texts. -/
def call (dialect : Dialect) (name : String) (args : List Expr) (rendered : List String) :
    Except Error String :=
  if name = "DATEADD" then
    match DateAdd.parse dialect.dateUnits args with
    | .ok parts => .ok (parts.text dialect (rendered.headD ""))
    | .error cause => .error cause
  else match dialect with
    | .postgres => .ok (postgresCall name rendered)
    | .sqlite => .ok (sqliteCall name rendered)
    | _ => .ok (callText name rendered)

end Dialect

end PortableQuery.Sql
