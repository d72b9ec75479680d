import PortableQuery.Sql.Render

/-!
# Hooks

Functions that change a statement while it is rendered. The table hook sees every plain table name
in a FROM or JOIN clause and answers with another name or with a select in its place; nothing inside
its answer goes through it again. The select hook sees every select, also those inside the selects it
has changed. The other hooks see the mutation as a whole.
-/

namespace PortableQuery

open Sql

namespace Sql

structure Hooks where
  table : Option (String → Source)
  select : Option (Select → Select)
  insert : Option (Insert → Insert)
  update : Option (Update → Update)
  delete : Option (Delete → Delete)

namespace Hooks

def none : Hooks :=
  { table := .none, select := .none, insert := .none, update := .none, delete := .none }

def isEmpty (hooks : Hooks) : Bool :=
  hooks.table.isNone && hooks.select.isNone && hooks.insert.isNone && hooks.update.isNone &&
    hooks.delete.isNone

/-- How deep selects that a hook puts into selects are followed. -/
def depthLimit : Nat := 1000

/-- Renders what the hook makes of a select; the selects inside that go through the hook in turn. -/
def hookedSelect (hook : Select → Select) (flavor : Flavor) (naming : Naming) :
    Nat → Select → Except Error String
  | 0, query => query.sql { flavor, naming, replaced? := fun _ => .none }
  | depth + 1, query =>
    (hook query).sql
      { flavor, naming, replaced? := fun inner => some (hookedSelect hook flavor naming depth inner) }

/-- The select hook at work beside a given naming. -/
def onSelects (hooks : Hooks) (flavor : Flavor) (naming : Naming) : Rendering :=
  { flavor, naming
    replaced? := match hooks.select with
      | some hook => fun query => some (hookedSelect hook flavor naming depthLimit query)
      | .none => fun _ => .none }

/-- How plain table names are rendered under the table hook. -/
def naming (hooks : Hooks) (flavor : Flavor) : Naming :=
  match hooks.table with
  | .none => flavor.naming
  | some hook => fun name =>
    match hook name with
    | .name name => flavor.naming name
    | .select query => do
      let rendering := hooks.onSelects flavor flavor.naming
      let rendered ← rendering.select query fun _ => query.sql rendering
      return (parenthesized rendered, true)

def rendering (hooks : Hooks) (flavor : Flavor) : Rendering :=
  hooks.onSelects flavor (hooks.naming flavor)

/-- The statement after the hook that sees it as a whole. -/
def onMutation (hooks : Hooks) : Statement → Statement
  | .insert mutation => .insert ((hooks.insert.getD id) mutation)
  | .update mutation => .update ((hooks.update.getD id) mutation)
  | .delete mutation => .delete ((hooks.delete.getD id) mutation)
  | statement => statement

end Hooks

end Sql

/-- Renders a statement under hooks. -/
def Statement.sqlHooked (flavor : Flavor) (hooks : Hooks) (statement : Statement) :
    Except Error String :=
  (hooks.onMutation statement).sqlWith (hooks.rendering flavor)

end PortableQuery
