import PortableQuery.Proofs.Sql.Rewriting
import PortableQuery.Sql.Hooks

/-!
# The table hook as a substitution

To render a statement under a table hook is to put the hook's answers in the place of the plain table
names, once, and to render the outcome without hooks. Only the message of one kind of failure tells
the two apart: a call that moves a date quotes an interval or a unit that it cannot read as it was
given to it, and there a sub-query stands with its own tables.
-/

namespace PortableQuery

open Text Wire Sql

/-- The table hook alone. -/
def Sql.Hooks.ofTable (hook : String → Source) : Hooks := { Hooks.none with table := some hook }

/-- The hook's answers in the place of plain table names, and no literal changed. -/
def Rewriting.ofTable (hook : String → Source) : Rewriting := ⟨id, hook⟩

section Naming

variable (flavor : Flavor) (hook : String → Source)

@[simp] theorem Sql.Hooks.flavor_rendering :
    ((Hooks.ofTable hook).rendering flavor).flavor = flavor := rfl

@[simp] theorem Sql.Hooks.onMutation_ofTable (statement : Statement) :
    (Hooks.ofTable hook).onMutation statement = statement := by
  cases statement <;> rfl

/-- A hooked name is rendered like a table of what the hook makes of it. -/
theorem Sql.Hooks.sql_named (name : String) (label : Option String) :
    (Table.named name label).sql ((Hooks.ofTable hook).rendering flavor) =
      (Table.ofSource (hook name) label).sql (.plain flavor) := by
  rw [Table.sql]
  simp only [Hooks.rendering, Hooks.onSelects, Hooks.naming, Hooks.ofTable, Hooks.none]
  cases hook name with
  | name answer =>
    simp only [Table.ofSource, Table.sql]
    rfl
  | select query =>
    -- While its answer is rendered the hook is off, as in plain rendering.
    simp only [Table.ofSource, Table.sql, bind_assoc, pure_bind]
    rfl

theorem Rewriting.explains_ofTable :
    (Rewriting.ofTable hook).Explains ((Hooks.ofTable hook).rendering flavor) where
  select _ := rfl
  value _ := rfl
  plain _ := rfl
  named := Hooks.sql_named flavor hook

end Naming

/-! ## Arguments that are quoted -/

/-- Failures of one call that moves a date, on the argument as it stands in the statement and on the
rewritten one. The argument is neither a literal nor a column. -/
inductive Statement.Requoted (statement : Statement) (rewriting : Rewriting) : Error → Error → Prop
  | interval {date interval unit : Expr}
      (call : .expr (.call "DATEADD" [date, interval, unit]) ∈ statement.nodes)
      (composed : interval.literalText? = none) :
      Requoted statement rewriting (.invalid (.dateAddInterval interval.encode))
        (.invalid (.dateAddInterval (interval.rewrite rewriting).encode))
  | unit {date interval unit : Expr}
      (call : .expr (.call "DATEADD" [date, interval, unit]) ∈ statement.nodes)
      (composed : unit.literalText? = none) :
      Requoted statement rewriting (.invalid (.dateAddUnit (Case.lower unit.encode)))
        (.invalid (.dateAddUnit (Case.lower (unit.rewrite rewriting).encode)))

/-- Literals and columns are quoted alike, all else as in `Requoted`. -/
theorem Statement.everywhere_quotable (statement : Statement) {rewriting : Rewriting}
    (hplain : ∀ literal, (rewriting.literal literal).plain = literal.plain) :
    statement.Everywhere (Node.Quotable
      (fun cause cause' ↦ cause = cause' ∨ statement.Requoted rewriting cause cause') rewriting) := by
  rintro node hnode date interval unit rfl
  have hnone {expr : Expr} (h : expr.literalText? = none) :
      argumentText expr = expr.encode ∧
        argumentText (expr.rewrite rewriting) = (expr.rewrite rewriting).encode :=
    ⟨argumentText_of_none h, argumentText_of_none ((Expr.literalText?_rewrite hplain expr).trans h)⟩
  constructor
  · by_cases hread : interval.literalText? = none
    · rw [(hnone hread).1, (hnone hread).2]
      exact .inr (.interval hnode hread)
    · rw [argumentText_rewrite hplain hread]
      exact .inl rfl
  · by_cases hread : unit.literalText? = none
    · rw [(hnone hread).1, (hnone hread).2]
      exact .inr (.unit hnode hread)
    · rw [argumentText_rewrite hplain hread]
      exact .inl rfl

/-- Under a table hook a statement gives what the statement with the hook's answers in it gives
without hooks, or both fail on the same argument of a call that moves a date and each quotes it as it
finds it. -/
theorem Statement.sqlHooked_eq_or_requoted (flavor : Flavor) (hook : String → Source)
    (statement : Statement) :
    statement.sqlHooked flavor (.ofTable hook) =
        (statement.rewrite (.ofTable hook)).sql flavor ∨
      ∃ cause cause', statement.sqlHooked flavor (.ofTable hook) = .error cause ∧
        (statement.rewrite (.ofTable hook)).sql flavor = .error cause' ∧
        statement.Requoted (.ofTable hook) cause cause' := by
  have hsame := Statement.sameUpTo_sqlWith (fun cause ↦ .inl rfl)
    (Rewriting.explains_ofTable flavor hook)
    (statement.everywhere_quotable fun literal ↦ rfl)
  rw [Hooks.flavor_rendering] at hsame
  rw [sqlHooked, Hooks.onMutation_ofTable]
  obtain heq | ⟨cause, cause', hcause, hcause', heq | hquoted⟩ := hsame.eq_or_error
  · exact .inl heq
  · exact .inl (by rw [hcause, hcause', heq])
  · exact .inr ⟨cause, cause', hcause, hcause', hquoted⟩

/-- `SELECT DATEADD(d, (SELECT * FROM a), day) FROM t` fails on a sub-query whose table is hooked. -/
theorem Statement.sqlHooked_requoted :
    let hook (name : String) : Source := if name = "a" then .name "b" else .name name
    let inner : Select := { Select.empty with tables := [.named "a" none] }
    let moved := Expr.call "DATEADD" [.column "d", .subquery inner, .column "day"]
    let statement := Statement.select
      { Select.empty with tables := [.named "t" none], fields := [⟨moved, none⟩] }
    statement.sqlHooked ⟨.mysql, none⟩ (.ofTable hook) ≠
      (statement.rewrite (.ofTable hook)).sql ⟨.mysql, none⟩ := by
  decide +kernel

end PortableQuery
