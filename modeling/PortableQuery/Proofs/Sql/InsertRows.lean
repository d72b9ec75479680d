import Mathlib.Data.List.Nodup
import PortableQuery.Proofs.Entries
import PortableQuery.Proofs.Sql.Quoting
import PortableQuery.Sql.Render

/-!
# Inserted rows

An insert of rows names its columns once, and they are the columns of the first row. Under every one
of them each row has its value for that column, wherever in the row it stands, or null. What later rows
have for other columns is not written, so nothing is lost exactly if they have no other columns.
-/

namespace PortableQuery

open Sql

namespace Sql

/-- The text of an insert with named columns and a tuple of values for every row. -/
def insertText (table : String) (columns : List String) (tuples : List (List String)) : String :=
  "INSERT INTO " ++ table ++ " " ++ parenthesized (String.intercalate ", " columns) ++ " VALUES " ++
    String.intercalate ", " (tuples.map fun tuple ↦ parenthesized (String.intercalate ", " tuple))

/-- A text stands for what a row has for a column: its value if it has one, and else null. -/
def Shows (flavor : Flavor) (row : Row) (column text : String) : Prop :=
  (∀ value, (column, value) ∈ row → text = flavor.value value) ∧
    (column ∉ Entries.keys row → text = "NULL")

/-- The values of a row for given columns, one by one. -/
def cells (flavor : Flavor) (columns : List String) (row : Row) : List String :=
  columns.map fun column ↦ flavor.value ((row.get? column).getD .null)

theorem shows_value (flavor : Flavor) {row : Row} (distinct : (Entries.keys row).Nodup) (column : String) :
    Shows flavor row column (flavor.value ((row.get? column).getD .null)) := by
  refine ⟨fun value hvalue ↦ ?_, fun habsent ↦ ?_⟩
  · rw [Entries.get?_of_mem distinct hvalue, Option.getD_some]
  · rw [Entries.get?_eq_none_iff.mpr habsent]
    rfl

theorem forall₂_shows_cells (flavor : Flavor) (columns : List String) {row : Row}
    (distinct : (Entries.keys row).Nodup) :
    List.Forall₂ (Shows flavor row) columns (cells flavor columns row) :=
  List.forall₂_map_right_iff.mpr (List.forall₂_same.mpr fun column _ ↦ shows_value flavor distinct column)

end Sql

/-- The part of a row that stands under given columns. -/
def Row.within (columns : List String) (row : Row) : Row :=
  row.filter fun entry ↦ columns.contains entry.1

theorem Row.cells_within (flavor : Flavor) (columns : List String) (row : Row) :
    cells flavor columns (row.within columns) = cells flavor columns row := by
  apply List.map_congr_left
  intro column hcolumn
  rw [Row.within, Entries.get?_filter (List.contains_iff_mem.mpr hcolumn)]

theorem Insert.sql_rows (rendering : Rendering) (table : Table) (first : Row) (more : List Row) :
    Insert.sql rendering ⟨table, some (.rows (first :: more))⟩ =
      (table.targetSql rendering).map fun target ↦
        insertText target ((Entries.keys first).map rendering.dialect.identifier)
          ((first :: more).map (cells rendering.flavor (Entries.keys first))) := by
  have htuples : ((first :: more).map (cells rendering.flavor (Entries.keys first))).map
      (fun tuple ↦ parenthesized (String.intercalate ", " tuple)) =
        (first :: more).map (rowValues rendering.flavor (Entries.keys first)) := List.map_map
  rw [Insert.sql]
  cases table.targetSql rendering with
  | error cause => rfl
  | ok target =>
    unfold insertText
    rw [htuples]
    rfl

/-- An insert of rows names the columns of the first row, each of them once, and has a tuple for every
row, with the row's value or with null in the place of every column. All columns are named exactly if
those of later rows are among those of the first row; what a later row has for other columns is without
effect. -/
theorem Insert.sql_aligned (rendering : Rendering) (table : Table) {first : Row} {more : List Row}
    (distinct : ∀ row ∈ first :: more, (Entries.keys row).Nodup) :
    (∃ tuples : List (List String),
        (Statement.insert ⟨table, some (.rows (first :: more))⟩).sqlWith rendering =
            (table.targetSql rendering).map (insertText ·
              ((Entries.keys first).map rendering.dialect.identifier) tuples) ∧
          List.Forall₂
            (fun row tuple ↦ List.Forall₂ (Shows rendering.flavor row) (Entries.keys first) tuple)
            (first :: more) tuples) ∧
      ((Entries.keys first).map rendering.dialect.identifier).Nodup ∧
      ((∀ row ∈ first :: more, ∀ column ∈ Entries.keys row,
          rendering.dialect.identifier column ∈
            (Entries.keys first).map rendering.dialect.identifier) ↔
        ∀ row ∈ more, ∀ column ∈ Entries.keys row, column ∈ Entries.keys first) ∧
      (Statement.insert ⟨table, some (.rows
          (first :: more.map (Row.within (Entries.keys first))))⟩).sqlWith rendering =
        (Statement.insert ⟨table, some (.rows (first :: more))⟩).sqlWith rendering := by
  have hnamed (column : String) : rendering.dialect.identifier column ∈
      (Entries.keys first).map rendering.dialect.identifier ↔ column ∈ Entries.keys first :=
    List.mem_map_of_injective rendering.dialect.identifier_injective
  refine ⟨⟨_, Insert.sql_rows rendering table first more, ?_⟩, ?_, ?_, ?_⟩
  · refine List.forall₂_map_right_iff.mpr (List.forall₂_same.mpr fun row hrow ↦ ?_)
    exact forall₂_shows_cells rendering.flavor _ (distinct row hrow)
  · exact (distinct first List.mem_cons_self).map rendering.dialect.identifier_injective
  · simp only [hnamed, List.forall_mem_cons]
    exact and_iff_right fun _ ↦ id
  · have hcells : (first :: more.map (Row.within (Entries.keys first))).map
        (cells rendering.flavor (Entries.keys first)) =
          (first :: more).map (cells rendering.flavor (Entries.keys first)) := by
      rw [List.map_cons, List.map_cons, List.map_map]
      exact congrArg _ (List.map_congr_left fun row _ ↦ row.cells_within _ _)
    rw [Statement.sqlWith, Statement.sqlWith, Insert.sql_rows, Insert.sql_rows, hcells]

/-- Rows in another order, and a row that lacks a column. -/
theorem Insert.sql_aligned_reordered :
    (∀ row ∈ [[("id", Literal.int 1), ("name", .string "Jane")],
          [("name", .string "John"), ("id", .int 2)], [("id", .int 3)]],
        ∀ column ∈ Entries.keys row, Dialect.mysql.identifier column ∈ ["`id`", "`name`"]) ∧
      (Statement.insert ⟨.named "users" none, some (.rows
          [[("id", .int 1), ("name", .string "Jane")], [("name", .string "John"), ("id", .int 2)],
            [("id", .int 3)]])⟩).sql ⟨.mysql, none⟩ =
        .ok "INSERT INTO `users` (`id`, `name`) VALUES (1, \"Jane\"), (2, \"John\"), (3, NULL)" := by
  have hdistinct : ∀ row ∈ [[("id", Literal.int 1), ("name", .string "Jane")],
      [("name", .string "John"), ("id", .int 2)], [("id", .int 3)]], (Entries.keys row).Nodup := by
    decide
  obtain ⟨-, -, hnamed, -⟩ :=
    Insert.sql_aligned (.plain ⟨.mysql, none⟩) (.named "users" none) hdistinct
  exact ⟨hnamed.mpr (by decide), by decide⟩

/-- A column that only a later row has is not named, and its value is not written. -/
theorem Insert.sql_aligned_laterColumn :
    "b" ∈ Entries.keys [("a", Literal.int 2), ("b", .int 3)] ∧
      (Statement.insert ⟨.named "t" none, some (.rows
          [[("a", .int 1)], [("a", .int 2), ("b", .int 3)]])⟩).sql ⟨.mysql, none⟩ =
        .ok "INSERT INTO `t` (`a`) VALUES (1), (2)" := by
  decide

end PortableQuery
