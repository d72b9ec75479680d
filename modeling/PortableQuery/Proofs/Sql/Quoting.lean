import PortableQuery.Dynamo.Partiql
import PortableQuery.Proofs.Text.Quoted
import PortableQuery.Sql.Escape

/-!
# Quoting

String literals are read back as the text they were made of, whatever stands behind them, and
identifiers as the segments of their name. A table's name is read back like an identifier unless it
has a hyphen: then its own quotes are not doubled, and it stays between the quotes around it exactly
if its quotes happen to be those of quoted segments.
-/

namespace PortableQuery

open Text

/-! ## String literals -/

/-- A string literal of a dialect, or of PartiQL, is read back with what follows it left over. -/
theorem string_read_back (text rest : String) :
    (∀ dialect : Sql.Dialect, rest.toList.head? ≠ some dialect.stringQuote →
      Quoted.read? dialect.stringQuote (dialect.string text ++ rest).toList =
        some (text.toList, rest.toList)) ∧
    (rest.toList.head? ≠ some '\'' →
      Quoted.read? '\'' (Dynamo.quoted text ++ rest).toList = some (text.toList, rest.toList)) := by
  have hread (quote : Char) (apart : rest.toList.head? ≠ some quote) :
      Quoted.read? quote (Quoted.encode quote text ++ rest).toList =
        some (text.toList, rest.toList) := by
    rw [Quoted.read?_eq_some_iff, Quoted.encode, String.toList_append, String.toList_ofList]
    exact ⟨rfl, apart⟩
  exact ⟨fun dialect ↦ hread dialect.stringQuote, hread '\''⟩

/-- Quotes at the end of a text are told from the quote that closes it. -/
theorem string_read_back_quoteEnds :
    Quoted.read? '"' (Sql.Dialect.mysql.string "a\"\"" ++ "'b'").toList =
        some ("a\"\"".toList, "'b'".toList) ∧
      Quoted.read? '\'' (Dynamo.quoted "it's'" ++ " AND").toList =
        some ("it's'".toList, " AND".toList) := by
  obtain ⟨hstring, -⟩ := string_read_back "a\"\"" "'b'"
  obtain ⟨-, hquoted⟩ := string_read_back "it's'" " AND"
  exact ⟨hstring .mysql (by decide), hquoted (by decide)⟩

namespace Sql.Dialect

variable (dialect : Dialect)

/-! ## Identifiers -/

theorem columnQuote_ne_dot : dialect.columnQuote ≠ '.' := by cases dialect <;> decide

theorem read?_identifier {name : String} (h : name ≠ "NULL") :
    Segments.read? dialect.columnQuote (dialect.identifier name).toList =
      some (name.toList.splitOn '.', []) := by
  rw [identifier, if_neg h, Segments.quote, String.toList_ofList,
    Segments.quoteChars_eq_written dialect.columnQuote_ne_dot]
  exact Segments.read?_written dialect.columnQuote_ne_dot (List.splitOn_ne_nil _ _)

/-- The word for null stands bare, so it is no quoted name. -/
theorem read?_identifier_null :
    Segments.read? dialect.columnQuote (dialect.identifier "NULL").toList = none := by
  have hread : Quoted.read? dialect.columnQuote (dialect.identifier "NULL").toList = none := by
    cases dialect <;> rfl
  rw [Segments.read?]
  split <;> simp_all

theorem identifier_injective : Function.Injective dialect.identifier := by
  have hread (name : String) : Segments.read? dialect.columnQuote (dialect.identifier name).toList =
      if name = "NULL" then none else some (name.toList.splitOn '.', []) := by
    split
    · rename_i hnull
      rw [hnull, read?_identifier_null]
    · rename_i hnull
      exact dialect.read?_identifier hnull
  intro name other heq
  have hnames := (hread name).symm.trans (heq ▸ hread other)
  split at hnames <;> split at hnames
  · simp_all
  · contradiction
  · contradiction
  · have hjoined := congrArg (['.'].intercalate ·) (Prod.mk.inj (Option.some.inj hnames)).1
    simp only [List.intercalate_splitOn] at hjoined
    exact String.toList_inj.mp hjoined

/-- A quoted name is read back as its segments, and no other name is quoted in the same way. -/
theorem identifier_read_back {name : String} (h : name ≠ "NULL") :
    Segments.read? dialect.columnQuote (dialect.identifier name).toList =
        some (name.toList.splitOn '.', []) ∧
      ∀ other, other ≠ name → dialect.identifier other ≠ dialect.identifier name := by
  have hname := dialect.read?_identifier h
  refine ⟨hname, fun other hother heq ↦ hother ?_⟩
  -- What is quoted alike is read as the same segments, and a name is its segments with dots between.
  rw [← heq] at hname
  by_cases hnull : other = "NULL"
  · rw [hnull, read?_identifier_null] at hname
    contradiction
  · rw [dialect.read?_identifier hnull] at hname
    have hsegments : other.toList.splitOn '.' = name.toList.splitOn '.' := by simpa using hname
    have hjoined := congrArg (['.'].intercalate ·) hsegments
    simp only [List.intercalate_splitOn] at hjoined
    exact String.toList_inj.mp hjoined

/-- Quotes at dots and empty segments are told apart. -/
theorem identifier_read_back_quotesAtDots :
    postgres.identifier "\".\"..a" = "\"\"\"\".\"\"\"\".\"\".\"a\"" ∧
      Segments.read? '"' (postgres.identifier "\".\"..a").toList =
        some ([['"'], ['"'], [], ['a']], []) ∧
      postgres.identifier "\"\"..a" ≠ postgres.identifier "\".\"..a" := by
  have hname : "\".\"..a" ≠ "NULL" := by decide
  obtain ⟨hread, hother⟩ := postgres.identifier_read_back hname
  exact ⟨by decide, hread, hother _ (by decide)⟩

/-! ## Tables -/

/-- The part of a table's name that is written. -/
def tablePart : Dialect → String → String
  | .sqlite, name => behindAtSign name
  | _, name => name

theorem table_eq (name : String) : dialect.table name = dialect.wholeTable (dialect.tablePart name) := by
  cases dialect <;> rfl

theorem wholeTable_of_not_mem {name : String} (h : '-' ∉ name.toList) :
    dialect.wholeTable name = dialect.identifier name := by
  rw [wholeTable, if_neg (mt List.contains_iff_mem.mp h)]

theorem read?_wholeTable_iff {name : String} (h : '-' ∈ name.toList) {segments : List (List Char)} :
    Segments.read? dialect.columnQuote (dialect.wholeTable name).toList = some (segments, []) ↔
      segments ≠ [] ∧ name.toList = Segments.interior dialect.columnQuote segments := by
  rw [Segments.read?_eq_some_iff dialect.columnQuote_ne_dot, wholeTable,
    if_pos (List.contains_iff_mem.mpr h), String.toList_ofList]
  refine and_congr_right fun hsegments ↦ ?_
  rw [Segments.written_eq_interior hsegments, List.cons_inj_right, List.append_left_inj]

/-- A table's name is read to its end exactly if the part that is written is not the word for null
and, where it has a hyphen, its own quotes are those of quoted segments. Without a hyphen it is read
as its segments. With one it is read as the single identifier that it is meant to be only if there is
no quote in it. -/
theorem table_read_whole_iff (name : String) :
    ((∃ segments,
        Segments.read? dialect.columnQuote (dialect.table name).toList = some (segments, [])) ↔
      dialect.tablePart name ≠ "NULL" ∧
        ('-' ∈ (dialect.tablePart name).toList →
          ∃ segments ≠ [],
            (dialect.tablePart name).toList = Segments.interior dialect.columnQuote segments)) ∧
    (dialect.tablePart name ≠ "NULL" → '-' ∉ (dialect.tablePart name).toList →
      Segments.read? dialect.columnQuote (dialect.table name).toList =
        some ((dialect.tablePart name).toList.splitOn '.', [])) ∧
    ('-' ∈ (dialect.tablePart name).toList →
      (Segments.read? dialect.columnQuote (dialect.table name).toList =
          some ([(dialect.tablePart name).toList], []) ↔
        dialect.columnQuote ∉ (dialect.tablePart name).toList)) := by
  rw [table_eq]
  generalize dialect.tablePart name = part
  have hplain (hnull : part ≠ "NULL") (hhyphen : '-' ∉ part.toList) :
      Segments.read? dialect.columnQuote (dialect.wholeTable part).toList =
        some (part.toList.splitOn '.', []) := by
    rw [dialect.wholeTable_of_not_mem hhyphen, dialect.read?_identifier hnull]
  refine ⟨⟨?_, ?_⟩, hplain, ?_⟩
  · rintro ⟨segments, hread⟩
    constructor
    · rintro rfl
      rw [dialect.wholeTable_of_not_mem (by decide), read?_identifier_null] at hread
      contradiction
    · intro hhyphen
      exact ⟨segments, (dialect.read?_wholeTable_iff hhyphen).mp hread⟩
  · rintro ⟨hnull, hinterior⟩
    by_cases hhyphen : '-' ∈ part.toList
    · obtain ⟨segments, hsegments⟩ := hinterior hhyphen
      exact ⟨segments, (dialect.read?_wholeTable_iff hhyphen).mpr hsegments⟩
    · exact ⟨_, hplain hnull hhyphen⟩
  · intro hhyphen
    rw [dialect.read?_wholeTable_iff hhyphen, ← Quoted.double_eq_self_iff, eq_comm (b := part.toList)]
    simp [Segments.interior]

/-- A hyphenated name that closes its own quotes: the rest of it is left over as SQL. -/
theorem table_read_whole_iff_closedEarly :
    Segments.read? mysql.columnQuote (mysql.table "a-`; DROP TABLE t; --").toList =
        some (["a-".toList], "; DROP TABLE t; --`".toList) ∧
      ¬ ∃ segments ≠ [],
        "a-`; DROP TABLE t; --".toList = Segments.interior mysql.columnQuote segments := by
  have hread : Segments.read? mysql.columnQuote (mysql.table "a-`; DROP TABLE t; --").toList =
      some (["a-".toList], "; DROP TABLE t; --`".toList) :=
    Segments.read?_of_last (by decide) (by decide)
  refine ⟨hread, fun hinterior ↦ ?_⟩
  obtain ⟨segments, hwhole⟩ := (mysql.table_read_whole_iff _).1.mpr ⟨by decide, fun _ ↦ hinterior⟩
  rw [hread] at hwhole
  simp at hwhole

end Sql.Dialect

end PortableQuery
