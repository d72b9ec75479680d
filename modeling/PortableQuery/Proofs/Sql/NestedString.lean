import PortableQuery.Proofs.Json.FloatText
import PortableQuery.Proofs.Text.Joined
import PortableQuery.Proofs.Text.Quoted
import PortableQuery.Proofs.Wire.Octets
import PortableQuery.Sql.Render

/-!
# Strings inside literals

A string is rendered between quotes, but a list is rendered as plain text, and there its strings
stand as they are. So a rendered literal with its quoted texts blanked depends on the shape of the
literal alone, unless it is a list with a string among its items or in a list among them; with such
a list any text without quotes can be brought outside of quoted texts. The strings inside a map are
not rendered at all.
-/

namespace PortableQuery

open Text Calendar Sql

namespace Literal

/-! ## Literals of one shape -/

mutual

/-- The literal with every string replaced, however deep it stands. The names in maps stay. -/
def mapStrings (f : String → String) : Literal → Literal
  | .string text => .string (f text)
  | .list items => .list (mapStringsItems f items)
  | .map entries => .map (mapStringsEntries f entries)
  | other => other

def mapStringsItems (f : String → String) : List Literal → List Literal
  | [] => []
  | item :: more => item.mapStrings f :: mapStringsItems f more

def mapStringsEntries (f : String → String) : List (String × Literal) → List (String × Literal)
  | [] => []
  | (name, value) :: more => (name, value.mapStrings f) :: mapStringsEntries f more

end

/-- Literals that differ at most in the texts of the strings in them. -/
def SameShape (literal other : Literal) : Prop :=
  literal.mapStrings (fun _ ↦ "") = other.mapStrings fun _ ↦ ""

/-- Literals with a string that their plain text shows: a string, or a list of which an item is one
of these literals. -/
inductive Shows : Literal → Prop
  | string (text : String) : Shows (.string text)
  | list {items : List Literal} {item : Literal} (member : item ∈ items) (inner : item.Shows) :
      Shows (.list items)

/-- A list with a string among its items, or in a list among them. -/
def ListsString (literal : Literal) : Prop := (∃ items, literal = .list items) ∧ literal.Shows

variable (f g : String → String)

theorem mapStringsItems_eq (items : List Literal) :
    mapStringsItems f items = items.map (mapStrings f) := by
  induction items with
  | nil => rfl
  | cons item more ih => simp [mapStringsItems, ih]

theorem mapStringsEntries_eq (entries : List (String × Literal)) :
    mapStringsEntries f entries = entries.map fun entry ↦ (entry.1, entry.2.mapStrings f) := by
  induction entries with
  | nil => rfl
  | cons entry more ih => simp [mapStringsEntries, ih]

theorem mapStrings_mapStrings (literal : Literal) :
    (literal.mapStrings f).mapStrings g = literal.mapStrings (g ∘ f) := by
  induction literal using Literal.induction with
  | list items ih =>
    simp only [mapStrings, mapStringsItems_eq, List.map_map]
    congr 1
    exact List.map_congr_left ih
  | map entries ih =>
    simp only [mapStrings, mapStringsEntries_eq, List.map_map]
    congr 1
    apply List.map_congr_left
    intro entry hentry
    simp [ih entry hentry]
  | _ => rfl

theorem sameShape_mapStrings (literal : Literal) : literal.SameShape (literal.mapStrings f) := by
  rw [SameShape, mapStrings_mapStrings]
  rfl

theorem shows_list {items : List Literal} :
    (Literal.list items).Shows ↔ ∃ item ∈ items, item.Shows := by
  constructor
  · intro h
    cases h with
    | list member inner => exact ⟨_, member, inner⟩
  · rintro ⟨item, member, inner⟩
    exact .list member inner

theorem shows_mapStrings (literal : Literal) : (literal.mapStrings f).Shows ↔ literal.Shows := by
  induction literal using Literal.induction with
  | string text => exact iff_of_true (.string _) (.string _)
  | list items ih =>
    simp only [mapStrings, mapStringsItems_eq, shows_list, List.mem_map, exists_exists_and_eq_and]
    exact exists_congr fun item ↦ and_congr_right (ih item)
  | map entries => exact iff_of_false nofun nofun
  | _ => rfl

theorem listsString_mapStrings (literal : Literal) :
    (literal.mapStrings f).ListsString ↔ literal.ListsString := by
  refine and_congr ?_ (shows_mapStrings f literal)
  cases literal <;> simp [mapStrings]

/-- Plain text that shows no string depends on the shape alone. -/
theorem plain_mapStrings {literal : Literal} (h : ¬literal.Shows) :
    (literal.mapStrings f).plain = literal.plain := by
  induction literal using Literal.induction with
  | string text => exact absurd (.string text) h
  | list items ih =>
    simp only [mapStrings, mapStringsItems_eq, plain, plainItems_eq, List.map_map]
    congr 1
    apply List.map_congr_left
    intro item hitem
    exact ih item hitem (mt (Shows.list hitem) h)
  | _ => rfl

end Literal

/-! ## Quotes in plain text -/

namespace Sql.Dialect

variable (dialect : Dialect)

theorem stringQuote_notMem_of_digits {text : List Char} (h : ∀ c ∈ text, c.isDigit = true) :
    dialect.stringQuote ∉ text := by
  intro hmem
  have hdigit := h _ hmem
  cases dialect <;> contradiction

theorem stringQuote_notMem_ofInt (n : Int) : dialect.stringQuote ∉ (Numeral.ofInt n).toList := by
  rw [Numeral.ofInt, String.toList_ofList]
  intro hmem
  have hdigit := Numeral.isDigit_of_mem_intChars hmem
  cases dialect <;> exact absurd hdigit (by decide)

theorem stringQuote_notMem_padded (width n : Nat) :
    dialect.stringQuote ∉ (Numeral.padded width n).toList := by
  apply stringQuote_notMem_of_digits
  intro c hc
  rw [Numeral.padded, String.toList_ofList] at hc
  rcases List.mem_append.mp hc with hzero | hdigit
  · rw [List.eq_of_mem_replicate hzero]
    rfl
  · exact Numeral.isDigit_of_mem_digits hdigit

theorem stringQuote_notMem_iso (instant : Instant) : dialect.stringQuote ∉ instant.iso.toList := by
  have hmark : ∀ mark ∈ ["-", "+", "T", ":", ".", "Z"], dialect.stringQuote ∉ mark.toList := by
    cases dialect <;> decide
  have hyear (year : Int) : dialect.stringQuote ∉ (Moment.yearText year).toList := by
    unfold Moment.yearText
    split_ifs <;> simp_all [String.toList_append, stringQuote_notMem_padded]
  simp_all [Instant.iso, Moment.dateText, Moment.timeText, String.toList_append,
    stringQuote_notMem_padded]

theorem stringQuote_notMem_positional {digits : List Char} (h : ∀ c ∈ digits, c.isDigit = true)
    (point : Int) : dialect.stringQuote ∉ Decimal.positional digits point := by
  have hdigits := dialect.stringQuote_notMem_of_digits h
  have hzeros (count : Int) : dialect.stringQuote ∉ Decimal.zeros count :=
    dialect.stringQuote_notMem_of_digits fun c ↦ Json.isDigit_of_mem_zeros
  have hmarks : dialect.stringQuote ≠ '0' ∧ dialect.stringQuote ≠ '.' := by
    cases dialect <;> decide
  unfold Decimal.positional
  split_ifs
  · simp [hmarks, hzeros, hdigits]
  · simp [hzeros, hdigits]
  · simp [hmarks, mt List.mem_of_mem_take hdigits, mt List.mem_of_mem_drop hdigits]

theorem stringQuote_notMem_float (number : Decimal.Binary64) :
    dialect.stringQuote ∉ number.plain.toList := by
  unfold Decimal.Binary64.plain
  split
  · cases dialect <;> decide
  · split <;> cases dialect <;> decide
  · split
    · cases dialect <;> decide
    · rename_i x _
      have hsign : dialect.stringQuote ∉ Decimal.signChars x.negative := by
        cases x.negative <;> cases dialect <;> decide
      simp only [String.toList_ofList, List.mem_append, hsign, false_or]
      exact dialect.stringQuote_notMem_positional (fun _ ↦ Numeral.isDigit_of_mem_digits) _

theorem stringQuote_notMem_commas {parts : List String}
    (h : ∀ part ∈ parts, dialect.stringQuote ∉ part.toList) :
    dialect.stringQuote ∉ (String.intercalate "," parts).toList := by
  have hcomma : dialect.stringQuote ∉ ",".toList := by cases dialect <;> decide
  induction parts with
  | nil => simp
  | cons part more ih =>
    obtain ⟨hpart, hmore⟩ := List.forall_mem_cons.mp h
    cases more with
    | nil => simpa using hpart
    | cons next others =>
      rw [String.intercalate_cons_cons]
      simp only [String.toList_append, List.mem_append, not_or]
      exact ⟨⟨hpart, hcomma⟩, ih hmore⟩

/-- The quotes of plain text are those of the strings in it. -/
theorem stringQuote_notMem_plain {sql : String} (h : dialect.stringQuote ∉ sql.toList)
    (literal : Literal) :
    dialect.stringQuote ∉ (literal.mapStrings fun _ ↦ sql).plain.toList := by
  have hword : ∀ word ∈ ["null", "true", "false", "[object Object]"],
      dialect.stringQuote ∉ word.toList := by
    cases dialect <;> decide
  induction literal using Literal.induction with
  | null => exact hword "null" (by decide)
  | bool value => exact hword (Literal.boolText value) (by cases value <;> decide)
  | int value => exact dialect.stringQuote_notMem_ofInt value.toInt
  | float value => exact dialect.stringQuote_notMem_float value
  | string text => exact h
  | date instant => exact dialect.stringQuote_notMem_iso instant
  | bytes octets =>
    apply dialect.stringQuote_notMem_commas
    intro part hpart
    obtain ⟨octet, -, rfl⟩ := List.mem_map.mp hpart
    exact dialect.stringQuote_notMem_ofInt octet.toNat
  | list items ih =>
    rw [Literal.mapStrings, Literal.mapStringsItems_eq, Literal.plain, Literal.plainItems_eq,
      List.map_map]
    apply dialect.stringQuote_notMem_commas
    intro part hpart
    obtain ⟨item, hitem, rfl⟩ := List.mem_map.mp hpart
    exact ih item hitem
  | map entries => exact hword "[object Object]" (by decide)

end Sql.Dialect

namespace Literal

/-- A shown string stands in the plain text as it is. -/
theorem infix_plain {literal : Literal} (h : literal.Shows) (sql : String) :
    sql.toList <:+: (literal.mapStrings fun _ ↦ sql).plain.toList := by
  induction h with
  | string text => exact List.infix_rfl
  | @list items item member inner ih =>
    have hpart : (item.mapStrings fun _ ↦ sql).plain ∈
        plainItems (mapStringsItems (fun _ ↦ sql) items) := by
      rw [plainItems_eq, mapStringsItems_eq, List.map_map]
      exact List.mem_map_of_mem member
    exact ih.trans (infix_intercalate hpart ",")

end Literal

/-! ## Rendered literals -/

namespace Sql.Flavor

variable (flavor : Flavor)

/-- A rendered literal with its quoted texts blanked. -/
def outline (literal : Literal) : List Quoted.Piece :=
  Quoted.outline flavor.dialect.stringQuote (flavor.value literal).toList

theorem outline_mapStrings (f : String → String) {literal : Literal} (h : ¬literal.ListsString) :
    flavor.outline (literal.mapStrings f) = flavor.outline literal := by
  cases literal with
  | string text =>
    have hquoted (text : String) : flavor.outline (.string text) = [.quoted] := by
      rw [outline, value, Dialect.string, Quoted.encode, String.toList_ofList, Quoted.outline_chars]
    rw [Literal.mapStrings, hquoted, hquoted]
  | list items =>
    have hplain := Literal.plain_mapStrings f (mt (And.intro ⟨items, rfl⟩) h)
    exact congrArg (fun text ↦ Quoted.outline flavor.dialect.stringQuote text.toList) hplain
  | _ => rfl

/-- A list that shows a string is rendered with any text in the place of the string. -/
theorem infix_outline {literal : Literal} (h : literal.ListsString) {sql : String}
    (plain : flavor.dialect.stringQuote ∉ sql.toList) :
    sql.toList.map .bare <:+: flavor.outline (literal.mapStrings fun _ ↦ sql) := by
  obtain ⟨⟨items, rfl⟩, hshows⟩ := h
  have hquote := flavor.dialect.stringQuote_notMem_plain plain (.list items)
  have hinfix := Literal.infix_plain hshows sql
  calc sql.toList.map Quoted.Piece.bare
    _ <:+: ((Literal.list items).mapStrings fun _ ↦ sql).plain.toList.map .bare := hinfix.map _
    _ = flavor.outline ((Literal.list items).mapStrings fun _ ↦ sql) :=
      (Quoted.outline_of_notMem hquote).symm

/-- Rendered literals of one shape are the same up to their quoted texts exactly if the literal is no
list with a string in it or in lists inside it. If it is one, every text without quotes stands
outside of quoted texts in some literal of its shape. -/
theorem outline_eq_iff (literal : Literal) :
    ((∀ other, literal.SameShape other → flavor.outline other = flavor.outline literal) ↔
      ¬literal.ListsString) ∧
    (literal.ListsString → ∀ sql : String, flavor.dialect.stringQuote ∉ sql.toList →
      ∃ other, literal.SameShape other ∧ sql.toList.map .bare <:+: flavor.outline other) := by
  have hinjected (hlists : literal.ListsString) (sql : String)
      (hsql : flavor.dialect.stringQuote ∉ sql.toList) :
      ∃ other, literal.SameShape other ∧ sql.toList.map .bare <:+: flavor.outline other :=
    ⟨_, literal.sameShape_mapStrings _, flavor.infix_outline hlists hsql⟩
  refine ⟨⟨?_, ?_⟩, hinjected⟩
  · -- A text that is longer than the whole outline is not in it.
    intro hsame hlists
    let sql := String.ofList (List.replicate ((flavor.outline literal).length + 1) 'a')
    have hsql : flavor.dialect.stringQuote ∉ sql.toList := by
      have hletter : flavor.dialect.stringQuote ≠ 'a' := by
        cases flavor.dialect <;> decide
      simp [sql, List.mem_replicate, hletter]
    obtain ⟨other, hshape, hinfix⟩ := hinjected hlists sql hsql
    rw [hsame other hshape] at hinfix
    have hlength := hinfix.length_le
    simp only [sql, String.toList_ofList, List.length_map, List.length_replicate] at hlength
    omega
  · intro hlists other hshape
    have hother : ¬other.ListsString := by
      rwa [← Literal.listsString_mapStrings (fun _ ↦ ""), ← hshape, Literal.listsString_mapStrings]
    calc flavor.outline other
      _ = flavor.outline (other.mapStrings fun _ ↦ "") := (flavor.outline_mapStrings _ hother).symm
      _ = flavor.outline (literal.mapStrings fun _ ↦ "") := by rw [hshape]
      _ = flavor.outline literal := flavor.outline_mapStrings _ hlists

/-- A string in a list closes the row that it is inserted with, and other lists of one string are
rendered as other SQL. -/
theorem outline_eq_iff_closedRow :
    rowValues ⟨.mysql, none⟩ ["a"] [("a", .list [.string "1); DROP TABLE t; --"])] =
        "(1); DROP TABLE t; --)" ∧
      ¬∀ other, (Literal.list [.string "1); DROP TABLE t; --"]).SameShape other →
        outline ⟨.mysql, none⟩ other =
          outline ⟨.mysql, none⟩ (.list [.string "1); DROP TABLE t; --"]) := by
  obtain ⟨hsame, -⟩ := outline_eq_iff ⟨.mysql, none⟩ (.list [.string "1); DROP TABLE t; --"])
  refine ⟨rfl, ?_⟩
  rw [hsame, not_not]
  exact ⟨⟨_, rfl⟩, .list (List.mem_singleton_self _) (.string _)⟩

end Sql.Flavor

end PortableQuery
