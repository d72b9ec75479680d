import PortableQuery.Proofs.Sql.Failure
import PortableQuery.Proofs.Sql.Rewriting

/-!
# What becomes of a moved date

The spelling of a moved date is a template of the dialect with three places to fill: the rendered
date, the integer that the interval begins with, in decimal, and the unit, which is one of the words
of the dialect. Of the texts of the interval and the unit nothing else is written, however they are
spelled.
-/

namespace PortableQuery

open Sql Text

namespace Sql

/-- Fixed text, or the place of an argument. -/
inductive DateAdd.Part
  | fixed (text : String)
  | date
  | interval
  | unit

def DateAdd.Part.fill (date interval unit : String) : Part → String
  | .fixed text => text
  | .date => date
  | .interval => interval
  | .unit => unit

namespace Dialect

/-- The template of a moved date. -/
def dateAddParts : Dialect → List DateAdd.Part
  | .mysql => [.fixed "DATE_ADD(", .date, .fixed ", INTERVAL ", .interval, .fixed " ", .unit, .fixed ")"]
  | .postgres => [.fixed "(", .date, .fixed " + INTERVAL '", .interval, .fixed " ", .unit, .fixed "')"]
  | .sqlite => [.fixed "DateTime(", .date, .fixed ", '", .interval, .fixed " ", .unit, .fixed "')"]
  | .timestream => [.fixed "date_add('", .unit, .fixed "', ", .interval, .fixed ", ", .date, .fixed ")"]

/-- The interval in decimal; SQLite wants a sign in front of every number. -/
def intervalText (dialect : Dialect) (n : Int64) : String :=
  let decimal := Numeral.ofInt n.toInt
  match dialect with
  | .sqlite => if 0 ≤ n.toInt then "+" ++ decimal else decimal
  | _ => decimal

def unitText (dialect : Dialect) (unit : String) : String :=
  match dialect with
  | .mysql => asciiUpper unit
  | _ => unit

def dateAddText (dialect : Dialect) (date : String) (n : Int64) (unit : String) : String :=
  String.join (dialect.dateAddParts.map
    (DateAdd.Part.fill date (dialect.intervalText n) (dialect.unitText unit)))

end Dialect

namespace DateAdd

theorem intervalText_sqlite (n : Int64) :
    Dialect.sqlite.intervalText n = (if n < 0 then "" else "+") ++ Literal.intText n := by
  have hsign : n < 0 ↔ n.toInt < 0 := by rw [Int64.lt_iff_toInt_lt, Int64.toInt_zero]
  by_cases hnegative : n < 0
  · have hn := hsign.mp hnegative
    rw [Dialect.intervalText, if_neg (by omega), if_pos hnegative, String.empty_append]
    rfl
  · have hn := mt hsign.mpr hnegative
    rw [Dialect.intervalText, if_pos (by omega), if_neg hnegative]
    rfl

theorem text_eq (dialect : Dialect) (date : String) (parts : DateAdd) :
    parts.text dialect date = dialect.dateAddText date parts.interval parts.unit := by
  unfold text Dialect.dateAddText
  cases dialect with
  | sqlite =>
    rw [intervalText_sqlite]
    generalize (if parts.interval < 0 then "" else "+") = sign
    simp [Dialect.dateAddParts, Part.fill, Dialect.unitText, String.join, String.append_assoc]
  | _ =>
    simp [Dialect.dateAddParts, Part.fill, Dialect.intervalText, Dialect.unitText, Literal.intText,
      String.join, String.append_assoc]

/-- The interval and the unit that are read from the arguments. -/
theorem parse_eq_ok_iff {units : List String} {args : List Expr} {parts : DateAdd} :
    parse units args = .ok parts ↔
      ∃ date interval unit, args = [date, interval, unit] ∧
        BeginsWith (argumentText interval) parts.interval ∧
        Case.lower (argumentText unit) = parts.unit ∧ parts.unit ∈ units := by
  constructor
  · intro h
    have hlength : args.length = 3 := by
      by_contra wrong
      rw [parse_of_length_ne wrong] at h
      contradiction
    obtain ⟨date, interval, unit, rfl⟩ := List.length_eq_three.mp hlength
    simp only [parse] at h
    split at h
    · contradiction
    rename_i n hn
    split at h
    · rename_i known
      obtain rfl := Except.ok.inj h
      exact ⟨date, interval, unit, rfl, leadingInteger?_eq_some_iff.mp hn, rfl,
        List.contains_iff_mem.mp known⟩
    · contradiction
  · rintro ⟨date, interval, unit, rfl, begins, hunit, known⟩
    simp only [parse, leadingInteger?_eq_some_iff.mpr begins, hunit, List.contains_iff_mem.mpr known,
      if_true]

end DateAdd

theorem isIntervalBlank_of_mem_intChars {v : Int} {c : Char} (h : c ∈ Numeral.intChars v) :
    isIntervalBlank c = false := by
  rw [Bool.eq_false_iff, ne_eq, isIntervalBlank_iff]
  intro hblank
  simp only [List.mem_cons, List.not_mem_nil, or_false] at hblank
  rcases Numeral.isDigit_of_mem_intChars h with hdigit | rfl
  · rcases hblank with rfl | rfl | rfl | rfl <;> simp at hdigit
  · simp at hblank

/-- A sign and digits are read to the end of the digits. -/
theorem leadingInteger?_ofInt_append (v : Int) {rest : String} (stops : Numeral.Stops rest.toList) :
    leadingInteger? (Numeral.ofInt v ++ rest) = Numeral.int64? v := by
  obtain ⟨c, more, hchars⟩ : ∃ c more, Numeral.intChars v = c :: more := by
    obtain ⟨c, hmem, -⟩ := Numeral.exists_digit_mem_intChars v
    exact List.exists_cons_of_ne_nil (List.ne_nil_of_mem hmem)
  have hblank : isIntervalBlank c = false := isIntervalBlank_of_mem_intChars (v := v) (by simp [hchars])
  have hdrop : (Numeral.ofInt v ++ rest).toList.dropWhile isIntervalBlank =
      Numeral.intChars v ++ rest.toList := by
    simp [Numeral.ofInt, hchars, hblank]
  have hspan (m : Nat) : Numeral.spanDigits (Numeral.digits m ++ rest.toList) =
      (Numeral.digits m, rest.toList) :=
    Numeral.spanDigits_append (fun _ ↦ Numeral.isDigit_of_mem_digits) stops
  cases v with
  | ofNat m =>
    have hdigits : Numeral.digits m = c :: more := hchars
    have hdigit : c.isDigit = true := Numeral.isDigit_of_mem_digits (n := m) (by simp [hdigits])
    have hsigned : Signed [] (Numeral.digits m ++ rest.toList) := by
      refine ⟨by simp, fun _ d hd ↦ ?_⟩
      obtain rfl : c = d := by simpa [hdigits] using hd
      constructor <;> rintro rfl <;> simp at hdigit
    have hafter : (Numeral.ofInt (.ofNat m) ++ rest).toList.dropWhile isIntervalBlank =
        [] ++ (Numeral.digits m ++ rest.toList) := hdrop
    rw [leadingInteger?_of_signed hafter hsigned, hspan, if_neg (Numeral.digits_ne_nil m),
      Numeral.value_digits]
    rfl
  | negSucc m =>
    have hsigned : Signed ['-'] (Numeral.digits (m + 1) ++ rest.toList) := by simp [Signed]
    have hafter : (Numeral.ofInt (.negSucc m) ++ rest).toList.dropWhile isIntervalBlank =
        ['-'] ++ (Numeral.digits (m + 1) ++ rest.toList) := hdrop
    rw [leadingInteger?_of_signed hafter hsigned, hspan, if_neg (Numeral.digits_ne_nil (m + 1)),
      Numeral.value_digits]
    rfl

/-- An integer in decimal begins with a 64-bit integer exactly if it is one. -/
theorem beginsWith_ofInt_iff {v : Int} {rest : String} (stops : Numeral.Stops rest.toList) {n : Int64} :
    BeginsWith (Numeral.ofInt v ++ rest) n ↔ n.toInt = v := by
  rw [← leadingInteger?_eq_some_iff, leadingInteger?_ofInt_append v stops]
  constructor
  · exact Numeral.toInt_of_int64?
  · rintro rfl
    exact Numeral.int64?_toInt n

end Sql

namespace Expr

variable {rendering : Rendering}

theorem exists_sql_of_literalText? (rendering : Rendering) {expr : Expr} (h : expr.literalText? ≠ none) :
    ∃ text, expr.sql rendering = .ok text := by
  cases expr with
  | column text => exact ⟨_, by rw [Expr.sql]⟩
  | value literal => exact ⟨_, by rw [Expr.sql]⟩
  | raw literal => exact ⟨_, by rw [Expr.sql]⟩
  | _ => exact absurd rfl h

/-- Only a literal or a column is read as an interval or as a unit. -/
theorem literalText?_of_parse {dialect : Sql.Dialect} {date interval unit : Expr} {parts : DateAdd}
    (hparse : DateAdd.parse dialect.dateUnits [date, interval, unit] = .ok parts) :
    interval.literalText? ≠ none ∧ unit.literalText? ≠ none := by
  obtain ⟨_, _, _, hargs, begins, hunit, known⟩ := DateAdd.parse_eq_ok_iff.mp hparse
  obtain ⟨rfl, rfl, rfl⟩ : date = _ ∧ interval = _ ∧ unit = _ := by simpa using hargs
  constructor
  · intro hnone
    rw [← leadingInteger?_eq_some_iff, leadingInteger?_argumentText hnone] at begins
    contradiction
  · intro hnone
    have hunknown := contains_lower_argumentText dialect hnone
    rw [hunit, List.contains_iff_mem.mpr known] at hunknown
    contradiction

/-- The interval and the unit of a call that is spelled are literals or columns, so they are rendered
without fail; their renderings are left out of the spelling. -/
theorem sql_dateAdd_of_parse {date interval unit : Expr} {parts : DateAdd}
    (hparse : DateAdd.parse rendering.dialect.dateUnits [date, interval, unit] = .ok parts) :
    (Expr.call "DATEADD" [date, interval, unit]).sql rendering = do
      let shown ← date.sql rendering
      return rendering.dialect.dateAddText shown parts.interval parts.unit := by
  obtain ⟨hinterval, hword⟩ := literalText?_of_parse hparse
  obtain ⟨intervalText, hintervalText⟩ := exists_sql_of_literalText? rendering hinterval
  obtain ⟨unitText, hunitText⟩ := exists_sql_of_literalText? rendering hword
  simp only [Expr.sql, sqlList, hintervalText, hunitText, Dialect.call, if_true, hparse]
  cases date.sql rendering with
  | error cause => rfl
  | ok shown => exact congrArg Except.ok (DateAdd.text_eq _ _ _)

/-- A call is spelled only if its interval and its unit can be read. -/
theorem exists_parse_of_sql_dateAdd {args : List Expr} {text : String}
    (h : (Expr.call "DATEADD" args).sql rendering = .ok text) :
    ∃ parts, DateAdd.parse rendering.dialect.dateUnits args = .ok parts := by
  simp only [Expr.sql, bind_eq_ok_iff] at h
  obtain ⟨rendered, -, h⟩ := h
  rw [Dialect.call.eq_def, if_pos rfl] at h
  split at h
  · rename_i parts hparse
    exact ⟨parts, hparse⟩
  · contradiction

/-- A moved date is spelled by the template of the dialect, filled with the rendered date, the integer
that the interval begins with and the unit. Calls that agree in these three are spelled alike. An
integer that does not fit 64 bits is not read. -/
theorem sql_dateAdd_iff (rendering : Rendering) :
    (∀ args text, (Expr.call "DATEADD" args).sql rendering = .ok text ↔
      ∃ date interval unit shown n word, args = [date, interval, unit] ∧
        date.sql rendering = .ok shown ∧ BeginsWith (argumentText interval) n ∧
        Case.lower (argumentText unit) = word ∧ word ∈ rendering.dialect.dateUnits ∧
        text = rendering.dialect.dateAddText shown n word) ∧
    (∀ date interval unit date' interval' unit' n word,
      date.sql rendering = date'.sql rendering →
      BeginsWith (argumentText interval) n → BeginsWith (argumentText interval') n →
      Case.lower (argumentText unit) = word → Case.lower (argumentText unit') = word →
      word ∈ rendering.dialect.dateUnits →
      (Expr.call "DATEADD" [date, interval, unit]).sql rendering =
        (Expr.call "DATEADD" [date', interval', unit']).sql rendering) ∧
    ∀ (v : Int) (rest : String) (n : Int64), Numeral.Stops rest.toList →
      (BeginsWith (Numeral.ofInt v ++ rest) n ↔ n.toInt = v) := by
  have hspelled (date : Expr) {interval unit : Expr} {n : Int64} {word : String}
      (begins : BeginsWith (argumentText interval) n) (hunit : Case.lower (argumentText unit) = word)
      (known : word ∈ rendering.dialect.dateUnits) :
      (Expr.call "DATEADD" [date, interval, unit]).sql rendering = do
        let shown ← date.sql rendering
        return rendering.dialect.dateAddText shown n word :=
    @sql_dateAdd_of_parse rendering date interval unit ⟨n, word⟩
      (DateAdd.parse_eq_ok_iff.mpr ⟨date, interval, unit, rfl, begins, hunit, known⟩)
  refine ⟨fun args text ↦ ⟨?_, ?_⟩, ?_, ?_⟩
  · intro h
    obtain ⟨⟨n, word⟩, hparse⟩ := exists_parse_of_sql_dateAdd h
    obtain ⟨date, interval, unit, rfl, begins, hunit, known⟩ := DateAdd.parse_eq_ok_iff.mp hparse
    rw [hspelled date begins hunit known] at h
    obtain ⟨shown, hshown, htext⟩ := bind_eq_ok_iff.mp h
    exact ⟨date, interval, unit, shown, n, word, rfl, hshown, begins, hunit, known,
      (pure_eq_ok_iff.mp htext).symm⟩
  · rintro ⟨date, interval, unit, shown, n, word, rfl, hshown, begins, hunit, known, rfl⟩
    rw [hspelled date begins hunit known, hshown]
    rfl
  · intro date interval unit date' interval' unit' n word hdate begins begins' hunit hunit' known
    rw [hspelled date begins hunit known, hspelled date' begins' hunit' known, hdate]
  · intro v rest n stops
    exact beginsWith_ofInt_iff stops

/-- The largest interval, with SQL behind it, and a unit that is spelled with the sign for kelvin. The
next larger integer is no interval. -/
theorem sql_dateAdd_iff_kelvin :
    (Expr.call "DATEADD" [.column "d", .value (.string "\t +9223372036854775807); DROP TABLE t"),
        .column "Wee\u212a"]).sql (.plain ⟨.mysql, none⟩) =
      .ok "DATE_ADD(\x60d\x60, INTERVAL 9223372036854775807 WEEK)" ∧
    ∀ n, ¬ BeginsWith "9223372036854775808 days" n := by
  obtain ⟨hspelled, -, hdecimal⟩ := sql_dateAdd_iff (.plain ⟨.mysql, none⟩)
  have hbegins : BeginsWith "\t +9223372036854775807); DROP TABLE t" 9223372036854775807 :=
    leadingInteger?_eq_some_iff.mp (by decide +kernel)
  have hword : Case.lower "Wee\u212a" = "week" := by decide +kernel
  refine ⟨(hspelled _ _).mpr ⟨_, _, _, "\x60d\x60", _, _, rfl, rfl, hbegins, hword, by decide, ?_⟩, ?_⟩
  · decide +kernel
  · intro n hn
    have hvalue := (hdecimal 9223372036854775808 " days" n (by simp [Numeral.Stops])).mp hn
    have hle := Int64.le_iff_toInt_le.mp (Int64.le_maxValue n)
    have hmax : Int64.maxValue.toInt = 9223372036854775807 := by decide
    omega

end Expr

end PortableQuery
