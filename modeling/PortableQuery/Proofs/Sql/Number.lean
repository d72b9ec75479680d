import PortableQuery.Proofs.Sql.Grouping
import PortableQuery.Proofs.Sql.Substitution
import PortableQuery.Proofs.Wire.Record
import PortableQuery.Proofs.Wire.Sentinel

/-!
# Numbers as expressions

An integer in an expression is a column whose name is its decimal text, and it is rendered as a
column: a minus sign makes an expression that stands as it is, but digits alone are a plain name,
which is quoted. So it is wherever the integer stands, in any argument of a call or operation. Only
the interval and the unit of a moved date are not rendered; there the decimal text is read.
-/

namespace PortableQuery

open Sql Text Wire

/-! ## The text of a number -/

namespace Sql

theorem mem_toList_ofInt {v : Int} {c : Char} :
    c ∈ (Numeral.ofInt v).toList → c.isDigit = true ∨ c = '-' := by
  rw [Numeral.ofInt, String.toList_ofList]
  exact Numeral.isDigit_of_mem_intChars

theorem isPlainIdentifier_ofInt_iff (v : Int) : isPlainIdentifier (Numeral.ofInt v) = true ↔ 0 ≤ v := by
  cases v with
  | ofNat n =>
    have hplain : isPlainIdentifier (Numeral.ofInt (.ofNat n)) = true := by
      have hdigits : ∀ c ∈ Numeral.digits n, (c.isAlphanum || c = '_' || c = '.') = true := by
        intro c hmem
        simp [Char.isAlphanum, Numeral.isDigit_of_mem_digits hmem]
      simp only [isPlainIdentifier, Numeral.ofInt, Numeral.intChars, String.toList_ofList,
        Bool.and_eq_true, Bool.not_eq_true', List.isEmpty_eq_false_iff, List.all_eq_true]
      exact ⟨Numeral.digits_ne_nil n, hdigits⟩
    exact iff_of_true hplain (Int.natCast_nonneg n)
  | negSucc n =>
    refine iff_of_false (fun hplain ↦ ?_) (Int.negSucc_not_nonneg n).mp
    refine not_mem_of_isPlainIdentifier hplain (c := '-') (by decide) ?_
    simp [Numeral.ofInt, Numeral.intChars]

theorem isSignedInteger_ofInt_negSucc (n : Nat) :
    isSignedInteger (Numeral.ofInt (.negSucc n)) = true := by
  have hdigits : ∀ c ∈ Numeral.digits (n + 1), c.isDigit = true :=
    fun _ ↦ Numeral.isDigit_of_mem_digits
  simpa [isSignedInteger, Numeral.ofInt, Numeral.intChars, Numeral.digits_ne_nil] using hdigits

namespace Dialect

/-- What a number is rendered as. -/
def numeralText (dialect : Dialect) (v : Int) : String :=
  if v < 0 then Numeral.ofInt v else Segments.quote dialect.columnQuote (Numeral.ofInt v)

theorem column_ofInt (dialect : Dialect) (v : Int) :
    dialect.column (Numeral.ofInt v) = dialect.numeralText v := by
  have hnull : Numeral.ofInt v ≠ "NULL" := by
    intro heq
    have hletter : 'N' ∈ (Numeral.ofInt v).toList := by rw [heq]; decide
    exact absurd (mem_toList_ofInt hletter) (by decide)
  by_cases hv : v < 0
  · obtain ⟨n, rfl⟩ := Int.eq_negSucc_of_lt_zero hv
    have hexpand : dialect.expand (Numeral.ofInt (.negSucc n)) = Numeral.ofInt (.negSucc n) :=
      dialect.expand_of_not_mem (fun hmem ↦ absurd (mem_toList_ofInt hmem) (by decide))
        (fun hmem ↦ absurd (mem_toList_ofInt hmem) (by decide))
    have hplain : isPlainIdentifier (Numeral.ofInt (.negSucc n)) = false := by
      rw [Bool.eq_false_iff, ne_eq, isPlainIdentifier_ofInt_iff]
      omega
    have hinline : dialect.isInlineFragment (Numeral.ofInt (.negSucc n)) = true := by
      simp only [isInlineFragment, isSignedInteger_ofInt_negSucc, Bool.or_true, Bool.true_or]
    rw [column, hexpand, lenientIdentifier, if_neg hnull, hplain, hinline, numeralText, if_pos hv]
    rfl
  · rw [dialect.column_of_isPlainIdentifier ((isPlainIdentifier_ofInt_iff v).mpr (by omega)),
      if_neg hnull, numeralText, if_neg hv]

/-- Only a negative number is rendered as its decimal text. -/
theorem numeralText_eq_ofInt_iff (dialect : Dialect) (v : Int) :
    dialect.numeralText v = Numeral.ofInt v ↔ v < 0 := by
  rw [numeralText]
  split_ifs with hv
  · exact iff_of_true rfl hv
  · refine iff_of_false (fun heq ↦ ?_) hv
    have hplain := (isPlainIdentifier_ofInt_iff v).mpr (by omega)
    have hquote := dialect.columnQuote_mem_quote (Numeral.ofInt v)
    rw [heq] at hquote
    exact dialect.columnQuote_not_mem hplain hquote

end Dialect

end Sql

/-! ## Numbers in expressions -/

namespace Expr

/-- The column whose name is an integer in decimal. -/
def numeral (v : Int) : Expr := .column (Numeral.ofInt v)

/-- Numbers in the place of columns. -/
def numberReplacement (numbers : String → Option Int) : Replacement :=
  let replace (column : String) := ((numbers column).map numeral).getD (.column column)
  ⟨replace, replace⟩

/-- The texts of numbers in the place of columns: what the dialect makes of the number, or its decimal
text where that is read. -/
def textReplacement (dialect : Dialect) (numbers : String → Option Int) : Replacement where
  shown column := ((numbers column).map fun v ↦ .raw (.string (dialect.numeralText v))).getD
    (.column column)
  read column := ((numbers column).map fun v ↦ .raw (.string (Numeral.ofInt v))).getD (.column column)

/-- The expression with numbers for some of its columns. -/
def withNumbers (numbers : String → Option Int) (expr : Expr) : Expr :=
  expr.substitute (numberReplacement numbers)

/-- The expression with the texts of numbers written out for some of its columns. -/
def withTexts (dialect : Dialect) (numbers : String → Option Int) (expr : Expr) : Expr :=
  expr.substitute (textReplacement dialect numbers)

theorem sql_numeral (flavor : Flavor) (v : Int) :
    (numeral v).sql (.plain flavor) = .ok (flavor.dialect.numeralText v) := by
  rw [numeral, Expr.sql, ← flavor.dialect.column_ofInt v]
  rfl

theorem sql_raw_string (flavor : Flavor) (text : String) :
    (Expr.raw (.string text)).sql (.plain flavor) = .ok text := by
  rw [Expr.sql]
  rfl

theorem alike_numbers (flavor : Flavor) (numbers : String → Option Int) :
    (numberReplacement numbers).Alike flavor (textReplacement flavor.dialect numbers) where
  shown column := by
    simp only [numberReplacement, textReplacement]
    cases numbers column with
    | none => rfl
    | some v => exact (sql_numeral flavor v).trans (sql_raw_string flavor _).symm
  read column := by
    simp only [numberReplacement, textReplacement]
    cases numbers column with
    | none => exact ⟨column, rfl, rfl⟩
    | some v => exact ⟨Numeral.ofInt v, rfl, rfl⟩

theorem sql_withNumbers (flavor : Flavor) (numbers : String → Option Int) (expr : Expr) :
    (expr.withNumbers numbers).sql (.plain flavor) =
      (expr.withTexts flavor.dialect numbers).sql (.plain flavor) :=
  (sameSql_steps (alike_numbers flavor numbers)).forExpr expr

/-- A call that moves a date by a computed interval, or by a computed unit, is refused. -/
theorem literalText?_of_sql_dateAdd {flavor : Flavor} {args : List Expr} {text : String}
    (h : (Expr.call "DATEADD" args).sql (.plain flavor) = .ok text) :
    ∃ date interval unit, args = [date, interval, unit] ∧
      interval.literalText? ≠ none ∧ unit.literalText? ≠ none := by
  obtain ⟨parts, hparse⟩ := exists_parse_of_sql_dateAdd h
  obtain ⟨date, interval, unit, rfl, -⟩ := DateAdd.parse_eq_ok_iff.mp hparse
  exact ⟨date, interval, unit, rfl, literalText?_of_parse hparse⟩

theorem exprOfText_call {fuel : Nat} {payload name : String} {args : List Json}
    (parsed : Json.parse payload = some (.array (.string name :: args))) :
    exprOfText (fuel + 1) ("FN(" ++ payload ++ ")") = do
      return .call name (← args.mapM (exprOfJson fuel)) := by
  have hparts : callParts payload ("FN(" ++ payload ++ ")") = .ok (name, args) := by
    simp only [callParts, parsed]
  rw [exprOfText, Sentinel.classify_call]
  simp only [hparts]
  rfl

/-- A bare integer in a slot that holds any JSON. -/
theorem exprOfJson_integer (fuel : Nat) (v : Int) :
    exprOfJson (fuel + 1) (.integer v) = .ok (numeral v) := by
  have htest : isConditionJson (.integer v) = false := rfl
  simp only [exprOfJson, htest]
  rfl

theorem exprOfText_call_eq_ok_iff {fuel : Nat} {payload name : String} {args : List Json} {expr : Expr}
    (parsed : Json.parse payload = some (.array (.string name :: args))) :
    exprOfText (fuel + 1) ("FN(" ++ payload ++ ")") = .ok expr ↔
      ∃ operands, expr = .call name operands ∧
        List.Forall₂ (fun arg operand ↦ exprOfJson fuel arg = .ok operand) args operands := by
  rw [exprOfText_call parsed, bind_eq_ok_iff]
  simp only [pure_eq_ok_iff, mapM_eq_ok_iff]
  constructor
  · rintro ⟨operands, hoperands, rfl⟩
    exact ⟨operands, rfl, hoperands⟩
  · rintro ⟨operands, rfl, hoperands⟩
    exact ⟨operands, hoperands, rfl⟩

/-- Of the integers only the negative ones are rendered as their decimal text; the others are quoted
like a column. So it is wherever an integer stands in an expression, with the one exception of a moved
date: its interval and its unit are read as decimal text, and are never computed. The arguments of a
call are read one by one, and a bare integer among them is such an integer. -/
theorem sql_numbers (flavor : Flavor) :
    (∀ n : Int64, ofInt n = numeral n.toInt) ∧
    (∀ v : Int, (numeral v).sql (.plain flavor) = .ok (flavor.dialect.numeralText v) ∧
      ((numeral v).sql (.plain flavor) = .ok (Numeral.ofInt v) ↔ v < 0)) ∧
    (∀ numbers expr, (withNumbers numbers expr).sql (.plain flavor) =
      (withTexts flavor.dialect numbers expr).sql (.plain flavor)) ∧
    (∀ args text, (Expr.call "DATEADD" args).sql (.plain flavor) = .ok text →
      ∃ date interval unit, args = [date, interval, unit] ∧
        interval.literalText? ≠ none ∧ unit.literalText? ≠ none) ∧
    (∀ fuel v, exprOfJson (fuel + 1) (.integer v) = .ok (numeral v)) ∧
    ∀ fuel payload name args expr, Json.parse payload = some (.array (.string name :: args)) →
      (exprOfText (fuel + 1) ("FN(" ++ payload ++ ")") = .ok expr ↔
        ∃ operands, expr = .call name operands ∧
          List.Forall₂ (fun arg operand ↦ exprOfJson fuel arg = .ok operand) args operands) := by
  refine ⟨fun _ ↦ rfl, fun v ↦ ⟨sql_numeral flavor v, ?_⟩, sql_withNumbers flavor,
    fun _ _ ↦ literalText?_of_sql_dateAdd, exprOfJson_integer,
    fun _ _ _ _ _ ↦ exprOfText_call_eq_ok_iff⟩
  rw [sql_numeral, Except.ok.injEq, flavor.dialect.numeralText_eq_ofInt_iff]

/-- A count of five counts a column, and a date is moved by five days. -/
theorem sql_numbers_countFive :
    Json.parse "[\"COUNT\",5]" = some (.array [.string "COUNT", .integer 5]) ∧
    exprOfText 2 "FN([\"COUNT\",5])" = .ok (.call "COUNT" [numeral 5]) ∧
    (withNumbers (fun _ ↦ some 5) (.call "COUNT" [.column "n"])).sql (.plain ⟨.mysql, none⟩) =
      .ok "COUNT(\x605\x60)" ∧
    (Expr.call "DATEADD" [.column "d", numeral 5, .column "day"]).sql (.plain ⟨.mysql, none⟩) =
      .ok "DATE_ADD(\x60d\x60, INTERVAL 5 DAY)" ∧
    (numeral 5).literalText? ≠ none := by
  obtain ⟨-, -, hnumbers, hmoved, hinteger, hcall⟩ := sql_numbers ⟨.mysql, none⟩
  have hpayload : (Json.array [.string "COUNT", .integer 5]).compact = "[\"COUNT\",5]" := by
    decide +kernel
  have hfive : (Json.integer 5).Faithful := Json.faithful_word 5
  have hfaithful : (Json.array [.string "COUNT", .integer 5]).Faithful := by
    apply Json.faithful_array
    simp [Json.faithful_string, hfive]
  have parsed := Json.parse_compact_of_faithful hfaithful (by decide)
  rw [hpayload] at parsed
  have hmove : (Expr.call "DATEADD" [.column "d", numeral 5, .column "day"]).sql
      (.plain ⟨.mysql, none⟩) = .ok "DATE_ADD(\x60d\x60, INTERVAL 5 DAY)" := by decide +kernel
  refine ⟨parsed, ?_, ?_, hmove, ?_⟩
  · exact (hcall 1 _ _ _ _ parsed).mpr ⟨_, rfl, .cons (hinteger 0 5) .nil⟩
  · rw [hnumbers]
    decide +kernel
  · obtain ⟨_, interval, _, hargs, hinterval, -⟩ := hmoved _ _ hmove
    obtain ⟨-, rfl, -⟩ : _ ∧ numeral 5 = interval ∧ _ := by simpa using hargs
    exact hinterval

end Expr

end PortableQuery
