import PortableQuery.Proofs.Query.Occurrence
import PortableQuery.Proofs.Query.Rewriting
import PortableQuery.Proofs.Sql.Noninterference
import PortableQuery.Proofs.Wire.RoundTrip

/-!
# Rendering and rewriting

A rewriting explains a rendering if plain rendering of what it puts in the place of a literal or a
table name gives what the rendering itself makes of it. Then the same holds of every query and of
every statement: both ways of rendering give the same text or both fail. Their failures differ only
where one of them quotes an argument of a call that moves a date, which is quoted as it was given
and not as it is rendered.
-/

namespace PortableQuery

open Text Wire Sql

-- The functions of the renderer call one another: their equations are made here, before the proofs.
attribute [local simp] Expr.sql Condition.sql Condition.sqlOn Table.sql Join.sql Field.sql SortKey.sql
  UnionTail.sqlOnto Select.sql Expr.rewrite Condition.rewrite Table.rewrite

/-! ## Arguments that are read -/

section Arguments

variable {rewriting : Rewriting}

/-- What is neither a literal nor a column begins with a mark or with a brace. -/
theorem Expr.head_encode {expr : Expr} (h : expr.literalText? = none) :
    ∃ c more, expr.encode.toList = c :: more ∧ c ∈ ['!', 'F', 'O', '{'] := by
  cases expr with
  | column text => simp [literalText?] at h
  | value literal => simp [literalText?] at h
  | raw literal => simp [literalText?] at h
  | call name args =>
    have htext : (Expr.call name args).encode.toList = 'F' ::
        ("N(" ++ (Json.array (.string name :: encodeList args)).compact ++ ")").toList := by
      simp [encode, Wire.callText]
    exact ⟨'F', _, htext, by simp⟩
  | operation operator operands =>
    have htext : (Expr.operation operator operands).encode.toList = 'O' ::
        ("P(" ++ (Json.array (.string operator :: encodeList operands)).compact ++ ")").toList := by
      simp [encode, Wire.callText]
    exact ⟨'O', _, htext, by simp⟩
  | condition test =>
    obtain ⟨more, htext⟩ := toList_compact_toJson test
    exact ⟨'{', more, by rw [encode, htext], by simp⟩
  | subquery query =>
    have htext : (Expr.subquery query).encode.toList = '!' :: ("!!" ++ query.toJson.compact).toList := by
      simp [encode, valueMark]
    exact ⟨'!', _, htext, by simp⟩

theorem argumentText_of_none {expr : Expr} (h : expr.literalText? = none) :
    argumentText expr = expr.encode := by
  simp [argumentText, h]

/-- Such an argument is no interval. -/
theorem leadingInteger?_argumentText {expr : Expr} (h : expr.literalText? = none) :
    leadingInteger? (argumentText expr) = none := by
  obtain ⟨c, more, htext, hmark⟩ := Expr.head_encode h
  simp only [List.mem_cons, List.not_mem_nil, or_false] at hmark
  rw [argumentText_of_none h, leadingInteger?, htext]
  rcases hmark with rfl | rfl | rfl | rfl <;>
    simp [isIntervalBlank, Numeral.spanDigits, List.span_eq_takeWhile_dropWhile]

theorem toList_lower_cons {text : String} {c : Char} {more : List Char} (htext : text.toList = c :: more)
    (hsigma : c ≠ 'Σ') (hdotted : c ≠ 'İ') :
    ∃ rest, (Case.lower text).toList = Case.lowerChar c :: rest := by
  refine ⟨Case.lowerFrom [c] more, ?_⟩
  simp [Case.lower, htext, Case.lowerFrom, hsigma, hdotted]

/-- Only the first run of letters with a lower case lies in ASCII. -/
theorem first_lowerRuns : ∀ run ∈ Case.lowerRuns.tail, 128 ≤ run.first := by
  decide +kernel

theorem lowerChar_ascii {c : Char} (h : c.toNat < 128) :
    Case.lowerChar c = if 65 ≤ c.toNat ∧ c.toNat ≤ 90 then Char.ofNat (c.toNat + 32) else c := by
  have hlater : Case.lowerRuns.tail.find? (fun run ↦ run.covers c.toNat) = none := by
    rw [List.find?_eq_none]
    intro run hrun
    have hfirst := first_lowerRuns run hrun
    simp only [Case.Run.covers, Bool.and_eq_true, decide_eq_true_eq]
    omega
  have hruns : Case.lowerRuns = ⟨65, 90, 1, 32⟩ :: Case.lowerRuns.tail := rfl
  rw [Case.lowerChar, hruns, List.find?_cons, hlater]
  split_ifs with hletter
  · simp only [Case.Run.covers, hletter, Nat.mod_one, decide_true, beq_self_eq_true, Bool.and_self]
    rfl
  · have hcovers : Case.Run.covers ⟨65, 90, 1, 32⟩ c.toNat = false := by
      simpa [Case.Run.covers, Nat.mod_one] using hletter
    rw [hcovers]

/-- No unit begins like a mark or a brace in lower case. -/
theorem head_dateUnits (dialect : Dialect) :
    ∀ unit ∈ dialect.dateUnits, ∀ c ∈ ['!', 'F', 'O', '{'],
      unit.toList.head? ≠ some (Case.lowerChar c) := by
  intro unit hunit c hmark
  have hlower : Case.lowerChar c ∈ ['!', 'f', 'o', '{'] := by
    simp only [List.mem_cons, List.not_mem_nil, or_false] at hmark
    rcases hmark with rfl | rfl | rfl | rfl <;> rw [lowerChar_ascii (by decide)] <;> decide
  have hheads : (dialect.dateUnits.all fun unit ↦
      ['!', 'f', 'o', '{'].all fun c ↦ unit.toList.head? != some c) = true := by
    cases dialect <;> decide +kernel
  simpa using List.all_eq_true.mp (List.all_eq_true.mp hheads unit hunit) _ hlower

/-- Nor is it a unit. -/
theorem contains_lower_argumentText (dialect : Dialect) {expr : Expr} (h : expr.literalText? = none) :
    dialect.dateUnits.contains (Case.lower (argumentText expr)) = false := by
  obtain ⟨c, more, htext, hmark⟩ := Expr.head_encode h
  obtain ⟨rest, hlower⟩ := toList_lower_cons htext (by rintro rfl; simp at hmark)
    (by rintro rfl; simp at hmark)
  rw [argumentText_of_none h, Bool.eq_false_iff]
  intro hcontains
  have hhead := head_dateUnits dialect _ (List.contains_iff_mem.mp hcontains) c hmark
  rw [hlower] at hhead
  exact hhead rfl

theorem Expr.literalText?_rewrite (hplain : ∀ literal, (rewriting.literal literal).plain = literal.plain)
    (expr : Expr) : (expr.rewrite rewriting).literalText? = expr.literalText? := by
  cases expr <;> simp [literalText?, hplain]

/-- The text of a literal or a column is not changed. -/
theorem argumentText_rewrite (hplain : ∀ literal, (rewriting.literal literal).plain = literal.plain)
    {expr : Expr} (h : expr.literalText? ≠ none) :
    argumentText (expr.rewrite rewriting) = argumentText expr := by
  obtain ⟨text, htext⟩ := Option.ne_none_iff_exists'.mp h
  simp [argumentText, Expr.literalText?_rewrite hplain, htext]

end Arguments

/-! ## Rewritings that explain renderings -/

/-- The failure of a call that moves a date is related to that of the rewritten call. -/
def Node.Quotable (E : Error → Error → Prop) (rewriting : Rewriting) (node : Node) : Prop :=
  ∀ date interval unit, node = .expr (.call "DATEADD" [date, interval, unit]) →
    E (.invalid (.dateAddInterval (argumentText interval)))
      (.invalid (.dateAddInterval (argumentText (interval.rewrite rewriting)))) ∧
    E (.invalid (.dateAddUnit (Case.lower (argumentText unit))))
      (.invalid (.dateAddUnit (Case.lower (argumentText (unit.rewrite rewriting)))))

/-- Plain rendering of the rewritten leaves gives what the rendering makes of the leaves. -/
structure Rewriting.Explains (rewriting : Rewriting) (rendering : Rendering) : Prop where
  select (query : Select) : rendering.replaced? query = none
  value (literal : Literal) :
    rendering.flavor.value (rewriting.literal literal) = rendering.flavor.value literal
  plain (literal : Literal) : (rewriting.literal literal).plain = literal.plain
  named (name : String) (label : Option String) :
    (Table.named name label).sql rendering =
      (Table.ofSource (rewriting.source name) label).sql (.plain rendering.flavor)

section Explained

variable {E : Error → Error → Prop} {rewriting : Rewriting} {rendering : Rendering}

/-- The call is read alike, up to the argument that is quoted when it fails. -/
theorem Sql.DateAdd.sameUpTo_parse (same : ∀ cause, E cause cause)
    (hplain : ∀ literal, (rewriting.literal literal).plain = literal.plain) (dialect : Dialect)
    {args : List Expr} (hnode : Node.Quotable E rewriting (.expr (.call "DATEADD" args))) :
    SameUpTo E (DateAdd.parse dialect.dateUnits args)
      (DateAdd.parse dialect.dateUnits (args.map (Expr.rewrite rewriting))) := by
  by_cases hlength : args.length = 3
  · obtain ⟨date, interval, unit, rfl⟩ := List.length_eq_three.mp hlength
    obtain ⟨hinterval, hunit⟩ := hnode date interval unit rfl
    simp only [List.map_cons, List.map_nil, DateAdd.parse]
    by_cases hread : interval.literalText? = none
    · rw [leadingInteger?_argumentText hread,
        leadingInteger?_argumentText ((Expr.literalText?_rewrite hplain interval).trans hread)]
      exact .error hinterval
    · rw [argumentText_rewrite hplain hread]
      cases leadingInteger? (argumentText interval) with
      | none => exact .error (same _)
      | some count =>
        by_cases hword : unit.literalText? = none
        · simp only [contains_lower_argumentText dialect hword, contains_lower_argumentText dialect
            ((Expr.literalText?_rewrite hplain unit).trans hword), Bool.false_eq_true, if_false]
          exact .error hunit
        · rw [argumentText_rewrite hplain hword]
          exact .refl same _
  · rw [DateAdd.parse_of_length_ne hlength, DateAdd.parse_of_length_ne (by simpa using hlength),
      List.length_map]
    exact .error (same _)

/-- A call is spelled from its rendered arguments, apart from the parts of a moved date. -/
theorem Sql.Dialect.sameUpTo_call (same : ∀ cause, E cause cause)
    (hplain : ∀ literal, (rewriting.literal literal).plain = literal.plain) (dialect : Dialect)
    {name : String} {args : List Expr} (hnode : Node.Quotable E rewriting (.expr (.call name args)))
    (rendered : List String) :
    SameUpTo E (dialect.call name args rendered)
      (dialect.call name (args.map (Expr.rewrite rewriting)) rendered) := by
  unfold Dialect.call
  split_ifs with hname
  · obtain rfl := hname
    have hparse := DateAdd.sameUpTo_parse same hplain dialect hnode
    generalize DateAdd.parse dialect.dateUnits args = outcome,
      DateAdd.parse dialect.dateUnits (args.map (Expr.rewrite rewriting)) = outcome' at hparse ⊢
    cases hparse with
    | error related => exact .error related
    | ok parts => exact .ok _
  · exact .refl same _

/-! ## Parts of queries -/

/-- The expression, and the rewritten one under plain rendering. -/
def Expr.Explained (E : Error → Error → Prop) (rewriting : Rewriting) (rendering : Rendering)
    (expr : Expr) : Prop :=
  expr.Everywhere (Node.Quotable E rewriting) →
    SameUpTo E (expr.sql rendering) ((expr.rewrite rewriting).sql (.plain rendering.flavor))

def Condition.Explained (E : Error → Error → Prop) (rewriting : Rewriting) (rendering : Rendering)
    (test : Condition) : Prop :=
  test.Everywhere (Node.Quotable E rewriting) →
    SameUpTo E (test.sql rendering) ((test.rewrite rewriting).sql (.plain rendering.flavor))

def Table.Explained (E : Error → Error → Prop) (rewriting : Rewriting) (rendering : Rendering)
    (table : Table) : Prop :=
  table.Everywhere (Node.Quotable E rewriting) →
    SameUpTo E (table.sql rendering) ((table.rewrite rewriting).sql (.plain rendering.flavor))

def Select.Explained (E : Error → Error → Prop) (rewriting : Rewriting) (rendering : Rendering)
    (query : Select) : Prop :=
  query.Everywhere (Node.Quotable E rewriting) →
    SameUpTo E (query.sql rendering) ((query.rewrite rewriting).sql (.plain rendering.flavor))

theorem Expr.sameUpTo_sqlList {exprs : List Expr}
    (h : ∀ expr ∈ exprs, expr.Explained E rewriting rendering)
    (hnodes : ∀ expr ∈ exprs, expr.Everywhere (Node.Quotable E rewriting)) :
    SameUpTo E (sqlList rendering exprs)
      (sqlList (.plain rendering.flavor) (exprs.map (rewrite rewriting))) := by
  rw [sqlList_eq_mapM, sqlList_eq_mapM]
  exact .mapM fun expr hexpr ↦ h expr hexpr (hnodes expr hexpr)

theorem Condition.sameUpTo_sqlList {tests : List Condition}
    (h : ∀ test ∈ tests, test.Explained E rewriting rendering)
    (hnodes : ∀ test ∈ tests, test.Everywhere (Node.Quotable E rewriting)) :
    SameUpTo E (sqlList rendering tests)
      (sqlList (.plain rendering.flavor) (tests.map (rewrite rewriting))) := by
  rw [sqlList_eq_mapM, sqlList_eq_mapM]
  exact .mapM fun test htest ↦ h test htest (hnodes test htest)

theorem Table.sameUpTo_sqlList {tables : List Table}
    (h : ∀ table ∈ tables, table.Explained E rewriting rendering)
    (hnodes : ∀ table ∈ tables, table.Everywhere (Node.Quotable E rewriting)) :
    SameUpTo E (sqlList rendering tables)
      (sqlList (.plain rendering.flavor) (tables.map (rewrite rewriting))) := by
  rw [sqlList_eq_mapM, sqlList_eq_mapM]
  exact .mapM fun table htable ↦ h table htable (hnodes table htable)

theorem Join.sameUpTo_sqlList {joins : List Join}
    (h : ∀ join ∈ joins, join.table.Explained E rewriting rendering ∧
      ∀ test ∈ join.condition, test.Explained E rewriting rendering)
    (hnodes : ∀ join ∈ joins, join.table.Everywhere (Node.Quotable E rewriting) ∧
      ∀ test ∈ join.condition, test.Everywhere (Node.Quotable E rewriting)) :
    SameUpTo E (sqlList rendering joins)
      (sqlList (.plain rendering.flavor) (joins.map (rewrite rewriting))) := by
  rw [sqlList_eq_mapM, sqlList_eq_mapM]
  apply SameUpTo.mapM
  intro join hjoin
  obtain ⟨htable, htest⟩ := h join hjoin
  obtain ⟨hinTable, hinTest⟩ := hnodes join hjoin
  obtain ⟨table, test?, kind⟩ := join
  simp only [sql, rewrite]
  apply (htable hinTable).bind
  intro text
  cases test? with
  | none => exact .ok _
  | some test =>
    simp only [Option.map_some, Condition.sqlOn]
    exact ((htest test rfl (hinTest test rfl)).map _).bind fun _ ↦ .ok _

theorem Field.sameUpTo_sqlList {fields : List Field}
    (h : ∀ field ∈ fields, field.expr.Explained E rewriting rendering)
    (hnodes : ∀ field ∈ fields, field.expr.Everywhere (Node.Quotable E rewriting)) :
    SameUpTo E (sqlList rendering fields)
      (sqlList (.plain rendering.flavor) (fields.map (rewrite rewriting))) := by
  rw [sqlList_eq_mapM, sqlList_eq_mapM]
  apply SameUpTo.mapM
  intro field hfield
  have hexpr := h field hfield (hnodes field hfield)
  obtain ⟨expr, label⟩ := field
  simp only [sql, rewrite]
  exact hexpr.bind fun _ ↦ .ok _

theorem SortKey.sameUpTo_sqlList {keys : List SortKey}
    (h : ∀ key ∈ keys, key.expr.Explained E rewriting rendering)
    (hnodes : ∀ key ∈ keys, key.expr.Everywhere (Node.Quotable E rewriting)) :
    SameUpTo E (sqlList rendering keys)
      (sqlList (.plain rendering.flavor) (keys.map (rewrite rewriting))) := by
  rw [sqlList_eq_mapM, sqlList_eq_mapM]
  apply SameUpTo.mapM
  intro key hkey
  have hexpr := h key hkey (hnodes key hkey)
  obtain ⟨expr, direction⟩ := key
  simp only [sql, rewrite]
  exact hexpr.bind fun _ ↦ .ok _

/-- What stands for a select, where none is replaced. -/
theorem Rewriting.Explains.sameUpTo_select (explains : rewriting.Explains rendering) {query : Select}
    (h : query.Explained E rewriting rendering)
    (hnodes : query.Everywhere (Node.Quotable E rewriting)) :
    SameUpTo E (rendering.select query fun _ ↦ query.sql rendering)
      ((Rendering.plain rendering.flavor).select (query.rewrite rewriting) fun _ ↦
        (query.rewrite rewriting).sql (.plain rendering.flavor)) := by
  rw [Rendering.select, explains.select query]
  exact h hnodes

theorem UnionTail.sameUpTo_sqlOnto (explains : rewriting.Explains rendering) {tails : List UnionTail}
    (h : ∀ tail ∈ tails, tail.query.Explained E rewriting rendering)
    (hnodes : ∀ tail ∈ tails, tail.query.Everywhere (Node.Quotable E rewriting)) (left : String) :
    SameUpTo E (sqlOnto rendering left tails)
      (sqlOnto (.plain rendering.flavor) left (tails.map (rewrite rewriting))) := by
  induction tails generalizing left with
  | nil => exact .ok left
  | cons tail more ih =>
    obtain ⟨kind, query⟩ := tail
    obtain ⟨hquery, hmore⟩ := List.forall_mem_cons.mp h
    obtain ⟨hinQuery, hinMore⟩ := List.forall_mem_cons.mp hnodes
    simp only [List.map_cons, rewrite, sqlOnto]
    exact (explains.sameUpTo_select hquery hinQuery).bind fun right ↦ ih hmore hinMore _

theorem Expr.Explained.call (same : ∀ cause, E cause cause) (explains : rewriting.Explains rendering)
    (name : String) (args : List Expr) (hargs : ∀ arg ∈ args, arg.Explained E rewriting rendering) :
    Expr.Explained E rewriting rendering (.call name args) := by
  intro hnodes
  obtain ⟨hcall, hinside⟩ := Expr.everywhere_call.mp hnodes
  simp only [Expr.sql, Expr.rewrite, Expr.rewriteList_eq]
  apply (Expr.sameUpTo_sqlList hargs hinside).bind
  exact Dialect.sameUpTo_call same explains.plain rendering.dialect hcall

theorem Expr.Explained.operation (operator : String) (operands : List Expr)
    (hoperands : ∀ operand ∈ operands, operand.Explained E rewriting rendering) :
    Expr.Explained E rewriting rendering (.operation operator operands) := by
  intro hnodes
  obtain ⟨-, hinside⟩ := Expr.everywhere_operation.mp hnodes
  simp only [Expr.sql, Expr.rewrite, Expr.rewriteList_eq]
  exact (Expr.sameUpTo_sqlList hoperands hinside).map _

theorem Expr.Explained.subquery (explains : rewriting.Explains rendering) (query : Select)
    (hquery : query.Explained E rewriting rendering) :
    Expr.Explained E rewriting rendering (.subquery query) := by
  intro hnodes
  obtain ⟨-, hinside⟩ := Expr.everywhere_subquery.mp hnodes
  simp only [Expr.sql, Expr.rewrite]
  exact (explains.sameUpTo_select hquery hinside).map _

theorem Condition.Explained.compare (key value : Expr) (operator : Comparison)
    (hkey : key.Explained E rewriting rendering) (hvalue : value.Explained E rewriting rendering) :
    Condition.Explained E rewriting rendering (.compare key value operator) := by
  intro hnodes
  obtain ⟨-, hinKey, hinValue⟩ := Condition.everywhere_compare.mp hnodes
  simp only [Condition.sql, Condition.rewrite]
  exact (hkey hinKey).bind fun _ ↦ (hvalue hinValue).bind fun _ ↦ .ok _

theorem Condition.Explained.between (key low high : Expr) (hkey : key.Explained E rewriting rendering)
    (hlow : low.Explained E rewriting rendering) (hhigh : high.Explained E rewriting rendering) :
    Condition.Explained E rewriting rendering (.between key low high) := by
  intro hnodes
  obtain ⟨-, hinKey, hinLow, hinHigh⟩ := Condition.everywhere_between.mp hnodes
  simp only [Condition.sql, Condition.rewrite]
  exact (hkey hinKey).bind fun _ ↦ (hlow hinLow).bind fun _ ↦ (hhigh hinHigh).bind fun _ ↦ .ok _

theorem Condition.Explained.oneOf (key : Expr) (values : List Expr)
    (hkey : key.Explained E rewriting rendering)
    (hvalues : ∀ value ∈ values, value.Explained E rewriting rendering) :
    Condition.Explained E rewriting rendering (.oneOf key values) := by
  intro hnodes
  obtain ⟨-, hinKey, hinValues⟩ := Condition.everywhere_oneOf.mp hnodes
  simp only [Condition.sql, Condition.rewrite, Expr.rewriteList_eq]
  exact (hkey hinKey).bind fun _ ↦ (Expr.sameUpTo_sqlList hvalues hinValues).bind fun _ ↦ .ok _

theorem Condition.Explained.noneOf (key : Expr) (values : List Expr)
    (hkey : key.Explained E rewriting rendering)
    (hvalues : ∀ value ∈ values, value.Explained E rewriting rendering) :
    Condition.Explained E rewriting rendering (.noneOf key values) := by
  intro hnodes
  obtain ⟨-, hinKey, hinValues⟩ := Condition.everywhere_noneOf.mp hnodes
  simp only [Condition.sql, Condition.rewrite, Expr.rewriteList_eq]
  exact (hkey hinKey).bind fun _ ↦ (Expr.sameUpTo_sqlList hvalues hinValues).bind fun _ ↦ .ok _

theorem Condition.Explained.null (key : Expr) (isNull : Bool)
    (hkey : key.Explained E rewriting rendering) :
    Condition.Explained E rewriting rendering (.null key isNull) := by
  intro hnodes
  obtain ⟨-, hinKey⟩ := Condition.everywhere_null.mp hnodes
  simp only [Condition.sql, Condition.rewrite]
  exact (hkey hinKey).map _

theorem Condition.Explained.like (key : Expr) (pattern : String) (isLike : Bool)
    (hkey : key.Explained E rewriting rendering) :
    Condition.Explained E rewriting rendering (.like key pattern isLike) := by
  intro hnodes
  obtain ⟨-, hinKey⟩ := Condition.everywhere_like.mp hnodes
  simp only [Condition.sql, Condition.rewrite]
  exact (hkey hinKey).map _

theorem Condition.Explained.columns (left right : Expr) (operator : Comparison)
    (hleft : left.Explained E rewriting rendering) (hright : right.Explained E rewriting rendering) :
    Condition.Explained E rewriting rendering (.columns left right operator) := by
  intro hnodes
  obtain ⟨-, hinLeft, hinRight⟩ := Condition.everywhere_columns.mp hnodes
  simp only [Condition.sql, Condition.rewrite]
  exact (hleft hinLeft).bind fun _ ↦ (hright hinRight).bind fun _ ↦ .ok _

theorem Condition.Explained.logical (members : List Condition) (operator : Connective)
    (hmembers : ∀ member ∈ members, member.Explained E rewriting rendering) :
    Condition.Explained E rewriting rendering (.logical members operator) := by
  intro hnodes
  obtain ⟨-, hinside⟩ := Condition.everywhere_logical.mp hnodes
  simp only [Condition.sql, Condition.rewrite, Condition.rewriteList_eq]
  exact (Condition.sameUpTo_sqlList hmembers hinside).map _

theorem Condition.Explained.not (inner : Condition) (hinner : inner.Explained E rewriting rendering) :
    Condition.Explained E rewriting rendering (.not inner) := by
  intro hnodes
  obtain ⟨-, hinside⟩ := Condition.everywhere_not.mp hnodes
  simp only [Condition.sql, Condition.rewrite]
  exact (hinner hinside).map _

theorem Table.Explained.nested (explains : rewriting.Explains rendering) (query : Select)
    (label : Option String) (hquery : query.Explained E rewriting rendering) :
    Table.Explained E rewriting rendering (.nested query label) := by
  intro hnodes
  simp only [Table.sql, Table.rewrite]
  exact (explains.sameUpTo_select hquery (Table.everywhere_nested.mp hnodes)).bind fun _ ↦ .ok _

theorem Select.Explained.select (explains : rewriting.Explains rendering) (query : Select)
    (htables : ∀ table ∈ query.tables, table.Explained E rewriting rendering)
    (hjoins : ∀ join ∈ query.joins, join.table.Explained E rewriting rendering ∧
      ∀ test ∈ join.condition, test.Explained E rewriting rendering)
    (hfields : ∀ field ∈ query.fields, field.expr.Explained E rewriting rendering)
    (hfilter : ∀ test ∈ query.filter, test.Explained E rewriting rendering)
    (hhaving : ∀ test ∈ query.having, test.Explained E rewriting rendering)
    (horderBy : ∀ key ∈ query.orderBy, key.expr.Explained E rewriting rendering)
    (hgroupBy : ∀ expr ∈ query.groupBy, expr.Explained E rewriting rendering)
    (hunions : ∀ tail ∈ query.unions, tail.query.Explained E rewriting rendering) :
    query.Explained E rewriting rendering := by
  intro hnodes
  obtain ⟨hinTables, hinJoins, hinFields, hinFilter, hinHaving, hinOrderBy, hinGroupBy, hinUnions⟩ :=
    Select.everywhere_iff.mp hnodes
  rw [Select.rewrite_eq]
  obtain ⟨tables, joins, fields, filter, having, orderBy, groupBy, limit, offset, unions⟩ := query
  simp only [Select.sql]
  apply (Field.sameUpTo_sqlList hfields hinFields).bind
  intro fields
  apply (Table.sameUpTo_sqlList htables hinTables).bind
  intro tables
  apply (Join.sameUpTo_sqlList hjoins hinJoins).bind
  intro joins
  apply (Condition.sameUpTo_sqlList hfilter hinFilter).bind
  intro filter
  apply (Expr.sameUpTo_sqlList hgroupBy hinGroupBy).bind
  intro groupBy
  apply (Condition.sameUpTo_sqlList hhaving hinHaving).bind
  intro having
  apply (SortKey.sameUpTo_sqlList horderBy hinOrderBy).bind
  intro orderBy
  exact UnionTail.sameUpTo_sqlOnto explains hunions hinUnions _

theorem explained_steps (same : ∀ cause, E cause cause) (explains : rewriting.Explains rendering) :
    QueryInduction (Expr.Explained E rewriting rendering) (Condition.Explained E rewriting rendering)
      (Table.Explained E rewriting rendering) (Select.Explained E rewriting rendering) where
  column text _ := by
    simp only [Expr.sql, Expr.rewrite]
    exact .ok _
  value literal _ := by
    simp only [Expr.sql, Expr.rewrite, Rendering.plain, explains.value]
    exact .ok _
  raw literal _ := by
    simp only [Expr.sql, Expr.rewrite, Flavor.rawValue, explains.plain]
    exact .ok _
  call := Expr.Explained.call same explains
  operation := Expr.Explained.operation
  condition test h hnodes := by
    simp only [Expr.sql, Expr.rewrite]
    exact h (Expr.everywhere_condition.mp hnodes).2
  subquery := Expr.Explained.subquery explains
  compare := Condition.Explained.compare
  between := Condition.Explained.between
  oneOf := Condition.Explained.oneOf
  noneOf := Condition.Explained.noneOf
  null := Condition.Explained.null
  like := Condition.Explained.like
  columns := Condition.Explained.columns
  logical := Condition.Explained.logical
  not := Condition.Explained.not
  named name label _ := by
    rw [explains.named, Table.rewrite]
    exact .refl same _
  nested := Table.Explained.nested explains
  select := Select.Explained.select explains

/-! ## Statements -/

theorem Table.sameUpTo_targetSql (same : ∀ cause, E cause cause)
    (explains : rewriting.Explains rendering) {table : Table}
    (hnodes : table.Everywhere (Node.Quotable E rewriting)) :
    SameUpTo E (table.targetSql rendering)
      ((table.rewriteTarget rewriting).targetSql (.plain rendering.flavor)) := by
  cases table with
  | named name label => exact .ok _
  | nested query label =>
    have hquery := (explained_steps same explains).forTable (.nested query label) hnodes
    rwa [Table.rewrite] at hquery

theorem Condition.sameUpTo_filter (same : ∀ cause, E cause cause)
    (explains : rewriting.Explains rendering) {tests : List Condition}
    (hnodes : ∀ test ∈ tests, test.Everywhere (Node.Quotable E rewriting)) :
    SameUpTo E (sqlList rendering tests)
      (sqlList (.plain rendering.flavor) (tests.map (rewrite rewriting))) :=
  sameUpTo_sqlList (fun test _ ↦ (explained_steps same explains).forCondition test) hnodes

theorem Select.sameUpTo_sql (same : ∀ cause, E cause cause) (explains : rewriting.Explains rendering)
    {query : Select} (hnodes : query.Everywhere (Node.Quotable E rewriting)) :
    SameUpTo E (rendering.select query fun _ ↦ query.sql rendering)
      ((Rendering.plain rendering.flavor).select (query.rewrite rewriting) fun _ ↦
        (query.rewrite rewriting).sql (.plain rendering.flavor)) :=
  explains.sameUpTo_select ((explained_steps same explains).forSelect query) hnodes

theorem Row.get?_rewrite (row : Row) (column : String) :
    Entries.get? (row.rewrite rewriting) column =
      (Entries.get? row column).map rewriting.literal := by
  induction row with
  | nil => rfl
  | cons cell more ih =>
    simp only [rewrite, List.map_cons, Entries.get?]
    split
    · rfl
    · exact ih

theorem Row.keys_rewrite (row : Row) : Entries.keys (row.rewrite rewriting) = Entries.keys row := by
  simp [rewrite, Entries.keys, Function.comp_def]

/-- The cells keep their text; a missing one is null on both sides. -/
theorem Row.rowValues_rewrite (explains : rewriting.Explains rendering) (columns : List String)
    (row : Row) :
    rowValues rendering.flavor columns (row.rewrite rewriting) =
      rowValues rendering.flavor columns row := by
  have hcells : (columns.map fun column ↦
      rendering.flavor.value ((Entries.get? (row.rewrite rewriting) column).getD .null)) =
      columns.map fun column ↦ rendering.flavor.value ((Entries.get? row column).getD .null) := by
    apply List.map_congr_left
    intro column _
    rw [get?_rewrite]
    cases Entries.get? row column with
    | none => rfl
    | some literal => exact explains.value literal
  rw [rowValues, rowValues, hcells]

theorem Insert.sameUpTo_sql (same : ∀ cause, E cause cause) (explains : rewriting.Explains rendering)
    {table : Table} {source : Option InsertSource}
    (htable : table.Everywhere (Node.Quotable E rewriting))
    (hsource : ∀ given ∈ source, ∀ node ∈ given.nodes, node.Quotable E rewriting) :
    SameUpTo E (Insert.sql rendering ⟨table, source⟩)
      (Insert.sql (.plain rendering.flavor)
        ⟨table.rewriteTarget rewriting, source.map (InsertSource.rewrite rewriting)⟩) := by
  simp only [Insert.sql]
  apply (Table.sameUpTo_targetSql same explains htable).bind
  intro target
  cases source with
  | none => exact .error (same _)
  | some given =>
    cases given with
    | rows given =>
      cases given with
      | nil => exact .error (same _)
      | cons first more =>
        have hrows : ((first :: more).map (Row.rewrite rewriting)).map
              (rowValues rendering.flavor (Entries.keys first)) =
            (first :: more).map (rowValues rendering.flavor (Entries.keys first)) := by
          rw [List.map_map]
          exact List.map_congr_left fun row _ ↦ Row.rowValues_rewrite explains _ row
        simp only [Option.map_some, InsertSource.rewrite, List.map_cons, Row.keys_rewrite,
          Rendering.plain, Rendering.dialect] at hrows ⊢
        rw [hrows]
        exact .ok _
    | select query columns =>
      exact (Select.sameUpTo_sql same explains (hsource _ rfl)).bind fun _ ↦ .ok _

theorem sameUpTo_assignmentList (same : ∀ cause, E cause cause)
    (explains : rewriting.Explains rendering) {assignments : Entries Expr}
    (hnodes : ∀ assignment ∈ assignments, assignment.2.Everywhere (Node.Quotable E rewriting)) :
    SameUpTo E (assignmentList rendering assignments)
      (assignmentList (.plain rendering.flavor)
        (assignments.map fun assignment ↦ (assignment.1, assignment.2.rewrite rewriting))) := by
  rw [assignmentList_eq_mapM, assignmentList_eq_mapM]
  apply SameUpTo.mapM
  intro assignment hassignment
  exact ((explained_steps same explains).forExpr assignment.2 (hnodes assignment hassignment)).map _

theorem Update.sameUpTo_sql (same : ∀ cause, E cause cause) (explains : rewriting.Explains rendering)
    {mutation : Update} (hnodes : (Statement.update mutation).Everywhere (Node.Quotable E rewriting)) :
    SameUpTo E ((Statement.update mutation).sqlWith rendering)
      (((Statement.update mutation).rewrite rewriting).sqlWith (.plain rendering.flavor)) := by
  obtain ⟨htable, hassignments, hfilter⟩ := Statement.everywhere_update.mp hnodes
  simp only [Statement.sqlWith, Statement.rewrite, Update.sql, List.isEmpty_map]
  split
  · exact .error (same _)
  · apply (sameUpTo_assignmentList same explains hassignments).bind
    intro assignments
    apply (Table.sameUpTo_targetSql same explains htable).bind
    intro table
    exact (Condition.sameUpTo_filter same explains hfilter).map _

theorem Delete.sameUpTo_sql (same : ∀ cause, E cause cause) (explains : rewriting.Explains rendering)
    {mutation : Delete} (hnodes : (Statement.delete mutation).Everywhere (Node.Quotable E rewriting)) :
    SameUpTo E ((Statement.delete mutation).sqlWith rendering)
      (((Statement.delete mutation).rewrite rewriting).sqlWith (.plain rendering.flavor)) := by
  obtain ⟨htable, hfilter⟩ := Statement.everywhere_delete.mp hnodes
  simp only [Statement.sqlWith, Statement.rewrite, Delete.sql]
  apply (Table.sameUpTo_targetSql same explains htable).bind
  intro table
  exact (Condition.sameUpTo_filter same explains hfilter).map _

/-- A rendering is plain rendering of the rewritten statement, up to quoted arguments. -/
theorem Statement.sameUpTo_sqlWith (same : ∀ cause, E cause cause)
    (explains : rewriting.Explains rendering) {statement : Statement}
    (hnodes : statement.Everywhere (Node.Quotable E rewriting)) :
    SameUpTo E (statement.sqlWith rendering) ((statement.rewrite rewriting).sql rendering.flavor) := by
  cases statement with
  | select query => exact Select.sameUpTo_sql same explains hnodes
  | insert mutation =>
    obtain ⟨htable, hsource⟩ := Statement.everywhere_insert.mp hnodes
    exact Insert.sameUpTo_sql same explains htable hsource
  | update mutation => exact Update.sameUpTo_sql same explains hnodes
  | delete mutation => exact Delete.sameUpTo_sql same explains hnodes
  | createTable definition => exact (Select.sameUpTo_sql same explains hnodes).map _
  | createView definition => exact (Select.sameUpTo_sql same explains hnodes).map _

end Explained

end PortableQuery
