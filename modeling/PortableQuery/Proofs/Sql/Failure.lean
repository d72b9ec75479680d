import Mathlib.Data.List.TakeWhile
import PortableQuery.Proofs.Query.Occurrence
import PortableQuery.Proofs.Sql.Noninterference
import PortableQuery.Proofs.Text.Numeral

/-!
# When rendering fails

A statement is rendered unless it lacks what it is made for or a move of a date somewhere in it cannot
be spelled: the wrong number of arguments, an interval that does not begin with an integer, or a unit
that the dialect does not know. A failure names one of these causes and there is no other.
-/

namespace PortableQuery

open Sql Text

namespace Sql

/-! ## Leading integers -/

/-- A text begins, behind blanks, with an optional sign and all the digits of a 64-bit integer. -/
def BeginsWith (text : String) (n : Int64) : Prop :=
  ∃ blanks sign run rest, text.toList = blanks ++ (sign ++ (run ++ rest)) ∧
    (∀ c ∈ blanks, c ∈ [' ', '\t', '\r', '\n']) ∧ sign ∈ [[], ['+'], ['-']] ∧
    run ≠ [] ∧ (∀ c ∈ run, c.isDigit = true) ∧ Numeral.Stops rest ∧
    n.toInt = if sign = ['-'] then -(Numeral.value run : Int) else Numeral.value run

theorem isIntervalBlank_iff {c : Char} : isIntervalBlank c = true ↔ c ∈ [' ', '\t', '\r', '\n'] := by
  simp only [isIntervalBlank, Bool.or_eq_true, decide_eq_true_eq, List.mem_cons, List.not_mem_nil,
    or_false, or_assoc]

/-- A sign and what follows it, where text without a sign does not begin with one. -/
def Signed (sign after : List Char) : Prop :=
  sign ∈ [[], ['+'], ['-']] ∧ (sign = [] → ∀ c ∈ after.head?, c ≠ '+' ∧ c ≠ '-')

theorem exists_signed (text : List Char) : ∃ sign after, text = sign ++ after ∧ Signed sign after := by
  cases text with
  | nil => exact ⟨[], [], rfl, by simp [Signed]⟩
  | cons c rest =>
    by_cases hplus : c = '+'
    · exact ⟨['+'], rest, by simp [hplus], by simp [Signed]⟩
    by_cases hminus : c = '-'
    · exact ⟨['-'], rest, by simp [hminus], by simp [Signed]⟩
    exact ⟨[], c :: rest, rfl, by simp [Signed, hplus, hminus]⟩

theorem leadingInteger?_of_signed {text : String} {sign after : List Char}
    (htext : text.toList.dropWhile isIntervalBlank = sign ++ after) (signed : Signed sign after) :
    leadingInteger? text =
      if (Numeral.spanDigits after).1 = [] then none
      else Numeral.int64? (if sign = ['-'] then -(Numeral.value (Numeral.spanDigits after).1 : Int)
        else Numeral.value (Numeral.spanDigits after).1) := by
  obtain ⟨hsign, hafter⟩ := signed
  simp only [List.mem_cons, List.not_mem_nil, or_false] at hsign
  simp only [leadingInteger?, htext, List.isEmpty_iff]
  rcases hsign with rfl | rfl | rfl
  · cases after with
    | nil => simp
    | cons c rest =>
      obtain ⟨hplus, hminus⟩ := hafter rfl c rfl
      simp [hplus, hminus]
  · simp
  · simp

theorem leadingInteger?_eq_some_iff {text : String} {n : Int64} :
    leadingInteger? text = some n ↔ BeginsWith text n := by
  constructor
  · intro h
    obtain ⟨sign, after, htext, signed⟩ := exists_signed (text.toList.dropWhile isIntervalBlank)
    rw [leadingInteger?_of_signed htext signed] at h
    split at h
    · contradiction
    rename_i hrun
    have hspan : (Numeral.spanDigits after).1 = after.takeWhile Char.isDigit ∧
        after = after.takeWhile Char.isDigit ++ after.dropWhile Char.isDigit := by
      simp [Numeral.spanDigits, List.span_eq_takeWhile_dropWhile]
    rw [hspan.1] at h hrun
    refine ⟨text.toList.takeWhile isIntervalBlank, sign, after.takeWhile Char.isDigit,
      after.dropWhile Char.isDigit, ?_, ?_, signed.1, hrun, ?_, ?_, Numeral.toInt_of_int64? h⟩
    · rw [← hspan.2, ← htext, List.takeWhile_append_dropWhile]
    · intro c hc
      exact isIntervalBlank_iff.mp (List.mem_takeWhile_imp hc)
    · intro c hc
      exact List.mem_takeWhile_imp hc
    · intro c hc
      have hnot := List.head?_dropWhile_not Char.isDigit after
      rwa [Option.mem_def.mp hc] at hnot
  · rintro ⟨blanks, sign, run, rest, htext, hblanks, hsign, hrun, hdigits, hstops, hn⟩
    obtain ⟨digit, more, rfl⟩ := List.exists_cons_of_ne_nil hrun
    have hdigit : digit.isDigit = true := hdigits digit (by simp)
    have hfirst (c : Char) (hc : c = digit ∨ c = '+' ∨ c = '-') : isIntervalBlank c = false := by
      rw [Bool.eq_false_iff, ne_eq, isIntervalBlank_iff]
      rintro hblank
      simp only [List.mem_cons, List.not_mem_nil, or_false] at hblank
      rcases hc with rfl | rfl | rfl
      · rcases hblank with rfl | rfl | rfl | rfl <;> simp at hdigit
      · simp at hblank
      · simp at hblank
    have hsigned : Signed sign (digit :: more ++ rest) := by
      refine ⟨hsign, fun _ c hc ↦ ?_⟩
      obtain rfl : digit = c := by simpa using hc
      constructor <;> rintro rfl <;> simp at hdigit
    have hdrop : text.toList.dropWhile isIntervalBlank = sign ++ (digit :: more ++ rest) := by
      rw [htext, List.dropWhile_append_of_pos fun c hc ↦ isIntervalBlank_iff.mpr (hblanks c hc)]
      simp only [List.mem_cons, List.not_mem_nil, or_false] at hsign
      rcases hsign with rfl | rfl | rfl <;> simp [hfirst]
    rw [leadingInteger?_of_signed hdrop hsigned, Numeral.spanDigits_append hdigits hstops,
      if_neg hrun, ← hn, Numeral.int64?_toInt]

/-! ## Calls that are refused -/

/-- What is wrong with the arguments of a move of a date, the first fault before the others. -/
inductive DateAdd.Fault (units : List String) : List Expr → Invalid → Prop
  | count {args : List Expr} (wrong : args.length ≠ 3) : Fault units args (.dateAddCount args.length)
  | interval {date interval unit : Expr} (unreadable : ∀ n, ¬ BeginsWith (argumentText interval) n) :
      Fault units [date, interval, unit] (.dateAddInterval (argumentText interval))
  | unit {date interval unit : Expr} {n : Int64} (readable : BeginsWith (argumentText interval) n)
      (unknown : Case.lower (argumentText unit) ∉ units) :
      Fault units [date, interval, unit] (.dateAddUnit (Case.lower (argumentText unit)))

/-- The arguments of a move of a date are not a date, an interval and a unit. -/
def DateAdd.Refuses (units : List String) (args : List Expr) : Prop :=
  args.length ≠ 3 ∨ ∃ date interval unit, args = [date, interval, unit] ∧
    ((∀ n, ¬ BeginsWith (argumentText interval) n) ∨ Case.lower (argumentText unit) ∉ units)

theorem DateAdd.exists_fault_iff {units : List String} {args : List Expr} :
    (∃ cause, Fault units args cause) ↔ Refuses units args := by
  constructor
  · rintro ⟨cause, fault⟩
    cases fault with
    | count wrong => exact .inl wrong
    | interval unreadable => exact .inr ⟨_, _, _, rfl, .inl unreadable⟩
    | unit readable unknown => exact .inr ⟨_, _, _, rfl, .inr unknown⟩
  · rintro (wrong | ⟨date, interval, unit, rfl, unreadable | unknown⟩)
    · exact ⟨_, .count wrong⟩
    · exact ⟨_, .interval unreadable⟩
    · by_cases readable : ∃ n, BeginsWith (argumentText interval) n
      · obtain ⟨n, readable⟩ := readable
        exact ⟨_, .unit readable unknown⟩
      · exact ⟨_, .interval (not_exists.mp readable)⟩

/-- A node at which rendering in a dialect fails, and the cause. -/
inductive Dialect.Rejects (dialect : Dialect) : Node → Invalid → Prop
  | call {args : List Expr} {cause : Invalid} (fault : DateAdd.Fault dialect.dateUnits args cause) :
      Rejects dialect (.expr (.call "DATEADD" args)) cause

end Sql

/-! ## Outcomes -/

/-- A result where no node is rejected, and else the failure of one that is. -/
inductive Judged {α : Type} (dialect : Dialect) (nodes : List Node) : Except Error α → Prop
  | accepted (result : α) (clear : ∀ node ∈ nodes, ∀ cause, ¬ dialect.Rejects node cause) :
      Judged dialect nodes (.ok result)
  | rejected {node : Node} {cause : Invalid} (found : node ∈ nodes)
      (rejects : dialect.Rejects node cause) : Judged dialect nodes (.error (.invalid cause))

namespace Judged

variable {α β : Type} {dialect : Dialect} {nodes others : List Node}

theorem nothing (result : α) : Judged dialect [] (.ok result) := .accepted result (by simp)

/-- The same nodes in another order. -/
theorem of_mem_iff {outcome : Except Error α} (judged : Judged dialect nodes outcome)
    (same : ∀ node, node ∈ others ↔ node ∈ nodes) : Judged dialect others outcome := by
  cases judged with
  | accepted result clear =>
    exact .accepted result fun node hnode ↦ clear node ((same node).mp hnode)
  | rejected found rejects => exact .rejected ((same _).mpr found) rejects

/-- A part, and what is done with its result. -/
theorem bind {outcome : Except Error α} {next : α → Except Error β}
    (judged : Judged dialect nodes outcome)
    (after : ∀ result, outcome = .ok result → Judged dialect others (next result)) :
    Judged dialect (nodes ++ others) (outcome >>= next) := by
  cases judged with
  | accepted result clear =>
    cases hnext : next result with
    | ok final =>
      have hafter := after result rfl
      rw [hnext] at hafter
      cases hafter with
      | accepted _ clearAfter =>
        simp only [Bind.bind, Except.bind, hnext]
        refine .accepted final fun node hnode ↦ ?_
        rcases List.mem_append.mp hnode with hnode | hnode
        · exact clear node hnode
        · exact clearAfter node hnode
    | error cause =>
      have hafter := after result rfl
      rw [hnext] at hafter
      cases hafter with
      | rejected found rejects =>
        simp only [Bind.bind, Except.bind, hnext]
        exact .rejected (List.mem_append_right nodes found) rejects
  | rejected found rejects => exact .rejected (List.mem_append_left others found) rejects

theorem map {outcome : Except Error α} (judged : Judged dialect nodes outcome) (f : α → β) :
    Judged dialect nodes (do return f (← outcome)) := by
  have h : Judged dialect (nodes ++ []) (outcome >>= fun result ↦ .ok (f result)) :=
    judged.bind fun result _ ↦ nothing (f result)
  rwa [List.append_nil] at h

theorem mapM {part : α → List Node} {step : α → Except Error β} {items : List α}
    (judged : ∀ item ∈ items, Judged dialect (part item) (step item)) :
    Judged dialect (items.flatMap part) (items.mapM step) := by
  induction items with
  | nil => exact nothing []
  | cons item more ih =>
    obtain ⟨first, others⟩ := List.forall_mem_cons.mp judged
    rw [List.flatMap_cons, List.mapM_cons]
    exact first.bind fun _ _ ↦ (ih others).map _

/-- A node that is never rejected. -/
theorem under {outcome : Except Error α} {node : Node} (judged : Judged dialect nodes outcome)
    (harmless : ∀ cause, ¬ dialect.Rejects node cause) : Judged dialect (node :: nodes) outcome := by
  cases judged with
  | accepted result clear => exact .accepted result (List.forall_mem_cons.mpr ⟨harmless, clear⟩)
  | rejected found rejects => exact .rejected (List.mem_cons_of_mem node found) rejects

end Judged

theorem Sql.DateAdd.parse_cases (units : List String) (args : List Expr) :
    (∃ parts, parse units args = .ok parts ∧ ∀ cause, ¬ Fault units args cause) ∨
      ∃ cause, parse units args = .error (.invalid cause) ∧ Fault units args cause := by
  by_cases hlength : args.length = 3
  · obtain ⟨date, interval, unit, rfl⟩ := List.length_eq_three.mp hlength
    simp only [parse]
    split
    · rename_i hnone
      refine .inr ⟨_, rfl, .interval fun n readable ↦ ?_⟩
      rw [leadingInteger?_eq_some_iff.mpr readable] at hnone
      contradiction
    · rename_i n hsome
      have readable := leadingInteger?_eq_some_iff.mp hsome
      split
      · rename_i known
        refine .inl ⟨_, rfl, fun cause fault ↦ ?_⟩
        cases fault with
        | count wrong => exact wrong rfl
        | interval unreadable => exact unreadable n readable
        | unit _ unknown => exact unknown (List.contains_iff_mem.mp known)
      · rename_i unknown
        exact .inr ⟨_, rfl, .unit readable (mt List.contains_iff_mem.mpr unknown)⟩
  · exact .inr ⟨_, parse_of_length_ne hlength, .count hlength⟩

/-! ## Expressions, conditions, tables and selects -/

section Parts

variable {flavor : Flavor}

/-- Everything in an expression is judged when it is rendered. -/
def Expr.IsJudged (flavor : Flavor) (expr : Expr) : Prop :=
  Judged flavor.dialect expr.nodes (expr.sql (.plain flavor))

def Condition.IsJudged (flavor : Flavor) (test : Condition) : Prop :=
  Judged flavor.dialect test.nodes (test.sql (.plain flavor))

def Table.IsJudged (flavor : Flavor) (table : Table) : Prop :=
  Judged flavor.dialect table.nodes (table.sql (.plain flavor))

def Select.IsJudged (flavor : Flavor) (query : Select) : Prop :=
  Judged flavor.dialect query.nodes (query.sql (.plain flavor))

/-- Only calls that move a date are refused. -/
theorem Sql.Dialect.judged_call (dialect : Dialect) (name : String) (args : List Expr)
    (rendered : List String) :
    Judged dialect [.expr (.call name args)] (dialect.call name args rendered) := by
  rw [call.eq_def]
  by_cases hname : name = "DATEADD"
  · subst hname
    rw [if_pos rfl]
    rcases DateAdd.parse_cases dialect.dateUnits args with
      ⟨parts, hparse, clear⟩ | ⟨cause, hparse, fault⟩
    · rw [hparse]
      refine .accepted _ fun node hnode cause rejects ↦ ?_
      obtain rfl := List.mem_singleton.mp hnode
      cases rejects with
      | call fault => exact clear cause fault
    · rw [hparse]
      exact .rejected (List.mem_singleton_self _) (.call fault)
  · have harmless (cause : Invalid) : ¬ dialect.Rejects (.expr (.call name args)) cause := by
      rintro ⟨fault⟩
      exact hname rfl
    rw [if_neg hname]
    cases dialect <;> exact (Judged.nothing _).under harmless

theorem Expr.judged_sqlList {exprs : List Expr} (judged : ∀ expr ∈ exprs, expr.IsJudged flavor) :
    Judged flavor.dialect (nodesList exprs) (sqlList (.plain flavor) exprs) := by
  rw [nodesList_eq, sqlList_eq_mapM]
  exact Judged.mapM judged

theorem Condition.judged_sqlList {tests : List Condition}
    (judged : ∀ test ∈ tests, test.IsJudged flavor) :
    Judged flavor.dialect (nodesList tests) (sqlList (.plain flavor) tests) := by
  rw [nodesList_eq, sqlList_eq_mapM]
  exact Judged.mapM judged

namespace Expr

theorem isJudged_call {args : List Expr} (name : String)
    (judged : ∀ arg ∈ args, arg.IsJudged flavor) : IsJudged flavor (.call name args) := by
  simp only [IsJudged, nodes, Expr.sql]
  have hcall : Judged flavor.dialect (nodesList args ++ [.expr (.call name args)]) (do
      let rendered ← sqlList (.plain flavor) args
      flavor.dialect.call name args rendered) :=
    (judged_sqlList judged).bind fun rendered _ ↦ flavor.dialect.judged_call name args rendered
  exact hcall.of_mem_iff fun node ↦ by simp [or_comm]

theorem isJudged_operation {operands : List Expr} (operator : String)
    (judged : ∀ operand ∈ operands, operand.IsJudged flavor) :
    IsJudged flavor (.operation operator operands) := by
  simp only [IsJudged, nodes, Expr.sql]
  exact ((judged_sqlList judged).map _).under nofun

theorem isJudged_condition {test : Condition} (judged : test.IsJudged flavor) :
    IsJudged flavor (.condition test) := by
  simp only [IsJudged, nodes, Expr.sql]
  exact Judged.under judged nofun

theorem isJudged_subquery {query : Select} (judged : query.IsJudged flavor) :
    IsJudged flavor (.subquery query) := by
  simp only [IsJudged, nodes, Expr.sql]
  exact (Judged.map judged _).under nofun

end Expr

namespace Condition

theorem isJudged_compare {key value : Expr} (operator : Comparison) (hkey : key.IsJudged flavor)
    (hvalue : value.IsJudged flavor) : IsJudged flavor (.compare key value operator) := by
  simp only [IsJudged, nodes, Condition.sql]
  exact (Judged.bind hkey fun _ _ ↦ Judged.map hvalue _).under nofun

theorem isJudged_between {key low high : Expr} (hkey : key.IsJudged flavor) (hlow : low.IsJudged flavor)
    (hhigh : high.IsJudged flavor) : IsJudged flavor (.between key low high) := by
  simp only [IsJudged, nodes, Condition.sql]
  exact (Judged.bind hkey fun _ _ ↦ Judged.bind hlow fun _ _ ↦ Judged.map hhigh _).under nofun

theorem isJudged_oneOf {key : Expr} {values : List Expr} (hkey : key.IsJudged flavor)
    (hvalues : ∀ value ∈ values, value.IsJudged flavor) : IsJudged flavor (.oneOf key values) := by
  simp only [IsJudged, nodes, Condition.sql]
  exact (Judged.bind hkey fun _ _ ↦ (Expr.judged_sqlList hvalues).map _).under nofun

theorem isJudged_noneOf {key : Expr} {values : List Expr} (hkey : key.IsJudged flavor)
    (hvalues : ∀ value ∈ values, value.IsJudged flavor) : IsJudged flavor (.noneOf key values) := by
  simp only [IsJudged, nodes, Condition.sql]
  exact (Judged.bind hkey fun _ _ ↦ (Expr.judged_sqlList hvalues).map _).under nofun

theorem isJudged_null {key : Expr} (isNull : Bool) (hkey : key.IsJudged flavor) :
    IsJudged flavor (.null key isNull) := by
  simp only [IsJudged, nodes, Condition.sql]
  exact (Judged.map hkey _).under nofun

theorem isJudged_like {key : Expr} (pattern : String) (isLike : Bool) (hkey : key.IsJudged flavor) :
    IsJudged flavor (.like key pattern isLike) := by
  simp only [IsJudged, nodes, Condition.sql]
  exact (Judged.map hkey _).under nofun

theorem isJudged_columns {left right : Expr} (operator : Comparison) (hleft : left.IsJudged flavor)
    (hright : right.IsJudged flavor) : IsJudged flavor (.columns left right operator) := by
  simp only [IsJudged, nodes, Condition.sql]
  exact (Judged.bind hleft fun _ _ ↦ Judged.map hright _).under nofun

theorem isJudged_logical {members : List Condition} (operator : Connective)
    (judged : ∀ member ∈ members, member.IsJudged flavor) :
    IsJudged flavor (.logical members operator) := by
  simp only [IsJudged, nodes, Condition.sql]
  exact ((judged_sqlList judged).map _).under nofun

theorem isJudged_not {inner : Condition} (judged : inner.IsJudged flavor) :
    IsJudged flavor (.not inner) := by
  simp only [IsJudged, nodes, Condition.sql]
  exact (Judged.map judged _).under nofun

end Condition

/-! ## The clauses of a select -/

theorem Table.isJudged_named (name : String) (label : Option String) :
    IsJudged flavor (.named name label) := by
  rw [IsJudged, sql_named, nodes]
  exact .nothing _

theorem Table.isJudged_nested {query : Select} (label : Option String)
    (judged : query.IsJudged flavor) : IsJudged flavor (.nested query label) := by
  simp only [IsJudged, nodes, Table.sql]
  exact Judged.map judged _

theorem Table.judged_sqlList {tables : List Table} (judged : ∀ table ∈ tables, table.IsJudged flavor) :
    Judged flavor.dialect (nodesList tables) (sqlList (.plain flavor) tables) := by
  rw [nodesList_eq, sqlList_eq_mapM]
  exact Judged.mapM judged

theorem Field.judged_sqlList {fields : List Field}
    (judged : ∀ field ∈ fields, field.expr.IsJudged flavor) :
    Judged flavor.dialect (nodesList fields) (sqlList (.plain flavor) fields) := by
  rw [nodesList_eq, sqlList_eq_mapM]
  refine Judged.mapM fun field hfield ↦ ?_
  obtain ⟨expr, label⟩ := field
  rw [Field.sql]
  exact Judged.map (judged _ hfield) _

theorem SortKey.judged_sqlList {keys : List SortKey}
    (judged : ∀ key ∈ keys, key.expr.IsJudged flavor) :
    Judged flavor.dialect (nodesList keys) (sqlList (.plain flavor) keys) := by
  rw [nodesList_eq, sqlList_eq_mapM]
  refine Judged.mapM fun key hkey ↦ ?_
  obtain ⟨expr, direction⟩ := key
  rw [SortKey.sql]
  exact Judged.map (judged _ hkey) _

theorem Condition.judged_sqlOn {condition : Option Condition}
    (judged : ∀ test ∈ condition, test.IsJudged flavor) :
    Judged flavor.dialect (nodesOption condition) (sqlOn (.plain flavor) condition) := by
  cases condition with
  | none =>
    rw [nodesOption, sqlOn]
    exact .nothing ""
  | some test =>
    rw [nodesOption, sqlOn]
    exact Judged.map (judged test rfl) _

theorem Join.judged_sqlList {joins : List Join}
    (judged : ∀ join ∈ joins, join.table.IsJudged flavor ∧ ∀ test ∈ join.condition, test.IsJudged flavor) :
    Judged flavor.dialect (nodesList joins) (sqlList (.plain flavor) joins) := by
  rw [nodesList_eq, sqlList_eq_mapM]
  refine Judged.mapM fun join hjoin ↦ ?_
  obtain ⟨htable, hcondition⟩ := judged join hjoin
  obtain ⟨table, condition, kind⟩ := join
  rw [Join.sql]
  exact Judged.bind htable fun _ _ ↦ (Condition.judged_sqlOn hcondition).map _

theorem UnionTail.judged_sqlOnto {tails : List UnionTail} (left : String)
    (judged : ∀ tail ∈ tails, tail.query.IsJudged flavor) :
    Judged flavor.dialect (nodesList tails) (sqlOnto (.plain flavor) left tails) := by
  induction tails generalizing left with
  | nil =>
    rw [nodesList, sqlOnto]
    exact .nothing left
  | cons tail more ih =>
    obtain ⟨hquery, hmore⟩ := List.forall_mem_cons.mp judged
    obtain ⟨kind, query⟩ := tail
    rw [nodesList, sqlOnto]
    exact Judged.bind hquery fun _ _ ↦ ih _ hmore

/-- The fields are rendered before the tables and the groups before HAVING. -/
theorem Select.isJudged_select {query : Select} (htables : ∀ table ∈ query.tables, table.IsJudged flavor)
    (hjoins : ∀ join ∈ query.joins, join.table.IsJudged flavor ∧
      ∀ test ∈ join.condition, test.IsJudged flavor)
    (hfields : ∀ field ∈ query.fields, field.expr.IsJudged flavor)
    (hfilter : ∀ test ∈ query.filter, test.IsJudged flavor)
    (hhaving : ∀ test ∈ query.having, test.IsJudged flavor)
    (horder : ∀ key ∈ query.orderBy, key.expr.IsJudged flavor)
    (hgroups : ∀ expr ∈ query.groupBy, expr.IsJudged flavor)
    (hunions : ∀ tail ∈ query.unions, tail.query.IsJudged flavor) : query.IsJudged flavor := by
  obtain ⟨tables, joins, fields, filter, having, orderBy, groupBy, limit, offset, unions⟩ := query
  rw [IsJudged, Select.sql]
  refine Judged.of_mem_iff ((Field.judged_sqlList hfields).bind fun _ _ ↦
    (Table.judged_sqlList htables).bind fun _ _ ↦ (Join.judged_sqlList hjoins).bind fun _ _ ↦
    (Condition.judged_sqlList hfilter).bind fun _ _ ↦ (Expr.judged_sqlList hgroups).bind fun _ _ ↦
    (Condition.judged_sqlList hhaving).bind fun _ _ ↦ (SortKey.judged_sqlList horder).bind fun _ _ ↦
    UnionTail.judged_sqlOnto _ hunions) fun node ↦ ?_
  simp only [nodes, List.mem_append]
  tauto

theorem isJudged_steps (flavor : Flavor) :
    QueryInduction (Expr.IsJudged flavor) (Condition.IsJudged flavor) (Table.IsJudged flavor)
      (Select.IsJudged flavor) where
  column text := by
    rw [Expr.IsJudged, Expr.nodes, Expr.sql]
    exact (Judged.nothing _).under nofun
  value literal := by
    rw [Expr.IsJudged, Expr.nodes, Expr.sql]
    exact (Judged.nothing _).under nofun
  raw literal := by
    rw [Expr.IsJudged, Expr.nodes, Expr.sql]
    exact (Judged.nothing _).under nofun
  call name _ := Expr.isJudged_call name
  operation operator _ := Expr.isJudged_operation operator
  condition _ := Expr.isJudged_condition
  subquery _ := Expr.isJudged_subquery
  compare _ _ operator := Condition.isJudged_compare operator
  between _ _ _ := Condition.isJudged_between
  oneOf _ _ := Condition.isJudged_oneOf
  noneOf _ _ := Condition.isJudged_noneOf
  null _ isNull := Condition.isJudged_null isNull
  like _ pattern isLike := Condition.isJudged_like pattern isLike
  columns _ _ operator := Condition.isJudged_columns operator
  logical _ operator := Condition.isJudged_logical operator
  not _ := Condition.isJudged_not
  named := Table.isJudged_named
  nested _ label := Table.isJudged_nested label
  select _ := Select.isJudged_select

/-! ## Statements -/

theorem Table.judged_targetSql (table : Table) :
    Judged flavor.dialect table.nodes (table.targetSql (.plain flavor)) := by
  have hjudged := (isJudged_steps flavor).forTable table
  cases table with
  | named name label =>
    rw [nodes]
    exact .nothing _
  | nested query label => exact hjudged

theorem Condition.judged_filter (tests : List Condition) :
    Judged flavor.dialect (tests.flatMap nodes) (sqlList (.plain flavor) tests) := by
  rw [← nodesList_eq]
  exact judged_sqlList fun test _ ↦ (isJudged_steps flavor).forCondition test

theorem judged_assignmentList (assignments : Entries Expr) :
    Judged flavor.dialect (assignments.flatMap (·.2.nodes))
      (assignmentList (.plain flavor) assignments) := by
  rw [assignmentList_eq_mapM]
  exact Judged.mapM fun assignment _ ↦ Judged.map ((isJudged_steps flavor).forExpr assignment.2) _

end Parts

namespace Statement

/-- The clause without which a statement cannot be rendered. -/
inductive Lacks : Statement → Missing → Prop
  | assignments {mutation : Update} (none : mutation.assignments = []) :
      Lacks (.update mutation) .assignments
  | source {mutation : Insert} (noRows : ∀ rows, mutation.source = some (.rows rows) → rows = [])
      (noSelect : ∀ query columns, mutation.source ≠ some (.select query columns)) :
      Lacks (.insert mutation) .insertSource

variable {flavor : Flavor}

/-- The target of an insert is rendered before its source is looked for. -/
theorem sql_of_lacks {statement : Statement} {clause : Missing} (lacks : statement.Lacks clause) :
    statement.sql flavor = .error (.missing clause) ∨
      ∃ node ∈ statement.nodes, ∃ cause, flavor.dialect.Rejects node cause ∧
        statement.sql flavor = .error (.invalid cause) := by
  cases lacks with
  | @assignments mutation none =>
    left
    simp [sql, sqlWith, Update.sql, none]
  | @source mutation noRows noSelect =>
    obtain ⟨table, source⟩ := mutation
    have hmissing : (Statement.insert ⟨table, source⟩).sql flavor =
        table.targetSql (.plain flavor) >>= fun _ ↦ .error (.missing .insertSource) := by
      rcases source with _ | (_ | ⟨first, more⟩) | ⟨query, columns⟩
      · rfl
      · rfl
      · exact absurd (noRows _ rfl) (List.cons_ne_nil first more)
      · exact absurd rfl (noSelect query columns)
    have htable : Judged flavor.dialect table.nodes (table.targetSql (.plain flavor)) :=
      table.judged_targetSql
    rw [hmissing]
    generalize table.targetSql (.plain flavor) = outcome at htable
    cases htable with
    | accepted text clear => exact .inl rfl
    | rejected found rejects =>
      exact .inr ⟨_, List.mem_append_left _ found, _, rejects, rfl⟩

theorem judged_sql {statement : Statement} (complete : ∀ clause, ¬ statement.Lacks clause) :
    Judged flavor.dialect statement.nodes (statement.sql flavor) := by
  have hquery (query : Select) : Judged flavor.dialect query.nodes (query.sql (.plain flavor)) :=
    (isJudged_steps flavor).forSelect query
  cases statement with
  | select query => exact hquery query
  | insert mutation =>
    obtain ⟨table, source⟩ := mutation
    have htable : Judged flavor.dialect table.nodes (table.targetSql (.plain flavor)) :=
      table.judged_targetSql
    match source with
    | none => exact absurd (.source (by simp) (by simp)) (complete .insertSource)
    | some (.rows []) => exact absurd (.source (by simp) (by simp)) (complete .insertSource)
    | some (.rows (first :: more)) =>
      exact htable.bind fun _ _ ↦ .nothing _
    | some (.select query columns) =>
      simp only [nodes, InsertSource.nodes, Option.toList_some, List.flatMap_singleton]
      exact htable.bind fun _ _ ↦ (hquery query).map _
  | update mutation =>
    obtain ⟨table, assignments, filter⟩ := mutation
    have hsome : assignments ≠ [] := fun none ↦ complete .assignments (.assignments none)
    have hupdate : Judged flavor.dialect
        (assignments.flatMap (·.2.nodes) ++ (table.nodes ++ filter.flatMap Condition.nodes))
        ((Update.mk table assignments filter).sql (.plain flavor)) := by
      rw [Update.sql, if_neg (by simpa using hsome)]
      exact (judged_assignmentList assignments).bind fun _ _ ↦ table.judged_targetSql.bind fun _ _ ↦
        (Condition.judged_filter filter).map _
    refine Judged.of_mem_iff hupdate fun node ↦ ?_
    simp only [nodes, List.mem_append]
    tauto
  | delete mutation =>
    obtain ⟨table, filter⟩ := mutation
    exact table.judged_targetSql.bind fun _ _ ↦ (Condition.judged_filter filter).map _
  | createTable definition => exact (hquery definition.query).map _
  | createView definition => exact (hquery definition.query).map _

theorem length_of_sqlList {rendering : Rendering} {exprs : List Expr} {texts : List String}
    (h : Expr.sqlList rendering exprs = .ok texts) : texts.length = exprs.length := by
  rw [Expr.sqlList_eq_mapM, mapM_eq_ok_iff] at h
  exact h.length_eq.symm

theorem cause_of_sql_error {statement : Statement} {error : Error}
    (h : statement.sql flavor = .error error) :
    (∃ clause, error = .missing clause ∧ statement.Lacks clause) ∨
      ∃ node ∈ statement.nodes, ∃ cause, flavor.dialect.Rejects node cause ∧ error = .invalid cause := by
  by_cases complete : ∃ clause, statement.Lacks clause
  · obtain ⟨clause, lacks⟩ := complete
    rcases sql_of_lacks lacks with hmissing | ⟨node, hnode, cause, rejects, hinvalid⟩
    · exact .inl ⟨clause, Except.error.inj (h.symm.trans hmissing), lacks⟩
    · exact .inr ⟨node, hnode, cause, rejects, Except.error.inj (h.symm.trans hinvalid)⟩
  · have hjudged : Judged flavor.dialect statement.nodes (statement.sql flavor) :=
      judged_sql (not_exists.mp complete)
    rw [h] at hjudged
    cases hjudged with
    | rejected found rejects => exact .inr ⟨_, found, _, rejects, rfl⟩

theorem exists_error_of_rejects {statement : Statement} {node : Node} {cause : Invalid}
    (found : node ∈ statement.nodes) (rejects : flavor.dialect.Rejects node cause) :
    ∃ error, statement.sql flavor = .error error := by
  by_cases complete : ∃ clause, statement.Lacks clause
  · obtain ⟨clause, lacks⟩ := complete
    rcases sql_of_lacks lacks with hmissing | ⟨_, _, cause, _, hinvalid⟩
    · exact ⟨_, hmissing⟩
    · exact ⟨_, hinvalid⟩
  · have hjudged : Judged flavor.dialect statement.nodes (statement.sql flavor) :=
      judged_sql (not_exists.mp complete)
    cases houtcome : statement.sql flavor with
    | error error => exact ⟨error, rfl⟩
    | ok text =>
      rw [houtcome] at hjudged
      cases hjudged with
      | accepted _ clear => exact absurd rejects (clear node found cause)

/-- Rendering fails exactly if the statement lacks a clause or a move of a date in it is refused. A
failure names what is lacking or the fault of such a call, and wherever a move of a date is spelled,
there are three rendered arguments to spell it from. -/
theorem sql_error_iff (flavor : Flavor) (statement : Statement) :
    ((∃ error, statement.sql flavor = .error error) ↔
      (∃ clause, statement.Lacks clause) ∨
        ∃ args, Node.expr (.call "DATEADD" args) ∈ statement.nodes ∧
          DateAdd.Refuses flavor.dialect.dateUnits args) ∧
    (∀ error, statement.sql flavor = .error error →
      (∃ clause, error = .missing clause ∧ statement.Lacks clause) ∨
        ∃ cause args, error = .invalid cause ∧ Node.expr (.call "DATEADD" args) ∈ statement.nodes ∧
          DateAdd.Fault flavor.dialect.dateUnits args cause) ∧
    ∀ args texts parts, Expr.sqlList (.plain flavor) args = .ok texts →
      DateAdd.parse flavor.dialect.dateUnits args = .ok parts →
        ∃ date interval unit, texts = [date, interval, unit] := by
  refine ⟨⟨?_, ?_⟩, ?_, ?_⟩
  · rintro ⟨error, h⟩
    rcases cause_of_sql_error h with ⟨clause, -, lacks⟩ | ⟨node, hnode, cause, rejects, -⟩
    · exact .inl ⟨clause, lacks⟩
    · cases rejects with
      | call fault => exact .inr ⟨_, hnode, DateAdd.exists_fault_iff.mp ⟨cause, fault⟩⟩
  · rintro (⟨clause, lacks⟩ | ⟨args, hnode, refuses⟩)
    · rcases sql_of_lacks lacks with hmissing | ⟨_, _, cause, _, hinvalid⟩
      · exact ⟨_, hmissing⟩
      · exact ⟨_, hinvalid⟩
    · obtain ⟨cause, fault⟩ := DateAdd.exists_fault_iff.mpr refuses
      exact exists_error_of_rejects hnode (.call fault)
  · intro error h
    rcases cause_of_sql_error h with hmissing | ⟨node, hnode, cause, rejects, hinvalid⟩
    · exact .inl hmissing
    · cases rejects with
      | call fault => exact .inr ⟨cause, _, hinvalid, hnode, fault⟩
  · intro args texts parts hargs hparse
    have hlength : args.length = 3 := by
      by_contra wrong
      rw [DateAdd.parse_of_length_ne wrong] at hparse
      contradiction
    rw [← length_of_sqlList hargs] at hlength
    exact List.length_eq_three.mp hlength

end Statement

end PortableQuery
