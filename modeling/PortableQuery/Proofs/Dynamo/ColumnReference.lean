import PortableQuery.Proofs.Dynamo.Acceptance
import PortableQuery.Proofs.Query.Induction
import PortableQuery.Proofs.Sql.Frame
import PortableQuery.Proofs.Text.Quoted

/-!
# Columns in PartiQL

A column is named in an expression as a key or an operand, as an argument of a function, or as a value
to compare with. Its name is written bare in the first case and as a string literal in the other two,
and it leaves no other trace in the text. So a text refers to the columns of its expression just when
none of them is an argument.
-/

namespace PortableQuery

open Dynamo Sql

/-- What a column is in an expression. -/
inductive ColumnRole
  | reference
  | argument
  | value
  deriving DecidableEq

/-- A column with the role that it has. -/
abbrev ColumnUse := ColumnRole × String

namespace ColumnRole

/-- Where a column of a role stands. -/
def position : ColumnRole → Position
  | .reference => .identifier
  | .argument => .value
  | .value => .value

/-- A name as it is written for a role. -/
def written (role : ColumnRole) (name : String) : String := role.position.columnText name

/-- A name as it refers to a column: only a value to compare with is a literal. -/
def referring (role : ColumnRole) (name : String) : String :=
  match role with
  | .value => quoted name
  | _ => name

end ColumnRole

mutual

/-- The columns of an expression with their roles, in the order in which they are written. -/
def Expr.columnUses (role : ColumnRole) : Expr → List ColumnUse
  | .column text => [(role, text)]
  | .value _ => []
  | .raw _ => []
  | .call _ args => Expr.columnUsesList .argument args
  | .operation _ operands => Expr.columnUsesList .reference operands
  | .condition test => test.columnUses
  | .subquery _ => []

def Expr.columnUsesList (role : ColumnRole) : List Expr → List ColumnUse
  | [] => []
  | expr :: more => expr.columnUses role ++ Expr.columnUsesList role more

def Condition.columnUses : Condition → List ColumnUse
  | .compare key value _ => key.columnUses .reference ++ value.columnUses .value
  | .between key low high =>
    key.columnUses .reference ++ (low.columnUses .value ++ high.columnUses .value)
  | .oneOf key values => key.columnUses .reference ++ Expr.columnUsesList .value values
  | .noneOf key values => key.columnUses .reference ++ Expr.columnUsesList .value values
  | .null key _ => key.columnUses .reference
  | .like key _ _ => key.columnUses .reference
  | .columns left right _ => left.columnUses .reference ++ right.columnUses .reference
  | .logical members _ => Condition.columnUsesList members
  | .not inner => inner.columnUses

def Condition.columnUsesList : List Condition → List ColumnUse
  | [] => []
  | test :: more => test.columnUses ++ Condition.columnUsesList more

end

mutual

/-- An expression with other names for its columns. -/
def Expr.renameColumns (rename : String → String) : Expr → Expr
  | .column text => .column (rename text)
  | .value literal => .value literal
  | .raw literal => .raw literal
  | .call name args => .call name (Expr.renameColumnsList rename args)
  | .operation operator operands => .operation operator (Expr.renameColumnsList rename operands)
  | .condition test => .condition (test.renameColumns rename)
  | .subquery query => .subquery query

def Expr.renameColumnsList (rename : String → String) : List Expr → List Expr
  | [] => []
  | expr :: more => expr.renameColumns rename :: Expr.renameColumnsList rename more

def Condition.renameColumns (rename : String → String) : Condition → Condition
  | .compare key value operator =>
    .compare (key.renameColumns rename) (value.renameColumns rename) operator
  | .between key low high =>
    .between (key.renameColumns rename) (low.renameColumns rename) (high.renameColumns rename)
  | .oneOf key values => .oneOf (key.renameColumns rename) (Expr.renameColumnsList rename values)
  | .noneOf key values => .noneOf (key.renameColumns rename) (Expr.renameColumnsList rename values)
  | .null key isNull => .null (key.renameColumns rename) isNull
  | .like key pattern isLike => .like (key.renameColumns rename) pattern isLike
  | .columns left right operator =>
    .columns (left.renameColumns rename) (right.renameColumns rename) operator
  | .logical members operator => .logical (Condition.renameColumnsList rename members) operator
  | .not inner => .not (inner.renameColumns rename)

def Condition.renameColumnsList (rename : String → String) : List Condition → List Condition
  | [] => []
  | test :: more => test.renameColumns rename :: Condition.renameColumnsList rename more

end

-- Functions defined at once: their equations are made here, before the proofs that use them.
attribute [local simp] Expr.columnUses Expr.columnUsesList Condition.columnUses Condition.columnUsesList
  Expr.renameColumns Expr.renameColumnsList Condition.renameColumns Condition.renameColumnsList

theorem Expr.columnUsesList_eq (role : ColumnRole) (exprs : List Expr) :
    columnUsesList role exprs = exprs.flatMap (columnUses role) := by
  induction exprs with
  | nil => rfl
  | cons expr more ih => simp [ih]

theorem Condition.columnUsesList_eq (tests : List Condition) :
    columnUsesList tests = tests.flatMap columnUses := by
  induction tests with
  | nil => rfl
  | cons test more ih => simp [ih]

theorem Expr.renameColumnsList_eq (rename : String → String) (exprs : List Expr) :
    renameColumnsList rename exprs = exprs.map (renameColumns rename) := by
  induction exprs with
  | nil => rfl
  | cons expr more ih => simp [ih]

theorem Condition.renameColumnsList_eq (rename : String → String) (tests : List Condition) :
    renameColumnsList rename tests = tests.map (renameColumns rename) := by
  induction tests with
  | nil => rfl
  | cons test more ih => simp [ih]

/-! ## Texts that are woven from columns -/

/-- The names of columns, each written for its role. -/
def writtenUses (rename : String → String) (uses : List ColumnUse) : List String :=
  uses.map fun use ↦ use.1.written (rename use.2)

/-- A text for every choice of names: a failure, or one frame with the written names in its gaps. -/
def Woven (uses : List ColumnUse) (text : (String → String) → Except Error String) : Prop :=
  (∃ cause, ∀ rename, text rename = .error cause) ∨
  ∃ frame : Frame, frame.gaps = uses.length ∧
    ∀ rename, text rename = .ok (frame.weave (writtenUses rename uses))

namespace Woven

variable {uses more : List ColumnUse} {x y : (String → String) → Except Error String}

theorem failed (uses : List ColumnUse) (cause : Error) : Woven uses fun _ ↦ .error cause :=
  .inl ⟨cause, fun _ ↦ rfl⟩

theorem fixed (text : String) : Woven [] fun _ ↦ .ok text :=
  .inr ⟨.last text, rfl, fun _ ↦ rfl⟩

theorem outcome (fixed : Except Error String) : Woven [] fun _ ↦ fixed := by
  cases fixed with
  | error cause => exact failed [] cause
  | ok text => exact Woven.fixed text

theorem column (role : ColumnRole) (text : String) :
    Woven [(role, text)] fun rename ↦ .ok (role.written (rename text)) :=
  .inr ⟨.gap "" (.last ""), rfl, fun _ ↦ by simp [Frame.weave, writtenUses]⟩

theorem congr (woven : Woven uses x) (same : ∀ rename, y rename = x rename) : Woven uses y := by
  rwa [funext same]

/-- One text behind another. -/
theorem append (first : Woven uses x) (second : Woven more y) :
    Woven (uses ++ more) fun rename ↦ do return (← x rename) ++ (← y rename) := by
  obtain ⟨cause, hx⟩ | ⟨frame, hgaps, hx⟩ := first
  · exact (failed _ cause).congr fun rename ↦ by rw [hx]; rfl
  obtain ⟨cause, hy⟩ | ⟨other, hmore, hy⟩ := second
  · exact (failed _ cause).congr fun rename ↦ by rw [hx, hy]; rfl
  refine .inr ⟨frame.append other, by rw [Frame.gaps_append, hgaps, hmore, List.length_append],
    fun rename ↦ ?_⟩
  have hfits : frame.gaps = (writtenUses rename uses).length := by rw [hgaps, writtenUses, List.length_map]
  rw [writtenUses, List.map_append, ← writtenUses, ← writtenUses, Frame.weave_append hfits]
  simp only [hx, hy]
  rfl

theorem behind (text : String) (woven : Woven uses x) :
    Woven uses fun rename ↦ do return text ++ (← x rename) := (fixed text).append woven

theorem before (text : String) (woven : Woven uses x) :
    Woven uses fun rename ↦ do return (← x rename) ++ text := by
  have h := woven.append (fixed text)
  rwa [List.append_nil] at h

/-- Texts with a separator between them. -/
theorem intercalate {α : Type} {usesOf : α → List ColumnUse}
    {text : (String → String) → α → Except Error String} {items : List α}
    (woven : ∀ item ∈ items, Woven (usesOf item) fun rename ↦ text rename item) (separator : String) :
    Woven (items.flatMap usesOf)
      fun rename ↦ do return String.intercalate separator (← items.mapM (text rename)) := by
  induction items with
  | nil => exact fixed ""
  | cons item others ih =>
    obtain ⟨hitem, hothers⟩ := List.forall_mem_cons.mp woven
    cases others with
    | nil =>
      rw [List.flatMap_singleton]
      exact hitem.congr fun rename ↦ by simp
    | cons next others =>
      rw [List.flatMap_cons]
      refine ((hitem.before separator).append (ih hothers)).congr fun rename ↦ ?_
      simp

end Woven

/-! ## The text of an expression -/

/-- The text of an expression in any role is woven from its columns. -/
def Expr.WovenText (expr : Expr) : Prop :=
  ∀ role, Woven (expr.columnUses role) fun rename ↦ (expr.renameColumns rename).partiql role.position

def Condition.WovenText (test : Condition) : Prop :=
  Woven test.columnUses fun rename ↦ (test.renameColumns rename).partiql

theorem Expr.woven_list {exprs : List Expr} (woven : ∀ expr ∈ exprs, expr.WovenText) (role : ColumnRole)
    (separator : String) :
    Woven (columnUsesList role exprs) fun rename ↦ do
      return String.intercalate separator
        (← partiqlList role.position (renameColumnsList rename exprs)) := by
  rw [columnUsesList_eq]
  refine (Woven.intercalate (fun expr hexpr ↦ woven expr hexpr role) separator).congr fun rename ↦ ?_
  rw [partiqlList_eq_mapM, renameColumnsList_eq, List.mapM_map]
  rfl

theorem Condition.woven_list {tests : List Condition} (woven : ∀ test ∈ tests, test.WovenText)
    (separator : String) :
    Woven (columnUsesList tests) fun rename ↦ do
      return String.intercalate separator (← partiqlList (renameColumnsList rename tests)) := by
  rw [columnUsesList_eq]
  refine (Woven.intercalate woven separator).congr fun rename ↦ ?_
  rw [partiqlList_eq_mapM, renameColumnsList_eq, List.mapM_map]
  rfl

-- The text of each clause is put together from the left, so it only has to be bracketed anew.
attribute [local simp] Expr.partiql Condition.partiql ColumnRole.position String.append_assoc

namespace Expr

theorem WovenText.column (text : String) : (column text).WovenText := by
  intro role
  rw [columnUses]
  refine (Woven.column role text).congr ?_
  simp [ColumnRole.written]

theorem WovenText.value (literal : Literal) : (value literal).WovenText := by
  intro role
  rw [columnUses]
  refine (Woven.outcome (literalText literal)).congr ?_
  simp

theorem WovenText.raw (literal : Literal) : (raw literal).WovenText := by
  intro role
  rw [columnUses]
  refine (Woven.fixed literal.plain).congr ?_
  simp

theorem WovenText.condition {test : Condition} (woven : test.WovenText) : (condition test).WovenText := by
  intro role
  rw [columnUses]
  refine Woven.congr woven ?_
  simp

theorem WovenText.subquery (query : Select) : (subquery query).WovenText := by
  intro role
  refine (Woven.failed _ (.unsupported .partiql .subquery)).congr ?_
  simp

theorem WovenText.call {args : List Expr} (name : String) (woven : ∀ arg ∈ args, arg.WovenText) :
    (call name args).WovenText := by
  intro role
  rw [columnUses]
  refine (((woven_list woven .argument ", ").behind (functionName name ++ "(")).before ")").congr ?_
  simp

theorem WovenText.operation {operands : List Expr} (operator : String)
    (woven : ∀ operand ∈ operands, operand.WovenText) : (operation operator operands).WovenText := by
  intro role
  rw [columnUses]
  refine (((woven_list woven .reference (" " ++ operator ++ " ")).behind "(").before ")").congr ?_
  simp

end Expr

namespace Condition

variable {key value low high left right : Expr} {values : List Expr}

theorem WovenText.compare (operator : Comparison) (hkey : key.WovenText) (hvalue : value.WovenText) :
    (compare key value operator).WovenText := by
  rw [WovenText, columnUses]
  refine ((hkey .reference).append ((hvalue .value).behind (" " ++ operator.angleWord ++ " "))).congr ?_
  simp

theorem WovenText.between (hkey : key.WovenText) (hlow : low.WovenText) (hhigh : high.WovenText) :
    (between key low high).WovenText := by
  rw [WovenText, columnUses]
  refine (((hkey .reference).before " BETWEEN ").append
    (((hlow .value).before " AND ").append (hhigh .value))).congr ?_
  simp

theorem WovenText.oneOf (hkey : key.WovenText) (hvalues : ∀ value ∈ values, value.WovenText) :
    (oneOf key values).WovenText := by
  rw [WovenText, columnUses]
  refine (((hkey .reference).before " IN (").append
    ((Expr.woven_list hvalues .value ", ").before ")")).congr ?_
  simp

theorem WovenText.noneOf (hkey : key.WovenText) (hvalues : ∀ value ∈ values, value.WovenText) :
    (noneOf key values).WovenText := by
  rw [WovenText, columnUses]
  refine ((((hkey .reference).behind "NOT (").before " IN (").append
    ((Expr.woven_list hvalues .value ", ").before "))")).congr ?_
  simp

theorem WovenText.null (isNull : Bool) (hkey : key.WovenText) : (null key isNull).WovenText := by
  rw [WovenText, columnUses]
  refine ((hkey .reference).before (" IS " ++ (if isNull then "" else "NOT ") ++ "MISSING")).congr ?_
  simp

theorem WovenText.like (pattern : String) (isLike : Bool) (hkey : key.WovenText) :
    (like key pattern isLike).WovenText := by
  rw [WovenText, columnUses]
  cases htest : LikeTest.ofPattern pattern with
  | contains term =>
    refine (((hkey .reference).behind ((if isLike then "" else "NOT ") ++ "contains(")).before
      (", " ++ quoted term ++ ")")).congr ?_
    simp [likeText, htest]
  | beginsWith term =>
    refine (((hkey .reference).behind ((if isLike then "" else "NOT ") ++ "begins_with(")).before
      (", " ++ quoted term ++ ")")).congr ?_
    simp [likeText, htest]
  | equals term =>
    refine ((hkey .reference).before ((if isLike then " = " else " <> ") ++ quoted term)).congr ?_
    simp [likeText, htest]

theorem WovenText.columns (operator : Comparison) (hleft : left.WovenText) (hright : right.WovenText) :
    (columns left right operator).WovenText := by
  rw [WovenText, columnUses]
  refine ((hleft .reference).append ((hright .reference).behind (" " ++ operator.angleWord ++ " "))).congr
    ?_
  simp

theorem WovenText.logical {members : List Condition} (operator : Connective)
    (woven : ∀ member ∈ members, member.WovenText) : (logical members operator).WovenText := by
  rw [WovenText, columnUses]
  refine (((woven_list woven (" " ++ operator.word ++ " ")).behind "(").before ")").congr ?_
  simp

theorem WovenText.not {inner : Condition} (woven : inner.WovenText) : (not inner).WovenText := by
  rw [WovenText, columnUses]
  refine ((Woven.behind "NOT (" woven).before ")").congr ?_
  simp

end Condition

theorem wovenText_steps :
    QueryInduction Expr.WovenText Condition.WovenText (fun _ ↦ True) (fun _ ↦ True) where
  column := .column
  value := .value
  raw := .raw
  call name _ := .call name
  operation operator _ := .operation operator
  condition _ := .condition
  subquery query _ := .subquery query
  compare _ _ operator := .compare operator
  between _ _ _ := .between
  oneOf _ _ := .oneOf
  noneOf _ _ := .noneOf
  null _ isNull := .null isNull
  like _ pattern isLike := .like pattern isLike
  columns _ _ operator := .columns operator
  logical _ operator := .logical operator
  not _ := .not
  named _ _ := trivial
  nested _ _ _ := trivial
  select _ _ _ _ _ _ _ _ _ := trivial

theorem Expr.wovenText (expr : Expr) : expr.WovenText := wovenText_steps.forExpr expr

/-! ## Renaming nothing -/

theorem Expr.renameColumnsList_id {exprs : List Expr} (same : ∀ expr ∈ exprs, expr.renameColumns id = expr) :
    renameColumnsList id exprs = exprs := by
  rw [renameColumnsList_eq, List.map_congr_left same, List.map_id']

theorem Condition.renameColumnsList_id {tests : List Condition}
    (same : ∀ test ∈ tests, test.renameColumns id = test) : renameColumnsList id tests = tests := by
  rw [renameColumnsList_eq, List.map_congr_left same, List.map_id']

theorem renameColumns_id_steps :
    QueryInduction (fun expr ↦ expr.renameColumns id = expr) (fun test ↦ test.renameColumns id = test)
      (fun _ ↦ True) (fun _ ↦ True) where
  column _ := by simp
  value _ := by simp
  raw _ := by simp
  call _ _ hargs := by simp [Expr.renameColumnsList_id hargs]
  operation _ _ hoperands := by simp [Expr.renameColumnsList_id hoperands]
  condition _ htest := by simp [htest]
  subquery _ _ := by simp
  compare _ _ _ hkey hvalue := by simp [hkey, hvalue]
  between _ _ _ hkey hlow hhigh := by simp [hkey, hlow, hhigh]
  oneOf _ _ hkey hvalues := by simp [hkey, Expr.renameColumnsList_id hvalues]
  noneOf _ _ hkey hvalues := by simp [hkey, Expr.renameColumnsList_id hvalues]
  null _ _ hkey := by simp [hkey]
  like _ _ _ hkey := by simp [hkey]
  columns _ _ _ hleft hright := by simp [hleft, hright]
  logical _ _ hmembers := by simp [Condition.renameColumnsList_id hmembers]
  not _ hinner := by simp [hinner]
  named _ _ := trivial
  nested _ _ _ := trivial
  select _ _ _ _ _ _ _ _ _ := trivial

theorem Expr.renameColumns_id (expr : Expr) : expr.renameColumns id = expr :=
  renameColumns_id_steps.forExpr expr

/-! ## Columns that do not refer -/

theorem length_quoted (text : String) : text.length < (quoted text).length := by
  have hlength := Text.Quoted.length_le_length_double '\'' text.toList
  rw [quoted, Text.Quoted.encode, ← String.length_toList, ← String.length_toList, String.toList_ofList,
    Text.Quoted.chars, List.length_cons, List.length_append]
  omega

theorem ColumnRole.referring_eq_or_length_lt (role : ColumnRole) (name : String) :
    role.written name = role.referring name ∨
      (role.referring name).length < (role.written name).length := by
  cases role with
  | reference => exact .inl rfl
  | argument => exact .inr (length_quoted name)
  | value => exact .inl rfl

theorem ColumnRole.written_eq_referring_iff {role : ColumnRole} {name : String} :
    role.written name = role.referring name ↔ role ≠ .argument := by
  cases role with
  | reference => exact iff_of_true rfl (by decide)
  | argument =>
    refine iff_of_false (fun h ↦ ?_) (by simp)
    exact absurd (congrArg String.length h) (Nat.ne_of_gt (length_quoted name))
  | value => exact iff_of_true rfl (by decide)

/-- An expression in the place of an identifier has a text in which every column is written for its
role, and which is otherwise the same whatever the columns are called; or it has none, with the same
failure for all names. The text refers to every column just when none of them is an argument of a
function. -/
theorem Expr.partiql_columns (expr : Expr) :
    (∃ cause, ∀ rename, (expr.renameColumns rename).partiql .identifier = .error cause) ∨
    ∃ frame : Frame, frame.gaps = (expr.columnUses .reference).length ∧
      (∀ rename, (expr.renameColumns rename).partiql .identifier =
        .ok (frame.weave ((expr.columnUses .reference).map fun use ↦ use.1.written (rename use.2)))) ∧
      (expr.partiql .identifier =
          .ok (frame.weave ((expr.columnUses .reference).map fun use ↦ use.1.referring use.2)) ↔
        ∀ use ∈ expr.columnUses .reference, use.1 ≠ .argument) := by
  obtain hfailed | ⟨frame, hgaps, htext⟩ := expr.wovenText .reference
  · exact .inl hfailed
  · refine .inr ⟨frame, hgaps, htext, ?_⟩
    have hwritten : (expr.renameColumns id).partiql .identifier =
        .ok (frame.weave (writtenUses id (expr.columnUses .reference))) := htext id
    rw [expr.renameColumns_id] at hwritten
    rw [hwritten, Except.ok.injEq, writtenUses, Frame.weave_map_eq_iff hgaps]
    · exact forall₂_congr fun use _ ↦ ColumnRole.written_eq_referring_iff
    · exact fun use _ ↦ use.1.referring_eq_or_length_lt use.2

/-- The argument of a count is counted as a string, and the operand of a sum is a column. -/
example : (Expr.call "COUNT" [.column "a"]).partiql .identifier = .ok "COUNT('a')" ∧
    (Expr.operation "+" [.column "a", .value (.int 1)]).partiql .identifier = .ok "(a + 1)" := ⟨rfl, rfl⟩

end PortableQuery
