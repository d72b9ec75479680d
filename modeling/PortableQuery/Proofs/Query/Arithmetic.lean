import PortableQuery.Proofs.Query.Induction
import PortableQuery.Proofs.Query.Occurrence
import PortableQuery.Sql.Escape

/-!
# Arithmetic conditions

Conditions made of plain columns, integers, the four operations, comparisons, connectives and NOT,
and whether they hold for given integers in the columns. A comparison that stands as an operand
counts as one or zero.

A comparison whose operand is a comparison again forms a chain with it. An interpretation sees of a
chain only what stands in it from left to right. Where all chains are grouped towards one side, the
interpretation that settles chains from that side gives the value of the condition.
-/

namespace PortableQuery

/-! ## What a condition says of integers -/

namespace Comparison

def relates : Comparison → Int → Int → Bool
  | .eq, x, y => x = y
  | .ne, x, y => x ≠ y
  | .gt, x, y => x > y
  | .lt, x, y => x < y
  | .ge, x, y => x ≥ y
  | .le, x, y => x ≤ y

/-- The outcome of a comparison as an operand. -/
def outcome (operator : Comparison) (x y : Int) : Int := (operator.relates x y).toInt

end Comparison

def Connective.unites : Connective → List Bool → Bool
  | .and, members => members.all id
  | .or, members => members.any id

/-- The integers in the columns, and division. -/
structure Valuation where
  column : String → Int
  divide : Int → Int → Int

namespace Valuation

def operate (valuation : Valuation) (operator : String) (x y : Int) : Int :=
  if operator = "+" then x + y
  else if operator = "-" then x - y
  else if operator = "*" then x * y
  else valuation.divide x y

/-- Operations are carried out from the left; an operation on nothing gives zero. -/
def total (valuation : Valuation) (operator : String) : List Int → Int
  | [] => 0
  | first :: more => more.foldl (valuation.operate operator) first

end Valuation

mutual

def Expr.valueOn (valuation : Valuation) : Expr → Int
  | .column name => valuation.column name
  | .value (.int number) => number.toInt
  | .operation operator operands => valuation.total operator (Expr.valuesOn valuation operands)
  | .condition test => (test.holdsOn valuation).toInt
  | _ => 0

def Expr.valuesOn (valuation : Valuation) : List Expr → List Int
  | [] => []
  | expr :: more => expr.valueOn valuation :: Expr.valuesOn valuation more

def Condition.holdsOn (valuation : Valuation) : Condition → Bool
  | .compare key value operator => operator.relates (key.valueOn valuation) (value.valueOn valuation)
  | .columns left right operator =>
    operator.relates (left.valueOn valuation) (right.valueOn valuation)
  | .logical members operator => operator.unites (Condition.membersOn valuation members)
  | .not inner => !inner.holdsOn valuation
  | _ => false

def Condition.membersOn (valuation : Valuation) : List Condition → List Bool
  | [] => []
  | test :: more => test.holdsOn valuation :: Condition.membersOn valuation more

end

theorem Expr.valuesOn_eq_map (valuation : Valuation) (exprs : List Expr) :
    valuesOn valuation exprs = exprs.map (valueOn valuation) := by
  induction exprs with
  | nil => rfl
  | cons expr more ih => rw [valuesOn, ih, List.map_cons]

theorem Condition.membersOn_eq_map (valuation : Valuation) (tests : List Condition) :
    membersOn valuation tests = tests.map (holdsOn valuation) := by
  induction tests with
  | nil => rfl
  | cons test more ih => rw [membersOn, ih, List.map_cons]

/-! ## Arithmetic conditions and their chains -/

namespace Node

/-- Plain columns, integers, the four operations, comparisons, connectives with members, and NOT. -/
def IsArithmetic : Node → Prop
  | .expr (.column name) => Sql.isPlainIdentifier name = true
  | .expr (.value (.int _)) => True
  | .expr (.operation operator _) => operator ∈ ["+", "-", "*", "/"]
  | .expr (.condition _) => True
  | .condition (.compare ..) => True
  | .condition (.columns ..) => True
  | .condition (.logical members _) => members ≠ []
  | .condition (.not _) => True
  | _ => False

end Node

/-- One step of an induction over arithmetic expressions and conditions for each of their forms. -/
structure ArithmeticInduction (P : Expr → Prop) (Q : Condition → Prop) : Prop where
  column : ∀ name, Sql.isPlainIdentifier name = true → P (.column name)
  integer : ∀ number, P (.value (.int number))
  operation : ∀ operator ∈ ["+", "-", "*", "/"], ∀ operands, (∀ operand ∈ operands, P operand) →
    P (.operation operator operands)
  condition : ∀ test, Q test → P (.condition test)
  compare : ∀ key value operator, P key → P value → Q (.compare key value operator)
  columns : ∀ left right operator, P left → P right → Q (.columns left right operator)
  logical : ∀ members operator, members ≠ [] → (∀ member ∈ members, Q member) →
    Q (.logical members operator)
  not : ∀ inner, Q inner → Q (.not inner)

theorem ArithmeticInduction.steps {P : Expr → Prop} {Q : Condition → Prop}
    (forms : ArithmeticInduction P Q) :
    QueryInduction (fun expr ↦ expr.Everywhere Node.IsArithmetic → P expr)
      (fun test ↦ test.Everywhere Node.IsArithmetic → Q test) (fun _ ↦ True) (fun _ ↦ True) where
  column name h := forms.column name (Expr.everywhere_column.mp h)
  value literal h := by
    have hliteral : Node.IsArithmetic (.expr (.value literal)) := Expr.everywhere_value.mp h
    cases literal with
    | int number => exact forms.integer number
    | _ => exact hliteral.elim
  raw literal h := (Expr.everywhere_raw.mp h).elim
  call name args _ h := (Expr.everywhere_call.mp h).1.elim
  operation operator operands ih h := by
    obtain ⟨hoperator, hoperands⟩ := Expr.everywhere_operation.mp h
    exact forms.operation operator hoperator operands
      fun operand hmem ↦ ih operand hmem (hoperands operand hmem)
  condition test ih h := forms.condition test (ih (Expr.everywhere_condition.mp h).2)
  subquery query _ h := (Expr.everywhere_subquery.mp h).1.elim
  compare key value operator ihKey ihValue h := by
    obtain ⟨-, hkey, hvalue⟩ := Condition.everywhere_compare.mp h
    exact forms.compare key value operator (ihKey hkey) (ihValue hvalue)
  between key low high _ _ _ h := (Condition.everywhere_between.mp h).1.elim
  oneOf key values _ _ h := (Condition.everywhere_oneOf.mp h).1.elim
  noneOf key values _ _ h := (Condition.everywhere_noneOf.mp h).1.elim
  null key isNull _ h := (Condition.everywhere_null.mp h).1.elim
  like key pattern isLike _ h := (Condition.everywhere_like.mp h).1.elim
  columns left right operator ihLeft ihRight h := by
    obtain ⟨-, hleft, hright⟩ := Condition.everywhere_columns.mp h
    exact forms.columns left right operator (ihLeft hleft) (ihRight hright)
  logical members operator ih h := by
    obtain ⟨hnonempty, hmembers⟩ := Condition.everywhere_logical.mp h
    exact forms.logical members operator hnonempty
      fun member hmem ↦ ih member hmem (hmembers member hmem)
  not inner ih h := forms.not inner (ih (Condition.everywhere_not.mp h).2)
  named _ _ := trivial
  nested _ _ _ := trivial
  select _ _ _ _ _ _ _ _ _ := trivial

def Expr.isComparison : Expr → Bool
  | .condition (.compare ..) => true
  | .condition (.columns ..) => true
  | _ => false

inductive Side
  | left
  | right

/-- Whether a comparison of two operands has no comparison on the other side than the given one. -/
def Side.Admits : Side → Expr → Expr → Prop
  | .left, _, behind => behind.isComparison = false
  | .right, front, _ => front.isComparison = false

/-- Chains that go through the comparison are grouped towards the given side. -/
def Node.Groups (side : Side) : Node → Prop
  | .condition (.compare key value _) => side.Admits key value
  | .condition (.columns left right _) => side.Admits left right
  | _ => True

/-- Compared operands, each with the comparison behind it, and the last operand. -/
structure Chain (α : Type) where
  links : List (α × Comparison)
  last : α

namespace Chain

variable {α : Type}

def single (operand : α) : Chain α := { links := [], last := operand }

def link (front : Chain α) (operator : Comparison) (back : Chain α) : Chain α :=
  { links := front.links ++ (front.last, operator) :: back.links, last := back.last }

end Chain

/-! ## Interpretations -/

/-- A way to make something of a condition that sees chains without their grouping. -/
structure Interpretation (α : Type) where
  column : String → α
  integer : Int → α
  nothing : α
  /-- Two operands of a group with the word between them. -/
  join : String → α → α → α
  negate : α → α
  settle : Chain α → α
  settle_single : ∀ operand, settle (.single operand) = operand

namespace Interpretation

variable {α : Type}

def group (interpretation : Interpretation α) (word : String) : List α → α
  | [] => interpretation.nothing
  | first :: more => more.foldl (interpretation.join word) first

end Interpretation

mutual

def Expr.chain {α : Type} (interpretation : Interpretation α) : Expr → Chain α
  | .column name => .single (interpretation.column name)
  | .value (.int number) => .single (interpretation.integer number.toInt)
  | .operation operator operands =>
    .single (interpretation.group operator (Expr.settled interpretation operands))
  | .condition test => test.chain interpretation
  | _ => .single interpretation.nothing

def Expr.settled {α : Type} (interpretation : Interpretation α) : List Expr → List α
  | [] => []
  | expr :: more =>
    interpretation.settle (expr.chain interpretation) :: Expr.settled interpretation more

def Condition.chain {α : Type} (interpretation : Interpretation α) : Condition → Chain α
  | .compare key value operator =>
    (key.chain interpretation).link operator (value.chain interpretation)
  | .columns left right operator =>
    (left.chain interpretation).link operator (right.chain interpretation)
  | .logical members operator =>
    .single (interpretation.group operator.word (Condition.settled interpretation members))
  | .not inner =>
    .single (interpretation.negate (interpretation.settle (inner.chain interpretation)))
  | _ => .single interpretation.nothing

def Condition.settled {α : Type} (interpretation : Interpretation α) : List Condition → List α
  | [] => []
  | test :: more =>
    interpretation.settle (test.chain interpretation) :: Condition.settled interpretation more

end

theorem Expr.settled_eq_map {α : Type} (interpretation : Interpretation α) (exprs : List Expr) :
    settled interpretation exprs =
      exprs.map fun expr ↦ interpretation.settle (expr.chain interpretation) := by
  induction exprs with
  | nil => rfl
  | cons expr more ih => rw [settled, ih, List.map_cons]

theorem Condition.settled_eq_map {α : Type} (interpretation : Interpretation α)
    (tests : List Condition) :
    settled interpretation tests =
      tests.map fun test ↦ interpretation.settle (test.chain interpretation) := by
  induction tests with
  | nil => rfl
  | cons test more ih => rw [settled, ih, List.map_cons]

/-- Only comparisons have links. -/
theorem Expr.links_chain_eq_nil_iff {α : Type} (interpretation : Interpretation α) (expr : Expr) :
    (expr.chain interpretation).links = [] ↔ expr.isComparison = false := by
  match expr with
  | .column _ | .raw _ | .call _ _ | .operation _ _ | .subquery _ => exact iff_of_true rfl rfl
  | .value literal => cases literal <;> exact iff_of_true rfl rfl
  | .condition test =>
    cases test with
    | compare key value operator =>
      simp [Expr.chain, Condition.chain, Chain.link, Expr.isComparison]
    | columns left right operator =>
      simp [Expr.chain, Condition.chain, Chain.link, Expr.isComparison]
    | _ => exact iff_of_true rfl rfl

theorem Expr.chain_of_not_comparison {α : Type} (interpretation : Interpretation α) {expr : Expr}
    (h : expr.isComparison = false) :
    expr.chain interpretation = .single (interpretation.settle (expr.chain interpretation)) := by
  have hlinks := (expr.links_chain_eq_nil_iff interpretation).mpr h
  cases hchain : expr.chain interpretation with
  | mk links last =>
    obtain rfl : links = [] := by rwa [hchain] at hlinks
    exact congrArg Chain.single (interpretation.settle_single last).symm

/-! ## Settling chains from one side -/

namespace Side

def settle : Side → Chain Int → Int
  | .left, chain =>
    chain.links.foldl (fun before link operand ↦ link.2.outcome (before link.1) operand) id chain.last
  | .right, chain => chain.links.foldr (fun link behind ↦ link.2.outcome link.1 behind) chain.last

theorem settle_single (side : Side) (operand : Int) : side.settle (.single operand) = operand := by
  cases side <;> rfl

/-- A chain that another one is linked to on the side where that one may not be a chain itself. -/
theorem settle_link_left (front : Chain Int) (operator : Comparison) (operand : Int) :
    settle .left (front.link operator (.single operand)) =
      operator.outcome (settle .left front) operand := by
  simp [settle, Chain.link, Chain.single, List.foldl_append]

theorem settle_link_right (operand : Int) (operator : Comparison) (back : Chain Int) :
    settle .right ((Chain.single operand).link operator back) =
      operator.outcome operand (settle .right back) := by
  simp [settle, Chain.link, Chain.single]

end Side

namespace Valuation

/-- What the word between two operands makes of them. -/
def join (valuation : Valuation) (word : String) (x y : Int) : Int :=
  if word = "AND" then (x != 0 && y != 0).toInt
  else if word = "OR" then (x != 0 || y != 0).toInt
  else valuation.operate word x y

def interpretation (valuation : Valuation) (side : Side) : Interpretation Int where
  column := valuation.column
  integer := id
  nothing := 0
  join := valuation.join
  negate x := (x == 0).toInt
  settle := side.settle
  settle_single := side.settle_single

variable (valuation : Valuation) (side : Side)

theorem group_operation {operator : String} (h : operator ∈ ["+", "-", "*", "/"])
    (operands : List Int) :
    (valuation.interpretation side).group operator operands = valuation.total operator operands := by
  have hjoin : valuation.join operator = valuation.operate operator := by
    have hwords : operator ≠ "AND" ∧ operator ≠ "OR" := by
      constructor <;> rintro rfl <;> simp at h
    funext x y
    rw [join, if_neg hwords.1, if_neg hwords.2]
  cases operands with
  | nil => rfl
  | cons first more =>
    change more.foldl (valuation.join operator) first = more.foldl (valuation.operate operator) first
    rw [hjoin]

theorem toInt_ne_zero (b : Bool) : (b.toInt != 0) = b := by
  cases b <;> rfl

theorem foldl_join (operator : Connective) (first : Bool) (members : List Bool) :
    (members.map Bool.toInt).foldl (valuation.join operator.word) first.toInt =
      (operator.unites (first :: members)).toInt := by
  induction members generalizing first with
  | nil => cases operator <;> simp [Connective.unites]
  | cons member more ih =>
    have hjoin : valuation.join operator.word first.toInt member.toInt =
        (operator.unites [first, member]).toInt := by
      cases operator <;> simp [join, Connective.word, Connective.unites, toInt_ne_zero]
    have hunites : operator.unites (operator.unites [first, member] :: more) =
        operator.unites (first :: member :: more) := by
      cases operator <;> simp [Connective.unites, Bool.and_assoc, Bool.or_assoc]
    rw [List.map_cons, List.foldl_cons, hjoin, ih, hunites]

theorem group_logical (operator : Connective) {members : List Bool} (nonempty : members ≠ []) :
    (valuation.interpretation side).group operator.word (members.map Bool.toInt) =
      (operator.unites members).toInt := by
  obtain ⟨first, more, rfl⟩ := List.exists_cons_of_ne_nil nonempty
  exact valuation.foldl_join operator first more

end Valuation

section Settling

variable (valuation : Valuation) (side : Side)

/-- A chain grouped towards a side is settled from that side. -/
theorem Side.settle_link {front back : Expr} (operator : Comparison)
    (admits : side.Admits front back) :
    side.settle ((front.chain (valuation.interpretation side)).link operator
        (back.chain (valuation.interpretation side))) =
      operator.outcome (side.settle (front.chain (valuation.interpretation side)))
        (side.settle (back.chain (valuation.interpretation side))) := by
  cases side with
  | left =>
    have hback : back.isComparison = false := admits
    rw [Expr.chain_of_not_comparison (valuation.interpretation .left) hback]
    exact settle_link_left _ operator _
  | right =>
    have hfront : front.isComparison = false := admits
    rw [Expr.chain_of_not_comparison (valuation.interpretation .right) hfront]
    exact settle_link_right _ operator _

def Expr.Settles (expr : Expr) : Prop :=
  expr.Everywhere (Node.Groups side) →
    side.settle (expr.chain (valuation.interpretation side)) = expr.valueOn valuation

def Condition.Settles (test : Condition) : Prop :=
  test.Everywhere (Node.Groups side) →
    side.settle (test.chain (valuation.interpretation side)) = (test.holdsOn valuation).toInt

/-- Both kinds of comparison. -/
theorem settles_link {front back : Expr} (operator : Comparison)
    (hfront : front.Settles valuation side) (hback : back.Settles valuation side)
    (groups : side.Admits front back ∧ front.Everywhere (Node.Groups side) ∧
      back.Everywhere (Node.Groups side)) :
    side.settle ((front.chain (valuation.interpretation side)).link operator
        (back.chain (valuation.interpretation side))) =
      (operator.relates (front.valueOn valuation) (back.valueOn valuation)).toInt := by
  obtain ⟨admits, groupsFront, groupsBack⟩ := groups
  rw [Side.settle_link valuation side operator admits, hfront groupsFront, hback groupsBack,
    Comparison.outcome]

theorem settles (valuation : Valuation) (side : Side) :
    ArithmeticInduction (Expr.Settles valuation side) (Condition.Settles valuation side) where
  column name _ _ := side.settle_single _
  integer number _ := side.settle_single _
  operation operator hoperator operands ih groups := by
    have hoperands : operands.map (fun operand ↦
          side.settle (operand.chain (valuation.interpretation side))) =
        operands.map (Expr.valueOn valuation) :=
      List.map_congr_left fun operand hmem ↦
        ih operand hmem ((Expr.everywhere_operation.mp groups).2 operand hmem)
    rw [Expr.chain, side.settle_single, valuation.group_operation side hoperator,
      Expr.settled_eq_map, Expr.valueOn, Expr.valuesOn_eq_map]
    exact congrArg (valuation.total operator) hoperands
  condition test ih groups := ih (Expr.everywhere_condition.mp groups).2
  compare key value operator ihKey ihValue groups :=
    settles_link valuation side operator ihKey ihValue (Condition.everywhere_compare.mp groups)
  columns left right operator ihLeft ihRight groups :=
    settles_link valuation side operator ihLeft ihRight (Condition.everywhere_columns.mp groups)
  logical members operator hnonempty ih groups := by
    have hmembers : members.map (fun member ↦
          side.settle (member.chain (valuation.interpretation side))) =
        (members.map (Condition.holdsOn valuation)).map Bool.toInt := by
      rw [List.map_map]
      exact List.map_congr_left fun member hmem ↦
        ih member hmem ((Condition.everywhere_logical.mp groups).2 member hmem)
    rw [Condition.chain, side.settle_single, Condition.settled_eq_map, Condition.holdsOn,
      Condition.membersOn_eq_map]
    exact (congrArg _ hmembers).trans
      (valuation.group_logical side operator (by simpa using hnonempty))
  not inner ih groups := by
    have hinner := ih (Condition.everywhere_not.mp groups).2
    rw [Condition.chain, side.settle_single, Condition.holdsOn]
    change ((side.settle (inner.chain (valuation.interpretation side)) == 0) : Bool).toInt = _
    rw [hinner]
    cases inner.holdsOn valuation <;> rfl

end Settling

/-- Where all chains are grouped towards one side, settling them from there gives whether the
condition holds. -/
theorem Condition.settle_chain (valuation : Valuation) (side : Side) {test : Condition}
    (arithmetic : test.Everywhere Node.IsArithmetic) (groups : test.Everywhere (Node.Groups side)) :
    side.settle (test.chain (valuation.interpretation side)) = (test.holdsOn valuation).toInt :=
  (settles valuation side).steps.forCondition test arithmetic groups

/-! ## Conditions without chains -/

/-- No comparison in it has a comparison as its operand. -/
def Node.IsUnchained (node : Node) : Prop := ∀ side, node.Groups side

theorem Node.isUnchained_expr (expr : Expr) : (Node.expr expr).IsUnchained := fun _ ↦ trivial

theorem Condition.groups_of_unchained {test : Condition} (h : test.Everywhere Node.IsUnchained)
    (side : Side) : test.Everywhere (Node.Groups side) :=
  fun node hnode ↦ h node hnode side

namespace Interpretation

/-- Finds out whether a condition is without chains. -/
def unchained : Interpretation Bool where
  column _ := true
  integer _ := true
  nothing := true
  join _ := and
  negate := id
  settle
    | ⟨[], last⟩ => last
    | ⟨[(first, _)], last⟩ => first && last
    | ⟨_ :: _ :: _, _⟩ => false
  settle_single _ := rfl

theorem group_unchained (word : String) (operands : List Bool) :
    unchained.group word operands = true ↔ ∀ operand ∈ operands, operand = true := by
  have hfold (first : Bool) (more : List Bool) :
      more.foldl (fun x y ↦ x && y) first = true ↔ first = true ∧ ∀ operand ∈ more, operand = true := by
    induction more generalizing first with
    | nil => simp
    | cons operand more ih => rw [List.foldl_cons, ih, Bool.and_eq_true, and_assoc, List.forall_mem_cons]
  cases operands with
  | nil => exact iff_of_true rfl (by simp)
  | cons first more => rw [List.forall_mem_cons, ← hfold first more]; rfl

theorem settle_unchained_link (front back : Chain Bool) (operator : Comparison) :
    unchained.settle (front.link operator back) = true ↔
      (front.links = [] ∧ back.links = []) ∧
        unchained.settle front = true ∧ unchained.settle back = true := by
  match front, back with
  | ⟨[], first⟩, ⟨[], last⟩ => simp [unchained, Chain.link]
  | ⟨[], first⟩, ⟨_ :: _, last⟩ => exact iff_of_false nofun fun h ↦ List.cons_ne_nil _ _ h.1.2
  | ⟨[_], first⟩, _ => exact iff_of_false nofun fun h ↦ List.cons_ne_nil _ _ h.1.1
  | ⟨_ :: _ :: _, first⟩, _ => exact iff_of_false nofun fun h ↦ List.cons_ne_nil _ _ h.1.1

end Interpretation

section Unchained

open Interpretation

theorem isUnchained_link {front back : Expr} (operator : Comparison)
    (hfront : unchained.settle (front.chain unchained) = true ↔ front.Everywhere Node.IsUnchained)
    (hback : unchained.settle (back.chain unchained) = true ↔ back.Everywhere Node.IsUnchained) :
    unchained.settle ((front.chain unchained).link operator (back.chain unchained)) = true ↔
      (∀ side : Side, side.Admits front back) ∧
        front.Everywhere Node.IsUnchained ∧ back.Everywhere Node.IsUnchained := by
  have hadmits : (∀ side : Side, side.Admits front back) ↔
      front.isComparison = false ∧ back.isComparison = false := by
    refine ⟨fun h ↦ ⟨h .right, h .left⟩, fun h side ↦ ?_⟩
    cases side with
    | left => exact h.2
    | right => exact h.1
  rw [settle_unchained_link, Expr.links_chain_eq_nil_iff, Expr.links_chain_eq_nil_iff, hadmits, hfront,
    hback]

theorem unchained_steps :
    ArithmeticInduction
      (fun expr ↦ unchained.settle (expr.chain unchained) = true ↔ expr.Everywhere Node.IsUnchained)
      (fun test ↦ unchained.settle (test.chain unchained) = true ↔ test.Everywhere Node.IsUnchained) where
  column name _ := iff_of_true rfl (Expr.everywhere_column.mpr (Node.isUnchained_expr _))
  integer number := iff_of_true rfl (Expr.everywhere_value.mpr (Node.isUnchained_expr _))
  operation operator _ operands ih := by
    rw [Expr.everywhere_operation, and_iff_right (Node.isUnchained_expr _), Expr.chain, settle_single,
      group_unchained, Expr.settled_eq_map, List.forall_mem_map]
    exact forall₂_congr ih
  condition test ih := by
    rw [Expr.everywhere_condition, and_iff_right (Node.isUnchained_expr _), Expr.chain, ih]
  compare key value operator ihKey ihValue := by
    rw [Condition.everywhere_compare]
    exact isUnchained_link operator ihKey ihValue
  columns left right operator ihLeft ihRight := by
    rw [Condition.everywhere_columns]
    exact isUnchained_link operator ihLeft ihRight
  logical members operator _ ih := by
    have hnode : Node.IsUnchained (.condition (.logical members operator)) := fun _ ↦ trivial
    rw [Condition.everywhere_logical, and_iff_right hnode, Condition.chain, settle_single, group_unchained,
      Condition.settled_eq_map, List.forall_mem_map]
    exact forall₂_congr ih
  not inner ih := by
    have hnode : Node.IsUnchained (.condition (.not inner)) := fun _ ↦ trivial
    rw [Condition.everywhere_not, and_iff_right hnode, Condition.chain, settle_single, ← ih]
    rfl

end Unchained

theorem Condition.settle_unchained_iff {test : Condition}
    (arithmetic : test.Everywhere Node.IsArithmetic) :
    Interpretation.unchained.settle (test.chain .unchained) = true ↔
      test.Everywhere Node.IsUnchained :=
  unchained_steps.steps.forCondition test arithmetic

end PortableQuery
