import PortableQuery.Proofs.Sql.Rewriting
import PortableQuery.Proofs.Wire.Octets

/-!
# SQL behind the wire

A statement is rendered alike before and after it was written and read, in every dialect and zone and
however often, even if it holds bytes and comes back as another statement: what is read is the
statement with its bytes listed, and no place in which a literal is rendered tells bytes from such a
list.
-/

namespace PortableQuery

open Text Wire Sql

/-- Rendering sees no difference between bytes and the list of their numbers. -/
theorem Rewriting.explains_listed (flavor : Flavor) : Rewriting.listed.Explains (.plain flavor) where
  select _ := rfl
  value := Literal.value_listed flavor
  plain := Literal.plain_listed
  named _ _ := rfl

theorem argumentText_listed (expr : Expr) : argumentText (expr.rewrite .listed) = argumentText expr := by
  rw [argumentText, argumentText, Expr.literalText?_rewrite Literal.plain_listed, Expr.encode_listed]

namespace Statement

/-- Arguments of calls that move a date are quoted alike. -/
theorem everywhere_quotable_listed (statement : Statement) :
    statement.Everywhere (Node.Quotable Eq .listed) := by
  rintro node - date interval unit rfl
  rw [argumentText_listed, argumentText_listed]
  exact ⟨rfl, rfl⟩

theorem sql_listed (flavor : Flavor) (statement : Statement) :
    (statement.rewrite .listed).sql flavor = statement.sql flavor := by
  have hsame := Statement.sameUpTo_sqlWith (fun _ ↦ rfl) (Rewriting.explains_listed flavor)
    statement.everywhere_quotable_listed
  obtain heq | ⟨cause, _, hcause, hcause', rfl⟩ := hsame.eq_or_error
  · exact heq.symm
  · exact hcause'.trans hcause.symm

/-- What is read from the text of a statement, and what is read from its text in turn, is rendered in
every flavor, whatever its dialect and its zone, like the statement itself. -/
theorem sql_decode_encode {statement : Statement} (h : statement.Transportable)
    (hfloats : ∀ x ∈ statement.floats, Json.parse (Json.compact (.float x)) = some (.float x)) :
    ∃ first second, Statement.decode statement.encode = .ok first ∧
      Statement.decode first.encode = .ok second ∧
      ∀ flavor, first.sql flavor = statement.sql flavor ∧
        second.sql flavor = statement.sql flavor := by
  have hread := h.decode_encode hfloats
  refine ⟨statement.rewrite .listed, statement.rewrite .listed, hread, ?_, ?_⟩
  · rw [encode_listed, hread]
  · intro flavor
    exact ⟨statement.sql_listed flavor, statement.sql_listed flavor⟩

/-! ## Bytes in many places -/

/-- Bytes are assigned within a list, given as an interval, compared with a column and put in raw. -/
def stamping : Statement :=
  let chunk := Literal.list [.bytes [0, 255], .float (.finite Json.half)]
  .update
    { table := .named "files" none,
      assignments := [("head", .value chunk),
        ("due", .call "DATEADD" [.column "due", .value (.bytes [7]), .value (.string "day")])],
      filter := [.compare (.column "mark") (.value (.bytes [])) .eq,
        .compare (.column "size") (.raw (.bytes [1, 2])) .gt] }

def stampingNodes : List Node :=
  let chunk := Literal.list [.bytes [0, 255], .float (.finite Json.half)]
  [.expr (.value chunk),
    .expr (.call "DATEADD" [.column "due", .value (.bytes [7]), .value (.string "day")]),
    .expr (.column "due"), .expr (.value (.bytes [7])), .expr (.value (.string "day")),
    .condition (.compare (.column "mark") (.value (.bytes [])) .eq),
    .expr (.column "mark"), .expr (.value (.bytes [])),
    .condition (.compare (.column "size") (.raw (.bytes [1, 2])) .gt),
    .expr (.column "size"), .expr (.raw (.bytes [1, 2]))]

theorem nodes_stamping : stamping.nodes = stampingNodes := rfl

theorem transportable_stamping : stamping.Transportable := by
  constructor
  case columns =>
    have hplain : Plain "due" ∧ Plain "mark" ∧ Plain "size" := by decide
    simpa [nodes_stamping, stampingNodes, Expr.decode_eq_column_iff] using hplain
  case values => simp [nodes_stamping, stampingNodes, Condition.valueSlots, Expr.FitsValueSlot]
  case literals =>
    have hliterals : stamping.literals = [.list [.bytes [0, 255], .float (.finite Json.half)],
        .bytes [7], .string "day", .bytes [], .bytes [1, 2]] := rfl
    rw [hliterals]
    simp [Literal.Writable, Literal.parts, Literal.partsItems, Literal.Proper]
  case selects => simp [nodes_stamping, stampingNodes, Literal.IsSelectLike]
  case names => simp [stamping, Statement.assignments, rows, Entries.keys]
  case nesting =>
    have hdepths : stamping.texts.map Json.depth = [3, 2, 1, 1, 0, 1, 1] := by decide
    rw [← List.forall_mem_map (f := Json.depth) (P := (· ≤ Json.depthLimit)), hdepths]
    decide

theorem sql_decode_encode_stamping :
    stamping.Transportable ∧ ∃ first second, Statement.decode stamping.encode = .ok first ∧
      Statement.decode first.encode = .ok second ∧
      ∀ flavor, first.sql flavor = stamping.sql flavor ∧ second.sql flavor = stamping.sql flavor := by
  refine ⟨transportable_stamping, sql_decode_encode transportable_stamping ?_⟩
  have hfloats : stamping.floats = [Json.half] := rfl
  rw [hfloats, List.forall_mem_singleton]
  exact Json.floatReadsBack_half

end Statement

end PortableQuery
