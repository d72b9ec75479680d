import Mathlib.Data.List.Forall2
import Mathlib.Tactic.SplitIfs
import PortableQuery.Proofs.Outcome
import PortableQuery.Sql.Render

/-!
# Frames around literals

A frame is a text with gaps. Weaving puts a given text into every gap, and filling does so with
escaped string literals. Two texts are framed alike when one frame gives both of them, each from
literals of its own. All ways in which rendered parts are put together keep this: a frame is
extended, never looked into.
-/

namespace PortableQuery.Sql

/-- Fragments of text with a gap between any two of them. -/
inductive Frame
  | last (fragment : String)
  | gap (fragment : String) (rest : Frame)
  deriving DecidableEq

namespace Frame

def gaps : Frame → Nat
  | .last _ => 0
  | .gap _ rest => rest.gaps + 1

/-- The first fragment, the first literal escaped, the second fragment, and so on. -/
def fill (dialect : Dialect) : Frame → List String → String
  | .gap fragment rest, literal :: more => fragment ++ dialect.string literal ++ rest.fill dialect more
  | .gap fragment _, [] => fragment
  | .last fragment, _ => fragment

/-- The first fragment, the first text, the second fragment, and so on. -/
def weave : Frame → List String → String
  | .gap fragment rest, text :: more => fragment ++ text ++ rest.weave more
  | .gap fragment _, [] => fragment
  | .last fragment, _ => fragment

/-- Text in front of a frame becomes part of its first fragment. -/
def behind (text : String) : Frame → Frame
  | .last fragment => .last (text ++ fragment)
  | .gap fragment rest => .gap (text ++ fragment) rest

def append : Frame → Frame → Frame
  | .last fragment, other => other.behind fragment
  | .gap fragment rest, other => .gap fragment (rest.append other)

@[simp] theorem gaps_behind (text : String) (frame : Frame) :
    (frame.behind text).gaps = frame.gaps := by
  cases frame <;> rfl

@[simp] theorem weave_behind (text : String) (frame : Frame) (texts : List String) :
    (frame.behind text).weave texts = text ++ frame.weave texts := by
  cases frame <;> cases texts <;> simp [behind, weave, String.append_assoc]

@[simp] theorem gaps_append (frame other : Frame) :
    (frame.append other).gaps = frame.gaps + other.gaps := by
  induction frame with
  | last fragment => simp [append, gaps]
  | gap fragment rest ih =>
    simp only [append, gaps, ih]
    omega

theorem weave_append {frame other : Frame} {texts more : List String}
    (fits : frame.gaps = texts.length) :
    (frame.append other).weave (texts ++ more) = frame.weave texts ++ other.weave more := by
  induction frame generalizing texts with
  | last fragment =>
    have hnone : texts = [] := List.eq_nil_of_length_eq_zero fits.symm
    simp [append, weave, hnone]
  | gap fragment rest ih =>
    cases texts with
    | nil => simp [gaps] at fits
    | cons text texts =>
      have hrest : rest.gaps = texts.length := by simpa [gaps] using fits
      simp [append, weave, ih hrest, String.append_assoc]

section Fillings

variable {α : Type} {f g : α → String}

/-- Longer texts in the gaps make a longer text. -/
theorem length_weave_map_le {frame : Frame} {items : List α} (fits : frame.gaps = items.length)
    (longer : ∀ item ∈ items, (g item).length ≤ (f item).length) :
    (frame.weave (items.map g)).length ≤ (frame.weave (items.map f)).length := by
  induction frame generalizing items with
  | last fragment =>
    have hnone : items = [] := List.eq_nil_of_length_eq_zero fits.symm
    simp [hnone]
  | gap fragment rest ih =>
    cases items with
    | nil => simp [gaps] at fits
    | cons item more =>
      obtain ⟨hitem, hmore⟩ := List.forall_mem_cons.mp longer
      have hrest := ih (by simpa [gaps] using fits) hmore
      simp only [List.map_cons, weave, String.length_append]
      omega

/-- Where every text is the same in both fillings or longer in the first, the fillings are the same
only if all texts are. -/
theorem weave_map_eq_iff {frame : Frame} {items : List α} (fits : frame.gaps = items.length)
    (longer : ∀ item ∈ items, f item = g item ∨ (g item).length < (f item).length) :
    frame.weave (items.map f) = frame.weave (items.map g) ↔ ∀ item ∈ items, f item = g item := by
  refine ⟨fun h ↦ ?_, fun h ↦ by rw [List.map_congr_left h]⟩
  induction frame generalizing items with
  | last fragment =>
    have hnone : items = [] := List.eq_nil_of_length_eq_zero fits.symm
    simp [hnone]
  | gap fragment rest ih =>
    cases items with
    | nil => simp [gaps] at fits
    | cons item more =>
      obtain ⟨hitem, hmore⟩ := List.forall_mem_cons.mp longer
      have hfits : rest.gaps = more.length := by simpa [gaps] using fits
      simp only [List.map_cons, weave] at h
      obtain hsame | hlonger := hitem
      · rw [hsame] at h
        exact List.forall_mem_cons.mpr ⟨hsame, ih hfits hmore ((String.append_right_inj _).mp h)⟩
      · have hrest := length_weave_map_le hfits fun other hother ↦
          (hmore other hother).elim (fun hsame ↦ by simp [hsame]) Nat.le_of_lt
        have hlength := congrArg String.length h
        simp only [String.length_append] at hlength
        omega

end Fillings

theorem fill_eq_weave (dialect : Dialect) (frame : Frame) (literals : List String) :
    frame.fill dialect literals = frame.weave (literals.map dialect.string) := by
  induction frame generalizing literals with
  | last fragment => cases literals <;> rfl
  | gap fragment rest ih =>
    cases literals with
    | nil => rfl
    | cons literal more => rw [fill, List.map_cons, weave, ih]

theorem fill_append (dialect : Dialect) {frame other : Frame} {literals more : List String}
    (fits : frame.gaps = literals.length) :
    (frame.append other).fill dialect (literals ++ more) =
      frame.fill dialect literals ++ other.fill dialect more := by
  rw [fill_eq_weave, fill_eq_weave, fill_eq_weave, List.map_append,
    weave_append (by rw [fits, List.length_map])]

end Frame

variable {dialect : Dialect}

/-- One frame gives both texts, the first from `xs` and the second from `ys`. -/
def Framed (dialect : Dialect) (xs ys : List String) (left right : String) : Prop :=
  ∃ frame : Frame, frame.gaps = xs.length ∧ frame.gaps = ys.length ∧
    left = frame.fill dialect xs ∧ right = frame.fill dialect ys

namespace Framed

variable {xs ys xs' ys' : List String} {left right left' right' : String}

theorem fixed (text : String) : Framed dialect [] [] text text :=
  ⟨.last text, rfl, rfl, rfl, rfl⟩

/-- The only place where the two texts may differ. -/
theorem literal (x y : String) : Framed dialect [x] [y] (dialect.string x) (dialect.string y) :=
  ⟨.gap "" (.last ""), rfl, rfl, by simp [Frame.fill], by simp [Frame.fill]⟩

theorem append (first : Framed dialect xs ys left right)
    (second : Framed dialect xs' ys' left' right') :
    Framed dialect (xs ++ xs') (ys ++ ys') (left ++ left') (right ++ right') := by
  obtain ⟨frame, hxs, hys, rfl, rfl⟩ := first
  obtain ⟨other, hxs', hys', rfl, rfl⟩ := second
  refine ⟨frame.append other, ?_, ?_, ?_, ?_⟩
  · simp [hxs, hxs']
  · simp [hys, hys']
  · rw [Frame.fill_append dialect hxs]
  · rw [Frame.fill_append dialect hys]

theorem behind (text : String) (framed : Framed dialect xs ys left right) :
    Framed dialect xs ys (text ++ left) (text ++ right) := (fixed text).append framed

theorem before (text : String) (framed : Framed dialect xs ys left right) :
    Framed dialect xs ys (left ++ text) (right ++ text) := by
  have h := framed.append (fixed text)
  rwa [List.append_nil, List.append_nil] at h

theorem parenthesized (framed : Framed dialect xs ys left right) :
    Framed dialect xs ys (parenthesized left) (parenthesized right) := (framed.behind "(").before ")"

theorem labelled (label : Option String) (framed : Framed dialect xs ys left right) :
    Framed dialect xs ys (labelled dialect left label) (labelled dialect right label) := by
  cases label with
  | none => exact framed
  | some label => exact (framed.before " AS ").before _

theorem union (kind : UnionKind) (first : Framed dialect xs ys left right)
    (second : Framed dialect xs' ys' left' right') :
    Framed dialect (xs ++ xs') (ys ++ ys') (unionText kind left left') (unionText kind right right') :=
  (((((first.behind "(").before ") ").before kind.word).before " (").append second).before ")"

/-- The date is the only rendered part of a moved date. -/
theorem dateAdd (parts : DateAdd) (framed : Framed dialect xs ys left right) :
    Framed dialect xs ys (parts.text dialect left) (parts.text dialect right) := by
  cases dialect with
  | mysql =>
    exact (((((framed.behind "DATE_ADD(").before ", INTERVAL ").before _).before " ").before _).before ")"
  | postgres =>
    exact (((((framed.behind "(").before " + INTERVAL '").before _).before " ").before _).before "')"
  | sqlite =>
    exact ((((((framed.behind "DateTime(").before ", '").before _).before _).before " ").before _).before
      "')"
  | timestream => exact (framed.behind _).before ")"

end Framed

/-! ## Lists of texts -/

/-- Texts that are framed alike one by one, each with literals of its own. -/
inductive FramedAll (dialect : Dialect) :
    List String → List String → List String → List String → Prop
  | nil : FramedAll dialect [] [] [] []
  | cons {xs ys xs' ys' : List String} {left right : String} {lefts rights : List String}
      (first : Framed dialect xs ys left right) (others : FramedAll dialect xs' ys' lefts rights) :
      FramedAll dialect (xs ++ xs') (ys ++ ys') (left :: lefts) (right :: rights)

namespace FramedAll

variable {xs ys lefts rights : List String}

theorem intercalate (separator : String) (framed : FramedAll dialect xs ys lefts rights) :
    Framed dialect xs ys (String.intercalate separator lefts)
      (String.intercalate separator rights) := by
  induction framed with
  | nil => exact Framed.fixed ""
  | cons first others ih =>
    cases others with
    | nil => simpa using first
    | cons second others =>
      rw [String.intercalate_cons_cons, String.intercalate_cons_cons]
      exact (first.before separator).append ih

theorem clause (intro separator : String) (framed : FramedAll dialect xs ys lefts rights) :
    Framed dialect xs ys (clause intro separator lefts) (clause intro separator rights) := by
  have h := (framed.intercalate separator).behind intro
  cases framed with
  | nil => exact Framed.fixed ""
  | cons first others => exact h

theorem fieldList (framed : FramedAll dialect xs ys lefts rights) :
    Framed dialect xs ys (fieldList lefts) (fieldList rights) := by
  have h := framed.intercalate ", "
  cases framed with
  | nil => exact Framed.fixed "*"
  | cons first others => exact h

theorem operation (operator : String) (framed : FramedAll dialect xs ys lefts rights) :
    Framed dialect xs ys (operationText operator lefts) (operationText operator rights) :=
  ((framed.intercalate _).behind "(").before ")"

theorem callText (name : String) (framed : FramedAll dialect xs ys lefts rights) :
    Framed dialect xs ys (callText name lefts) (callText name rights) :=
  ((framed.intercalate ",").behind _).before ")"

theorem postgresCall (name : String) (framed : FramedAll dialect xs ys lefts rights) :
    Framed dialect xs ys (postgresCall name lefts) (postgresCall name rights) := by
  unfold Sql.postgresCall
  split_ifs
  · exact ((framed.intercalate ", ").behind _).before ")"
  · exact framed.callText "COALESCE"
  · -- The three arguments of a choice are set apart; their number is the same on both sides.
    have hcall := framed.callText name
    rcases framed with _ | ⟨condition, _ | ⟨yes, _ | ⟨no, _ | _⟩⟩⟩ <;> try exact hcall
    have h := ((((condition.behind "CASE WHEN ").before " THEN ").append yes).before " ELSE ").append no
    simpa using h.before " END"
  · exact framed.callText name

theorem sqliteCall (name : String) (framed : FramedAll dialect xs ys lefts rights) :
    Framed dialect xs ys (sqliteCall name lefts) (sqliteCall name rights) := by
  unfold Sql.sqliteCall
  dsimp only
  split_ifs
  · exact ((framed.intercalate ", ").behind "strftime('%m', ").before ", 'localtime')"
  · exact ((framed.intercalate ", ").behind "strftime('%Y', ").before ", 'localtime')"
  · exact ((framed.intercalate ", ").behind "IIF(").before ")"
  · exact framed.callText name

/-- A call that does not move a date is spelled from its rendered arguments alone. -/
theorem call {name : String} (other : name ≠ "DATEADD") (args args' : List Expr)
    (framed : FramedAll dialect xs ys lefts rights) :
    Agree (Framed dialect xs ys) (dialect.call name args lefts) (dialect.call name args' rights) := by
  unfold Dialect.call
  rw [if_neg other, if_neg other]
  cases dialect with
  | mysql => exact .ok (framed.callText name)
  | postgres => exact .ok (framed.postgresCall name)
  | sqlite => exact .ok (framed.sqliteCall name)
  | timestream => exact .ok (framed.callText name)

/-- Texts made of items one by one. -/
theorem map {α β : Type} {f : α → String} {g : β → String} {fs : α → List String}
    {gs : β → List String} {items : List α} {items' : List β}
    (framed : List.Forall₂ (fun a b ↦ Framed dialect (fs a) (gs b) (f a) (g b)) items items') :
    FramedAll dialect (items.flatMap fs) (items'.flatMap gs) (items.map f) (items'.map g) := by
  induction framed with
  | nil => exact .nil
  | cons first others ih => exact .cons first ih

/-- Rendering items of one shape, one after another. -/
theorem mapM {α : Type} {render : α → Except Error String} {blank : α → α}
    {literals : α → List String} {items items' : List α}
    (step : ∀ item ∈ items, ∀ item', blank item = blank item' →
      Agree (Framed dialect (literals item) (literals item')) (render item) (render item'))
    (shape : items.map blank = items'.map blank) :
    Agree (FramedAll dialect (items.flatMap literals) (items'.flatMap literals))
      (items.mapM render) (items'.mapM render) := by
  induction items generalizing items' with
  | nil =>
    have hnil : items' = [] := by simpa using shape.symm
    rw [hnil]
    exact .ok .nil
  | cons item more ih =>
    obtain ⟨item', more', rfl, hitem, hmore⟩ := List.map_eq_cons_iff.mp shape.symm
    rw [List.mapM_cons, List.mapM_cons, List.flatMap_cons, List.flatMap_cons]
    have hfirst := step item (by simp) item' hitem.symm
    have hothers := ih (fun next hnext ↦ step next (by simp [hnext])) hmore.symm
    exact hfirst.bind fun _ _ first ↦ hothers.bind fun _ _ others ↦ .ok (.cons first others)

end FramedAll

end PortableQuery.Sql
