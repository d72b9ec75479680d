import Mathlib.Data.List.Forall2

/-!
# Outcomes

When a computation that may fail gives a certain result: its steps do, one after another. Over a
list, every item has a result of its own. Two computations agree when they fail alike or give
related results; they are the same up to their failures when only these may differ. A computation
decides a question when it gives a result exactly if the answer is yes.
-/

namespace PortableQuery

variable {ε α β : Type}

@[simp] theorem bind_eq_ok_iff {x : Except ε α} {f : α → Except ε β} {b : β} :
    (x >>= f) = .ok b ↔ ∃ a, x = .ok a ∧ f a = .ok b := by
  cases x <;> simp [bind, Except.bind]

@[simp] theorem pure_eq_ok_iff {a b : α} : (pure a : Except ε α) = .ok b ↔ a = b := by
  simp [pure, Except.pure]

@[simp] theorem map_eq_ok_iff {x : Except ε α} {f : α → β} {b : β} :
    x.map f = .ok b ↔ ∃ a, x = .ok a ∧ f a = b := by
  cases x <;> simp [Except.map]

@[simp] theorem functor_map_eq_ok_iff {x : Except ε α} {f : α → β} {b : β} :
    f <$> x = .ok b ↔ ∃ a, x = .ok a ∧ f a = b := map_eq_ok_iff

/-- Items whose results are the given list back again. -/
theorem mapM_map_eq_ok_iff {f : β → Except ε α} {g : α → β} {items : List α} :
    (items.map g).mapM f = .ok items ↔ ∀ item ∈ items, f (g item) = .ok item := by
  induction items with
  | nil => simp
  | cons item more ih =>
    rw [List.map_cons, List.mapM_cons, List.forall_mem_cons, ← ih]
    simp only [bind_eq_ok_iff, pure_eq_ok_iff, List.cons.injEq]
    constructor
    · rintro ⟨first, hfirst, others, hothers, rfl, rfl⟩
      exact ⟨hfirst, hothers⟩
    · rintro ⟨hfirst, hothers⟩
      exact ⟨item, hfirst, more, hothers, rfl, rfl⟩

/-- Results that belong to the items one by one. -/
theorem mapM_eq_ok_iff {f : α → Except ε β} {items : List α} {results : List β} :
    items.mapM f = .ok results ↔ List.Forall₂ (fun item result ↦ f item = .ok result) items results := by
  induction items generalizing results with
  | nil => rw [List.mapM_nil, pure_eq_ok_iff, List.forall₂_nil_left_iff, eq_comm]
  | cons item more ih =>
    simp only [List.mapM_cons, bind_eq_ok_iff, pure_eq_ok_iff, List.forall₂_cons_left_iff, ih]
    constructor
    · rintro ⟨first, hfirst, others, hothers, rfl⟩
      exact ⟨first, others, hfirst, hothers, rfl⟩
    · rintro ⟨first, others, hfirst, hothers, rfl⟩
      exact ⟨first, hfirst, others, hothers, rfl⟩

/-- Relations that agree on the members of a list agree on the list. -/
theorem forall₂_congr_of_mem {R S : α → β → Prop} {items : List α} {results : List β}
    (same : ∀ item ∈ items, ∀ result, R item result ↔ S item result) :
    List.Forall₂ R items results ↔ List.Forall₂ S items results := by
  induction items generalizing results with
  | nil => simp
  | cons item more ih =>
    obtain ⟨hitem, hmore⟩ := List.forall_mem_cons.mp same
    simp only [List.forall₂_cons_left_iff, hitem, ih hmore]

theorem exists_mem_of_forall₂ {R : α → β → Prop} {items : List α} {results : List β}
    (h : List.Forall₂ R items results) : ∀ result ∈ results, ∃ item ∈ items, R item result := by
  induction h with
  | nil => simp
  | @cons item first items results related _ ih =>
    rw [List.forall_mem_cons]
    refine ⟨⟨item, by simp, related⟩, ?_⟩
    intro result hresult
    obtain ⟨source, hsource, hrelated⟩ := ih result hresult
    exact ⟨source, by simp [hsource], hrelated⟩

theorem exists_of_mem_mapM {f : α → Except ε β} {items : List α} {results : List β}
    (h : items.mapM f = .ok results) : ∀ result ∈ results, ∃ item ∈ items, f item = .ok result :=
  exists_mem_of_forall₂ (mapM_eq_ok_iff.mp h)

/-- A function that is written out by recursion on a list and runs a step on every item. -/
theorem eq_mapM {f : α → Except ε β} {all : List α → Except ε (List β)} (nil : all [] = .ok [])
    (cons : ∀ item more, all (item :: more) = do
      let first ← f item
      let others ← all more
      return first :: others) (items : List α) : all items = items.mapM f := by
  induction items with
  | nil => exact nil
  | cons item more ih => rw [cons, ih, List.mapM_cons]

/-! ## Agreement of two outcomes -/

/-- The same failure, or results that stand in a relation. -/
inductive Agree (R : α → β → Prop) : Except ε α → Except ε β → Prop
  | error (cause : ε) : Agree R (.error cause) (.error cause)
  | ok {a : α} {b : β} (related : R a b) : Agree R (.ok a) (.ok b)

namespace Agree

variable {γ δ : Type} {R : α → β → Prop} {S : γ → δ → Prop}

/-- Steps that follow agreeing outcomes. -/
theorem bind {x : Except ε α} {y : Except ε β} {f : α → Except ε γ} {g : β → Except ε δ}
    (outcome : Agree R x y) (next : ∀ a b, R a b → Agree S (f a) (g b)) :
    Agree S (x >>= f) (y >>= g) := by
  cases outcome with
  | error cause => exact error cause
  | ok related => exact next _ _ related

theorem refl (x : Except ε α) : Agree (· = ·) x x := by
  cases x with
  | error cause => exact error cause
  | ok a => exact ok rfl

end Agree

/-! ## Equality up to failures -/

/-- The same result, or failures that stand in a relation. -/
inductive SameUpTo (E : ε → ε → Prop) : Except ε α → Except ε α → Prop
  | error {cause cause' : ε} (related : E cause cause') : SameUpTo E (.error cause) (.error cause')
  | ok (result : α) : SameUpTo E (.ok result) (.ok result)

namespace SameUpTo

variable {E : ε → ε → Prop}

theorem refl (same : ∀ cause, E cause cause) (x : Except ε α) : SameUpTo E x x := by
  cases x with
  | error cause => exact error (same cause)
  | ok result => exact ok result

theorem bind {x y : Except ε α} {f g : α → Except ε β} (outcome : SameUpTo E x y)
    (next : ∀ result, SameUpTo E (f result) (g result)) : SameUpTo E (x >>= f) (y >>= g) := by
  cases outcome with
  | error related => exact error related
  | ok result => exact next result

/-- A step that cannot fail behind outcomes that are the same. -/
theorem map {x y : Except ε α} (outcome : SameUpTo E x y) (f : α → β) :
    SameUpTo E (do return f (← x)) (do return f (← y)) :=
  outcome.bind fun result ↦ ok (f result)

/-- One step after another, on items and on what they are changed into. -/
theorem mapM {f : α → Except ε β} {g : α → Except ε β} {change : α → α} {items : List α}
    (step : ∀ item ∈ items, SameUpTo E (f item) (g (change item))) :
    SameUpTo E (items.mapM f) ((items.map change).mapM g) := by
  induction items with
  | nil => exact ok []
  | cons item more ih =>
    obtain ⟨first, others⟩ := List.forall_mem_cons.mp step
    rw [List.map_cons, List.mapM_cons, List.mapM_cons]
    exact first.bind fun _ ↦ (ih others).bind fun _ ↦ ok _

theorem eq_or_error {x y : Except ε α} (outcome : SameUpTo E x y) :
    x = y ∨ ∃ cause cause', x = .error cause ∧ y = .error cause' ∧ E cause cause' := by
  cases outcome with
  | error related => exact .inr ⟨_, _, rfl, rfl, related⟩
  | ok result => exact .inl rfl

end SameUpTo

/-! ## Outcomes that decide a question -/

/-- A result if something is accepted, and else a failure for one of the given causes. -/
inductive Decided (cause : ε → Prop) (accepted : Prop) : Except ε α → Prop
  | accepts (result : α) (holds : accepted) : Decided cause accepted (.ok result)
  | refuses {error : ε} (because : cause error) (fails : ¬ accepted) :
      Decided cause accepted (.error error)

namespace Decided

variable {cause other : ε → Prop} {accepted also : Prop}

theorem of_iff {x : Except ε α} (decided : Decided cause accepted x) (same : also ↔ accepted) :
    Decided cause also x := by
  rwa [same]

theorem mono {x : Except ε α} (decided : Decided cause accepted x)
    (wider : ∀ error, cause error → other error) : Decided other accepted x := by
  cases decided with
  | accepts result holds => exact accepts result holds
  | refuses because fails => exact refuses (wider _ because) fails

/-- A step that is given the result of the one before it. -/
theorem bind_of_ok {x : Except ε α} {f : α → Except ε β} (decided : Decided cause accepted x)
    (next : ∀ result, x = .ok result → Decided cause also (f result)) :
    Decided cause (accepted ∧ also) (x >>= f) := by
  cases decided with
  | accepts result holds => exact (next result rfl).of_iff (and_iff_right holds)
  | refuses because fails => exact refuses because fun both ↦ fails both.1

theorem bind {x : Except ε α} {f : α → Except ε β} (decided : Decided cause accepted x)
    (next : ∀ result, Decided cause also (f result)) : Decided cause (accepted ∧ also) (x >>= f) :=
  decided.bind_of_ok fun result _ ↦ next result

/-- Steps that do not fail. -/
theorem bind_total {x : Except ε α} {f : α → Except ε β} (decided : Decided cause accepted x)
    (total : ∀ result, ∃ final, f result = .ok final) : Decided cause accepted (x >>= f) := by
  cases decided with
  | accepts result holds =>
    obtain ⟨final, hfinal⟩ := total result
    simp only [Bind.bind, Except.bind, hfinal]
    exact accepts final holds
  | refuses because fails => exact refuses because fails

theorem map {x : Except ε α} (decided : Decided cause accepted x) (f : α → β) :
    Decided cause accepted (do return f (← x)) :=
  decided.bind_total fun result ↦ ⟨f result, rfl⟩

theorem mapM {f : α → Except ε β} {accepted : α → Prop} {items : List α}
    (decided : ∀ item ∈ items, Decided cause (accepted item) (f item)) :
    Decided cause (∀ item ∈ items, accepted item) (items.mapM f) := by
  induction items with
  | nil => exact accepts [] (by simp)
  | cons item more ih =>
    obtain ⟨first, others⟩ := List.forall_mem_cons.mp decided
    rw [List.mapM_cons]
    exact (first.bind fun _ ↦ (ih others).map _).of_iff List.forall_mem_cons

theorem exists_ok_iff {x : Except ε α} (decided : Decided cause accepted x) :
    (∃ result, x = .ok result) ↔ accepted := by
  cases decided with
  | accepts result holds => simp [holds]
  | refuses because fails => simp [fails]

theorem cause_of_error {x : Except ε α} (decided : Decided cause accepted x) {error : ε}
    (h : x = .error error) : cause error := by
  cases decided with
  | accepts result holds => contradiction
  | refuses because fails => rwa [← Except.error.inj h]

end Decided

end PortableQuery
