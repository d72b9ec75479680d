import Mathlib.Data.List.Infix
import Mathlib.Tactic.SplitIfs

/-!
# Patterns with wildcards

What LIKE asks of a text: a percent sign stands for any run of characters, an underscore for any
single one, and every other character for itself. A pattern with no wildcards but percent signs at
its ends asks for the whole, the start, the end or a part of the text.
-/

namespace PortableQuery.Text.Wildcard

/-- Whether a text is one of those that a pattern stands for. -/
def accepts : List Char → List Char → Bool
  | [], text => text.isEmpty
  | '%' :: pattern, text => text.tails.any (accepts pattern)
  | _ :: _, [] => false
  | c :: pattern, d :: text => (c = '_' || c = d) && accepts pattern text

/-- A pattern with no wildcards but percent signs as its first and its last character. -/
def AtEnds (pattern : List Char) : Prop := '_' ∉ pattern ∧ '%' ∉ pattern.tail.dropLast

instance (pattern : List Char) : Decidable (AtEnds pattern) :=
  inferInstanceAs (Decidable ('_' ∉ pattern ∧ '%' ∉ pattern.tail.dropLast))

/-- A pattern that stands for nothing but itself. -/
def Plain (pattern : List Char) : Prop := ∀ c ∈ pattern, c ≠ '%' ∧ c ≠ '_'

instance (pattern : List Char) : Decidable (Plain pattern) :=
  List.decidableBAll (fun c ↦ c ≠ '%' ∧ c ≠ '_') pattern

variable {pattern text : List Char}

theorem plain_cons {c : Char} : Plain (c :: pattern) ↔ (c ≠ '%' ∧ c ≠ '_') ∧ Plain pattern :=
  List.forall_mem_cons

theorem plain_append {more : List Char} : Plain (pattern ++ more) ↔ Plain pattern ∧ Plain more :=
  List.forall_mem_append

theorem plain_iff : Plain pattern ↔ '_' ∉ pattern ∧ '%' ∉ pattern := by
  constructor
  · exact fun h ↦ ⟨fun hany ↦ (h _ hany).2 rfl, fun hrun ↦ (h _ hrun).1 rfl⟩
  · rintro ⟨hany, hrun⟩ c hc
    exact ⟨ne_of_mem_of_not_mem hc hrun, ne_of_mem_of_not_mem hc hany⟩

theorem Plain.atEnds_start (plain : Plain pattern) : AtEnds (pattern ++ ['%']) := by
  obtain ⟨hany, hrun⟩ := plain_iff.mp plain
  refine ⟨by simpa using hany, ?_⟩
  rw [← List.tail_dropLast, List.dropLast_concat]
  exact fun h ↦ hrun (List.mem_of_mem_tail h)

theorem Plain.atEnds_part (plain : Plain pattern) : AtEnds ('%' :: (pattern ++ ['%'])) := by
  obtain ⟨hany, hrun⟩ := plain_iff.mp plain
  refine ⟨by simpa using hany, ?_⟩
  rwa [List.tail_cons, List.dropLast_concat]

/-! ## One step of a pattern -/

theorem accepts_nil : accepts [] text = true ↔ text = [] := by
  rw [accepts, List.isEmpty_iff]

theorem accepts_run :
    accepts ('%' :: pattern) text = true ↔ ∃ rest, rest <:+ text ∧ accepts pattern rest = true := by
  simp only [accepts, List.any_eq_true, List.mem_tails]

/-- Any other character asks for one character of the text. -/
theorem accepts_cons {c : Char} (h : c ≠ '%') :
    accepts (c :: pattern) text = true ↔
      ∃ d rest, text = d :: rest ∧ (c = '_' ∨ c = d) ∧ accepts pattern rest = true := by
  cases text with
  | nil => simp [accepts]
  | cons d rest => simp [accepts]

/-! ## Patterns with wildcards at their ends only -/

theorem accepts_append_of_plain {front : List Char} (plain : Plain front) :
    accepts (front ++ pattern) text = true ↔
      ∃ rest, text = front ++ rest ∧ accepts pattern rest = true := by
  induction front generalizing text with
  | nil => simp
  | cons c more ih =>
    obtain ⟨⟨hrun, hany⟩, hmore⟩ := plain_cons.mp plain
    rw [List.cons_append, accepts_cons hrun]
    simp only [hany, false_or, ih hmore]
    constructor
    · rintro ⟨d, _, rfl, rfl, rest, rfl, haccepts⟩
      exact ⟨rest, rfl, haccepts⟩
    · rintro ⟨rest, rfl, haccepts⟩
      exact ⟨c, _, rfl, rfl, rest, rfl, haccepts⟩

theorem accepts_run_alone : accepts ['%'] text = true :=
  accepts_run.mpr ⟨[], List.nil_suffix, rfl⟩

theorem accepts_plain_iff (plain : Plain pattern) : accepts pattern text = true ↔ text = pattern := by
  rw [← List.append_nil pattern, accepts_append_of_plain plain]
  simp [accepts_nil]

theorem accepts_start_iff (plain : Plain pattern) :
    accepts (pattern ++ ['%']) text = true ↔ pattern <+: text := by
  rw [accepts_append_of_plain plain]
  simp [accepts_run_alone, List.IsPrefix, eq_comm]

theorem accepts_end_iff (plain : Plain pattern) :
    accepts ('%' :: pattern) text = true ↔ pattern <:+ text := by
  rw [accepts_run]
  simp [accepts_plain_iff plain]

theorem accepts_part_iff (plain : Plain pattern) :
    accepts ('%' :: (pattern ++ ['%'])) text = true ↔ pattern <:+: text := by
  rw [accepts_run, List.infix_iff_prefix_suffix]
  simp only [accepts_start_iff plain, and_comm]

/-! ## The shortest text -/

/-- One of the shortest texts that a pattern stands for: nothing for a run, and a letter where any
character will do. -/
def shortest (pattern : List Char) : List Char :=
  pattern.flatMap fun c ↦ if c = '%' then [] else if c = '_' then ['a'] else [c]

theorem accepts_shortest (pattern : List Char) : accepts pattern (shortest pattern) = true := by
  induction pattern with
  | nil => rfl
  | cons c more ih =>
    rw [shortest, List.flatMap_cons]
    by_cases hrun : c = '%'
    · rw [if_pos hrun, hrun, accepts_run]
      exact ⟨_, List.suffix_refl _, ih⟩
    · rw [if_neg hrun, accepts_cons hrun]
      by_cases hany : c = '_'
      · exact ⟨'a', _, by rw [if_pos hany]; rfl, .inl hany, ih⟩
      · exact ⟨c, _, by rw [if_neg hany]; rfl, .inr rfl, ih⟩

theorem length_shortest_le (pattern : List Char) : (shortest pattern).length ≤ pattern.length := by
  induction pattern with
  | nil => exact Nat.le_refl _
  | cons c more ih =>
    rw [shortest, List.flatMap_cons, ← shortest, List.length_append, List.length_cons]
    split_ifs <;> simp only [List.length_nil, List.length_singleton] <;> omega

theorem shortest_append (pattern more : List Char) :
    shortest (pattern ++ more) = shortest pattern ++ shortest more :=
  List.flatMap_append

theorem plain_shortest (pattern : List Char) : Plain (shortest pattern) := by
  intro c hc
  simp only [shortest, List.mem_flatMap] at hc
  obtain ⟨d, -, hc⟩ := hc
  split at hc
  · contradiction
  · split at hc
    · obtain rfl := List.mem_singleton.mp hc
      decide
    · rename_i hrun hany
      obtain rfl := List.mem_singleton.mp hc
      exact ⟨hrun, hany⟩

/-- Only a plain pattern is found in the shortest text that it stands for. -/
theorem plain_of_sublist_shortest (h : pattern.Sublist (shortest pattern)) : Plain pattern := by
  rw [h.eq_of_length_le (length_shortest_le pattern)]
  exact plain_shortest pattern

end PortableQuery.Text.Wildcard
