import PortableQuery.Text.Segments

/-!
# Quoted names read back

A name is its segments with dots between them, and what is left of a quoted name without its quotes
is the name, unless the name holds quotes itself.
-/

namespace PortableQuery.Text

theorem Quoted.double_of_not_mem {quote : Char} {text : List Char} (h : quote ∉ text) :
    double quote text = text := by
  induction text with
  | nil => rfl
  | cons c rest ih =>
    obtain ⟨hc, hrest⟩ := not_or.mp (mt List.mem_cons.mpr h)
    rw [double, if_neg (Ne.symm hc), ih hrest]

namespace Segments

theorem split_ne_nil (name : List Char) : split name ≠ [] := by
  cases name with
  | nil => exact List.cons_ne_nil _ _
  | cons c rest =>
    rw [split]
    split
    · exact List.cons_ne_nil _ _
    · split <;> exact List.cons_ne_nil _ _

theorem join_cons_cons (c : Char) (segment : List Char) (more : List (List Char)) :
    join ((c :: segment) :: more) = c :: join (segment :: more) := by
  cases more <;> rfl

theorem join_split (name : List Char) : join (split name) = name := by
  induction name with
  | nil => rfl
  | cons c rest ih =>
    obtain ⟨segment, more, hsplit⟩ := List.exists_cons_of_ne_nil (split_ne_nil rest)
    rw [hsplit] at ih
    by_cases hc : c = '.'
    · rw [split, if_pos hc, hsplit, join, ih, List.nil_append, hc]
      exact List.cons_ne_nil _ _
    · simp only [split, if_neg hc, hsplit]
      rw [join_cons_cons, ih]

theorem filter_join {p : Char → Bool} (dot : p '.' = true) (segments : List (List Char)) :
    (join segments).filter p = join (segments.map (List.filter p)) := by
  match segments with
  | [] => rfl
  | [segment] => rfl
  | segment :: next :: more =>
    have ih := filter_join dot (next :: more)
    rw [join, List.filter_append, List.filter_cons_of_pos dot, ih]
    · rfl
    · exact List.cons_ne_nil _ _

theorem filter_quoteChars {quote : Char} {name : List Char} (dot : quote ≠ '.') (h : quote ∉ name) :
    (quoteChars quote name).filter (· ≠ quote) = name := by
  have hdot : decide ('.' ≠ quote) = true := decide_eq_true dot.symm
  have hsegment (segment : List Char) :
      (quote :: (segment ++ [quote])).filter (· ≠ quote) = segment.filter (· ≠ quote) := by simp
  have hname : name.filter (· ≠ quote) = name := by
    rw [List.filter_eq_self]
    rintro c hc
    exact decide_eq_true fun hquote ↦ h (hquote ▸ hc)
  calc (quoteChars quote name).filter (· ≠ quote)
      = join ((split name).map (List.filter (· ≠ quote))) := by
        rw [quoteChars, Quoted.double_of_not_mem h, filter_join hdot, List.map_map]
        exact congrArg join (List.map_congr_left fun segment _ ↦ hsegment segment)
    _ = name := by rw [← filter_join hdot, join_split, hname]

theorem quoteChars_eq_cons (quote : Char) (name : List Char) :
    ∃ rest, quoteChars quote name = quote :: rest := by
  obtain ⟨segment, more, hsplit⟩ := List.exists_cons_of_ne_nil (split_ne_nil (Quoted.double quote name))
  rw [quoteChars, hsplit, List.map_cons, join_cons_cons]
  exact ⟨_, rfl⟩

end Segments

end PortableQuery.Text
