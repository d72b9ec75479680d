import PortableQuery.Proofs.Text.Segments

/-!
# Reading quoted text

Behind the opening quote of a quoted text two quotes stand for one, and a quote that stands alone
closes the text. A reader by this rule accepts exactly what is written by it, in front of any rest
that does not begin with a quote itself. A quoted name is read as quoted segments with dots between
them; here too reading accepts exactly what is written.
-/

namespace PortableQuery.Text

namespace Quoted

/-- The text up to the closing quote, and what stands behind it. -/
def readBody? (quote : Char) : List Char → Option (List Char × List Char)
  | [] => none
  | [c] => if c = quote then some ([], []) else none
  | c :: d :: rest =>
    if c = quote then
      if d = quote then (readBody? quote rest).map (Prod.map (quote :: ·) id)
      else some ([], d :: rest)
    else (readBody? quote (d :: rest)).map (Prod.map (c :: ·) id)

/-- The quoted text at the beginning of a text, and what stands behind it. -/
def read? (quote : Char) : List Char → Option (List Char × List Char)
  | [] => none
  | c :: rest => if c = quote then readBody? quote rest else none

variable {quote : Char}

theorem readBody?_closing {rest : List Char} (apart : rest.head? ≠ some quote) :
    readBody? quote (quote :: rest) = some ([], rest) := by
  cases rest with
  | nil => rw [readBody?, if_pos rfl]
  | cons d rest =>
    have hd : d ≠ quote := fun h ↦ apart (congrArg some h)
    rw [readBody?, if_pos rfl, if_neg hd]

theorem readBody?_pair (rest : List Char) :
    readBody? quote (quote :: quote :: rest) = (readBody? quote rest).map (Prod.map (quote :: ·) id) := by
  rw [readBody?, if_pos rfl, if_pos rfl]

theorem readBody?_plain {c : Char} (h : c ≠ quote) (rest : List Char) :
    readBody? quote (c :: rest) = (readBody? quote rest).map (Prod.map (c :: ·) id) := by
  cases rest with
  | nil => simp [readBody?, h]
  | cons d rest => rw [readBody?, if_neg h]

theorem readBody?_double_append (text : List Char) {rest : List Char}
    (apart : rest.head? ≠ some quote) :
    readBody? quote (double quote text ++ quote :: rest) = some (text, rest) := by
  induction text with
  | nil => exact readBody?_closing apart
  | cons c more ih =>
    by_cases hc : c = quote
    · rw [double, if_pos hc, hc, List.cons_append, List.cons_append, readBody?_pair, ih]
      rfl
    · rw [double, if_neg hc, List.cons_append, readBody?_plain hc, ih]
      rfl

/-- What was read is what was written. -/
theorem eq_of_readBody? {text : List Char} {found : List Char × List Char}
    (h : readBody? quote text = some found) :
    text = double quote found.1 ++ quote :: found.2 ∧ found.2.head? ≠ some quote := by
  -- The reader either closes the text (case2, case5) or takes a pair of quotes or another character.
  fun_induction readBody? quote text generalizing found with
  | case1 => contradiction
  | case2 =>
    obtain rfl := Option.some.inj h
    simp [double]
  | case3 => contradiction
  | case4 rest ih =>
    obtain ⟨inner, hinner, rfl⟩ := Option.map_eq_some_iff.mp h
    obtain ⟨htext, hapart⟩ := ih hinner
    refine ⟨?_, hapart⟩
    rw [htext]
    simp [double]
  | case5 d rest hd =>
    obtain rfl := Option.some.inj h
    simpa [double] using hd
  | case6 c d rest hc ih =>
    obtain ⟨inner, hinner, rfl⟩ := Option.map_eq_some_iff.mp h
    obtain ⟨htext, hapart⟩ := ih hinner
    refine ⟨?_, hapart⟩
    rw [htext]
    simp [double, hc]

theorem read?_eq_some_iff {text segment rest : List Char} :
    read? quote text = some (segment, rest) ↔
      text = chars quote segment ++ rest ∧ rest.head? ≠ some quote := by
  constructor
  · intro h
    cases text with
    | nil => contradiction
    | cons c more =>
      rw [read?] at h
      split at h
      · rename_i hc
        obtain ⟨hmore, apart⟩ := eq_of_readBody? h
        refine ⟨?_, apart⟩
        rw [hc, hmore, chars, List.cons_append, List.append_assoc, List.singleton_append]
      · contradiction
  · rintro ⟨rfl, apart⟩
    rw [chars, List.cons_append, read?, if_pos rfl, List.append_assoc, List.singleton_append]
    exact readBody?_double_append segment apart

theorem length_of_read? {text segment rest : List Char} (h : read? quote text = some (segment, rest)) :
    rest.length < text.length := by
  rw [(read?_eq_some_iff.mp h).1, chars]
  simp only [List.cons_append, List.length_cons, List.length_append]
  omega

theorem double_append (quote : Char) (text other : List Char) :
    double quote (text ++ other) = double quote text ++ double quote other := by
  induction text with
  | nil => rfl
  | cons c more ih =>
    rw [List.cons_append, double, double, ih]
    split <;> rfl

theorem mem_double {quote c : Char} {text : List Char} : c ∈ double quote text ↔ c ∈ text := by
  induction text with
  | nil => rfl
  | cons d more ih =>
    rw [double]
    split <;> simp [ih]

theorem length_le_length_double (quote : Char) (text : List Char) :
    text.length ≤ (double quote text).length := by
  induction text with
  | nil => exact Nat.le_refl _
  | cons c more ih =>
    rw [double]
    split <;> simp only [List.length_cons] <;> omega

theorem double_eq_self_iff {text : List Char} : double quote text = text ↔ quote ∉ text := by
  refine ⟨?_, double_of_not_mem⟩
  induction text with
  | nil => simp
  | cons c more ih =>
    by_cases hc : c = quote
    · intro h
      have hlength := congrArg List.length h
      have hle := length_le_length_double quote more
      rw [double, if_pos hc, List.length_cons, List.length_cons, List.length_cons] at hlength
      omega
    · rw [double, if_neg hc, List.cons_inj_right, List.mem_cons, not_or]
      exact fun h ↦ ⟨Ne.symm hc, ih h⟩

/-! ## Blanked text -/

/-- A character outside of quoted texts, or a whole quoted text without what is in it. -/
inductive Piece
  | bare (c : Char)
  | quoted
  deriving DecidableEq

/-- A text with its quoted texts blanked. A quote that opens none stands by itself. -/
def outline (quote : Char) : List Char → List Piece
  | [] => []
  | c :: more =>
    match _h : read? quote (c :: more) with
    | some (_, rest) => .quoted :: outline quote rest
    | none => .bare c :: outline quote more
termination_by text => text.length
decreasing_by
  · exact length_of_read? _h
  · exact Nat.lt_succ_self _

theorem outline_of_read? {text segment rest : List Char} (h : read? quote text = some (segment, rest)) :
    outline quote text = .quoted :: outline quote rest := by
  cases text with
  | nil => contradiction
  | cons c more =>
    rw [outline]
    split <;> simp_all

theorem outline_cons {c : Char} (h : c ≠ quote) (more : List Char) :
    outline quote (c :: more) = .bare c :: outline quote more := by
  have hread : read? quote (c :: more) = none := if_neg h
  rw [outline]
  split <;> simp_all

theorem outline_of_notMem {text : List Char} (h : quote ∉ text) :
    outline quote text = text.map .bare := by
  induction text with
  | nil => rw [outline, List.map_nil]
  | cons c more ih =>
    obtain ⟨hc, hmore⟩ := not_or.mp (mt List.mem_cons.mpr h)
    rw [outline_cons (Ne.symm hc), ih hmore, List.map_cons]

theorem outline_chars (text : List Char) : outline quote (chars quote text) = [.quoted] := by
  have hread : read? quote (chars quote text) = some (text, []) :=
    read?_eq_some_iff.mpr ⟨(List.append_nil _).symm, by simp⟩
  rw [outline_of_read? hread, outline_of_notMem List.not_mem_nil, List.map_nil]

end Quoted

namespace Segments

/-- The quoted segments at the beginning of a text and what stands behind them. A dot behind a segment
calls for another one. -/
def read? (quote : Char) (text : List Char) : Option (List (List Char) × List Char) :=
  match _h : Quoted.read? quote text with
  | none => none
  | some (segment, '.' :: more) => (read? quote more).map (Prod.map (segment :: ·) id)
  | some (segment, rest) => some ([segment], rest)
termination_by text.length
decreasing_by
  have hlt := Quoted.length_of_read? _h
  rw [List.length_cons] at hlt
  omega

/-- Segments as they are written, each of them quoted. -/
def written (quote : Char) (segments : List (List Char)) : List Char :=
  join (segments.map (Quoted.chars quote))

variable {quote : Char}

theorem read?_of_dotted {text segment more : List Char}
    (h : Quoted.read? quote text = some (segment, '.' :: more)) :
    read? quote text = (read? quote more).map (Prod.map (segment :: ·) id) := by
  rw [read?]
  split <;> simp_all

theorem read?_of_last {text segment rest : List Char}
    (h : Quoted.read? quote text = some (segment, rest)) (last : rest.head? ≠ some '.') :
    read? quote text = some ([segment], rest) := by
  rw [read?]
  split
  · simp_all
  · rename_i hread
    obtain ⟨-, rfl⟩ := Prod.mk.inj (Option.some.inj (hread.symm.trans h))
    exact absurd rfl last
  · simp_all

theorem written_cons_cons (quote : Char) (segment next : List Char) (more : List (List Char)) :
    written quote (segment :: next :: more) =
      Quoted.chars quote segment ++ '.' :: written quote (next :: more) := rfl

theorem read?_written (dot : quote ≠ '.') {segments : List (List Char)} (nonempty : segments ≠ []) :
    read? quote (written quote segments) = some (segments, []) := by
  induction segments with
  | nil => contradiction
  | cons segment more ih =>
    cases more with
    | nil =>
      refine read?_of_last (Quoted.read?_eq_some_iff.mpr ⟨?_, by simp⟩) (by simp)
      rw [List.append_nil]
      rfl
    | cons next more =>
      have hfirst : Quoted.read? quote (written quote (segment :: next :: more)) =
          some (segment, '.' :: written quote (next :: more)) := by
        rw [Quoted.read?_eq_some_iff, written_cons_cons]
        exact ⟨rfl, fun h ↦ dot (Option.some.inj h).symm⟩
      rw [read?_of_dotted hfirst, ih (List.cons_ne_nil _ _)]
      rfl

theorem eq_of_read? {text : List Char} {segments : List (List Char)}
    (h : read? quote text = some (segments, [])) : segments ≠ [] ∧ text = written quote segments := by
  fun_induction read? quote text generalizing segments with
  | case1 => contradiction
  | case2 text segment more hread ih =>
    obtain ⟨⟨others, rest⟩, hinner, hsegments⟩ := Option.map_eq_some_iff.mp h
    obtain ⟨rfl, rfl⟩ := Prod.mk.inj hsegments
    obtain ⟨hothers, hmore⟩ := ih hinner
    obtain ⟨next, last, rfl⟩ := List.exists_cons_of_ne_nil hothers
    refine ⟨List.cons_ne_nil _ _, ?_⟩
    rw [(Quoted.read?_eq_some_iff.mp hread).1, hmore]
    rfl
  | case3 text segment rest _ hread =>
    obtain ⟨rfl, rfl⟩ := Prod.mk.inj (Option.some.inj h)
    refine ⟨List.cons_ne_nil _ _, ?_⟩
    rw [(Quoted.read?_eq_some_iff.mp hread).1, List.append_nil]
    rfl

theorem read?_eq_some_iff (dot : quote ≠ '.') {text : List Char} {segments : List (List Char)} :
    read? quote text = some (segments, []) ↔ segments ≠ [] ∧ text = written quote segments := by
  refine ⟨eq_of_read?, ?_⟩
  rintro ⟨hsegments, rfl⟩
  exact read?_written dot hsegments

/-! ## Names as they are quoted -/

theorem split_eq_splitOn (name : List Char) : split name = name.splitOn '.' := by
  induction name with
  | nil => rfl
  | cons c rest ih =>
    rw [List.splitOn_cons_eq_if_modifyHead, split, ih]
    by_cases hc : c = '.'
    · rw [if_pos hc, if_pos (beq_iff_eq.mpr hc)]
    · rw [if_neg hc, if_neg (mt beq_iff_eq.mp hc)]
      cases h : rest.splitOn '.' with
      | nil => exact absurd h (List.splitOn_ne_nil '.' rest)
      | cons segment more => rfl

/-- Doubling the quotes of a name doubles them in every segment. -/
theorem split_double (dot : quote ≠ '.') (name : List Char) :
    split (Quoted.double quote name) = (split name).map (Quoted.double quote) := by
  induction name with
  | nil => rfl
  | cons c rest ih =>
    obtain ⟨segment, more, hsplit⟩ := List.exists_cons_of_ne_nil (split_ne_nil rest)
    rw [hsplit, List.map_cons] at ih
    by_cases hquote : c = quote
    · subst hquote
      simp [Quoted.double, split, dot, ih, hsplit]
    by_cases hc : c = '.'
    · simp [Quoted.double, split, dot.symm, hc, ih, hsplit]
    · simp [Quoted.double, split, hquote, hc, ih, hsplit]

theorem quoteChars_eq_written (dot : quote ≠ '.') (name : List Char) :
    quoteChars quote name = written quote (name.splitOn '.') := by
  rw [quoteChars, split_double dot, split_eq_splitOn, written, List.map_map]
  rfl

/-- What stands between the first and the last quote of written segments: their quotes are in pairs,
and between two segments a single quote stands on either side of a dot. -/
def interior (quote : Char) (segments : List (List Char)) : List Char :=
  [quote, '.', quote].intercalate (segments.map (Quoted.double quote))

theorem written_eq_interior {segments : List (List Char)} (nonempty : segments ≠ []) :
    written quote segments = quote :: (interior quote segments ++ [quote]) := by
  induction segments with
  | nil => contradiction
  | cons segment more ih =>
    cases more with
    | nil => simp [written, join, interior, Quoted.chars]
    | cons next more =>
      rw [written_cons_cons, ih (List.cons_ne_nil _ _)]
      simp [interior, Quoted.chars]

end Segments

end PortableQuery.Text
