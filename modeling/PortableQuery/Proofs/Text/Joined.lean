import Mathlib.Data.List.Infix

/-!
# Joined texts

The parts of a joined text stand in it as they are, and with a separator between them there are not
many more of them than characters.
-/

namespace PortableQuery.Text

theorem infix_intercalate {part : String} {parts : List String} (h : part ∈ parts)
    (separator : String) : part.toList <:+: (String.intercalate separator parts).toList := by
  induction parts with
  | nil => contradiction
  | cons first more ih =>
    cases more with
    | nil =>
      rw [String.intercalate_singleton]
      exact List.mem_singleton.mp h ▸ List.infix_rfl
    | cons next others =>
      rw [String.intercalate_cons_cons, String.toList_append]
      rcases List.mem_cons.mp h with rfl | hmore
      · rw [String.toList_append, List.append_assoc]
        exact (List.prefix_append _ _).isInfix
      · exact (ih hmore).trans (List.suffix_append _ _).isInfix

theorem length_le_intercalate_of_mem (separator : String) {part : String} {parts : List String}
    (h : part ∈ parts) : part.length ≤ (String.intercalate separator parts).length := by
  rw [← String.length_toList, ← String.length_toList]
  exact (infix_intercalate h separator).length_le

theorem length_le_intercalate {separator : String} (nonempty : separator ≠ "") (parts : List String) :
    parts.length ≤ (String.intercalate separator parts).toList.length + 1 := by
  have hseparator : 0 < separator.toList.length := by
    rw [List.length_pos_iff]
    exact fun h ↦ nonempty (String.toList_eq_nil_iff.mp h)
  induction parts with
  | nil => exact Nat.zero_le _
  | cons part more ih =>
    cases more with
    | nil => simp
    | cons next more =>
      rw [String.intercalate_cons_cons, String.toList_append, String.toList_append, List.length_append,
        List.length_append, List.length_cons]
      omega

end PortableQuery.Text
