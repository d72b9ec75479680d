import Mathlib.Data.List.TakeWhile
import PortableQuery.Proofs.Text.Quoted
import PortableQuery.Query.Expr
import PortableQuery.Sql.Render

/-!
# Column templates part by part

A template is a sequence of plain texts, string markers and identifier markers. A string marker is
closed by the last ampersand that no number sign stands before, so string markers with nothing but
plain text between them are one marker, whose literal reaches from the first of them to the last. In
every other case a template is expanded marker by marker. The marker of a text without number signs
is the literal of that text, unless the text is empty.
-/

namespace PortableQuery

open Text

namespace Sql

/-! ## Marks -/

section Marks

variable {mark : Char} {text before behind : List Char}

theorem splitLast?_of_not_mem (h : mark ∉ text) : splitLast? mark text = none := by
  induction text with
  | nil => rfl
  | cons c rest ih =>
    obtain ⟨hc, hrest⟩ := not_or.mp (mt List.mem_cons.mpr h)
    rw [splitLast?, ih hrest]
    exact if_neg (Ne.symm hc)

theorem splitLast?_append (before : List Char) (h : mark ∉ behind) :
    splitLast? mark (before ++ mark :: behind) = some (before, behind) := by
  induction before with
  | nil =>
    rw [List.nil_append, splitLast?, splitLast?_of_not_mem h]
    exact if_pos rfl
  | cons c rest ih => rw [List.cons_append, splitLast?, ih]

theorem eq_of_splitLast? (h : splitLast? mark text = some (before, behind)) :
    text = before ++ mark :: behind := by
  fun_induction splitLast? mark text generalizing before with
  | case1 => contradiction
  | case2 c rest inner last hinner ih =>
    obtain ⟨rfl, rfl⟩ := Prod.mk.inj (Option.some.inj h)
    rw [ih hinner, List.cons_append]
  | case3 rest =>
    obtain ⟨rfl, rfl⟩ := Prod.mk.inj (Option.some.inj h)
    rfl
  | case4 => contradiction

theorem splitFirst?_append (h : mark ∉ before) (behind : List Char) :
    splitFirst? mark (before ++ mark :: behind) = some (before, behind) := by
  induction before with
  | nil => exact if_pos rfl
  | cons c rest ih =>
    obtain ⟨hc, hrest⟩ := not_or.mp (mt List.mem_cons.mpr h)
    rw [List.cons_append, splitFirst?, if_neg (Ne.symm hc), ih hrest]

theorem eq_of_splitFirst? (h : splitFirst? mark text = some (before, behind)) :
    text = before ++ mark :: behind := by
  fun_induction splitFirst? mark text generalizing before with
  | case1 => contradiction
  | case2 rest =>
    obtain ⟨rfl, rfl⟩ := Prod.mk.inj (Option.some.inj h)
    rfl
  | case3 c rest _ inner last hinner ih =>
    obtain ⟨rfl, rfl⟩ := Prod.mk.inj (Option.some.inj h)
    rw [ih hinner, List.cons_append]
  | case4 => contradiction

theorem length_behind_le (h : text = before ++ mark :: behind) : behind.length ≤ text.length := by
  rw [h, List.length_append, List.length_cons]
  omega

end Marks

/-! ## Expansion step by step -/

/-- A text behind an ampersand, cut at the ampersand that closes it. -/
theorem eq_of_closing {rest literal behind : List Char}
    (h : splitLast? '&' (rest.takeWhile (· ≠ '#')) = some (literal, behind)) :
    rest = literal ++ '&' :: (behind ++ rest.dropWhile (· ≠ '#')) := by
  have hrest := List.takeWhile_append_dropWhile (p := fun c ↦ decide (c ≠ '#')) (l := rest)
  rw [eq_of_splitLast? h, List.append_assoc, List.cons_append] at hrest
  exact hrest.symm

namespace Dialect

variable (dialect : Dialect)

/-- Fuel beyond the length of the text is not used. -/
theorem expandStringsWith_succ {fuel : Nat} {text : List Char} (h : text.length ≤ fuel) :
    dialect.expandStringsWith (fuel + 1) text = dialect.expandStringsWith fuel text := by
  induction fuel generalizing text with
  | zero =>
    rw [List.length_eq_zero_iff.mp (Nat.le_zero.mp h)]
    rfl
  | succ fuel ih =>
    cases text with
    | nil => rfl
    | cons c rest =>
      have hrest : rest.length ≤ fuel := Nat.le_of_succ_le_succ h
      rw [expandStringsWith, expandStringsWith, ih hrest]
      rcases hclosing : splitLast? '&' (rest.takeWhile (· ≠ '#')) with
        _ | ⟨_ | ⟨d, literal⟩, behind⟩
      · rfl
      · rfl
      · have hbehind := Nat.le_trans (length_behind_le (eq_of_closing hclosing)) hrest
        simp only [ih hbehind]

theorem expandStringsWith_eq {fuel : Nat} {text : List Char} (h : text.length ≤ fuel) :
    dialect.expandStringsWith fuel text = dialect.expandStrings text := by
  induction h with
  | refl => rfl
  | step hfuel ih => rw [dialect.expandStringsWith_succ hfuel, ih]

theorem expandStrings_cons {c : Char} (h : c ≠ '&') (rest : List Char) :
    dialect.expandStrings (c :: rest) = c :: dialect.expandStrings rest := by
  rw [expandStrings, List.length_cons, expandStringsWith, if_neg h]
  rfl

/-- Text without ampersands is copied. -/
theorem expandStrings_append {plain : List Char} (h : '&' ∉ plain) (rest : List Char) :
    dialect.expandStrings (plain ++ rest) = plain ++ dialect.expandStrings rest := by
  induction plain with
  | nil => rfl
  | cons c more ih =>
    obtain ⟨hc, hmore⟩ := not_or.mp (mt List.mem_cons.mpr h)
    rw [List.cons_append, dialect.expandStrings_cons (Ne.symm hc), ih hmore, List.cons_append]

theorem expandStrings_closing {rest literal behind : List Char} (nonempty : literal ≠ [])
    (h : splitLast? '&' (rest.takeWhile (· ≠ '#')) = some (literal, behind)) :
    dialect.expandStrings ('&' :: rest) =
      Quoted.chars dialect.stringQuote literal ++
        dialect.expandStrings (behind ++ rest.dropWhile (· ≠ '#')) := by
  obtain ⟨d, more, rfl⟩ := List.exists_cons_of_ne_nil nonempty
  have hbehind := length_behind_le (eq_of_closing h)
  rw [expandStrings, List.length_cons, expandStringsWith, if_pos rfl, h]
  simp only
  rw [dialect.expandStringsWith_eq hbehind]

theorem expandStrings_stray {rest : List Char}
    (h : ∀ literal behind, splitLast? '&' (rest.takeWhile (· ≠ '#')) = some (literal, behind) →
      literal = []) :
    dialect.expandStrings ('&' :: rest) = '&' :: dialect.expandStrings rest := by
  rw [expandStrings, List.length_cons, expandStringsWith, if_pos rfl]
  split
  · rename_i hclosing
    exact absurd (h _ _ hclosing) (List.cons_ne_nil _ _)
  · rfl

/-- A string marker with no other ampersand before the next number sign becomes its literal. -/
theorem expandStrings_marker {literal rest : List Char} (nonempty : literal ≠ [])
    (inside : '#' ∉ literal) (h : '&' ∉ rest.takeWhile (· ≠ '#')) :
    dialect.expandStrings ('&' :: (literal ++ '&' :: rest)) =
      Quoted.chars dialect.stringQuote literal ++ dialect.expandStrings rest := by
  have hkept : ∀ c ∈ literal, decide (c ≠ '#') = true :=
    fun c hc ↦ decide_eq_true fun heq ↦ inside (heq ▸ hc)
  have htake : (literal ++ '&' :: rest).takeWhile (· ≠ '#') =
      literal ++ '&' :: rest.takeWhile (· ≠ '#') := by
    rw [List.takeWhile_append_of_pos hkept, List.takeWhile_cons_of_pos (by decide)]
  have hdrop : (literal ++ '&' :: rest).dropWhile (· ≠ '#') = rest.dropWhile (· ≠ '#') := by
    rw [List.dropWhile_append_of_pos hkept, List.dropWhile_cons_of_pos (by decide)]
  have hclosing : splitLast? '&' ((literal ++ '&' :: rest).takeWhile (· ≠ '#')) =
      some (literal, rest.takeWhile (· ≠ '#')) := by
    rw [htake, splitLast?_append literal h]
  rw [dialect.expandStrings_closing nonempty hclosing, hdrop, List.takeWhile_append_dropWhile]

theorem expandIdentifiersWith_succ {fuel : Nat} {text : List Char} (h : text.length ≤ fuel) :
    dialect.expandIdentifiersWith (fuel + 1) text = dialect.expandIdentifiersWith fuel text := by
  induction fuel generalizing text with
  | zero =>
    rw [List.length_eq_zero_iff.mp (Nat.le_zero.mp h)]
    rfl
  | succ fuel ih =>
    cases text with
    | nil => rfl
    | cons c rest =>
      have hrest : rest.length ≤ fuel := Nat.le_of_succ_le_succ h
      rw [expandIdentifiersWith, expandIdentifiersWith, ih hrest]
      rcases hclosing : splitFirst? '#' rest with _ | ⟨_ | ⟨d, name⟩, behind⟩
      · rfl
      · rfl
      · have hbehind := Nat.le_trans (length_behind_le (eq_of_splitFirst? hclosing)) hrest
        simp only [ih hbehind]

theorem expandIdentifiersWith_eq {fuel : Nat} {text : List Char} (h : text.length ≤ fuel) :
    dialect.expandIdentifiersWith fuel text = dialect.expandIdentifiers text := by
  induction h with
  | refl => rfl
  | step hfuel ih => rw [dialect.expandIdentifiersWith_succ hfuel, ih]

theorem expandIdentifiers_cons {c : Char} (h : c ≠ '#') (rest : List Char) :
    dialect.expandIdentifiers (c :: rest) = c :: dialect.expandIdentifiers rest := by
  rw [expandIdentifiers, List.length_cons, expandIdentifiersWith, if_neg h]
  rfl

/-- Text without number signs is copied. -/
theorem expandIdentifiers_append {plain : List Char} (h : '#' ∉ plain) (rest : List Char) :
    dialect.expandIdentifiers (plain ++ rest) = plain ++ dialect.expandIdentifiers rest := by
  induction plain with
  | nil => rfl
  | cons c more ih =>
    obtain ⟨hc, hmore⟩ := not_or.mp (mt List.mem_cons.mpr h)
    rw [List.cons_append, dialect.expandIdentifiers_cons (Ne.symm hc), ih hmore, List.cons_append]

theorem expandIdentifiers_marker {name : List Char} (nonempty : name ≠ []) (inside : '#' ∉ name)
    (rest : List Char) :
    dialect.expandIdentifiers ('#' :: (name ++ '#' :: rest)) =
      (dialect.identifier (String.ofList name)).toList ++ dialect.expandIdentifiers rest := by
  obtain ⟨d, more, rfl⟩ := List.exists_cons_of_ne_nil nonempty
  have hrest : rest.length ≤ (d :: more ++ '#' :: rest).length := length_behind_le rfl
  rw [expandIdentifiers, List.length_cons, expandIdentifiersWith, if_pos rfl,
    splitFirst?_append inside rest]
  simp only
  rw [dialect.expandIdentifiersWith_eq hrest]

theorem expand_of_not_mem {text : String} (string : '&' ∉ text.toList) (identifier : '#' ∉ text.toList) :
    dialect.expand text = text := by
  have hstrings := dialect.expandStrings_append string []
  have hidentifiers := dialect.expandIdentifiers_append identifier []
  rw [List.append_nil] at hstrings hidentifiers
  rw [expand, hstrings, expandStrings, List.length_nil, expandStringsWith, List.append_nil,
    hidentifiers, expandIdentifiers, List.length_nil, expandIdentifiersWith, List.append_nil,
    String.ofList_toList]

end Dialect

/-! ## Parts of a template -/

/-- A part of a column template. -/
inductive TemplatePart
  | plain (text : String)
  | string (text : String)
  | identifier (name : String)
  deriving DecidableEq

namespace TemplatePart

/-- A part as it is written in a template. -/
def written : TemplatePart → String
  | plain text => text
  | string text => Expr.stringMarker text
  | identifier name => Expr.identifierMarker name

/-- What stands for a part in the expanded template. -/
def expanded (dialect : Dialect) : TemplatePart → String
  | plain text => text
  | string text => dialect.string text
  | identifier name => dialect.identifier name

/-- A part between the two passes: strings are literals, identifiers still have their marks. -/
def halfway (dialect : Dialect) : TemplatePart → String
  | plain text => text
  | string text => dialect.string text
  | identifier name => Expr.identifierMarker name

/-- No marks in plain texts and in names, no number sign in strings, and no empty markers. -/
def Admissible : TemplatePart → Prop
  | plain text => '&' ∉ text.toList ∧ '#' ∉ text.toList
  | string text => text ≠ "" ∧ '#' ∉ text.toList
  | identifier name => name ≠ "" ∧ '&' ∉ name.toList ∧ '#' ∉ name.toList

instance : (part : TemplatePart) → Decidable part.Admissible
  | plain text => inferInstanceAs (Decidable ('&' ∉ text.toList ∧ '#' ∉ text.toList))
  | string text => inferInstanceAs (Decidable (text ≠ "" ∧ '#' ∉ text.toList))
  | identifier name =>
    inferInstanceAs (Decidable (name ≠ "" ∧ '&' ∉ name.toList ∧ '#' ∉ name.toList))

end TemplatePart

open TemplatePart

/-- The template that consists of parts. -/
def template (parts : List TemplatePart) : String := String.join (parts.map written)

/-- The parts of a template, each expanded by itself. -/
def expansion (dialect : Dialect) (parts : List TemplatePart) : String :=
  String.join (parts.map (expanded dialect))

/-- Parts in which a string marker comes before any identifier marker. -/
def LeadsToString (parts : List TemplatePart) : Prop :=
  ∃ between text behind, parts = between ++ .string text :: behind ∧
    ∀ name, .identifier name ∉ between

/-- Between any two string markers stands an identifier marker. -/
def StringsApart (parts : List TemplatePart) : Prop :=
  ∀ before text behind, parts = before ++ .string text :: behind → ¬LeadsToString behind

/-- The plain text before a string marker that no identifier marker precedes, the text in that marker
and the parts behind it. -/
def leading? : List TemplatePart → Option (String × String × List TemplatePart)
  | [] => none
  | .plain text :: rest => (leading? rest).map (Prod.map (text ++ ·) id)
  | .string text :: rest => some ("", text, rest)
  | .identifier _ :: _ => none

/-- String markers with nothing but plain text between them taken for one: its text reaches from the
first of them to the last. -/
def merge : List TemplatePart → List TemplatePart
  | [] => []
  | .string text :: rest =>
    match leading? (merge rest) with
    | some (between, next, behind) => .string (text ++ "&" ++ between ++ "&" ++ next) :: behind
    | none => .string text :: merge rest
  | part :: rest => part :: merge rest

section Parts

variable {part : TemplatePart} {parts : List TemplatePart}

theorem template_cons (part : TemplatePart) (parts : List TemplatePart) :
    template (part :: parts) = part.written ++ template parts := by
  rw [template, List.map_cons, String.join_cons, template]

theorem expansion_cons (dialect : Dialect) (part : TemplatePart) (parts : List TemplatePart) :
    expansion dialect (part :: parts) = part.expanded dialect ++ expansion dialect parts := by
  rw [expansion, List.map_cons, String.join_cons, expansion]

theorem template_append (parts others : List TemplatePart) :
    template (parts ++ others) = template parts ++ template others := by
  rw [template, List.map_append, String.join_append, template, template]

/-! ### Strings apart -/

theorem not_leadsToString_nil : ¬LeadsToString [] := by
  rintro ⟨between, text, behind, h, -⟩
  simp at h

theorem leadsToString_plain (text : String) :
    LeadsToString (.plain text :: parts) ↔ LeadsToString parts := by
  constructor
  · rintro ⟨_ | ⟨first, between⟩, found, behind, h, hbetween⟩
    · simp at h
    · refine ⟨between, found, behind, (List.cons.inj h).2, fun name hname ↦ ?_⟩
      exact hbetween name (List.mem_cons_of_mem _ hname)
  · rintro ⟨between, found, behind, rfl, hbetween⟩
    exact ⟨.plain text :: between, found, behind, rfl, by simpa using hbetween⟩

theorem leadsToString_string (text : String) : LeadsToString (.string text :: parts) :=
  ⟨[], text, parts, rfl, fun _ ↦ List.not_mem_nil⟩

theorem not_leadsToString_identifier (name : String) : ¬LeadsToString (.identifier name :: parts) := by
  rintro ⟨_ | ⟨first, between⟩, found, behind, h, hbetween⟩
  · simp at h
  · obtain ⟨rfl, -⟩ := List.cons.inj h
    exact hbetween name List.mem_cons_self

theorem stringsApart_cons :
    StringsApart (part :: parts) ↔
      (∀ text, part = .string text → ¬LeadsToString parts) ∧ StringsApart parts := by
  constructor
  · intro h
    refine ⟨fun text htext ↦ h [] text parts (by rw [htext]; rfl), ?_⟩
    rintro before text behind rfl
    exact h (part :: before) text behind rfl
  · rintro ⟨hpart, hparts⟩ (_ | ⟨first, before⟩) text behind h
    · obtain ⟨rfl, rfl⟩ := List.cons.inj h
      exact hpart text rfl
    · exact hparts before text behind (List.cons.inj h).2

theorem leading?_eq_none_iff : leading? parts = none ↔ ¬LeadsToString parts := by
  induction parts with
  | nil => exact iff_of_true rfl not_leadsToString_nil
  | cons part rest ih =>
    cases part with
    | plain text => rw [leadsToString_plain, ← ih, leading?, Option.map_eq_none_iff]
    | string text => exact iff_of_false nofun (not_not_intro (leadsToString_string text))
    | identifier name => exact iff_of_true rfl (not_leadsToString_identifier name)

theorem StringsApart.of_append {others : List TemplatePart} (h : StringsApart (others ++ parts)) :
    StringsApart parts := by
  rintro before text behind rfl
  exact h (others ++ before) text behind (List.append_assoc _ _ _).symm

/-! ### Merged parts -/

theorem eq_of_leading? {between text : String} {behind : List TemplatePart}
    (h : leading? parts = some (between, text, behind)) :
    ∃ plains : List String,
      parts = plains.map .plain ++ .string text :: behind ∧ between = String.join plains := by
  induction parts generalizing between with
  | nil => contradiction
  | cons part rest ih =>
    cases part with
    | plain first =>
      obtain ⟨⟨inner, found⟩, hinner, heq⟩ := Option.map_eq_some_iff.mp h
      obtain ⟨rfl, rfl⟩ := Prod.mk.inj heq
      obtain ⟨plains, rfl, rfl⟩ := ih hinner
      exact ⟨first :: plains, rfl, String.join_cons.symm⟩
    | string first =>
      obtain ⟨rfl, hfound⟩ := Prod.mk.inj (Option.some.inj h)
      obtain ⟨rfl, rfl⟩ := Prod.mk.inj hfound
      exact ⟨[], rfl, String.join_nil.symm⟩
    | identifier name => contradiction

/-- A string marker stays as it is or takes in the next one. -/
theorem merge_string (text : String) (rest : List TemplatePart) :
    (¬LeadsToString (merge rest) ∧ merge (.string text :: rest) = .string text :: merge rest) ∨
      ∃ plains next behind,
        merge rest = plains.map .plain ++ .string next :: behind ∧
          merge (.string text :: rest) =
            .string (text ++ "&" ++ String.join plains ++ "&" ++ next) :: behind := by
  cases hleading : leading? (merge rest) with
  | none => exact .inl ⟨leading?_eq_none_iff.mp hleading, by rw [merge, hleading]⟩
  | some found =>
    obtain ⟨between, next, behind⟩ := found
    obtain ⟨plains, hrest, rfl⟩ := eq_of_leading? hleading
    exact .inr ⟨plains, next, behind, hrest, by rw [merge, hleading]⟩

theorem template_plain (plains : List String) : template (plains.map .plain) = String.join plains := by
  rw [template, List.map_map]
  exact congrArg String.join (List.map_id plains)

/-- Merging leaves the template as it is. -/
theorem template_merge (parts : List TemplatePart) : template (merge parts) = template parts := by
  induction parts with
  | nil => rfl
  | cons part rest ih =>
    rw [template_cons, ← ih]
    cases part with
    | plain text => exact template_cons _ _
    | identifier name => exact template_cons _ _
    | string text =>
      obtain ⟨-, hmerge⟩ | ⟨plains, next, behind, hrest, hmerge⟩ := merge_string text rest
      · rw [hmerge, template_cons]
      · rw [hmerge, hrest, template_append, template_plain, template_cons, template_cons]
        simp only [written, Expr.stringMarker, String.append_assoc]

theorem admissible_merge (h : ∀ part ∈ parts, part.Admissible) :
    ∀ part ∈ merge parts, part.Admissible := by
  induction parts with
  | nil => exact h
  | cons part rest ih =>
    obtain ⟨hpart, hrest⟩ := List.forall_mem_cons.mp h
    have hinner := ih hrest
    cases part with
    | plain text => exact List.forall_mem_cons.mpr ⟨hpart, hinner⟩
    | identifier name => exact List.forall_mem_cons.mpr ⟨hpart, hinner⟩
    | string text =>
      obtain ⟨-, hmerge⟩ | ⟨plains, next, behind, hrest, hmerge⟩ := merge_string text rest
      · rw [hmerge]
        exact List.forall_mem_cons.mpr ⟨hpart, hinner⟩
      · rw [hrest, List.forall_mem_append, List.forall_mem_cons] at hinner
        obtain ⟨hplains, hnext, hbehind⟩ := hinner
        have hbetween : ∀ plain ∈ plains, '#' ∉ plain.toList :=
          fun plain hplain ↦ (hplains _ (List.mem_map_of_mem hplain)).2
        rw [hmerge]
        refine List.forall_mem_cons.mpr ⟨⟨by simp, ?_⟩, hbehind⟩
        simpa [hpart.2, hnext.2] using hbetween

theorem stringsApart_merge (parts : List TemplatePart) : StringsApart (merge parts) := by
  induction parts with
  | nil =>
    rintro before text behind h
    simp [merge] at h
  | cons part rest ih =>
    cases part with
    | plain text => exact stringsApart_cons.mpr ⟨nofun, ih⟩
    | identifier name => exact stringsApart_cons.mpr ⟨nofun, ih⟩
    | string text =>
      obtain ⟨hleads, hmerge⟩ | ⟨plains, next, behind, hrest, hmerge⟩ := merge_string text rest
      · rw [hmerge]
        exact stringsApart_cons.mpr ⟨fun _ _ ↦ hleads, ih⟩
      · rw [hrest] at ih
        obtain ⟨hnext, hbehind⟩ := stringsApart_cons.mp ih.of_append
        rw [hmerge]
        exact stringsApart_cons.mpr ⟨fun _ _ ↦ hnext next rfl, hbehind⟩

theorem merge_of_stringsApart (h : StringsApart parts) : merge parts = parts := by
  induction parts with
  | nil => rfl
  | cons part rest ih =>
    obtain ⟨hpart, hrest⟩ := stringsApart_cons.mp h
    cases part with
    | plain text => exact congrArg _ (ih hrest)
    | identifier name => exact congrArg _ (ih hrest)
    | string text => rw [merge, ih hrest, leading?_eq_none_iff.mpr (hpart text rfl)]

theorem merge_eq_self_iff : merge parts = parts ↔ StringsApart parts :=
  ⟨fun h ↦ h ▸ stringsApart_merge parts, merge_of_stringsApart⟩

instance (parts : List TemplatePart) : Decidable (StringsApart parts) :=
  decidable_of_iff _ merge_eq_self_iff

/-- A literal that goes on with an ampersand is not one that ends there, whatever stands behind. -/
theorem chars_append_ne {quote : Char} (h : quote ≠ '&') (text more rest others : List Char) :
    Quoted.chars quote (text ++ '&' :: more) ++ rest ≠ Quoted.chars quote text ++ others := by
  intro heq
  rw [Quoted.chars, Quoted.chars, Quoted.double_append, Quoted.double, if_neg h.symm] at heq
  simp only [List.cons_append, List.append_assoc, List.cons_inj_right, List.append_cancel_left_eq,
    List.nil_append] at heq
  exact h (List.cons.inj heq).1.symm

theorem Dialect.stringQuote_ne_ampersand (dialect : Dialect) : dialect.stringQuote ≠ '&' := by
  cases dialect <;> decide

/-- Merging changes what the parts stand for unless strings are apart. -/
theorem expansion_merge_iff (dialect : Dialect) :
    expansion dialect (merge parts) = expansion dialect parts ↔ StringsApart parts := by
  refine ⟨fun h ↦ ?_, fun h ↦ by rw [merge_of_stringsApart h]⟩
  induction parts with
  | nil => exact stringsApart_merge []
  | cons part rest ih =>
    cases part with
    | plain text =>
      rw [merge, expansion_cons, expansion_cons, String.append_right_inj] at h
      · exact stringsApart_cons.mpr ⟨nofun, ih h⟩
      · exact nofun
    | identifier name =>
      rw [merge, expansion_cons, expansion_cons, String.append_right_inj] at h
      · exact stringsApart_cons.mpr ⟨nofun, ih h⟩
      · exact nofun
    | string text =>
      obtain ⟨hleads, hmerge⟩ | ⟨plains, next, behind, -, hmerge⟩ := merge_string text rest
      · rw [hmerge, expansion_cons, expansion_cons, String.append_right_inj] at h
        rw [merge_of_stringsApart (ih h)] at hleads
        exact stringsApart_cons.mpr ⟨fun _ _ ↦ hleads, ih h⟩
      · -- The merged literal goes on where the first of the separate ones is closed.
        rw [hmerge, expansion_cons, expansion_cons, ← String.toList_inj] at h
        simp only [expanded, Dialect.string, Quoted.encode, String.append_assoc, String.toList_append,
          String.toList_ofList] at h
        exact absurd h (chars_append_ne dialect.stringQuote_ne_ampersand _ _ _ _)

/-! ### Expanded templates -/

namespace Dialect

variable (dialect : Dialect)

theorem ampersand_notMem_takeWhile (admissible : ∀ part ∈ parts, part.Admissible)
    (h : ¬LeadsToString parts) : '&' ∉ (template parts).toList.takeWhile (· ≠ '#') := by
  induction parts with
  | nil => exact List.not_mem_nil
  | cons part rest ih =>
    obtain ⟨hpart, hrest⟩ := List.forall_mem_cons.mp admissible
    rw [template_cons, String.toList_append]
    cases part with
    | plain text =>
      have hkept : ∀ c ∈ text.toList, decide (c ≠ '#') = true :=
        fun c hc ↦ decide_eq_true fun heq ↦ hpart.2 (heq ▸ hc)
      rw [leadsToString_plain] at h
      rw [written, List.takeWhile_append_of_pos hkept, List.mem_append, not_or]
      exact ⟨hpart.1, ih hrest h⟩
    | string text => exact absurd (leadsToString_string text) h
    | identifier name => simp [written, Expr.identifierMarker]

theorem expandStrings_template (admissible : ∀ part ∈ parts, part.Admissible)
    (apart : StringsApart parts) :
    dialect.expandStrings (template parts).toList =
      (String.join (parts.map (halfway dialect))).toList := by
  induction parts with
  | nil => rfl
  | cons part rest ih =>
    obtain ⟨hpart, hrest⟩ := List.forall_mem_cons.mp admissible
    obtain ⟨hleads, hapart⟩ := stringsApart_cons.mp apart
    rw [template_cons, List.map_cons, String.join_cons, String.toList_append, String.toList_append,
      ← ih hrest hapart]
    cases part with
    | plain text => exact dialect.expandStrings_append hpart.1 _
    | identifier name =>
      refine dialect.expandStrings_append ?_ _
      simp [written, Expr.identifierMarker, hpart.2.1]
    | string text =>
      have hbehind := ampersand_notMem_takeWhile hrest (hleads text rfl)
      have hmarker := dialect.expandStrings_marker (mt String.toList_eq_nil_iff.mp hpart.1) hpart.2
        hbehind
      simpa [written, Expr.stringMarker, halfway, Dialect.string, Quoted.encode] using hmarker

theorem stringQuote_ne_numberSign : dialect.stringQuote ≠ '#' := by cases dialect <;> decide

theorem numberSign_notMem_chars {text : List Char} (h : '#' ∉ text) :
    '#' ∉ Quoted.chars dialect.stringQuote text := by
  simp [Quoted.chars, Quoted.mem_double, h, dialect.stringQuote_ne_numberSign.symm]

theorem expandIdentifiers_halfway (admissible : ∀ part ∈ parts, part.Admissible) :
    dialect.expandIdentifiers (String.join (parts.map (halfway dialect))).toList =
      (expansion dialect parts).toList := by
  induction parts with
  | nil => rfl
  | cons part rest ih =>
    obtain ⟨hpart, hrest⟩ := List.forall_mem_cons.mp admissible
    rw [expansion_cons, List.map_cons, String.join_cons, String.toList_append, String.toList_append,
      ← ih hrest]
    cases part with
    | plain text => exact dialect.expandIdentifiers_append hpart.2 _
    | string text =>
      have hliteral := dialect.expandIdentifiers_append (dialect.numberSign_notMem_chars hpart.2)
        (String.join (rest.map (halfway dialect))).toList
      simpa [halfway, expanded, Dialect.string, Quoted.encode] using hliteral
    | identifier name =>
      have hmarker := dialect.expandIdentifiers_marker (mt String.toList_eq_nil_iff.mp hpart.1) hpart.2.2
        (String.join (rest.map (halfway dialect))).toList
      simpa [halfway, Expr.identifierMarker, expanded] using hmarker

theorem expand_of_stringsApart (admissible : ∀ part ∈ parts, part.Admissible)
    (apart : StringsApart parts) : dialect.expand (template parts) = expansion dialect parts := by
  rw [expand, dialect.expandStrings_template admissible apart,
    dialect.expandIdentifiers_halfway admissible, String.ofList_toList]

/-- A template is expanded part by part once string markers with nothing but plain text between them
are taken for one, and as it was put together exactly if there are no such markers. -/
theorem expand_template (admissible : ∀ part ∈ parts, part.Admissible) :
    dialect.expand (template parts) = expansion dialect (merge parts) ∧
      (dialect.expand (template parts) = expansion dialect parts ↔ StringsApart parts) := by
  have hmerge : dialect.expand (template parts) = expansion dialect (merge parts) := by
    rw [← template_merge]
    exact dialect.expand_of_stringsApart (admissible_merge admissible) (stringsApart_merge parts)
  refine ⟨hmerge, ?_⟩
  rw [hmerge]
  exact expansion_merge_iff dialect

theorem expand_template_markersInTurn :
    StringsApart [.plain "CONCAT(", .string "it's", .plain ", ", .identifier "a.b", .string "c",
        .plain ")"] ∧
      postgres.expand "CONCAT(&it's&, #a.b#&c&)" = "CONCAT('it\'\'s', \"a\".\"b\"'c')" := by
  have hadmissible : ∀ part ∈ [TemplatePart.plain "CONCAT(", .string "it's", .plain ", ",
      .identifier "a.b", .string "c", .plain ")"], part.Admissible := by decide
  have hapart : StringsApart [.plain "CONCAT(", .string "it's", .plain ", ", .identifier "a.b",
      .string "c", .plain ")"] := by decide
  exact ⟨hapart, (postgres.expand_template hadmissible).2.mpr hapart⟩

/-- Two string markers in a list of arguments are written like the marker of a single string, and they
are read as that. -/
theorem expand_template_adjacentStrings :
    (∀ part ∈ [TemplatePart.plain "CONCAT(", .string "a", .plain ", ", .string "b", .plain ")"],
        part.Admissible) ∧
      template [.plain "CONCAT(", .string "a", .plain ", ", .string "b", .plain ")"] =
        template [.plain "CONCAT(", .string "a&, &b", .plain ")"] ∧
      mysql.expand (template [.plain "CONCAT(", .string "a", .plain ", ", .string "b", .plain ")"]) =
        "CONCAT(\"a&, &b\")" ∧
      expansion mysql [.plain "CONCAT(", .string "a", .plain ", ", .string "b", .plain ")"] =
        "CONCAT(\"a\", \"b\")" := by
  decide

end Dialect

end Parts

/-! ## String literals as expressions -/

namespace Dialect

variable (dialect : Dialect)

/-- Text with a string quote passes for an expression written out in full. -/
theorem lenientIdentifier_of_stringQuote {name : String} (h : dialect.stringQuote ∈ name.toList) :
    dialect.lenientIdentifier name = name := by
  have hplain : isPlainIdentifier name = false := by
    rw [isPlainIdentifier, Bool.and_eq_false_iff]
    refine .inr (List.all_eq_false.mpr ⟨_, h, ?_⟩)
    cases dialect <;> decide
  have hinline : dialect.isInlineFragment name = true := by
    have hquote : name.toList.any (fun c ↦ c = dialect.columnQuote || c = dialect.stringQuote ||
        c = '(' || c = ')' || c = ' ' || c = ',') = true :=
      List.any_eq_true.mpr ⟨_, h, by simp⟩
    simp only [isInlineFragment, hquote, Bool.true_or]
  simp [lenientIdentifier, hplain, hinline]

theorem head?_lenientIdentifier (name : String) :
    (dialect.lenientIdentifier name).toList.head? = name.toList.head? ∨
      (dialect.lenientIdentifier name).toList.head? = some dialect.columnQuote := by
  rw [lenientIdentifier]
  split
  · exact .inl rfl
  · split
    · exact .inl rfl
    · obtain ⟨rest, hrest⟩ := Segments.quoteChars_eq_cons dialect.columnQuote name.toList
      right
      rw [Segments.quote, String.toList_ofList, hrest, List.head?_cons]

theorem toList_stringMarker (text : String) :
    (Expr.stringMarker text).toList = '&' :: (text.toList ++ ['&']) := by
  simp [Expr.stringMarker]

theorem column_stringMarker {text : String} (nonempty : text ≠ "") (h : '#' ∉ text.toList) :
    dialect.column (Expr.stringMarker text) = dialect.string text := by
  have hadmissible : ∀ part ∈ [TemplatePart.string text], part.Admissible :=
    List.forall_mem_singleton.mpr ⟨nonempty, h⟩
  have hapart : StringsApart [.string text] :=
    stringsApart_cons.mpr ⟨fun _ _ ↦ not_leadsToString_nil, stringsApart_merge []⟩
  have hexpand : dialect.expand (Expr.stringMarker text) = dialect.string text := by
    simpa [template, expansion, written, expanded] using
      dialect.expand_of_stringsApart hadmissible hapart
  rw [column, hexpand]
  apply dialect.lenientIdentifier_of_stringQuote
  rw [Dialect.string, Quoted.encode, String.toList_ofList]
  exact List.mem_cons_self

/-- With a number sign in the text its marker is closed early or not at all. -/
theorem expand_stringMarker_of_mem {text : String} (h : '#' ∈ text.toList) :
    (∃ literal more rest, text.toList = literal ++ '&' :: more ∧
        (dialect.expand (Expr.stringMarker text)).toList =
          Quoted.chars dialect.stringQuote literal ++ rest) ∨
      ∃ rest, (dialect.expand (Expr.stringMarker text)).toList = '&' :: rest := by
  -- The ampersand behind the text is out of reach: the number sign stands before it.
  have htake : (text.toList ++ ['&']).takeWhile (· ≠ '#') = text.toList.takeWhile (· ≠ '#') := by
    rw [List.takeWhile_append, if_neg]
    intro hlength
    have hwhole := (List.takeWhile_prefix (· ≠ '#')).eq_of_length hlength
    simpa using List.takeWhile_eq_self_iff.mp hwhole '#' h
  rw [expand, toList_stringMarker, String.toList_ofList]
  by_cases hclosed : ∃ literal behind, literal ≠ [] ∧
      splitLast? '&' (text.toList.takeWhile (· ≠ '#')) = some (literal, behind)
  · obtain ⟨literal, behind, nonempty, hclosing⟩ := hclosed
    have hinside : '#' ∉ literal := by
      intro hmem
      have hkept : '#' ∈ text.toList.takeWhile (· ≠ '#') := by
        rw [eq_of_splitLast? hclosing]
        exact List.mem_append_left _ hmem
      simpa using List.mem_takeWhile_imp hkept
    rw [dialect.expandStrings_closing nonempty (htake ▸ hclosing),
      dialect.expandIdentifiers_append (dialect.numberSign_notMem_chars hinside)]
    exact .inl ⟨literal, _, _, eq_of_closing hclosing, rfl⟩
  · have hstray (literal behind : List Char) (hclosing : splitLast? '&'
        ((text.toList ++ ['&']).takeWhile (· ≠ '#')) = some (literal, behind)) : literal = [] :=
      by_contra fun nonempty ↦ hclosed ⟨literal, behind, nonempty, htake ▸ hclosing⟩
    rw [dialect.expandStrings_stray hstray, dialect.expandIdentifiers_cons (by decide)]
    exact .inr ⟨_, rfl⟩

theorem column_stringMarker_ne {text : String} (h : '#' ∈ text.toList) :
    dialect.column (Expr.stringMarker text) ≠ dialect.string text := by
  intro heq
  rw [column, ← String.toList_inj, Dialect.string, Quoted.encode, String.toList_ofList] at heq
  obtain ⟨literal, more, rest, htext, hexpand⟩ | ⟨rest, hexpand⟩ :=
    dialect.expand_stringMarker_of_mem h
  · have hquote : dialect.stringQuote ∈ (dialect.expand (Expr.stringMarker text)).toList := by
      rw [hexpand]
      exact List.mem_cons_self
    rw [dialect.lenientIdentifier_of_stringQuote hquote, hexpand, htext] at heq
    exact chars_append_ne dialect.stringQuote_ne_ampersand literal more [] rest (by simpa using heq.symm)
  · have hhead := congrArg List.head? heq
    obtain hlenient | hlenient := dialect.head?_lenientIdentifier (dialect.expand (Expr.stringMarker text))
    · rw [hlenient, hexpand] at hhead
      exact dialect.stringQuote_ne_ampersand (Option.some.inj hhead).symm
    · rw [hlenient] at hhead
      exact absurd (Option.some.inj hhead) (by cases dialect <;> decide)

end Dialect

end Sql

namespace Expr

/-- A string expression is its literal exactly if the text is not empty and has no number sign; the
expression of the empty text is a quoted identifier. -/
theorem stringColumn_sql_iff (rendering : Sql.Rendering) (text : String) :
    ((stringColumn text).sql rendering = .ok (rendering.dialect.string text) ↔
        text ≠ "" ∧ '#' ∉ text.toList) ∧
      (stringColumn "").sql rendering = .ok (Segments.quote rendering.dialect.columnQuote "&&") := by
  have hempty (dialect : Sql.Dialect) :
      dialect.column (stringMarker "") = Segments.quote dialect.columnQuote "&&" := by
    cases dialect <;> decide
  rw [stringColumn, stringColumn, sql, sql, Except.ok.injEq, hempty]
  refine ⟨⟨fun heq ↦ ⟨?_, ?_⟩, ?_⟩, rfl⟩
  · -- The empty string's literal and the name between identifier quotes differ in every dialect.
    rintro rfl
    rw [hempty] at heq
    generalize rendering.dialect = dialect at heq
    cases dialect <;> exact absurd heq (by decide)
  · exact fun h ↦ rendering.dialect.column_stringMarker_ne h heq
  · rintro ⟨nonempty, h⟩
    exact rendering.dialect.column_stringMarker nonempty h

end Expr

end PortableQuery
