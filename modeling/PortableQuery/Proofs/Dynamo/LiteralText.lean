import Mathlib.Data.List.Infix
import PortableQuery.Proofs.Dynamo.Acceptance
import PortableQuery.Proofs.Text.Joined
import PortableQuery.Proofs.Text.Numeral
import PortableQuery.Proofs.Text.Quoted

/-!
# Literals in PartiQL

A literal of null, booleans, integers and strings, in lists and maps at any depth, always has a text.
Read by the grammar of literals this text is the literal again, whatever characters its strings and
names are made of, so no two such literals are written alike.
-/

namespace PortableQuery

open Text Dynamo

/-- Null, booleans, integers and strings, and lists and maps of these at any depth. -/
inductive Literal.Simple : Literal → Prop
  | null : Simple .null
  | bool (value : Bool) : Simple (.bool value)
  | int (value : Int64) : Simple (.int value)
  | string (text : String) : Simple (.string text)
  | list {items : List Literal} (members : ∀ item ∈ items, Simple item) : Simple (.list items)
  | map {entries : List (String × Literal)} (members : ∀ entry ∈ entries, Simple entry.2) :
    Simple (.map entries)

namespace Dynamo.LiteralText

/-! ## The grammar -/

def skip (text : List Char) : List Char := text.dropWhile (· = ' ')

section Sequence

variable {α : Type} (part? : List Char → Option (α × List Char)) (closing : Char)

/-- One or more parts with commas between them, up to a closing character. The bound counts down with
every part. -/
def parts? : Nat → List Char → Option (List α × List Char)
  | 0, _ => none
  | bound + 1, text => do
    let (first, rest) ← part? text
    match skip rest with
    | [] => none
    | c :: rest =>
      if c = ',' then
        let (others, rest) ← parts? bound rest
        return (first :: others, rest)
      else if c = closing then return ([first], rest)
      else none

/-- Any number of parts up to a closing character. -/
def sequence? (text : List Char) : Option (List α × List Char) :=
  parts? part? closing text.length text <|> do
    let rest ← (skip text).dropPrefix? [closing]
    return ([], rest)

end Sequence

/-- A quoted name and the value behind a colon. -/
def namedValue? (value? : List Char → Option (Literal × List Char)) (text : List Char) :
    Option ((String × Literal) × List Char) := do
  let (name, rest) ← Quoted.read? '\'' (skip text)
  let rest ← (skip rest).dropPrefix? [':']
  let (value, rest) ← value? rest
  return ((String.ofList name, value), rest)

def words : Entries Literal := [("NULL", .null), ("TRUE", .bool true), ("FALSE", .bool false)]

def word? (text : List Char) : Option (Literal × List Char) :=
  (words.get? (String.ofList (text.takeWhile Char.isAlpha))).map (·, text.dropWhile Char.isAlpha)

/-- An integer of 64 bits in decimal digits, with a minus sign if it is negative. -/
def integer? (text : List Char) : Option (Literal × List Char) :=
  let (sign, text) : Int × List Char := match text with
    | '-' :: rest => (-1, rest)
    | rest => (1, rest)
  let (run, rest) := Numeral.spanDigits text
  if run.isEmpty then none
  else (Numeral.int64? (sign * Numeral.value run)).map (.int ·, rest)

/-- A literal at the beginning of a text, and what stands behind it. The bound counts down with every
level of lists and maps. -/
def value? : Nat → List Char → Option (Literal × List Char)
  | 0 => fun _ ↦ none
  | bound + 1 => fun text ↦
    match skip text with
    | [] => none
    | c :: rest =>
      if c = '[' then (sequence? (value? bound) ']' rest).map (Prod.map .list id)
      else if c = '\x7b' then (sequence? (namedValue? (value? bound)) '\x7d' rest).map (Prod.map .map id)
      else if c = '\'' then
        (Quoted.read? '\'' (c :: rest)).map (Prod.map (fun held ↦ .string (String.ofList held)) id)
      else integer? (c :: rest) <|> word? (c :: rest)

/-- A whole text as a literal. -/
def read? (text : String) : Option Literal :=
  match value? (text.length + 1) text.toList with
  | some (literal, []) => some literal
  | _ => none

/-! ## Reading a sequence -/

/-- What may stand behind a literal. -/
def Ends (rest : List Char) : Prop := ∀ c ∈ rest.head?, c = ',' ∨ c = ']' ∨ c = '\x7d'

/-- A reader takes a text for an item, and nothing of what is behind it. -/
def Reads {α : Type} (part? : List Char → Option (α × List Char)) (item : α) (text : String) : Prop :=
  ∀ rest, Ends rest → part? (text.toList ++ rest) = some (item, rest)

/-- A reader of the parts of a sequence: it passes over a blank, and no part begins with the closing
character. -/
structure PartOf {α : Type} (closing : Char) (part? : List Char → Option (α × List Char)) : Prop where
  blank : ∀ text, part? (' ' :: text) = part? text
  closed : ∀ rest, part? (closing :: rest) = none
  bracket : closing = ']' ∨ closing = '\x7d'

section Sequence

variable {α : Type} {part? : List Char → Option (α × List Char)} {closing : Char} {items : List α}
  {texts : List String}

theorem PartOf.skip_closing (part : PartOf closing part?) (rest : List Char) :
    skip (closing :: rest) = closing :: rest := by
  obtain rfl | rfl := part.bracket <;> rfl

theorem PartOf.parts?_blank (part : PartOf closing part?) (bound : Nat) (text : List Char) :
    parts? part? closing bound (' ' :: text) = parts? part? closing bound text := by
  cases bound with
  | zero => rfl
  | succ bound => rw [parts?, parts?, part.blank]

theorem parts?_of_comma {bound : Nat} {text others rest : List Char} {first : α}
    (hfirst : part? text = some (first, ',' :: others))
    (hmore : parts? part? closing bound others = some (items, rest)) :
    parts? part? closing (bound + 1) text = some (first :: items, rest) := by
  simp [parts?, hfirst, skip, hmore]

theorem PartOf.parts?_of_closing (part : PartOf closing part?) {bound : Nat} {text rest : List Char}
    {last : α} (hlast : part? text = some (last, closing :: rest)) :
    parts? part? closing (bound + 1) text = some ([last], rest) := by
  have hcomma : closing ≠ ',' := by obtain rfl | rfl := part.bracket <;> decide
  simp [parts?, hlast, part.skip_closing, hcomma]

theorem PartOf.parts?_intercalate (part : PartOf closing part?)
    (reads : List.Forall₂ (Reads part?) items texts) (nonempty : items ≠ []) {bound : Nat}
    (enough : items.length ≤ bound) (rest : List Char) :
    parts? part? closing bound ((String.intercalate ", " texts).toList ++ closing :: rest) =
      some (items, rest) := by
  induction reads generalizing bound with
  | nil => contradiction
  | @cons first text items texts hfirst hmore ih =>
    obtain ⟨bound, rfl⟩ := Nat.exists_eq_succ_of_ne_zero (show bound ≠ 0 by
      rw [List.length_cons] at enough; omega)
    cases hmore with
    | nil =>
      rw [String.intercalate_singleton]
      refine part.parts?_of_closing (hfirst _ ?_)
      obtain rfl | rfl := part.bracket <;> simp [Ends]
    | cons hnext hothers =>
      rw [List.length_cons] at enough
      have hrest := ih (List.cons_ne_nil _ _) (Nat.le_of_succ_le_succ enough)
      rw [String.intercalate_cons_cons, String.toList_append, String.toList_append, List.append_assoc,
        List.append_assoc]
      refine parts?_of_comma (hfirst _ (by simp [Ends])) ?_
      rw [← hrest]
      exact part.parts?_blank _ _

theorem PartOf.sequence?_intercalate (part : PartOf closing part?)
    (reads : List.Forall₂ (Reads part?) items texts) (rest : List Char) :
    sequence? part? closing ((String.intercalate ", " texts).toList ++ closing :: rest) =
      some (items, rest) := by
  obtain rfl | hnonempty := eq_or_ne items []
  · cases reads
    have hnone : parts? part? closing (closing :: rest).length (closing :: rest) = none := by
      simp [parts?, part.closed]
    have hclosing : (closing :: rest).dropPrefix? [closing] = some rest :=
      List.dropPrefix?_append_of_beq rest (beq_self_eq_true [closing])
    rw [String.intercalate_nil, String.toList_empty, List.nil_append, sequence?, hnone,
      part.skip_closing, hclosing]
    rfl
  · have henough := length_le_intercalate (show ", " ≠ "" by decide) texts
    rw [sequence?, part.parts?_intercalate reads hnonempty]
    · rfl
    · rw [reads.length_eq, List.length_append, List.length_cons]
      omega

end Sequence

/-! ## Reading a literal -/

theorem value?_blank (bound : Nat) (text : List Char) : value? bound (' ' :: text) = value? bound text := by
  cases bound with
  | zero => rfl
  | succ bound => rfl

/-- A literal that is neither quoted nor a list nor a map. -/
theorem value?_of_other {c : Char} (bound : Nat) (rest : List Char)
    (other : c ≠ ' ' ∧ c ≠ '[' ∧ c ≠ '\x7b' ∧ c ≠ '\'') :
    value? (bound + 1) (c :: rest) = (integer? (c :: rest) <|> word? (c :: rest)) := by
  have hskip : skip (c :: rest) = c :: rest := by simp [skip, other.1]
  simp only [value?, hskip]
  rw [if_neg other.2.1, if_neg other.2.2.1, if_neg other.2.2.2]

theorem value?_of_closing {c : Char} (closing : c = ']' ∨ c = '\x7d') (bound : Nat) (rest : List Char) :
    value? bound (c :: rest) = none := by
  cases bound with
  | zero => rfl
  | succ bound =>
    obtain rfl | rfl := closing
    · rw [value?_of_other bound rest (by decide)]
      rfl
    · rw [value?_of_other bound rest (by decide)]
      rfl

theorem partOf_value? (bound : Nat) : PartOf ']' (value? bound) where
  blank := value?_blank bound
  closed := value?_of_closing (.inl rfl) bound
  bracket := .inl rfl

theorem partOf_namedValue? (bound : Nat) : PartOf '\x7d' (namedValue? (value? bound)) where
  blank text := by simp [namedValue?, skip]
  closed rest := by simp [namedValue?, skip, Quoted.read?]
  bracket := .inr rfl

theorem Ends.head?_ne {rest : List Char} (ends : Ends rest) {c : Char}
    (other : c ≠ ',' ∧ c ≠ ']' ∧ c ≠ '\x7d') : rest.head? ≠ some c := by
  intro h
  obtain rfl | rfl | rfl := ends c h <;> simp at other

theorem Ends.stops {rest : List Char} (ends : Ends rest) : Numeral.Stops rest := by
  intro c hc
  obtain rfl | rfl | rfl := ends c hc <;> rfl

theorem toList_quoted (held : String) : (quoted held).toList = Quoted.chars '\'' held.toList := by
  rw [quoted, Quoted.encode, String.toList_ofList]

theorem reads_string (bound : Nat) (held : String) :
    Reads (value? (bound + 1)) (.string held) (quoted held) := by
  intro rest ends
  have hread : Quoted.read? '\'' ((quoted held).toList ++ rest) = some (held.toList, rest) :=
    Quoted.read?_eq_some_iff.mpr ⟨by rw [toList_quoted], ends.head?_ne (by decide)⟩
  have hvalue (others : List Char) : value? (bound + 1) ('\'' :: others) =
      (Quoted.read? '\'' ('\'' :: others)).map (Prod.map (fun held ↦ .string (String.ofList held)) id) := rfl
  rw [toList_quoted, Quoted.chars, List.cons_append] at hread ⊢
  rw [hvalue, hread, Option.map_some, Prod.map, String.ofList_toList]
  rfl

theorem word?_append {literal : Literal} {text : String} (hword : (text, literal) ∈ words)
    {rest : List Char} (ends : Ends rest) : word? (text.toList ++ rest) = some (literal, rest) := by
  have hfound : words.get? text = some literal ∧ text.toList.all Char.isAlpha = true := by
    simp only [words, List.mem_cons, List.not_mem_nil, or_false, Prod.mk.injEq] at hword
    obtain ⟨rfl, rfl⟩ | ⟨rfl, rfl⟩ | ⟨rfl, rfl⟩ := hword <;> exact ⟨rfl, rfl⟩
  have hletters : ∀ c ∈ text.toList, c.isAlpha = true := List.all_eq_true.mp hfound.2
  have hrest : rest.takeWhile Char.isAlpha = [] ∧ rest.dropWhile Char.isAlpha = rest := by
    cases rest with
    | nil => simp
    | cons c more => obtain rfl | rfl | rfl := ends c rfl <;> simp
  rw [word?, List.takeWhile_append_of_pos hletters, List.dropWhile_append_of_pos hletters, hrest.1, hrest.2,
    List.append_nil, String.ofList_toList, hfound.1]
  rfl

theorem reads_word (bound : Nat) {literal : Literal} {text : String} (hword : (text, literal) ∈ words) :
    Reads (value? (bound + 1)) literal text := by
  intro rest ends
  obtain ⟨c, more, htext, hc, hinteger⟩ : ∃ c more, text.toList = c :: more ∧
      (c ≠ ' ' ∧ c ≠ '[' ∧ c ≠ '\x7b' ∧ c ≠ '\'') ∧ integer? (c :: (more ++ rest)) = none := by
    simp only [words, List.mem_cons, List.not_mem_nil, or_false, Prod.mk.injEq] at hword
    obtain ⟨rfl, rfl⟩ | ⟨rfl, rfl⟩ | ⟨rfl, rfl⟩ := hword
    · exact ⟨'N', "ULL".toList, rfl, by decide, rfl⟩
    · exact ⟨'T', "RUE".toList, rfl, by decide, rfl⟩
    · exact ⟨'F', "ALSE".toList, rfl, by decide, rfl⟩
  have hfound := word?_append hword ends
  rw [htext, List.cons_append] at hfound ⊢
  rw [value?_of_other bound _ hc, hinteger, hfound]
  rfl

theorem integer?_of_unsigned {c : Char} (h : c ≠ '-') {text run rest : List Char}
    (hspan : Numeral.spanDigits (c :: text) = (run, rest)) (nonempty : run ≠ []) :
    integer? (c :: text) = (Numeral.int64? (Numeral.value run)).map (.int ·, rest) := by
  simp [integer?, h, hspan, nonempty]

theorem integer?_append (n : Int) {rest : List Char} (ends : Ends rest) :
    integer? (Numeral.intChars n ++ rest) = (Numeral.int64? n).map (.int ·, rest) := by
  have hspan (m : Nat) : Numeral.spanDigits (Numeral.digits m ++ rest) = (Numeral.digits m, rest) :=
    Numeral.spanDigits_append (fun c ↦ Numeral.isDigit_of_mem_digits) ends.stops
  have hnonempty (m : Nat) : Numeral.digits m ≠ [] := Numeral.digits_ne_nil m
  cases n with
  | ofNat n =>
    obtain ⟨c, more, hdigits⟩ := List.exists_cons_of_ne_nil (hnonempty n)
    have hc : c ≠ '-' := by
      rintro rfl
      have hminus : '-'.isDigit = true := Numeral.isDigit_of_mem_digits (n := n) (by simp [hdigits])
      contradiction
    have hspan := hspan n
    rw [hdigits, List.cons_append, ← hdigits] at hspan
    rw [Numeral.intChars, hdigits, List.cons_append, integer?_of_unsigned hc hspan (hnonempty n),
      Numeral.value_digits]
    rfl
  | negSucc n =>
    simp [integer?, Numeral.intChars, hspan, hnonempty, Numeral.value_digits, Int.negSucc_eq]

theorem reads_int (bound : Nat) (value : Int64) :
    Reads (value? (bound + 1)) (.int value) (Literal.intText value) := by
  intro rest ends
  have hread := integer?_append value.toInt ends
  rw [Numeral.int64?_toInt, Option.map_some] at hread
  obtain ⟨c, more, htext⟩ : ∃ c more, Numeral.intChars value.toInt = c :: more := by
    cases hvalue : value.toInt <;> simp [Numeral.intChars, Numeral.digits_ne_nil, List.exists_cons_of_ne_nil]
  have hc : c ≠ ' ' ∧ c ≠ '[' ∧ c ≠ '\x7b' ∧ c ≠ '\'' := by
    have hmem : c ∈ Numeral.intChars value.toInt := by simp [htext]
    refine ⟨?_, ?_, ?_, ?_⟩ <;> rintro rfl <;> exact absurd (Numeral.isDigit_of_mem_intChars hmem) (by decide)
  rw [Literal.intText, Numeral.ofInt, String.toList_ofList]
  rw [htext, List.cons_append] at hread ⊢
  rw [value?_of_other bound _ hc, hread]
  rfl

theorem reads_entry {bound : Nat} {value : Literal} {text : String} (hvalue : Reads (value? bound) value text)
    (name : String) : Reads (namedValue? (value? bound)) (name, value) (quoted name ++ ": " ++ text) := by
  intro rest ends
  have hread : Quoted.read? '\'' ((quoted name).toList ++ (": ".toList ++ (text.toList ++ rest))) =
      some (name.toList, ": ".toList ++ (text.toList ++ rest)) :=
    Quoted.read?_eq_some_iff.mpr ⟨by rw [toList_quoted], by simp⟩
  have htext : (quoted name ++ ": " ++ text).toList ++ rest =
      (quoted name).toList ++ (": ".toList ++ (text.toList ++ rest)) := by simp
  have hskip : skip ((quoted name).toList ++ (": ".toList ++ (text.toList ++ rest))) =
      (quoted name).toList ++ (": ".toList ++ (text.toList ++ rest)) := by
    rw [toList_quoted, Quoted.chars]
    rfl
  have hcolon : (skip (": ".toList ++ (text.toList ++ rest))).dropPrefix? [':'] =
      some (' ' :: (text.toList ++ rest)) :=
    List.dropPrefix?_append_of_beq _ (beq_self_eq_true [':'])
  simp only [namedValue?, htext, hskip, hread, Option.bind_eq_bind, Option.bind_some, hcolon, value?_blank,
    hvalue rest ends, String.ofList_toList]
  rfl

theorem reads_list {bound : Nat} {items : List Literal} {texts : List String}
    (reads : List.Forall₂ (Reads (value? bound)) items texts) :
    Reads (value? (bound + 1)) (.list items) ("[" ++ String.intercalate ", " texts ++ "]") := by
  intro rest ends
  have htext : ("[" ++ String.intercalate ", " texts ++ "]").toList ++ rest =
      '[' :: ((String.intercalate ", " texts).toList ++ ']' :: rest) := by simp
  have hvalue (others : List Char) : value? (bound + 1) ('[' :: others) =
      (sequence? (value? bound) ']' others).map (Prod.map .list id) := rfl
  rw [htext, hvalue, (partOf_value? bound).sequence?_intercalate reads rest]
  rfl

theorem reads_map {bound : Nat} {entries : List (String × Literal)} {texts : List String}
    (reads : List.Forall₂ (Reads (namedValue? (value? bound))) entries texts) :
    Reads (value? (bound + 1)) (.map entries) (braced (String.intercalate ", " texts)) := by
  intro rest ends
  have htext : (braced (String.intercalate ", " texts)).toList ++ rest =
      '\x7b' :: ((String.intercalate ", " texts).toList ++ '\x7d' :: rest) := by simp [braced]
  have hvalue (others : List Char) : value? (bound + 1) ('\x7b' :: others) =
      (sequence? (namedValue? (value? bound)) '\x7d' others).map (Prod.map .map id) := rfl
  rw [htext, hvalue, (partOf_namedValue? bound).sequence?_intercalate reads rest]
  rfl

/-! ## Reading what is written -/

/-- An item has a text, and any bound above the length of the text is enough to read the item back. -/
def Readable {α : Type} (written : α → Except Error String)
    (part? : Nat → List Char → Option (α × List Char)) (item : α) : Prop :=
  ∃ text, written item = .ok text ∧ ∀ bound, text.length < bound → Reads (part? bound) item text

theorem Readable.exists_texts {α : Type} {written : α → Except Error String}
    {part? : Nat → List Char → Option (α × List Char)} {items : List α}
    (members : ∀ item ∈ items, Readable written part? item) :
    ∃ texts, items.mapM written = .ok texts ∧
      ∀ bound, (String.intercalate ", " texts).length < bound →
        List.Forall₂ (Reads (part? bound)) items texts := by
  obtain ⟨texts, htexts, hreads⟩ : ∃ texts, items.mapM written = .ok texts ∧
      ∀ bound, (∀ text ∈ texts, text.length < bound) →
        List.Forall₂ (Reads (part? bound)) items texts := by
    induction items with
    | nil => exact ⟨[], rfl, fun _ _ ↦ .nil⟩
    | cons item more ih =>
      obtain ⟨⟨text, htext, hread⟩, hmore⟩ := List.forall_mem_cons.mp members
      obtain ⟨texts, htexts, hreads⟩ := ih hmore
      refine ⟨text :: texts, by rw [List.mapM_cons, htext, htexts]; rfl, fun bound enough ↦ ?_⟩
      obtain ⟨hfirst, hothers⟩ := List.forall_mem_cons.mp enough
      exact .cons (hread bound hfirst) (hreads bound hothers)
  refine ⟨texts, htexts, fun bound enough ↦ hreads bound fun text htext ↦ ?_⟩
  exact Nat.lt_of_le_of_lt (length_le_intercalate_of_mem ", " htext) enough

theorem readable_scalar {literal : Literal} {text : String} (htext : literalText literal = .ok text)
    (hread : ∀ bound, Reads (value? (bound + 1)) literal text) : Readable literalText value? literal := by
  refine ⟨text, htext, fun bound enough ↦ ?_⟩
  obtain ⟨bound, rfl⟩ := Nat.exists_eq_succ_of_ne_zero (Nat.ne_zero_of_lt enough)
  exact hread bound

theorem readable_entry {entry : String × Literal} (hvalue : Readable literalText value? entry.2) :
    Readable (fun entry ↦ do return quoted entry.1 ++ ": " ++ (← literalText entry.2))
      (fun bound ↦ namedValue? (value? bound)) entry := by
  obtain ⟨text, htext, hread⟩ := hvalue
  refine ⟨quoted entry.1 ++ ": " ++ text, by simp only [htext]; rfl, fun bound enough ↦ ?_⟩
  rw [String.length_append] at enough
  exact reads_entry (hread bound (by omega)) entry.1

theorem readable_list {items : List Literal} (members : ∀ item ∈ items, Readable literalText value? item) :
    Readable literalText value? (.list items) := by
  obtain ⟨texts, htexts, hreads⟩ := Readable.exists_texts members
  refine ⟨"[" ++ String.intercalate ", " texts ++ "]", ?_, fun bound enough ↦ ?_⟩
  · rw [literalText, literalTexts_eq_mapM, htexts]
    rfl
  · obtain ⟨bound, rfl⟩ := Nat.exists_eq_succ_of_ne_zero (Nat.ne_zero_of_lt enough)
    have hbracket : "[".length = 1 := by decide
    rw [String.length_append, String.length_append] at enough
    exact reads_list (hreads bound (by omega))

theorem readable_map {entries : List (String × Literal)}
    (members : ∀ entry ∈ entries, Readable literalText value? entry.2) :
    Readable literalText value? (.map entries) := by
  obtain ⟨texts, htexts, hreads⟩ :=
    Readable.exists_texts fun entry hentry ↦ readable_entry (members entry hentry)
  refine ⟨braced (String.intercalate ", " texts), ?_, fun bound enough ↦ ?_⟩
  · rw [literalText, entryTexts_eq_mapM, htexts]
    rfl
  · obtain ⟨bound, rfl⟩ := Nat.exists_eq_succ_of_ne_zero (Nat.ne_zero_of_lt enough)
    have hbrace : "\x7b".length = 1 := by decide
    rw [braced, String.length_append, String.length_append] at enough
    exact reads_map (hreads bound (by omega))

theorem readable_of_simple {literal : Literal} (simple : literal.Simple) :
    Readable literalText value? literal := by
  induction simple with
  | null => exact readable_scalar rfl fun bound ↦ reads_word bound (by simp [words])
  | bool value =>
    cases value with
    | true => exact readable_scalar rfl fun bound ↦ reads_word bound (by simp [words])
    | false => exact readable_scalar rfl fun bound ↦ reads_word bound (by simp [words])
  | int value => exact readable_scalar rfl fun bound ↦ reads_int bound value
  | string text => exact readable_scalar rfl fun bound ↦ reads_string bound text
  | list members ih => exact readable_list ih
  | map members ih => exact readable_map ih

theorem exists_read?_literalText {literal : Literal} (simple : literal.Simple) :
    ∃ text, literalText literal = .ok text ∧ read? text = some literal := by
  obtain ⟨text, htext, hread⟩ := readable_of_simple simple
  have hwhole := hread (text.length + 1) (Nat.lt_succ_self _) [] (by simp [Ends])
  rw [List.append_nil] at hwhole
  exact ⟨text, htext, by rw [read?, hwhole]⟩

end Dynamo.LiteralText

open Dynamo.LiteralText in
/-- The text of a literal is read as the literal to its end, so no other literal has this text. -/
theorem Literal.Simple.literalText_faithful {literal : Literal} (simple : literal.Simple) :
    ∃ text, literalText literal = .ok text ∧ read? text = some literal ∧
      ∀ other : Literal, other.Simple → literalText other = .ok text → other = literal := by
  obtain ⟨text, htext, hread⟩ := exists_read?_literalText simple
  refine ⟨text, htext, hread, fun other hother hsame ↦ ?_⟩
  obtain ⟨text', htext', hread'⟩ := exists_read?_literalText hother
  obtain rfl : text = text' := Except.ok.inj (hsame.symm.trans htext')
  exact Option.some.inj (hread'.symm.trans hread)

open Dynamo.LiteralText in
theorem Literal.Simple.literalText_faithful_nested :
    (Literal.map [("it's", .list [.null, .int (-7), .string "a', [b]"])]).Simple ∧
    literalText (.map [("it's", .list [.null, .int (-7), .string "a', [b]"])]) =
      .ok "\x7b'it''s': [NULL, -7, 'a'', [b]']\x7d" ∧
    read? "\x7b'it''s': [NULL, -7, 'a'', [b]']\x7d" =
      some (.map [("it's", .list [.null, .int (-7), .string "a', [b]"])]) := by
  have hsimple : (Literal.map [("it's", .list [.null, .int (-7), .string "a', [b]"])]).Simple := by
    refine .map (List.forall_mem_singleton.mpr (.list ?_))
    simp only [List.forall_mem_cons]
    exact ⟨.null, .int _, .string _, List.forall_mem_nil _⟩
  have htext : literalText (.map [("it's", .list [.null, .int (-7), .string "a', [b]"])]) =
      .ok "\x7b'it''s': [NULL, -7, 'a'', [b]']\x7d" := rfl
  obtain ⟨text, hwritten, hread, -⟩ := hsimple.literalText_faithful
  obtain rfl := Except.ok.inj (hwritten.symm.trans htext)
  exact ⟨hsimple, htext, hread⟩

end PortableQuery
