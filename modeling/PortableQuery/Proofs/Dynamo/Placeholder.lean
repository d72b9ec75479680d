import Mathlib.Tactic.SplitIfs
import PortableQuery.Dynamo.Placeholder
import PortableQuery.Proofs.Dynamo.Expression
import PortableQuery.Proofs.Entries
import PortableQuery.Proofs.Text.Numeral

/-!
# Placeholders are resolved

Writing a phrase only adds to the names and values that have a placeholder, and what a placeholder
stands for never changes afterwards. So the text of a phrase, cut into lexemes under the names and
values of the finished request, gives the words, names and values of the phrase back.
-/

namespace PortableQuery

theorem getElem?_of_prefix {α : Type} {before after : List α} {index : Nat} {item : α}
    (grown : before <+: after) (given : before[index]? = some item) : after[index]? = some item := by
  obtain ⟨hindex, hitem⟩ := List.getElem?_eq_some_iff.mp given
  rw [List.prefix_iff_getElem?.mp grown index hindex, hitem]

namespace Dynamo

namespace Attribute

mutual

theorem same_iff : ∀ a b : Attribute, same a b = true ↔ a = b
  | .string _, b => by cases b <;> simp [same]
  | .number _, b => by cases b <;> simp [same]
  | .binary _, b => by cases b <;> simp [same]
  | .stringSet _, b => by cases b <;> simp [same]
  | .numberSet _, b => by cases b <;> simp [same]
  | .list items, b => by cases b <;> simp [same, sameItems_iff items]
  | .map entries, b => by cases b <;> simp [same, sameEntries_iff entries]
  | .null, b => by cases b <;> simp [same]
  | .bool _, b => by cases b <;> simp [same]

theorem sameItems_iff : ∀ a b : List Attribute, sameItems a b = true ↔ a = b
  | [], b => by cases b <;> simp [sameItems]
  | item :: more, b => by
    cases b with
    | nil => simp [sameItems]
    | cons other others => simp [sameItems, same_iff item, sameItems_iff more]

theorem sameEntries_iff : ∀ a b : List (String × Attribute), sameEntries a b = true ↔ a = b
  | [], b => by cases b <;> simp [sameEntries]
  | (name, held) :: more, b => by
    cases b with
    | nil => simp [sameEntries]
    | cons other others =>
      obtain ⟨name', held'⟩ := other
      simp [sameEntries, same_iff held, sameEntries_iff more]

end

end Attribute

namespace Placeholders

theorem nameMark_injective : Function.Injective nameMark := by
  intro i j h
  have hdigits : Text.Numeral.digits i = Text.Numeral.digits j := by
    simpa [nameMark, Text.Numeral.ofNat] using congrArg String.toList h
  exact Text.Numeral.digits_injective hdigits

theorem valueMark_injective : Function.Injective valueMark := by
  intro i j h
  have hdigits : Text.Numeral.digits i = Text.Numeral.digits j := by
    simpa [valueMark, Text.Numeral.ofNat] using congrArg String.toList h
  exact Text.Numeral.digits_injective hdigits

/-- Everything that has a placeholder keeps it. -/
structure Extends (before after : Placeholders) : Prop where
  names : before.names <+: after.names
  values : before.values <+: after.values

theorem Extends.refl (placeholders : Placeholders) : Extends placeholders placeholders :=
  ⟨List.prefix_refl _, List.prefix_refl _⟩

theorem Extends.trans {a b c : Placeholders} (first : Extends a b) (second : Extends b c) :
    Extends a c :=
  ⟨first.names.trans second.names, first.values.trans second.values⟩

/-- A new name is added at the end, and from then on its placeholder stands for it. -/
theorem addName_spec (placeholders : Placeholders) (name : String) :
    Extends placeholders (placeholders.addName name).2 ∧
    ∃ index, (placeholders.addName name).1 = nameMark index ∧
      (placeholders.addName name).2.names[index]? = some name := by
  unfold addName
  cases hfound : placeholders.names.findIdx? (· == name) with
  | some index =>
    obtain ⟨hindex, hname, _⟩ := List.findIdx?_eq_some_iff_getElem.mp hfound
    have hname : placeholders.names[index] = name := by simpa using hname
    exact ⟨.refl _, index, rfl, by simp [hindex, hname]⟩
  | none =>
    refine ⟨⟨List.prefix_append _ _, List.prefix_refl _⟩, placeholders.names.length, rfl, ?_⟩
    simp

theorem addValue_spec (placeholders : Placeholders) (value : Attribute) :
    Extends placeholders (placeholders.addValue value).2 ∧
    ∃ index, (placeholders.addValue value).1 = valueMark index ∧
      (placeholders.addValue value).2.values[index]? = some value := by
  unfold addValue
  cases hfound : placeholders.values.findIdx? (Attribute.same value) with
  | some index =>
    obtain ⟨hindex, hvalue, _⟩ := List.findIdx?_eq_some_iff_getElem.mp hfound
    have hvalue : value = placeholders.values[index] := (Attribute.same_iff _ _).mp hvalue
    exact ⟨.refl _, index, rfl, by simp [hindex, ← hvalue]⟩
  | none =>
    refine ⟨⟨List.prefix_refl _, List.prefix_append _ _⟩, placeholders.values.length, rfl, ?_⟩
    simp

theorem write_name (placeholders : Placeholders) (name : String) (more : Phrase) :
    placeholders.write (.name name :: more) =
      ((placeholders.addName name).1 ++ ((placeholders.addName name).2.write more).1,
        ((placeholders.addName name).2.write more).2) := rfl

theorem write_value (placeholders : Placeholders) (value : Attribute) (more : Phrase) :
    placeholders.write (.value value :: more) =
      ((placeholders.addValue value).1 ++ ((placeholders.addValue value).2.write more).1,
        ((placeholders.addValue value).2.write more).2) := rfl

theorem write_word (placeholders : Placeholders) (text : String) (more : Phrase) :
    placeholders.write (.word text :: more) =
      (text ++ (placeholders.write more).1, (placeholders.write more).2) := rfl

theorem extends_write (placeholders : Placeholders) (phrase : Phrase) :
    Extends placeholders (placeholders.write phrase).2 := by
  induction phrase generalizing placeholders with
  | nil => exact .refl placeholders
  | cons token more ih =>
    cases token with
    | word text => exact ih placeholders
    | name name => exact (placeholders.addName_spec name).1.trans (ih _)
    | value value => exact (placeholders.addValue_spec value).1.trans (ih _)

theorem extends_writeAll (placeholders : Placeholders) (phrases : List Phrase) :
    Extends placeholders (placeholders.writeAll phrases).2 := by
  induction phrases generalizing placeholders with
  | nil => exact .refl placeholders
  | cons phrase more ih => exact (placeholders.extends_write phrase).trans (ih _)

/-! ## Marks as lexemes -/

theorem glyph_of_isDigit {c : Char} (h : c.isDigit = true) : glyph c = .letter := by
  unfold glyph
  split_ifs with hblank hmark hsign
  · simp [hblank] at h
  · simp only [Bool.or_eq_true, decide_eq_true_eq] at hmark
    rcases hmark with (rfl | rfl) | rfl <;> simp at h
  · simp only [Bool.or_eq_true, decide_eq_true_eq] at hsign
    rcases hsign with (rfl | rfl) | rfl <;> simp at h
  · rfl

theorem toList_nameMark (index : Nat) :
    (nameMark index).toList = '#' :: 'n' :: Text.Numeral.digits index := by
  simp [nameMark, Text.Numeral.ofNat]

theorem toList_valueMark (index : Nat) :
    (valueMark index).toList = ':' :: 'v' :: Text.Numeral.digits index := by
  simp [valueMark, Text.Numeral.ofNat]

theorem cut_nameMark (index : Nat) : cut (nameMark index).toList = [(nameMark index).toList] := by
  rw [toList_nameMark]
  refine cut_of_letters (by simp) fun c hc ↦ ?_
  simp only [List.mem_cons] at hc
  obtain rfl | rfl | hdigit := hc
  · decide
  · decide
  · exact glyph_of_isDigit (Text.Numeral.isDigit_of_mem_digits hdigit)

theorem cut_valueMark (index : Nat) : cut (valueMark index).toList = [(valueMark index).toList] := by
  rw [toList_valueMark]
  refine cut_of_letters (by simp) fun c hc ↦ ?_
  simp only [List.mem_cons] at hc
  obtain rfl | rfl | hdigit := hc
  · decide
  · decide
  · exact glyph_of_isDigit (Text.Numeral.isDigit_of_mem_digits hdigit)

/-- In the finished request, the placeholder of a name is read as this name. -/
theorem ofChars?_nameMark {before final : Placeholders} {index : Nat} {name : String}
    (given : before.names[index]? = some name) (later : Extends before final) :
    Lexeme.ofChars? final.nameEntries final.valueEntries (nameMark index).toList =
      some (.operand (.name name)) := by
  have hget : Entries.get? final.nameEntries (nameMark index) = some name := by
    rw [nameEntries, Entries.get?_mapIdx nameMark_injective, getElem?_of_prefix later.names given]
  rw [toList_nameMark, Lexeme.ofChars?, ← toList_nameMark, String.ofList_toList, hget]
  rfl

theorem ofChars?_valueMark {before final : Placeholders} {index : Nat} {value : Attribute}
    (given : before.values[index]? = some value) (later : Extends before final) :
    Lexeme.ofChars? final.nameEntries final.valueEntries (valueMark index).toList =
      some (.operand (.value value)) := by
  have hget : Entries.get? final.valueEntries (valueMark index) = some value := by
    rw [valueEntries, Entries.get?_mapIdx valueMark_injective, getElem?_of_prefix later.values given]
  rw [toList_valueMark, Lexeme.ofChars?, ← toList_valueMark, String.ofList_toList, hget]
  rfl

end Placeholders

/-! ## Phrases as lexemes -/

/-- A text that no lexeme in front of it can reach into. -/
def Apart (text : List Char) : Prop := ∀ c ∈ text.head?, glyph c = .blank ∨ glyph c = .mark

/-- A phrase that may follow a name or a value. -/
def Phrase.Apart : Phrase → Prop
  | [] => True
  | .word text :: _ => text ≠ "" ∧ Dynamo.Apart text.toList
  | _ => False

/-- A word after which a new lexeme begins. -/
def Closed (text : String) : Prop :=
  ∀ c ∈ text.toList.getLast?, glyph c = .blank ∨ glyph c = .mark

/-- The lexemes of a phrase whose words keep its names and values apart. -/
inductive Spells : Phrase → List Lexeme → Prop
  | nil : Spells [] []
  | word {text : String} {found lexemes : List Lexeme} {more : Phrase}
      (reads : lexemes? [] [] text.toList = some found) (closed : Closed text)
      (rest : Spells more lexemes) : Spells (.word text :: more) (found ++ lexemes)
  | name {column : String} {lexemes : List Lexeme} {more : Phrase} (apart : Phrase.Apart more)
      (rest : Spells more lexemes) :
      Spells (.name column :: more) (.operand (.name column) :: lexemes)
  | value {held : Attribute} {lexemes : List Lexeme} {more : Phrase} (apart : Phrase.Apart more)
      (rest : Spells more lexemes) :
      Spells (.value held :: more) (.operand (.value held) :: lexemes)

theorem Spells.append {first second : Phrase} {lexemes others : List Lexeme}
    (front : Spells first lexemes) (back : Spells second others) (apart : Phrase.Apart second) :
    Spells (first ++ second) (lexemes ++ others) := by
  have hapart {more : Phrase} (h : Phrase.Apart more) : Phrase.Apart (more ++ second) := by
    cases more with
    | nil => exact apart
    | cons token more => cases token <;> exact h
  induction front with
  | nil => exact back
  | word reads closed _ ih =>
    rw [List.append_assoc]
    exact .word reads closed ih
  | name h _ ih => exact .name (hapart h) ih
  | value h _ ih => exact .value (hapart h) ih

/-- Placeholders do not matter to the fixed words. -/
theorem Lexeme.ofChars?_of_keyword {names : Entries String} {values : Entries Attribute}
    {text : List Char} {lexeme : Lexeme} (h : ofChars? [] [] text = some lexeme) :
    ofChars? names values text = some lexeme := by
  unfold ofChars? at h ⊢
  split at h
  · simp [Entries.get?] at h
  · simp [Entries.get?] at h
  · exact h

theorem clings_of_apart {text : List Char} (apart : Apart text) (c : Char) :
    clings c text = false := by
  cases text with
  | nil => rfl
  | cons d rest =>
    have hd := apart d (by simp)
    by_contra h
    simp only [clings, Bool.not_eq_false, Bool.and_eq_true, Bool.or_eq_true, decide_eq_true_eq] at h
    obtain ⟨hsame, hkind⟩ := h
    rw [hsame] at hkind
    rcases hd with hd | hd <;> rcases hkind with hkind | hkind <;> simp [hd] at hkind

theorem clings_of_glyph {c : Char} (closed : glyph c = .blank ∨ glyph c = .mark) (text : List Char) :
    clings c text = false := by
  cases text with
  | nil => rfl
  | cons d rest => rcases closed with h | h <;> simp [clings, h]

theorem lexemes?_append {names : Entries String} {values : Entries Attribute}
    {front back : List Char} {first second : List Lexeme}
    (apart : ∀ c ∈ front.getLast?, clings c back = false)
    (hfirst : lexemes? names values front = some first)
    (hsecond : lexemes? names values back = some second) :
    lexemes? names values (front ++ back) = some (first ++ second) := by
  unfold lexemes? at hfirst hsecond ⊢
  rw [cut_append apart, List.mapM_append, hfirst, hsecond]
  rfl

theorem lexemes?_of_keywords {names : Entries String} {values : Entries Attribute}
    {text : List Char} {found : List Lexeme} (h : lexemes? [] [] text = some found) :
    lexemes? names values text = some found := by
  unfold lexemes? at h ⊢
  generalize cut text = parts at h ⊢
  induction parts generalizing found with
  | nil => exact h
  | cons first more ih =>
    simp only [List.mapM_cons, Option.bind_eq_bind, Option.bind_eq_some_iff, Option.pure_def,
      Option.some.injEq] at h ⊢
    obtain ⟨lexeme, hfirst, others, hmore, rfl⟩ := h
    exact ⟨lexeme, Lexeme.ofChars?_of_keyword hfirst, others, ih hmore, rfl⟩

theorem Phrase.Apart.write {phrase : Phrase} (apart : Phrase.Apart phrase)
    (placeholders : Placeholders) : Dynamo.Apart (placeholders.write phrase).1.toList := by
  match phrase, apart with
  | [], _ => simp [Placeholders.write, Dynamo.Apart]
  | .word text :: more, ⟨hne, happart⟩ =>
    obtain ⟨c, rest, hchars⟩ := List.exists_cons_of_ne_nil (mt String.toList_eq_nil_iff.mp hne)
    rw [Placeholders.write_word, String.toList_append, hchars]
    rw [hchars] at happart
    exact happart

/-- The text of a phrase, read under the names and values of the finished request. -/
theorem Spells.lexemes?_write {phrase : Phrase} {lexemes : List Lexeme} (spells : Spells phrase lexemes)
    {placeholders final : Placeholders} (later : (placeholders.write phrase).2.Extends final) :
    lexemes? final.nameEntries final.valueEntries (placeholders.write phrase).1.toList =
      some lexemes := by
  induction spells generalizing placeholders with
  | nil => rfl
  | word reads closed _ ih =>
    rw [Placeholders.write_word, String.toList_append]
    refine lexemes?_append (fun c hc ↦ clings_of_glyph (closed c hc) _) (lexemes?_of_keywords reads) ?_
    exact ih later
  | @name column lexemes more apart _ ih =>
    obtain ⟨hextends, index, hmark, hgiven⟩ := placeholders.addName_spec column
    have hafter := (Placeholders.extends_write _ more).trans later
    have hfirst : lexemes? final.nameEntries final.valueEntries (placeholders.addName column).1.toList =
        some [.operand (.name column)] := by
      rw [lexemes?, hmark, Placeholders.cut_nameMark, List.mapM_cons,
        Placeholders.ofChars?_nameMark hgiven hafter]
      rfl
    rw [Placeholders.write_name, String.toList_append]
    exact lexemes?_append (fun c _ ↦ clings_of_apart (apart.write _) c) hfirst (ih later)
  | @value held lexemes more apart _ ih =>
    obtain ⟨hextends, index, hmark, hgiven⟩ := placeholders.addValue_spec held
    have hafter := (Placeholders.extends_write _ more).trans later
    have hfirst : lexemes? final.nameEntries final.valueEntries (placeholders.addValue held).1.toList =
        some [.operand (.value held)] := by
      rw [lexemes?, hmark, Placeholders.cut_valueMark, List.mapM_cons,
        Placeholders.ofChars?_valueMark hgiven hafter]
      rfl
    rw [Placeholders.write_value, String.toList_append]
    exact lexemes?_append (fun c _ ↦ clings_of_apart (apart.write _) c) hfirst (ih later)

end Dynamo

end PortableQuery
