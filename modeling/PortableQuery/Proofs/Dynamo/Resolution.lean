import Mathlib.Data.List.TakeWhile
import PortableQuery.Proofs.Dynamo.Condition

/-!
# Placeholders give the statement back

The text of an expression is cut at its placeholders, and each placeholder is replaced by the name or
value that the request gives for it. What is left of the text are words of the expression language:
the result is the phrase from which the text was written, letter by letter. A placeholder goes on as
far as letters and digits do, so `#n1` is not found in `#n10`.
-/

namespace PortableQuery.Dynamo

/-! ## Cutting a text at its placeholders -/

/-- A part of a text: a character of its own, or a whole placeholder. -/
inductive Piece
  | char (c : Char)
  | mark (text : String)

def opensMark (c : Char) : Bool := c = '#' || c = ':'

/-- Cuts a text at its placeholders. -/
def pieces : List Char → List Piece
  | [] => []
  | c :: rest =>
    if opensMark c then
      .mark (String.ofList (c :: rest.takeWhile Char.isAlphanum)) ::
        pieces (rest.dropWhile Char.isAlphanum)
    else .char c :: pieces rest
termination_by text => text.length
decreasing_by
  · have := rest.dropWhile_sublist Char.isAlphanum |>.length_le
    simp only [List.length_cons]
    omega
  · simp

/-- A text that does not prolong a placeholder in front of it. -/
def Parted (text : List Char) : Prop := ∀ c ∈ text.head?, c.isAlphanum = false

/-- A text without placeholders. -/
def Unmarked (text : List Char) : Prop := ∀ c ∈ text, opensMark c = false

instance (text : List Char) : Decidable (Unmarked text) := List.decidableBAll _ text

theorem pieces_nil : pieces [] = [] := by rw [pieces]

theorem takeWhile_of_parted {text : List Char} (parted : Parted text) :
    text.takeWhile Char.isAlphanum = [] := by
  cases text with
  | nil => rfl
  | cons c rest => simp [parted c rfl]

theorem dropWhile_of_parted {text : List Char} (parted : Parted text) :
    text.dropWhile Char.isAlphanum = text := by
  cases text with
  | nil => rfl
  | cons c rest => simp [parted c rfl]

theorem pieces_append {front back : List Char} (parted : Parted back) :
    pieces (front ++ back) = pieces front ++ pieces back := by
  fun_induction pieces front with
  | case1 => rfl
  | case2 c rest hmark ih =>
    have htake : (rest ++ back).takeWhile Char.isAlphanum = rest.takeWhile Char.isAlphanum := by
      rw [List.takeWhile_append, takeWhile_of_parted parted]
      split
      · rename_i hall
        rw [List.append_nil]
        exact ((List.takeWhile_prefix _).eq_of_length hall).symm
      · rfl
    have hdrop : (rest ++ back).dropWhile Char.isAlphanum =
        rest.dropWhile Char.isAlphanum ++ back := by
      rw [List.dropWhile_append, dropWhile_of_parted parted]
      split
      · rename_i hnone
        rw [List.isEmpty_iff.mp hnone, List.nil_append]
      · rfl
    rw [List.cons_append, pieces, if_pos hmark, htake, hdrop, ih, List.cons_append]
  | case3 c rest hplain ih =>
    rw [List.cons_append, pieces, if_neg hplain, ih, List.cons_append]

theorem pieces_of_unmarked {front : List Char} (unmarked : Unmarked front) (back : List Char) :
    pieces (front ++ back) = front.map .char ++ pieces back := by
  induction front with
  | nil => rfl
  | cons c rest ih =>
    have hplain : opensMark c = false := unmarked c (by simp)
    have hrest := ih fun d hd ↦ unmarked d (by simp [hd])
    rw [List.cons_append, pieces, hplain, hrest]
    rfl

/-- A placeholder is one piece. -/
theorem pieces_mark {c : Char} {rest : List Char} (opens : opensMark c = true)
    (alphanumeric : ∀ d ∈ rest, d.isAlphanum = true) :
    pieces (c :: rest) = [.mark (String.ofList (c :: rest))] := by
  have htake : rest.takeWhile Char.isAlphanum = rest := List.takeWhile_eq_self_iff.mpr alphanumeric
  have hdrop : rest.dropWhile Char.isAlphanum = [] := List.dropWhile_eq_nil_iff.mpr alphanumeric
  rw [pieces, if_pos opens, htake, hdrop, pieces_nil]

namespace Placeholders

theorem isAlphanum_of_mem_digits {index : Nat} {c : Char} (h : c ∈ Text.Numeral.digits index) :
    c.isAlphanum = true := by
  simp [Char.isAlphanum, Text.Numeral.isDigit_of_mem_digits h]

theorem pieces_nameMark (index : Nat) :
    pieces (nameMark index).toList = [.mark (nameMark index)] := by
  have hrest : ∀ d ∈ 'n' :: Text.Numeral.digits index, d.isAlphanum = true :=
    List.forall_mem_cons.mpr ⟨by decide, fun _ ↦ isAlphanum_of_mem_digits⟩
  rw [toList_nameMark, pieces_mark (by decide) hrest, ← toList_nameMark, String.ofList_toList]

theorem pieces_valueMark (index : Nat) :
    pieces (valueMark index).toList = [.mark (valueMark index)] := by
  have hrest : ∀ d ∈ 'v' :: Text.Numeral.digits index, d.isAlphanum = true :=
    List.forall_mem_cons.mpr ⟨by decide, fun _ ↦ isAlphanum_of_mem_digits⟩
  rw [toList_valueMark, pieces_mark (by decide) hrest, ← toList_valueMark, String.ofList_toList]

end Placeholders

/-! ## Replacing placeholders -/

/-- What a piece stands for under the names and values of a request. -/
def Piece.resolve? (names : Entries String) (values : Entries Attribute) : Piece → Option Token
  | .char c => some (.word (String.singleton c))
  | .mark text =>
    match text.toList with
    | '#' :: _ => (names.get? text).map .name
    | _ => (values.get? text).map .value

/-- The text with every placeholder replaced. There is no result if a placeholder is not given. -/
def resolve? (names : Entries String) (values : Entries Attribute) (text : String) : Option Phrase :=
  (pieces text.toList).mapM (Piece.resolve? names values)

/-- The words of a token letter by letter. -/
def Token.letters : Token → Phrase
  | .word text => text.toList.map fun c ↦ .word (String.singleton c)
  | token => [token]

def Phrase.letters (phrase : Phrase) : Phrase := phrase.flatMap Token.letters

theorem Phrase.letters_cons (token : Token) (more : Phrase) :
    Phrase.letters (token :: more) = token.letters ++ Phrase.letters more := rfl

theorem Phrase.letters_append (first second : Phrase) :
    Phrase.letters (first ++ second) = Phrase.letters first ++ Phrase.letters second :=
  List.flatMap_append

theorem mapM_resolve?_chars (names : Entries String) (values : Entries Attribute) (text : String) :
    (text.toList.map Piece.char).mapM (Piece.resolve? names values) =
      some (Token.word text).letters := by
  rw [Token.letters]
  induction text.toList with
  | nil => rfl
  | cons c rest ih =>
    rw [List.map_cons, List.mapM_cons, ih]
    rfl

theorem resolve?_append {names : Entries String} {values : Entries Attribute} {front back : String}
    {first second : Phrase} (parted : Parted back.toList)
    (hfirst : resolve? names values front = some first)
    (hsecond : resolve? names values back = some second) :
    resolve? names values (front ++ back) = some (first ++ second) := by
  unfold resolve? at hfirst hsecond ⊢
  rw [String.toList_append, pieces_append parted, List.mapM_append, hfirst, hsecond]
  rfl

theorem resolve?_word_append {names : Entries String} {values : Entries Attribute} {word back : String}
    {phrase : Phrase} (unmarked : Unmarked word.toList)
    (hback : resolve? names values back = some phrase) :
    resolve? names values (word ++ back) = some ((Token.word word).letters ++ phrase) := by
  unfold resolve? at hback ⊢
  rw [String.toList_append, pieces_of_unmarked unmarked, List.mapM_append, mapM_resolve?_chars, hback]
  rfl

namespace Placeholders

theorem resolve?_nameMark {before final : Placeholders} {index : Nat} {column : String}
    (given : before.names[index]? = some column) (later : Extends before final) :
    (Piece.mark (nameMark index)).resolve? final.nameEntries final.valueEntries =
      some (.name column) := by
  have hget : Entries.get? final.nameEntries (nameMark index) = some column := by
    rw [nameEntries, Entries.get?_mapIdx nameMark_injective, getElem?_of_prefix later.names given]
  rw [Piece.resolve?, toList_nameMark, hget]
  rfl

theorem resolve?_valueMark {before final : Placeholders} {index : Nat} {held : Attribute}
    (given : before.values[index]? = some held) (later : Extends before final) :
    (Piece.mark (valueMark index)).resolve? final.nameEntries final.valueEntries =
      some (.value held) := by
  have hget : Entries.get? final.valueEntries (valueMark index) = some held := by
    rw [valueEntries, Entries.get?_mapIdx valueMark_injective, getElem?_of_prefix later.values given]
  rw [Piece.resolve?, toList_valueMark, hget]
  rfl

/-- The pieces of the text of a phrase. -/
def marked (placeholders : Placeholders) : Phrase → List Piece
  | [] => []
  | .word text :: more => text.toList.map .char ++ placeholders.marked more
  | .name column :: more =>
    .mark (placeholders.addName column).1 :: (placeholders.addName column).2.marked more
  | .value held :: more =>
    .mark (placeholders.addValue held).1 :: (placeholders.addValue held).2.marked more

/-- Under the names and values of the finished request, the pieces give the phrase back. -/
theorem mapM_resolve?_marked (phrase : Phrase) {placeholders final : Placeholders}
    (later : (placeholders.write phrase).2.Extends final) :
    (placeholders.marked phrase).mapM (Piece.resolve? final.nameEntries final.valueEntries) =
      some phrase.letters := by
  induction phrase generalizing placeholders with
  | nil => rfl
  | cons token more ih =>
    cases token with
    | word text =>
      rw [marked, List.mapM_append, mapM_resolve?_chars, ih later]
      rfl
    | name column =>
      rw [write_name] at later
      obtain ⟨-, index, hmark, hgiven⟩ := placeholders.addName_spec column
      have hafter := (extends_write _ more).trans later
      rw [marked, hmark, List.mapM_cons, resolve?_nameMark hgiven hafter, ih later]
      rfl
    | value held =>
      rw [write_value] at later
      obtain ⟨-, index, hmark, hgiven⟩ := placeholders.addValue_spec held
      have hafter := (extends_write _ more).trans later
      rw [marked, hmark, List.mapM_cons, resolve?_valueMark hgiven hafter, ih later]
      rfl

/-- Every placeholder that is new in `after` is among some pieces. -/
structure Covers (before after : Placeholders) (found : List Piece) : Prop where
  names : ∀ index, before.names.length ≤ index → index < after.names.length →
    Piece.mark (nameMark index) ∈ found
  values : ∀ index, before.values.length ≤ index → index < after.values.length →
    Piece.mark (valueMark index) ∈ found

theorem Covers.refl (placeholders : Placeholders) (found : List Piece) :
    Covers placeholders placeholders found :=
  ⟨fun _ _ _ ↦ by omega, fun _ _ _ ↦ by omega⟩

theorem Covers.trans {a b c : Placeholders} {first second : List Piece} (front : Covers a b first)
    (back : Covers b c second) : Covers a c (first ++ second) := by
  constructor
  · intro index hleast hmost
    by_cases hindex : index < b.names.length
    · exact List.mem_append_left _ (front.names index hleast hindex)
    · exact List.mem_append_right _ (back.names index (by omega) hmost)
  · intro index hleast hmost
    by_cases hindex : index < b.values.length
    · exact List.mem_append_left _ (front.values index hleast hindex)
    · exact List.mem_append_right _ (back.values index (by omega) hmost)

theorem Covers.mono {before after : Placeholders} {found more : List Piece}
    (covers : Covers before after found) (h : found ⊆ more) : Covers before after more :=
  ⟨fun index hleast hmost ↦ h (covers.names index hleast hmost),
    fun index hleast hmost ↦ h (covers.values index hleast hmost)⟩

theorem covers_addName (placeholders : Placeholders) (column : String) :
    Covers placeholders (placeholders.addName column).2 [.mark (placeholders.addName column).1] := by
  unfold addName
  split
  · exact .refl _ _
  · refine ⟨fun index hleast hmost ↦ ?_, (Covers.refl placeholders _).values⟩
    have hindex : index = placeholders.names.length := by
      simp only [List.length_append, List.length_singleton] at hmost
      omega
    simp [hindex]

theorem covers_addValue (placeholders : Placeholders) (held : Attribute) :
    Covers placeholders (placeholders.addValue held).2 [.mark (placeholders.addValue held).1] := by
  unfold addValue
  split
  · exact .refl _ _
  · refine ⟨(Covers.refl placeholders _).names, fun index hleast hmost ↦ ?_⟩
    have hindex : index = placeholders.values.length := by
      simp only [List.length_append, List.length_singleton] at hmost
      omega
    simp [hindex]

theorem covers_marked (placeholders : Placeholders) (phrase : Phrase) :
    Covers placeholders (placeholders.write phrase).2 (placeholders.marked phrase) := by
  induction phrase generalizing placeholders with
  | nil => exact .refl _ _
  | cons token more ih =>
    cases token with
    | word text => exact (Covers.refl placeholders (text.toList.map .char)).trans (ih placeholders)
    | name column => exact (placeholders.covers_addName column).trans (ih _)
    | value held => exact (placeholders.covers_addValue held).trans (ih _)

end Placeholders

/-! ## The pieces of a phrase -/

theorem mem_extend {c d : Char} {parts : List (List Char)} (h : ∃ part ∈ parts, d ∈ part) :
    ∃ part ∈ extend c parts, d ∈ part := by
  cases parts with
  | nil => simp at h
  | cons first more =>
    obtain ⟨part, hpart, hd⟩ := h
    rcases List.mem_cons.mp hpart with rfl | hmore
    · exact ⟨c :: part, by simp [extend], by simp [hd]⟩
    · exact ⟨part, by simp [extend, hmore], hd⟩

/-- Every character but a blank belongs to a lexeme. -/
theorem exists_mem_cut {text : List Char} {c : Char} (hc : c ∈ text) (hglyph : glyph c ≠ .blank) :
    ∃ part ∈ cut text, c ∈ part := by
  induction text with
  | nil => simp at hc
  | cons d rest ih =>
    rw [cut]
    rcases List.mem_cons.mp hc with rfl | hrest
    · rw [if_neg hglyph]
      split
      · cases cut rest <;> simp [extend]
      · simp
    · obtain ⟨part, hpart, hmem⟩ := ih hrest
      split
      · exact ⟨part, hpart, hmem⟩
      · split
        · exact mem_extend ⟨part, hpart, hmem⟩
        · exact ⟨part, by simp [hpart], hmem⟩

theorem unmarked_keywords : ∀ keyword ∈ keywords, Unmarked keyword.1.toList := by
  decide

theorem unmarked_of_ofChars? {text : List Char} {lexeme : Lexeme}
    (h : Lexeme.ofChars? [] [] text = some lexeme) : Unmarked text := by
  unfold Lexeme.ofChars? at h
  split at h
  · simp [Entries.get?] at h
  · simp [Entries.get?] at h
  · have hkeyword := unmarked_keywords _ (Entries.mem_of_get? h)
    rwa [String.toList_ofList] at hkeyword

theorem unmarked_of_mem_parts {parts : List (List Char)} {found : List Lexeme}
    (h : parts.mapM (Lexeme.ofChars? [] []) = some found) : ∀ part ∈ parts, Unmarked part := by
  induction parts generalizing found with
  | nil => simp
  | cons first more ih =>
    simp only [List.mapM_cons, Option.bind_eq_bind, Option.bind_eq_some_iff] at h
    obtain ⟨lexeme, hfirst, others, hmore, -⟩ := h
    exact List.forall_mem_cons.mpr ⟨unmarked_of_ofChars? hfirst, ih hmore⟩

/-- Text that is made of words and marks of the language has no placeholder. -/
theorem unmarked_of_lexemes? {text : List Char} {found : List Lexeme}
    (reads : lexemes? [] [] text = some found) : Unmarked text := by
  intro c hc
  by_cases hblank : glyph c = .blank
  · obtain rfl : c = ' ' := by
      unfold glyph at hblank
      split_ifs at hblank with hspace
      exact hspace
    rfl
  · obtain ⟨part, hpart, hmem⟩ := exists_mem_cut hc hblank
    exact unmarked_of_mem_parts reads part hpart c hmem

theorem parted_of_apart {text : List Char} (apart : Apart text) : Parted text := by
  intro c hc
  have hglyph := apart c hc
  unfold glyph at hglyph
  split_ifs at hglyph with hblank hmark
  · subst hblank
    rfl
  · simp only [Bool.or_eq_true, decide_eq_true_eq] at hmark
    rcases hmark with (rfl | rfl) | rfl <;> rfl
  · simp at hglyph
  · simp at hglyph

theorem Spells.pieces_write {phrase : Phrase} {lexemes : List Lexeme} (spells : Spells phrase lexemes)
    (placeholders : Placeholders) :
    pieces (placeholders.write phrase).1.toList = placeholders.marked phrase := by
  induction spells generalizing placeholders with
  | nil => exact pieces_nil
  | word reads _ _ ih =>
    rw [Placeholders.write_word, String.toList_append, pieces_of_unmarked (unmarked_of_lexemes? reads),
      ih, Placeholders.marked]
  | @name column _ more apart _ ih =>
    obtain ⟨-, index, hmark, -⟩ := placeholders.addName_spec column
    set after := (placeholders.addName column).2
    calc pieces (placeholders.write (.name column :: more)).1.toList
        = pieces ((Placeholders.nameMark index).toList ++ (after.write more).1.toList) := by
          rw [Placeholders.write_name, String.toList_append, hmark]
      _ = pieces (Placeholders.nameMark index).toList ++ pieces (after.write more).1.toList :=
          pieces_append (parted_of_apart (apart.write _))
      _ = [.mark (Placeholders.nameMark index)] ++ after.marked more := by
          rw [ih, Placeholders.pieces_nameMark]
      _ = placeholders.marked (.name column :: more) := by
          rw [Placeholders.marked, hmark, List.singleton_append]
  | @value held _ more apart _ ih =>
    obtain ⟨-, index, hmark, -⟩ := placeholders.addValue_spec held
    set after := (placeholders.addValue held).2
    calc pieces (placeholders.write (.value held :: more)).1.toList
        = pieces ((Placeholders.valueMark index).toList ++ (after.write more).1.toList) := by
          rw [Placeholders.write_value, String.toList_append, hmark]
      _ = pieces (Placeholders.valueMark index).toList ++ pieces (after.write more).1.toList :=
          pieces_append (parted_of_apart (apart.write _))
      _ = [.mark (Placeholders.valueMark index)] ++ after.marked more := by
          rw [ih, Placeholders.pieces_valueMark]
      _ = placeholders.marked (.value held :: more) := by
          rw [Placeholders.marked, hmark, List.singleton_append]

/-- The words of a phrase are made of words and marks of the language. -/
theorem Spells.exists_lexemes? {phrase : Phrase} {lexemes : List Lexeme}
    (spells : Spells phrase lexemes) :
    ∀ word, Token.word word ∈ phrase → ∃ found, lexemes? [] [] word.toList = some found := by
  induction spells with
  | nil => simp
  | @word text found _ more reads _ _ ih =>
    intro word hword
    rcases List.mem_cons.mp hword with heq | hmore
    · obtain rfl := Token.word.inj heq
      exact ⟨found, reads⟩
    · exact ih word hmore
  | name _ _ ih =>
    intro word hword
    exact ih word (by simpa using hword)
  | value _ _ ih =>
    intro word hword
    exact ih word (by simpa using hword)

/-- A text is a phrase once its placeholders are replaced. -/
def Resolves (names : Entries String) (values : Entries Attribute) (phrase : Phrase) (text : String) :
    Prop :=
  resolve? names values text = some phrase.letters

/-! ## Several phrases -/

/-- Phrases whose words keep their names and values apart. -/
def Spelled (phrase : Phrase) : Prop := ∃ lexemes, Spells phrase lexemes

namespace Placeholders

variable {phrases : List Phrase} {placeholders final : Placeholders}

theorem resolves_write {phrase : Phrase} (spelled : Spelled phrase)
    (later : (placeholders.write phrase).2.Extends final) :
    Resolves final.nameEntries final.valueEntries phrase (placeholders.write phrase).1 := by
  obtain ⟨lexemes, spells⟩ := spelled
  rw [Resolves, resolve?, spells.pieces_write, mapM_resolve?_marked phrase later]

theorem covers_write {phrase : Phrase} (spelled : Spelled phrase) :
    Covers placeholders (placeholders.write phrase).2
      (pieces (placeholders.write phrase).1.toList) := by
  obtain ⟨lexemes, spells⟩ := spelled
  rw [spells.pieces_write]
  exact placeholders.covers_marked phrase

/-- The texts of several phrases, each of which gives its phrase back. -/
theorem resolves_writeAll (spelled : ∀ phrase ∈ phrases, Spelled phrase)
    (later : (placeholders.writeAll phrases).2.Extends final) :
    List.Forall₂ (Resolves final.nameEntries final.valueEntries) phrases
      (placeholders.writeAll phrases).1 := by
  induction phrases generalizing placeholders with
  | nil => exact .nil
  | cons phrase more ih =>
    obtain ⟨hphrase, hmore⟩ := List.forall_mem_cons.mp spelled
    have hafter := (extends_writeAll _ more).trans later
    exact .cons (resolves_write hphrase hafter) (ih hmore later)

theorem covers_writeAll (placeholders : Placeholders) (spelled : ∀ phrase ∈ phrases, Spelled phrase) :
    Covers placeholders (placeholders.writeAll phrases).2
      ((placeholders.writeAll phrases).1.flatMap fun text ↦ pieces text.toList) := by
  induction phrases generalizing placeholders with
  | nil => exact .refl _ _
  | cons phrase more ih =>
    obtain ⟨hphrase, hmore⟩ := List.forall_mem_cons.mp spelled
    exact (covers_write hphrase).trans (ih _ hmore)

end Placeholders

/-- A word of the language that can stand between two texts. -/
structure Separates (word : String) : Prop where
  reads : ∃ found, lexemes? [] [] word.toList = some found
  parted : ∀ rest, Parted (word.toList ++ rest)

theorem Separates.unmarked {word : String} (separates : Separates word) : Unmarked word.toList := by
  obtain ⟨found, reads⟩ := separates.reads
  exact unmarked_of_lexemes? reads

theorem separates_and : Separates " AND " :=
  ⟨⟨[.connective .and], rfl⟩, fun rest c hc ↦ by obtain rfl := Option.some.inj hc; rfl⟩

theorem separates_comma : Separates ", " :=
  ⟨⟨[.comma], rfl⟩, fun rest c hc ↦ by obtain rfl := Option.some.inj hc; rfl⟩

theorem resolves_intercalate {names : Entries String} {values : Entries Attribute} {separator : String}
    (separates : Separates separator) {phrases : List Phrase} {texts : List String}
    (resolves : List.Forall₂ (Resolves names values) phrases texts) :
    Resolves names values (joinPhrases separator phrases) (String.intercalate separator texts) := by
  induction resolves with
  | nil => rw [String.intercalate_nil, Resolves, resolve?, String.toList_empty, pieces_nil]; rfl
  | @cons phrase text phrases texts first others ih =>
    cases others with
    | nil => simpa [joinPhrases] using first
    | @cons next nextText phrases texts second others =>
      have hrest := resolve?_word_append separates.unmarked ih
      have hparted : Parted (separator ++ String.intercalate separator (nextText :: texts)).toList := by
        rw [String.toList_append]
        exact separates.parted _
      calc resolve? names values (String.intercalate separator (text :: nextText :: texts))
          = resolve? names values
              (text ++ (separator ++ String.intercalate separator (nextText :: texts))) := by
            rw [String.intercalate_cons_cons, String.append_assoc]
        _ = some (phrase.letters ++ ((Token.word separator).letters ++
              Phrase.letters (joinPhrases separator (next :: phrases)))) :=
            resolve?_append hparted first hrest
        _ = some (Phrase.letters (joinPhrases separator (phrase :: next :: phrases))) := by
            simp [joinPhrases, Phrase.letters_append, Phrase.letters_cons]

theorem mem_pieces_intercalate {separator : String} (separates : Separates separator)
    {texts : List String} {piece : Piece} (h : piece ∈ texts.flatMap fun text ↦ pieces text.toList) :
    piece ∈ pieces (String.intercalate separator texts).toList := by
  induction texts with
  | nil => simp at h
  | cons text more ih =>
    cases more with
    | nil => simpa using h
    | cons next more =>
      rw [String.intercalate_cons_cons, String.append_assoc, String.toList_append, String.toList_append,
        pieces_append (separates.parted _), pieces_of_unmarked separates.unmarked]
      rw [List.flatMap_cons, List.mem_append] at h
      rcases h with hfirst | hmore
      · exact List.mem_append_left _ hfirst
      · exact List.mem_append_right _ (List.mem_append_right _ (ih hmore))

/-! ## Conditions -/

/-- A text stands for a condition: with its placeholders replaced it is the phrase of the condition. -/
def Compiled (names : Entries String) (values : Entries Attribute) (test : Condition) (text : String) :
    Prop :=
  ∃ phrase, test.phrase = .ok phrase ∧ Resolves names values phrase text

theorem attributes_eq_mapM (exprs : List Expr) : attributes exprs = exprs.mapM Expr.toAttribute :=
  eq_mapM (by rw [attributes]) (fun _ _ ↦ by rw [attributes]) exprs

theorem phrases_eq_mapM (tests : List Condition) :
    Condition.phrases tests = tests.mapM Condition.phrase :=
  eq_mapM (by rw [Condition.phrases]) (fun _ _ ↦ by rw [Condition.phrases]) tests

theorem spelled_phrases {tests : List Condition} {phrases : List Phrase}
    (h : Condition.phrases tests = .ok phrases) : ∀ phrase ∈ phrases, Spelled phrase := by
  rw [phrases_eq_mapM] at h
  intro phrase hphrase
  obtain ⟨test, -, htest⟩ := exists_of_mem_mapM h phrase hphrase
  obtain ⟨lexemes, spells, -⟩ := test.readable phrase htest
  exact ⟨lexemes, spells⟩

/-- Two steps taken item by item. -/
theorem forall₂_exists_iff {α β γ : Type} {R : α → β → Prop} {S : β → γ → Prop} {first : List α}
    {last : List γ} :
    List.Forall₂ (fun a c ↦ ∃ b, R a b ∧ S b c) first last ↔
      ∃ middle, List.Forall₂ R first middle ∧ List.Forall₂ S middle last := by
  constructor
  · intro h
    induction h with
    | nil => exact ⟨[], .nil, .nil⟩
    | cons step _ ih =>
      obtain ⟨b, hR, hS⟩ := step
      obtain ⟨middle, hfirst, hlast⟩ := ih
      exact ⟨b :: middle, .cons hR hfirst, .cons hS hlast⟩
  · rintro ⟨middle, hfirst, hlast⟩
    induction hfirst generalizing last with
    | nil =>
      cases hlast
      exact .nil
    | cons hR _ ih =>
      cases hlast with
      | cons hS hlast => exact .cons ⟨_, hR, hS⟩ (ih hlast)

/-- The texts of conditions, under the names and values of the finished request. -/
theorem compiled_writeAll {tests : List Condition} {phrases : List Phrase}
    (hphrases : Condition.phrases tests = .ok phrases) {placeholders final : Placeholders}
    (later : (placeholders.writeAll phrases).2.Extends final) :
    List.Forall₂ (Compiled final.nameEntries final.valueEntries) tests
      (placeholders.writeAll phrases).1 := by
  apply forall₂_exists_iff.mpr
  refine ⟨phrases, ?_, Placeholders.resolves_writeAll (spelled_phrases hphrases) later⟩
  rwa [phrases_eq_mapM, mapM_eq_ok_iff] at hphrases

/-- The phrases of conditions, from their texts. -/
theorem exists_phrases {names : Entries String} {values : Entries Attribute} {tests : List Condition}
    {texts : List String} (compiled : List.Forall₂ (Compiled names values) tests texts) :
    ∃ phrases, Condition.phrases tests = .ok phrases ∧
      List.Forall₂ (Resolves names values) phrases texts := by
  obtain ⟨phrases, htests, htexts⟩ := forall₂_exists_iff.mp compiled
  refine ⟨phrases, ?_, htexts⟩
  rwa [phrases_eq_mapM, mapM_eq_ok_iff]

end PortableQuery.Dynamo
