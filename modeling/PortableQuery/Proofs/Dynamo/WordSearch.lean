import PortableQuery.Proofs.Dynamo.Like
import PortableQuery.Query.Condition

/-!
# Searching for the start of a word

A search term behind a tilde asks for a word that starts with it, at the start of a text or behind a
delimiter. The condition is made of patterns that end in a wildcard, so a key-value store finds the
same texts with it as SQL does, and the condition of the opposite mark finds all the others.
-/

namespace PortableQuery

open Dynamo Text.Wildcard

namespace Condition

mutual

/-- Whether a condition holds in SQL of a row with texts, where patterns stand for all the texts that
they match. Conditions that compare anything else are left to their own meaning. -/
def Selects (held : Expr → String) (others : Condition → Prop) : Condition → Prop
  | .like key pattern isLike => accepts pattern.toList (held key).toList = isLike
  | .logical members .and => AllSelect held others members
  | .logical members .or => AnySelects held others members
  | .not inner => ¬ inner.Selects held others
  | test => others test

def AllSelect (held : Expr → String) (others : Condition → Prop) : List Condition → Prop
  | [] => True
  | test :: more => test.Selects held others ∧ AllSelect held others more

def AnySelects (held : Expr → String) (others : Condition → Prop) : List Condition → Prop
  | [] => False
  | test :: more => test.Selects held others ∨ AnySelects held others more

end

variable {store : Store} {key : Expr} {text : String} {held : Expr → String} {others : Condition → Prop}
  {patterns : List String}

@[simp]
theorem allSelect_iff {members : List Condition} :
    AllSelect held others members ↔ ∀ member ∈ members, member.Selects held others := by
  induction members with
  | nil => simp [AllSelect]
  | cons test more ih => simp [AllSelect, ih]

@[simp]
theorem anySelects_iff {members : List Condition} :
    AnySelects held others members ↔ ∃ member ∈ members, member.Selects held others := by
  induction members with
  | nil => simp [AnySelects]
  | cons test more ih => simp [AnySelects, ih]

/-! ## A group of patterns on one key -/

/-- Patterns on one key, joined by a connective. -/
def likes (key : Expr) (patterns : List String) (isLike : Bool) (operator : Connective) : Condition :=
  .logical (patterns.map fun pattern ↦ .like key pattern isLike) operator

theorem selects_likes_iff (isLike : Bool) (operator : Connective) :
    (likes key patterns isLike operator).Selects held others ↔
      operator.Joins (fun pattern ↦ accepts pattern.toList (held key).toList = isLike) patterns := by
  cases operator <;> simp [likes, Selects, Connective.Joins]

theorem holds_likes_iff {item : Item} (isLike : Bool) (operator : Connective) :
    (likes key patterns isLike operator).Holds store item ↔ operator.Joins
      (fun pattern ↦ (LikeTest.ofPattern pattern).Accepts store (item key.columnName) isLike) patterns := by
  cases operator <;> simp [likes, Holds, Connective.Joins]

theorem phrases_likes (key : Expr) (patterns : List String) (isLike : Bool) :
    Condition.phrases (patterns.map fun pattern ↦ .like key pattern isLike) =
      .ok (patterns.map fun pattern ↦ likePhrase key.columnName pattern isLike) := by
  induction patterns with
  | nil => rfl
  | cons pattern more ih =>
    rw [List.map_cons, Condition.phrases, ih]
    rfl

theorem partiqlList_likes {keyText : String} (hkey : key.partiql .identifier = .ok keyText)
    (patterns : List String) (isLike : Bool) :
    Condition.partiqlList (patterns.map fun pattern ↦ .like key pattern isLike) =
      .ok (patterns.map fun pattern ↦ likeText keyText pattern isLike) := by
  induction patterns with
  | nil => rfl
  | cons pattern more ih =>
    rw [List.map_cons, Condition.partiqlList, ih, Condition.partiql, hkey]
    rfl

/-- Both compiled forms of patterns with runs at their ends find the texts that pass their tests. -/
theorem means_likes (compares : store.ComparesText) (isLike : Bool) (operator : Connective)
    (nonempty : patterns ≠ []) (run : ∀ pattern ∈ patterns, pattern.toList.getLast? = some '%') :
    (likes key patterns isLike operator).Means store key text (operator.Joins
      (fun pattern ↦ (LikeTest.ofPattern pattern).Admits text ↔ isLike = true) patterns) where
  request := by
    obtain ⟨phrase, hphrase⟩ : ∃ phrase, (likes key patterns isLike operator).phrase = .ok phrase := by
      rw [likes, Condition.phrase, phrases_likes]
      exact ⟨_, rfl⟩
    have hgrouped : (likes key patterns isLike operator).Grouped := by simp [likes, Grouped, nonempty]
    refine ⟨phrase, hphrase, fun before final later ↦ ?_⟩
    obtain ⟨found, hfound, hmeaning⟩ := exists_read?_write hphrase hgrouped later
    refine ⟨found, hfound, fun item hitem ↦ ?_⟩
    rw [hmeaning, holds_likes_iff, hitem]
    exact Connective.joins_congr fun pattern _ ↦ LikeTest.accepts_iff_admits compares text isLike _
  partiql := by
    intro keyText hkey
    obtain ⟨found, hfound, hmeaning⟩ := KeyTest.exists_read?_group keyText operator isLike nonempty
      fun pattern hpattern ↦ (LikeTest.splits_ofPattern pattern).ne_equals (run pattern hpattern)
    refine ⟨_, by rw [likes, Condition.partiql, partiqlList_likes hkey]; rfl, found, hfound,
      fun item hitem ↦ ?_⟩
    have hread : (Operand.name keyText).read item = some (.string text) := hitem
    rw [hmeaning]
    refine Connective.joins_congr fun pattern _ ↦ ?_
    rw [LikeTest.passes_toTest_iff, hread, LikeTest.accepts_iff_admits compares]

/-! ## Search terms -/

/-- Whether a text has a word that starts with a term: at the start of the text, or behind a
delimiter. -/
def StartsWord (delimiters : List String) (term text : String) : Prop :=
  term.toList <+: text.toList ∨ ∃ delimiter ∈ delimiters, (delimiter ++ term).toList <:+: text.toList

theorem ofSearchTerm_words (column : Expr) (delimiters : List String) (term : String) :
    ofSearchTerm column delimiters ("~" ++ term) = likes column (wordPatterns delimiters term) true .or := by
  have htext : ("~" ++ term).toList = '~' :: term.toList := by simp
  simp only [ofSearchTerm, htext, searchMark?, String.ofList_toList]
  rfl

theorem ofSearchTerm_noWords (column : Expr) (delimiters : List String) (term : String) :
    ofSearchTerm column delimiters ("!~" ++ term) =
      likes column (wordPatterns delimiters term) false .and := by
  have htext : ("!~" ++ term).toList = '!' :: '~' :: term.toList := by simp
  simp only [ofSearchTerm, htext, searchMark?, String.ofList_toList]
  rfl

theorem toList_start (term : String) : (term ++ "%").toList = term.toList ++ ['%'] := by simp

theorem toList_part (delimiter term : String) :
    ("%" ++ delimiter ++ term ++ "%").toList = '%' :: ((delimiter ++ term).toList ++ ['%']) := by simp

theorem mem_wordPatterns {delimiters : List String} {term pattern : String} :
    pattern ∈ wordPatterns delimiters term ↔
      pattern = term ++ "%" ∨ ∃ delimiter ∈ delimiters, pattern = "%" ++ delimiter ++ term ++ "%" := by
  simp [wordPatterns, eq_comm]

theorem wordPatterns_run {delimiters : List String} {term : String} :
    ∀ pattern ∈ wordPatterns delimiters term, pattern.toList.getLast? = some '%' := by
  intro pattern hpattern
  obtain rfl | ⟨delimiter, -, rfl⟩ := mem_wordPatterns.mp hpattern
  · rw [toList_start, List.getLast?_concat]
  · rw [toList_part, ← List.cons_append, List.getLast?_concat]

section Words

variable {delimiters : List String} {term : String} (plainTerm : Plain term.toList)
  (plainDelimiters : ∀ delimiter ∈ delimiters, Plain delimiter.toList)

include plainTerm plainDelimiters

theorem plain_delimited : ∀ delimiter ∈ delimiters, Plain (delimiter ++ term).toList := by
  intro delimiter hdelimiter
  rw [String.toList_append, plain_append]
  exact ⟨plainDelimiters delimiter hdelimiter, plainTerm⟩

theorem wordPatterns_atEnds : ∀ pattern ∈ wordPatterns delimiters term, AtEnds pattern.toList := by
  intro pattern hpattern
  obtain rfl | ⟨delimiter, hdelimiter, rfl⟩ := mem_wordPatterns.mp hpattern
  · rw [toList_start]
    exact plainTerm.atEnds_start
  · rw [toList_part]
    exact (plain_delimited plainTerm plainDelimiters delimiter hdelimiter).atEnds_part

/-- The patterns of a search term ask for a word that starts with the term. -/
theorem joins_wordPatterns_iff :
    Connective.or.Joins (fun pattern : String ↦ accepts pattern.toList text.toList = true)
      (wordPatterns delimiters term) ↔ StartsWord delimiters term text := by
  have hpart : ∀ delimiter ∈ delimiters,
      (accepts ("%" ++ delimiter ++ term ++ "%").toList text.toList = true ↔
        (delimiter ++ term).toList <:+: text.toList) := by
    intro delimiter hdelimiter
    rw [toList_part, accepts_part_iff (plain_delimited plainTerm plainDelimiters delimiter hdelimiter)]
  calc
    _ ↔ accepts (term ++ "%").toList text.toList = true ∨ ∃ delimiter ∈ delimiters,
        accepts ("%" ++ delimiter ++ term ++ "%").toList text.toList = true := by
      simp only [Connective.Joins, wordPatterns, List.exists_mem_cons_iff, List.mem_map,
        exists_exists_and_eq_and]
    _ ↔ StartsWord delimiters term text := by
      rw [toList_start, accepts_start_iff plainTerm]
      exact or_congr_right (exists_congr fun delimiter ↦ and_congr_right (hpart delimiter))

/-- The same texts have no such word in any of the readings. -/
theorem joins_wordPatterns_not_iff :
    Connective.and.Joins (fun pattern : String ↦ accepts pattern.toList text.toList = false)
      (wordPatterns delimiters term) ↔ ¬ StartsWord delimiters term text := by
  simp only [← Bool.not_eq_true]
  rw [Connective.joins_and_not_iff, joins_wordPatterns_iff plainTerm plainDelimiters]

/-- The tests of the patterns of a search term are as sharp as the patterns. -/
theorem joins_admits_iff (isLike : Bool) (operator : Connective) :
    operator.Joins (fun pattern ↦ (LikeTest.ofPattern pattern).Admits text ↔ isLike = true)
        (wordPatterns delimiters term) ↔
      operator.Joins (fun pattern : String ↦ accepts pattern.toList text.toList = isLike)
        (wordPatterns delimiters term) := by
  refine Connective.joins_congr fun pattern hpattern ↦ ?_
  rw [LikeTest.admits_iff_accepts (LikeTest.splits_ofPattern pattern)
    (wordPatterns_atEnds plainTerm plainDelimiters pattern hpattern)
    (fun _ ↦ wordPatterns_run pattern hpattern), Bool.coe_iff_coe]

/-- A search for words finds the texts with a word that starts with the term, in SQL and in both
languages of a key-value store, and the search of the opposite mark finds the texts without one. -/
theorem ofSearchTerm_iff_startsWord (compares : store.ComparesText) (held : Expr → String)
    (others : Condition → Prop) (column : Expr) :
    (((ofSearchTerm column delimiters ("~" ++ term)).Selects held others ↔
        StartsWord delimiters term (held column)) ∧
      (ofSearchTerm column delimiters ("~" ++ term)).Means store column (held column)
        (StartsWord delimiters term (held column))) ∧
    ((ofSearchTerm column delimiters ("!~" ++ term)).Selects held others ↔
        ¬ StartsWord delimiters term (held column)) ∧
      (ofSearchTerm column delimiters ("!~" ++ term)).Means store column (held column)
        (¬ StartsWord delimiters term (held column)) := by
  have hnonempty : wordPatterns delimiters term ≠ [] := List.cons_ne_nil _ _
  have hmeans (isLike : Bool) (operator : Connective) :
      (likes column (wordPatterns delimiters term) isLike operator).Means store column (held column) _ :=
    (means_likes compares isLike operator hnonempty wordPatterns_run).congr
      (joins_admits_iff plainTerm plainDelimiters isLike operator)
  rw [ofSearchTerm_words, ofSearchTerm_noWords, selects_likes_iff, selects_likes_iff]
  refine ⟨⟨?_, ?_⟩, ?_, ?_⟩
  · exact joins_wordPatterns_iff plainTerm plainDelimiters
  · exact (hmeans true .or).congr (joins_wordPatterns_iff plainTerm plainDelimiters)
  · exact joins_wordPatterns_not_iff plainTerm plainDelimiters
  · exact (hmeans false .and).congr (joins_wordPatterns_not_iff plainTerm plainDelimiters)

end Words

theorem ofSearchTerm_iff_startsWord_beta :
    Plain "be".toList ∧ (∀ delimiter ∈ [" ", ""], Plain delimiter.toList) ∧ textStore.ComparesText ∧
    StartsWord [" ", ""] "be" "alpha beta" ∧
    ((ofSearchTerm (.column "note") [" ", ""] ("~" ++ "be")).Selects (fun _ ↦ "alpha beta")
        (fun _ ↦ False) ↔ StartsWord [" ", ""] "be" "alpha beta") ∧
    (ofSearchTerm (.column "note") [" ", ""] ("!~" ++ "be")).Means textStore (.column "note") "alpha beta"
      (¬ StartsWord [" ", ""] "be" "alpha beta") := by
  have hterm : Plain "be".toList := by decide
  have hdelimiters : ∀ delimiter ∈ [" ", ""], Plain delimiter.toList := by decide
  have hsearch := ofSearchTerm_iff_startsWord hterm hdelimiters comparesText_textStore
    (fun _ ↦ "alpha beta") (fun _ ↦ False) (.column "note")
  exact ⟨hterm, hdelimiters, comparesText_textStore, .inr ⟨" ", by simp, by decide⟩, hsearch.1.1,
    hsearch.2.2⟩

end Condition

end PortableQuery
