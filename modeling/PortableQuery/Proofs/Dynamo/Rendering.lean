import PortableQuery.Proofs.Dynamo.Phrase
import PortableQuery.Proofs.Dynamo.Selection

/-!
# The expressions of a request

A request shows its statement only through placeholders. With every placeholder replaced by its name
or value, the expressions of the request are the conditions, fields and assignments of the statement,
written out without placeholders; every placeholder of the request is used in one of them. The phrases
of conditions and assignments are those of `Condition.Written` and `assignmentPhrases_eq_ok_iff`.
-/

namespace PortableQuery

open Dynamo

namespace Dynamo

/-! ## Requests -/

def Request.names : Request → Entries String
  | .query input => input.names
  | .scan input => input.names
  | .updateItem input => input.names
  | .deleteItem input => input.names
  | _ => []

def Request.values : Request → Entries Attribute
  | .query input => input.values
  | .scan input => input.values
  | .updateItem input => input.values
  | .deleteItem input => input.values
  | _ => []

/-- An expression that may be left out. -/
def expression? (name : String) (text : Option String) : Entries String :=
  (text.map fun text ↦ (name, text)).toList

/-- The expressions of a request under their names. -/
def Request.expressions : Request → Entries String
  | .query input =>
    ("KeyConditionExpression", input.keyCondition) ::
      (expression? "FilterExpression" input.filter ++
        expression? "ProjectionExpression" input.projection)
  | .scan input =>
    expression? "FilterExpression" input.filter ++
      expression? "ProjectionExpression" input.projection
  | .updateItem input =>
    ("UpdateExpression", input.update) :: expression? "ConditionExpression" input.condition
  | .deleteItem input => expression? "ConditionExpression" input.condition
  | _ => []

/-! ## Statements without placeholders -/

/-- An expression of several parts, left out if there are none. -/
def phrase? (name separator : String) (phrases : List Phrase) : Entries Phrase :=
  if phrases.isEmpty then [] else [(name, joinPhrases separator phrases)]

end Dynamo

/-- The expressions of a select. Conditions on the key come first, or make an expression of their own
where the table is read by key. -/
def Select.rendering (options : Options) (query : Select) : Except Error (Entries Phrase) := do
  let keyed ← Condition.phrases (query.filter.filter fun test ↦ test.OnKey options)
  let others ← Condition.phrases (query.filter.filter fun test ↦ ¬ test.OnKey options)
  let projection := phrase? "ProjectionExpression" ", " (fieldPhrases query)
  if options.forceScan = false ∧ ∃ test ∈ query.filter, test.OnPartition options then
    return ("KeyConditionExpression", joinPhrases " AND " keyed) ::
      (phrase? "FilterExpression" " AND " others ++ projection)
  else return phrase? "FilterExpression" " AND " (keyed ++ others) ++ projection

def Update.rendering (options : Options) (mutation : Update) : Except Error (Entries Phrase) := do
  let assigned ← assignmentPhrases mutation.assignments
  let conditions ← Condition.phrases (residual options mutation.filter)
  return ("UpdateExpression", .word "SET " :: joinPhrases ", " assigned) ::
    phrase? "ConditionExpression" " AND " conditions

def Delete.rendering (options : Options) (mutation : Delete) : Except Error (Entries Phrase) := do
  let conditions ← Condition.phrases (residual options mutation.filter)
  return phrase? "ConditionExpression" " AND " conditions

/-- The expressions of a statement, with names and values in the place of placeholders. -/
def Statement.rendering (options : Options) : Statement → Except Error (Entries Phrase)
  | .select query => query.rendering options
  | .update mutation => mutation.rendering options
  | .delete mutation => mutation.rendering options
  | _ => .ok []

namespace Dynamo

/-- A word that is made of words and marks of the language. -/
def FixedWord (word : String) : Prop :=
  word = "SET " ∨ ∃ found, lexemes? [] [] word.toList = some found

/-- A request whose expressions are the given ones, up to its placeholders. -/
structure Request.Shows (request : Request) (rendering : Entries Phrase) : Prop where
  fixed : ∀ entry ∈ rendering, ∀ word, Token.word word ∈ entry.2 → FixedWord word
  resolves : List.Forall₂ (fun rendered expression ↦ rendered.1 = expression.1 ∧
    Resolves request.names request.values rendered.2 expression.2) rendering request.expressions
  names : ∀ mark ∈ request.names.keys, (∃ index, mark = Placeholders.nameMark index) ∧
    ∃ expression ∈ request.expressions, .mark mark ∈ pieces expression.2.toList
  values : ∀ mark ∈ request.values.keys, (∃ index, mark = Placeholders.valueMark index) ∧
    ∃ expression ∈ request.expressions, .mark mark ∈ pieces expression.2.toList

/-! ## Expressions of several parts -/

theorem mem_joinPhrases {separator : String} {phrases : List Phrase} {token : Token}
    (h : token ∈ joinPhrases separator phrases) :
    token = .word separator ∨ ∃ phrase ∈ phrases, token ∈ phrase := by
  induction phrases with
  | nil => simp [joinPhrases] at h
  | cons phrase more ih =>
    cases more with
    | nil =>
      rw [joinPhrases] at h
      exact .inr ⟨phrase, by simp, h⟩
    | cons next more =>
      rw [joinPhrases, List.mem_append, List.mem_cons] at h
      · rcases h with hfirst | rfl | hmore
        · exact .inr ⟨phrase, by simp, hfirst⟩
        · exact .inl rfl
        · refine (ih hmore).imp_right ?_
          rintro ⟨found, hfound, htoken⟩
          exact ⟨found, by simp [hfound], htoken⟩
      · simp

/-- Expressions that are the given phrases, up to placeholders. -/
structure Shown (placeholders : Placeholders) (rendering : Entries Phrase)
    (expressions : Entries String) : Prop where
  fixed : ∀ entry ∈ rendering, ∀ word, Token.word word ∈ entry.2 → FixedWord word
  resolves : List.Forall₂ (fun rendered expression ↦ rendered.1 = expression.1 ∧
    Resolves placeholders.nameEntries placeholders.valueEntries rendered.2 expression.2)
    rendering expressions

/-- Everything in the expressions that is a placeholder or a letter of its own. -/
def allPieces (expressions : Entries String) : List Piece :=
  expressions.flatMap fun expression ↦ pieces expression.2.toList

theorem allPieces_append (first second : Entries String) :
    allPieces (first ++ second) = allPieces first ++ allPieces second := List.flatMap_append

variable {placeholders : Placeholders} {separator : String} {phrases : List Phrase}
  {texts : List String}

theorem Shown.append {first second : Entries Phrase} {expressions others : Entries String}
    (front : Shown placeholders first expressions) (back : Shown placeholders second others) :
    Shown placeholders (first ++ second) (expressions ++ others) where
  fixed := by
    intro entry hentry
    rcases List.mem_append.mp hentry with hfirst | hsecond
    · exact front.fixed entry hfirst
    · exact back.fixed entry hsecond
  resolves := List.rel_append front.resolves back.resolves

theorem fixedWord_joinPhrases (separates : Separates separator)
    (spelled : ∀ phrase ∈ phrases, Spelled phrase) {word : String}
    (h : Token.word word ∈ joinPhrases separator phrases) : FixedWord word := by
  rcases mem_joinPhrases h with heq | ⟨phrase, hphrase, hword⟩
  · obtain rfl := Token.word.inj heq
    exact .inr separates.reads
  · obtain ⟨lexemes, spells⟩ := spelled phrase hphrase
    exact .inr (spells.exists_lexemes? word hword)

/-- An expression whose parts are joined. -/
theorem shown_joined (name : String) (separates : Separates separator)
    (spelled : ∀ phrase ∈ phrases, Spelled phrase)
    (resolves : List.Forall₂ (Resolves placeholders.nameEntries placeholders.valueEntries) phrases
      texts) :
    Shown placeholders [(name, joinPhrases separator phrases)]
      [(name, String.intercalate separator texts)] where
  fixed := by
    intro entry hentry word hword
    obtain rfl := List.mem_singleton.mp hentry
    exact fixedWord_joinPhrases separates spelled hword
  resolves := .cons ⟨rfl, resolves_intercalate separates resolves⟩ .nil

theorem mem_allPieces_joined (name : String) (separates : Separates separator) {piece : Piece}
    (h : piece ∈ texts.flatMap fun text ↦ pieces text.toList) :
    piece ∈ allPieces [(name, String.intercalate separator texts)] := by
  simpa [allPieces] using mem_pieces_intercalate separates h

/-- Texts with a word between them; nothing if there are none. -/
def joined? (separator : String) (texts : List String) : Option String :=
  if texts.isEmpty then none else some (String.intercalate separator texts)

theorem shown_joined? (name : String) (separates : Separates separator)
    (spelled : ∀ phrase ∈ phrases, Spelled phrase)
    (resolves : List.Forall₂ (Resolves placeholders.nameEntries placeholders.valueEntries) phrases
      texts) :
    Shown placeholders (phrase? name separator phrases)
      (expression? name (joined? separator texts)) := by
  by_cases hnone : texts = []
  · subst hnone
    obtain rfl := List.forall₂_nil_right_iff.mp resolves
    exact ⟨by simp [phrase?], .nil⟩
  · have hphrases : phrases ≠ [] := by
      rintro rfl
      exact hnone (List.forall₂_nil_left_iff.mp resolves)
    simpa [phrase?, expression?, joined?, hnone, hphrases] using
      shown_joined name separates spelled resolves

theorem mem_allPieces_joined? (name : String) (separates : Separates separator) {piece : Piece}
    (h : piece ∈ texts.flatMap fun text ↦ pieces text.toList) :
    piece ∈ allPieces (expression? name (joined? separator texts)) := by
  by_cases hnone : texts = []
  · simp [hnone] at h
  · simpa [expression?, joined?, hnone] using mem_allPieces_joined name separates h

theorem mem_keys_nameEntries {mark : String} (h : mark ∈ placeholders.nameEntries.keys) :
    ∃ index < placeholders.names.length, mark = Placeholders.nameMark index := by
  simp only [Placeholders.nameEntries, Entries.keys, List.mem_map, List.mem_mapIdx] at h
  obtain ⟨entry, ⟨index, hindex, rfl⟩, rfl⟩ := h
  exact ⟨index, hindex, rfl⟩

theorem mem_keys_valueEntries {mark : String} (h : mark ∈ placeholders.valueEntries.keys) :
    ∃ index < placeholders.values.length, mark = Placeholders.valueMark index := by
  simp only [Placeholders.valueEntries, Entries.keys, List.mem_map, List.mem_mapIdx] at h
  obtain ⟨entry, ⟨index, hindex, rfl⟩, rfl⟩ := h
  exact ⟨index, hindex, rfl⟩

/-- A request with the names and values of its placeholders, all of them in use. -/
theorem Request.shows_of_shown {request : Request} {rendering : Entries Phrase}
    (hnames : request.names = placeholders.nameEntries)
    (hvalues : request.values = placeholders.valueEntries)
    (shown : Shown placeholders rendering request.expressions)
    (covers : Placeholders.empty.Covers placeholders (allPieces request.expressions)) :
    request.Shows rendering where
  fixed := shown.fixed
  resolves := by simpa only [hnames, hvalues] using shown.resolves
  names := by
    intro mark hmark
    rw [hnames] at hmark
    obtain ⟨index, hindex, rfl⟩ := mem_keys_nameEntries hmark
    exact ⟨⟨index, rfl⟩, List.mem_flatMap.mp (covers.names index (Nat.zero_le _) hindex)⟩
  values := by
    intro mark hmark
    rw [hvalues] at hmark
    obtain ⟨index, hindex, rfl⟩ := mem_keys_valueEntries hmark
    exact ⟨⟨index, rfl⟩, List.mem_flatMap.mp (covers.values index (Nat.zero_le _) hindex)⟩

/-- The expression of an update, behind its first word. -/
theorem shown_set (spelled : ∀ phrase ∈ phrases, Spelled phrase)
    (resolves : List.Forall₂ (Resolves placeholders.nameEntries placeholders.valueEntries) phrases
      texts) :
    Shown placeholders [("UpdateExpression", .word "SET " :: joinPhrases ", " phrases)]
      [("UpdateExpression", "SET " ++ String.intercalate ", " texts)] where
  fixed := by
    intro entry hentry word hword
    obtain rfl := List.mem_singleton.mp hentry
    rcases List.mem_cons.mp hword with heq | hmore
    · exact .inl (Token.word.inj heq)
    · exact fixedWord_joinPhrases separates_comma spelled hmore
  resolves := by
    have hunmarked : Unmarked "SET ".toList := by decide
    have hjoined := resolves_intercalate separates_comma resolves
    refine .cons ⟨rfl, ?_⟩ .nil
    rw [Resolves, Phrase.letters_cons, resolve?_word_append hunmarked hjoined]

theorem mem_allPieces_set {piece : Piece} (h : piece ∈ texts.flatMap fun text ↦ pieces text.toList) :
    piece ∈ allPieces [("UpdateExpression", "SET " ++ String.intercalate ", " texts)] := by
  have hunmarked : Unmarked "SET ".toList := by decide
  have hjoined := mem_pieces_intercalate separates_comma h
  simp only [allPieces, List.flatMap_singleton, String.toList_append, pieces_of_unmarked hunmarked]
  exact List.mem_append_right _ hjoined

theorem spelled_assignmentPhrases {assignments : Entries Expr}
    (h : assignmentPhrases assignments = .ok phrases) : ∀ phrase ∈ phrases, Spelled phrase := by
  intro phrase hphrase
  obtain ⟨assignment, -, held, -, rfl⟩ :=
    exists_mem_of_forall₂ (assignmentPhrases_eq_ok_iff.mp h) phrase hphrase
  exact ⟨_, spells_comparison assignment.1 .eq held⟩

end Dynamo

/-! ## Statements -/

variable {options : Options} {request : Request}

theorem Delete.exists_rendering {mutation : Delete}
    (compiles : mutation.request options = .ok request) :
    ∃ rendering, mutation.rendering options = .ok rendering ∧ request.Shows rendering := by
  simp only [Delete.request, bind_eq_ok_iff] at compiles
  obtain ⟨tableName, -, hrest⟩ := compiles
  split at hrest
  · contradiction
  simp only [bind_eq_ok_iff, pure_eq_ok_iff] at hrest
  obtain ⟨key, -, phrases, hphrases, rfl⟩ := hrest
  refine ⟨phrase? "ConditionExpression" " AND " phrases, ?_, ?_⟩
  · simp only [Delete.rendering, bind_eq_ok_iff, pure_eq_ok_iff]
    exact ⟨phrases, hphrases, rfl⟩
  have hspelled := spelled_phrases hphrases
  apply Request.shows_of_shown rfl rfl
  · exact shown_joined? "ConditionExpression" separates_and hspelled
      (Placeholders.resolves_writeAll hspelled (.refl _))
  · apply (Placeholders.empty.covers_writeAll hspelled).mono
    intro piece hpiece
    exact mem_allPieces_joined? "ConditionExpression" separates_and hpiece

theorem Update.exists_rendering {mutation : Update}
    (compiles : mutation.request options = .ok request) :
    ∃ rendering, mutation.rendering options = .ok rendering ∧ request.Shows rendering := by
  simp only [Update.request, bind_eq_ok_iff] at compiles
  obtain ⟨tableName, -, hrest⟩ := compiles
  split at hrest
  · contradiction
  split at hrest
  · contradiction
  simp only [bind_eq_ok_iff, pure_eq_ok_iff] at hrest
  obtain ⟨assigned, hassigned, key, -, phrases, hphrases, rfl⟩ := hrest
  refine ⟨("UpdateExpression", .word "SET " :: joinPhrases ", " assigned) ::
    phrase? "ConditionExpression" " AND " phrases, ?_, ?_⟩
  · simp only [Update.rendering, bind_eq_ok_iff, pure_eq_ok_iff]
    exact ⟨assigned, hassigned, phrases, hphrases, rfl⟩
  have hset := spelled_assignmentPhrases hassigned
  have hspelled := spelled_phrases hphrases
  apply Request.shows_of_shown rfl rfl
  · have hlater := (Placeholders.empty.writeAll assigned).2.extends_writeAll phrases
    have hassignments := shown_set hset (Placeholders.resolves_writeAll hset hlater)
    exact hassignments.append (shown_joined? "ConditionExpression" separates_and hspelled
      (Placeholders.resolves_writeAll hspelled (.refl _)))
  · have hcovers := Placeholders.empty.covers_writeAll hset
    apply (hcovers.trans (Placeholders.covers_writeAll _ hspelled)).mono
    intro piece hpiece
    rw [Request.expressions, ← List.singleton_append, allPieces_append]
    rcases List.mem_append.mp hpiece with hfirst | hmore
    · exact List.mem_append_left _ (mem_allPieces_set hfirst)
    · exact List.mem_append_right _ (mem_allPieces_joined? "ConditionExpression" separates_and hmore)

namespace Dynamo.Reading

variable {query : Select} (reading : Reading options query)

theorem shown_projection :
    Shown reading.placeholders (phrase? "ProjectionExpression" ", " (fieldPhrases query))
      (expression? "ProjectionExpression" reading.projection) :=
  shown_joined? _ separates_comma (spelled_fieldPhrases query) reading.resolves_projected

theorem mem_allPieces_projection {piece : Piece}
    (h : piece ∈ reading.projected.flatMap fun text ↦ pieces text.toList) :
    piece ∈ allPieces (expression? "ProjectionExpression" reading.projection) :=
  mem_allPieces_joined? _ separates_comma h

variable {keyed others : List Phrase}
  (hkeyed : Condition.phrases (query.filter.filter fun test ↦ test.OnKey options) = .ok keyed)
  (hothers : Condition.phrases (query.filter.filter fun test ↦ ¬ test.OnKey options) = .ok others)
  (keyedTexts : List.Forall₂ (Resolves reading.placeholders.nameEntries
    reading.placeholders.valueEntries) keyed reading.keyed)
  (otherTexts : List.Forall₂ (Resolves reading.placeholders.nameEntries
    reading.placeholders.valueEntries) others reading.others)

include hkeyed hothers keyedTexts otherTexts

theorem shows_queryRequest :
    (Request.query reading.queryRequest).Shows
      (("KeyConditionExpression", joinPhrases " AND " keyed) ::
        (phrase? "FilterExpression" " AND " others ++
          phrase? "ProjectionExpression" ", " (fieldPhrases query))) := by
  apply Request.shows_of_shown rfl rfl
  · exact (shown_joined _ separates_and (spelled_phrases hkeyed) keyedTexts).append
      ((shown_joined? _ separates_and (spelled_phrases hothers) otherTexts).append
        reading.shown_projection)
  · apply reading.covers.mono
    intro piece hpiece
    rw [Request.expressions, ← List.singleton_append, allPieces_append, allPieces_append]
    rw [List.flatMap_append, List.flatMap_append, List.append_assoc] at hpiece
    rcases List.mem_append.mp hpiece with hkey | hpiece
    · exact List.mem_append_left _ (mem_allPieces_joined _ separates_and hkey)
    rcases List.mem_append.mp hpiece with hother | hfield
    · have hmem := mem_allPieces_joined? "FilterExpression" separates_and hother
      exact List.mem_append_right _ (List.mem_append_left _ hmem)
    · exact List.mem_append_right _ (List.mem_append_right _ (reading.mem_allPieces_projection hfield))

theorem shows_scanRequest :
    (Request.scan reading.scanRequest).Shows
      (phrase? "FilterExpression" " AND " (keyed ++ others) ++
        phrase? "ProjectionExpression" ", " (fieldPhrases query)) := by
  have hspelled : ∀ phrase ∈ keyed ++ others, Spelled phrase :=
    List.forall_mem_append.mpr ⟨spelled_phrases hkeyed, spelled_phrases hothers⟩
  apply Request.shows_of_shown rfl rfl
  · exact (shown_joined? _ separates_and hspelled (List.rel_append keyedTexts otherTexts)).append
      reading.shown_projection
  · apply reading.covers.mono
    intro piece hpiece
    rw [Request.expressions, allPieces_append]
    rw [List.flatMap_append] at hpiece
    rcases List.mem_append.mp hpiece with hcondition | hfield
    · exact List.mem_append_left _ (mem_allPieces_joined? _ separates_and hcondition)
    · exact List.mem_append_right _ (reading.mem_allPieces_projection hfield)

end Dynamo.Reading

theorem Select.exists_rendering {query : Select} (compiles : query.request options = .ok request) :
    ∃ rendering, query.rendering options = .ok rendering ∧ request.Shows rendering := by
  obtain ⟨reading, hreading⟩ := exists_reading compiles
  obtain ⟨keyed, hkeyed, keyedTexts⟩ := exists_phrases reading.compiled_keyed
  obtain ⟨others, hothers, otherTexts⟩ := exists_phrases reading.compiled_others
  obtain rfl : reading.request options.forceScan = request := by
    rw [hreading options.forceScan] at compiles
    exact Except.ok.inj compiles
  by_cases hpartition : options.forceScan = false ∧ ∃ test ∈ query.filter, test.OnPartition options
  · rw [Reading.request, if_pos hpartition]
    refine ⟨_, ?_, reading.shows_queryRequest hkeyed hothers keyedTexts otherTexts⟩
    simp only [Select.rendering, bind_eq_ok_iff]
    refine ⟨keyed, hkeyed, others, hothers, ?_⟩
    rw [if_pos hpartition]
    rfl
  · rw [Reading.request, if_neg hpartition]
    refine ⟨_, ?_, reading.shows_scanRequest hkeyed hothers keyedTexts otherTexts⟩
    simp only [Select.rendering, bind_eq_ok_iff]
    refine ⟨keyed, hkeyed, others, hothers, ?_⟩
    rw [if_neg hpartition]
    rfl

/-- An insert has no expressions. -/
theorem Insert.shows_of_request {mutation : Insert} (compiles : mutation.request = .ok request) :
    request.Shows [] := by
  simp only [Insert.request, bind_eq_ok_iff] at compiles
  obtain ⟨tableName, -, rows, -, hrequest⟩ := compiles
  split at hrequest <;> obtain rfl := Except.ok.inj hrequest <;>
    exact ⟨by simp, .nil, by simp [Request.names, Entries.keys], by simp [Request.values, Entries.keys]⟩

/-- The expressions of a request are those of its statement, once placeholders are replaced. -/
theorem Statement.request_shows {statement : Statement}
    (compiles : statement.request options = .ok request) :
    ∃ rendering, statement.rendering options = .ok rendering ∧ request.Shows rendering := by
  cases statement with
  | select query => exact Select.exists_rendering compiles
  | insert mutation => exact ⟨[], rfl, Insert.shows_of_request compiles⟩
  | update mutation => exact Update.exists_rendering compiles
  | delete mutation => exact Delete.exists_rendering compiles
  | createTable definition => contradiction
  | createView definition => contradiction

/-! ## An update with a shared value -/

namespace Dynamo

def noteOptions : Options := { Options.default with partitionKey := some "id" }

/-- Two columns of an item set to one text, if its author begins with a letter. -/
def noteUpdate : Update :=
  { table := .named "notes" none
    assignments := [("title", .value (.string "x")), ("body", .value (.string "x"))]
    filter := [.like (.column "author") "b%" true,
      .compare (.column "id") (.value (.string "a")) .eq] }

def noteRequest : Request :=
  .updateItem
    { tableName := "notes", key := [("id", .string "a")]
      update := "SET #n0 = :v0, #n1 = :v0", condition := some "begins_with(#n2, :v1)"
      names := [("#n0", "title"), ("#n1", "body"), ("#n2", "author")]
      values := [(":v0", .string "x"), (":v1", .string "b")] }

theorem request_noteUpdate :
    (Statement.update noteUpdate).request noteOptions = .ok noteRequest := rfl

end Dynamo

theorem Statement.request_shows_noteUpdate :
    noteRequest.Shows
      [("UpdateExpression",
          [.word "SET ", .name "title", .word " = ", .value (.string "x"), .word ", ",
            .name "body", .word " = ", .value (.string "x")]),
        ("ConditionExpression",
          [.word "begins_with(", .name "author", .word ", ", .value (.string "b"), .word ")"])] := by
  obtain ⟨rendering, hrendering, hshows⟩ := request_shows request_noteUpdate
  obtain rfl := Except.ok.inj hrendering
  exact hshows

end PortableQuery
