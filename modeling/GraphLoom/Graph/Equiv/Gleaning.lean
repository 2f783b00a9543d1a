import GraphLoom.Graph.TextUnit
import GraphLoom.Llm.Equiv.Gleaning

/-!
# Gleaning

What is parsed for a text unit are the texts of the assistant's messages, one behind the other
(`converse_spec`).  No delimiter is put between them, so the rows are those of the responses only
where no record and no marker meets a record at a join (`extractTextUnitGraph_each_iff`).
-/

namespace GraphLoom.Graph

open Foundation Llm Prompts

variable {γ ω : Type}

/-! ### The dialogue -/

/-- The texts of the assistant's messages. -/
def assistantTexts (messages : List ChatMessage) : List String :=
  messages.filterMap fun message => match message.role, message.content with
    | .assistant, .text text => some text
    | _, _ => none

theorem assistantTexts_append (messages messages' : List ChatMessage) :
    assistantTexts (messages ++ messages') = assistantTexts messages ++ assistantTexts messages' :=
  List.filterMap_append ..

theorem assistantTexts_user (text : String) : assistantTexts [.user text] = [] := rfl

theorem assistantTexts_assistant (text : String) : assistantTexts [.assistant text] = [text] := rfl

/-- The rounds of gleaning put the texts that they add behind the output. -/
theorem glean_spec {complete : List ChatMessage → Except LlmError String} {rounds : ℕ}
    {messages messages' : List ChatMessage} {output output' : String}
    (h : glean complete rounds messages output = .ok (messages', output')) :
    ∃ texts, assistantTexts messages' = assistantTexts messages ++ texts ∧
      output' = texts.foldl (· ++ ·) output := by
  induction rounds generalizing messages output with
  | zero =>
    rw [glean] at h
    cases h
    exact ⟨[], (List.append_nil _).symm, rfl⟩
  | succ remaining ih =>
    rw [glean, bind_eq_ok] at h
    obtain ⟨response, -, h⟩ := h
    -- the continuation is asked for, and its text is the assistant's
    have htexts : ∀ asked : List ChatMessage, assistantTexts asked = [] →
        assistantTexts (messages ++ [.user continuePrompt] ++ [.assistant response] ++ asked) =
          assistantTexts messages ++ [response] := by
      intro asked hasked
      simp only [assistantTexts_append, assistantTexts_user, assistantTexts_assistant, hasked,
        List.append_nil]
    have hdone := htexts [] rfl
    rw [List.append_nil] at hdone
    dsimp only at h
    split_ifs at h with hlast
    · cases h
      exact ⟨[response], hdone, rfl⟩
    · rw [bind_eq_ok] at h
      obtain ⟨answer, -, h⟩ := h
      have hasked := htexts [.user loopPrompt] (assistantTexts_user _)
      split_ifs at h with hanswer
      · cases h
        exact ⟨[response], hasked, rfl⟩
      · obtain ⟨texts, hmessages, houtput⟩ := ih h
        rw [hasked, List.append_assoc] at hmessages
        exact ⟨response :: texts, hmessages, houtput⟩

/-- The output of a dialogue is made of the texts of the assistant. -/
theorem converse_spec {complete : List ChatMessage → Except LlmError String} {prompt : String}
    {maxGleanings : ℕ} {messages : List ChatMessage} {output : String}
    (h : converse complete prompt maxGleanings = .ok (messages, output)) :
    output = (assistantTexts messages).foldl (· ++ ·) "" := by
  rw [converse, bind_eq_ok] at h
  obtain ⟨first, -, h⟩ := h
  obtain ⟨texts, hmessages, rfl⟩ := glean_spec h
  rw [hmessages, assistantTexts_append, assistantTexts_user, assistantTexts_assistant,
    List.nil_append, List.cons_append, List.nil_append, List.foldl_cons, String.empty_append]

/-! ### The rows -/

theorem RawEntityRow.ofRecord_injective : Function.Injective RawEntityRow.ofRecord := by
  intro a b h
  cases a
  cases b
  simpa [RawEntityRow.ofRecord] using h

theorem RawRelationshipRow.ofRecord_injective :
    Function.Injective (@RawRelationshipRow.ofRecord ω) := by
  intro a b h
  cases a
  cases b
  simpa [RawRelationshipRow.ofRecord] using h

theorem rawRecords_injective : Function.Injective (@rawRecords ω) := by
  intro a b h
  obtain ⟨hentities, hrelationships⟩ := Prod.mk.inj h
  cases a
  cases b
  rw [GraphExtraction.mk.injEq]
  exact ⟨RawEntityRow.ofRecord_injective.list_map hentities,
    RawRelationshipRow.ofRecord_injective.list_map hrelationships⟩

section Rows

variable [One ω] {tera : Tera} {tools : GraphTools ω} (model : CompletionModel γ)
  (content : γ → Except LlmError String) (template : PromptTemplate tera)
  (entityTypes : List String) (textUnit : TextUnitInput) (maxGleanings : ℕ) {prompt : String}
  {messages : List ChatMessage} {output : String}

/-- The rows of a text unit are those of its responses put one behind the other. -/
theorem extractTextUnitGraph_joined
    (hprompt : extractionPrompt template entityTypes textUnit = .ok prompt)
    (hconverse : converse (completeText model content) prompt maxGleanings =
      .ok (messages, output))
    (responses : List TupleResponse)
    (hresponses : assistantTexts messages = responses.map TupleResponse.text) :
    extractTextUnitGraph tools model content template entityTypes textUnit maxGleanings =
      .ok (rawRecords (parseGraphTuples tools (joinedText responses) textUnit.id)) := by
  have houtput : output = joinedText responses := by
    rw [converse_spec hconverse, hresponses, List.foldl_map, joinedText]
  rw [extractTextUnitGraph, hprompt]
  dsimp only [Except.mapError, bind, Except.bind]
  rw [hconverse, ← houtput]
  rfl

/-- **Gleaning loses nothing exactly when all the pieces that the responses make together are
whole.** -/
theorem extractTextUnitGraph_each_iff (htools : tools.Lawful)
    (hprompt : extractionPrompt template entityTypes textUnit = .ok prompt)
    (hconverse : converse (completeText model content) prompt maxGleanings =
      .ok (messages, output))
    (responses : List TupleResponse)
    (hresponses : assistantTexts messages = responses.map TupleResponse.text) :
    extractTextUnitGraph tools model content template entityTypes textUnit maxGleanings =
        .ok (rawRecords (parseEach tools responses textUnit.id)) ↔
      ∀ pieces ∈ joinedPieces responses, Whole tools pieces := by
  rw [extractTextUnitGraph_joined model content template entityTypes textUnit maxGleanings hprompt
    hconverse responses hresponses, Except.ok.injEq, rawRecords_injective.eq_iff,
    parseGraphTuples_joined_iff htools responses textUnit.id]

end Rows

/-! ### Two responses -/

def sampleGraphTools : GraphTools ℕ where
  toUppercase := String.toUpper
  decodeHtmlEntities := id
  parseWeight text := if text = "1" then some 1 else none

theorem sampleGraphTools_lawful : sampleGraphTools.Lawful where
  decode_append _ _ _ := rfl
  parseWeight text htext := by
    refine if_neg fun hone => ?_
    rw [hone] at htext
    exact absurd htext (by decide)

/-- An engine that prints templates as they are. -/
def plainTera : Tera where
  Template := List Char
  addRawTemplate _ content := .ok content
  render template _ := .ok template

def plainTemplate : PromptTemplate plainTera where
  kind := .extractGraph
  content := "List the entities.".toList
  source := .builtIn
  template := "List the entities.".toList

/-- A model that answers the first request and then the others. -/
def twoResponses (first second : String) : CompletionModel String where
  validateRequest := CompletionRequest.validate
  complete request := .ok ⟨if request.messages.length = 1 then first else second, ⟨.notUsed⟩⟩
  canonical _ h := h

/-- A response of one piece, which is a record. -/
def tupleResponse (text inner after : String) (t : GraphTuple) (marked : Bool)
    (hsplit : split recordDelimiter text = ["(" ++ inner ++ ")" ++ after])
    (hfields : split tupleDelimiter (trim inner) = t.fieldsWith "")
    (hafter : trim after = if marked then completionDelimiter else "") : TupleResponse where
  text := text
  pieces := [.tuple t marked]
  reads := by
    rw [hsplit]
    exact .cons ⟨"", inner, after, by simp, by decide, hfields, hafter⟩ .nil

def aliceTuple : GraphTuple := .entity "ALICE" "PERSON" "Alice"

def bobTuple : GraphTuple := .entity "BOB" "PERSON" "Bob"

/-- A record and the marker in a line of its own. -/
def aliceResponse : TupleResponse :=
  tupleResponse "(\"entity\"<|>ALICE<|>PERSON<|>Alice)\n<|COMPLETE|>" "\"entity\"<|>ALICE<|>PERSON<|>Alice"
    "\n<|COMPLETE|>" aliceTuple true (by decide +kernel) (by decide +kernel) (by decide +kernel)

def bobResponse : TupleResponse :=
  tupleResponse "(\"entity\"<|>BOB<|>PERSON<|>Bob)\n<|COMPLETE|>" "\"entity\"<|>BOB<|>PERSON<|>Bob"
    "\n<|COMPLETE|>" bobTuple true (by decide +kernel) (by decide +kernel) (by decide +kernel)

/-- A response that adds nothing. -/
def blankResponse : TupleResponse where
  text := "\n"
  pieces := [.blank]
  reads := by
    have hsplit : split recordDelimiter "\n" = ["\n"] := by decide +kernel
    rw [hsplit]
    exact .cons (by show trim "\n" = ""; decide) .nil

def sampleUnit : TextUnitInput := ⟨"tu-1", "Alice knows Bob."⟩

/-- A record is parsed when the continuation adds nothing. -/
theorem extractTextUnitGraph_each_iff_sample :
    extractTextUnitGraph sampleGraphTools (twoResponses aliceResponse.text blankResponse.text) .ok
        plainTemplate ["PERSON"] sampleUnit 1 =
      .ok (rawRecords (parseEach sampleGraphTools [aliceResponse, blankResponse] "tu-1")) := by
  refine (extractTextUnitGraph_each_iff _ _ plainTemplate ["PERSON"] sampleUnit 1
    sampleGraphTools_lawful rfl rfl [aliceResponse, blankResponse] rfl).mpr fun pieces hpieces => ?_
  obtain rfl : pieces = [.tuple aliceTuple true, .blank] := List.mem_singleton.mp hpieces
  exact .inr ⟨[], aliceTuple, true, [.blank], rfl, by simp, by decide, by simp⟩

/-- **The record of a continuation is lost behind a completion marker.** -/
theorem gleaned_record_lost :
    (converse (completeText (twoResponses aliceResponse.text bobResponse.text) .ok)
        "List the entities." 1).map (fun dialogue => assistantTexts dialogue.1) =
      .ok [aliceResponse.text, bobResponse.text] ∧
    extractTextUnitGraph sampleGraphTools (twoResponses aliceResponse.text bobResponse.text) .ok
        plainTemplate ["PERSON"] sampleUnit 1 ≠
      .ok (rawRecords (parseEach sampleGraphTools [aliceResponse, bobResponse] "tu-1")) := by
  refine ⟨rfl, fun heq => ?_⟩
  rw [extractTextUnitGraph_joined _ _ plainTemplate ["PERSON"] sampleUnit 1 rfl rfl
    [aliceResponse, bobResponse] rfl, Except.ok.injEq, rawRecords_injective.eq_iff] at heq
  have hwhole := (parseGraphTuples_joined_iff sampleGraphTools_lawful _ _).mp heq
    [.tuple aliceTuple true, .tuple bobTuple true] (List.mem_singleton.mpr rfl)
  -- the two records stand in one piece
  obtain ⟨hnone, -⟩ := whole_tuple_cons.mp hwhole
  exact absurd (hnone _ (List.mem_singleton.mpr rfl)) (by decide)

end GraphLoom.Graph
