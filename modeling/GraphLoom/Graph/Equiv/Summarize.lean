import GraphLoom.Foundation.Fallible
import GraphLoom.Foundation.TreeMaps
import GraphLoom.Graph.Summarize

/-!
# Every description is summarized once

The prompts take the distinct descriptions in their order, each of them once, and each prompt after
the first has the answer to the one before it in front (`summarizeDescriptionList_uses`).  One
description alone needs no prompt: it is its own summary.
-/

namespace GraphLoom.Graph

open Foundation Llm Std

variable {ε : Type} {context : SummarizeContext ε} {entityNameJson : String}

namespace SummarizeContext

/-! ### The distinct descriptions -/

theorem distinctDescriptions_sorted (descriptions : List String) :
    (distinctDescriptions descriptions).Pairwise (· < ·) :=
  toList_sorted _

theorem mem_distinctDescriptions {descriptions : List String} {description : String} :
    description ∈ distinctDescriptions descriptions ↔ description ∈ descriptions := by
  unfold distinctDescriptions
  rw [ExtTreeSet.mem_toList, mem_ofList]

/-! ### What the prompts add -/

/-- The descriptions that each prompt adds: all of the first, and behind the answer in front of them
those of the others. -/
def addedDescriptions : List SummarizationCall → List (List String)
  | [] => []
  | call :: calls => call.descriptions :: calls.map (·.descriptions.tail)

variable {calls : List SummarizationCall}

theorem addedDescriptions_append (h : calls ≠ []) (call : SummarizationCall) :
    addedDescriptions (calls ++ [call]) = addedDescriptions calls ++ [call.descriptions.tail] := by
  cases calls with
  | nil => exact absurd rfl h
  | cons head calls => simp [addedDescriptions]

/-- The calls summarize the descriptions: together they add them in their order, each prompt is that
of two items at least, each prompt after the first has the answer before it in front, each answer is
the model's, and the result is the last. -/
structure Summarizes (context : SummarizeContext ε) (entityNameJson : String)
    (descriptions : List String) (calls : List SummarizationCall) (result : String) : Prop where
  added : (addedDescriptions calls).flatten = descriptions
  items : ∀ call ∈ calls, 2 ≤ call.descriptions.length
  chain : calls.IsChain fun call next => next.descriptions.head? = some call.response
  last : calls.getLast?.map (·.response) = some result
  prompts : ∀ call ∈ calls,
    context.renderSummarizationPrompt entityNameJson call.descriptions = .ok call.prompt
  answers : ∀ before call after, calls = before ++ call :: after →
    context.complete before (.new [.user call.prompt]) = .ok call.response

/-- What is collected between two prompts: everything so far, or the last answer and what has come
behind it. -/
inductive Collects (context : SummarizeContext ε) (entityNameJson : String) :
    List String → List SummarizationCall → List String → Prop
  | first (descriptions : List String) :
    Collects context entityNameJson descriptions [] descriptions
  | behind {descriptions : List String} {calls : List SummarizationCall} {response : String}
    (summarized : Summarizes context entityNameJson descriptions calls response)
    (pending : List String) :
    Collects context entityNameJson (descriptions ++ pending) calls (response :: pending)

variable {processed collected : List String}

theorem Collects.push
    (h : Collects context entityNameJson processed calls collected) (description : String) :
    Collects context entityNameJson (processed ++ [description]) calls
      (collected ++ [description]) := by
  cases h with
  | first => exact .first _
  | behind summarized pending =>
    rw [List.append_assoc]
    exact .behind summarized (pending ++ [description])

theorem append_singleton_split {α : Type} {xs before after : List α} {x y : α}
    (h : xs ++ [y] = before ++ x :: after) :
    (after = [] ∧ xs = before ∧ x = y) ∨ ∃ after', xs = before ++ x :: after' := by
  induction after using List.reverseRecOn with
  | nil =>
    have hinj := List.append_inj' h rfl
    exact .inl ⟨rfl, hinj.1, (List.cons.inj hinj.2).1.symm⟩
  | append_singleton after z _ =>
    rw [← List.cons_append, ← List.append_assoc] at h
    exact .inr ⟨after, (List.append_inj' h rfl).1⟩

/-- The prompt of what is collected. -/
theorem Collects.flush
    {prompt response : String} (h : Collects context entityNameJson processed calls collected)
    (hitems : 2 ≤ collected.length)
    (hprompt : context.renderSummarizationPrompt entityNameJson collected = .ok prompt)
    (hresponse : context.complete calls (.new [.user prompt]) = .ok response) :
    Summarizes context entityNameJson processed (calls ++ [⟨collected, prompt, response⟩])
      response := by
  have hlast : (calls ++ [(⟨collected, prompt, response⟩ : SummarizationCall)]).getLast?.map
      (·.response) = some response := by
    rw [List.getLast?_concat, Option.map_some]
  cases h with
  | first =>
    refine ⟨?_, ?_, List.isChain_singleton _, hlast, ?_, ?_⟩
    · show [processed].flatten = processed
      exact List.flatten_singleton
    · intro call hcall
      rw [List.mem_singleton.mp hcall]
      exact hitems
    · intro call hcall
      rw [List.mem_singleton.mp hcall]
      exact hprompt
    · intro before call after heq
      obtain ⟨-, rfl, rfl⟩ | ⟨after, heq⟩ := append_singleton_split heq
      · exact hresponse
      · exact absurd heq (by simp)
  | @behind descriptions _ previous summarized pending =>
    have hcalls : calls ≠ [] := by
      rintro rfl
      exact absurd summarized.last (by simp)
    refine ⟨?_, ?_, ?_, hlast, ?_, ?_⟩
    · rw [addedDescriptions_append hcalls, List.flatten_append, summarized.added, List.tail_cons,
        List.flatten_singleton]
    · intro call hcall
      obtain hcall | hcall := List.mem_append.mp hcall
      · exact summarized.items call hcall
      · rw [List.mem_singleton.mp hcall]
        exact hitems
    · refine List.isChain_append.mpr ⟨summarized.chain, List.isChain_singleton _, ?_⟩
      intro call hcall next hnext
      -- the answer before is in front of what is collected
      have hprevious : call.response = previous := by
        have hsome := summarized.last
        rw [Option.mem_def.mp hcall] at hsome
        exact Option.some.inj hsome
      cases hnext
      rw [List.head?_cons, hprevious]
    · intro call hcall
      obtain hcall | hcall := List.mem_append.mp hcall
      · exact summarized.prompts call hcall
      · rw [List.mem_singleton.mp hcall]
        exact hprompt
    · intro before call after heq
      obtain ⟨-, rfl, rfl⟩ | ⟨after, heq⟩ := append_singleton_split heq
      · exact hresponse
      · exact summarized.answers before call after heq

theorem Collects.length
    (h : Collects context entityNameJson processed calls collected) (description : String)
    (hprocessed : 1 ≤ processed.length) : 2 ≤ (collected ++ [description]).length := by
  rw [List.length_append, List.length_singleton]
  cases h with
  | first => omega
  | behind summarized pending =>
    rw [List.length_cons]
    omega

/-! ### The loop -/

/-- From what is collected the loop goes on until the last description has been summarized. -/
theorem summarizeLoop_summarizes {promptBudget : String} {descriptions : List String}
    (hlength : 2 ≤ descriptions.length) {rest : List String} (hrest : rest ≠ [])
    {processed : List String} (hdescriptions : processed ++ rest = descriptions)
    {usableTokens : ℕ} {collected : List String} {calls calls' : List SummarizationCall}
    {result result' : String}
    (hcollects : Collects context entityNameJson processed calls collected)
    (h : context.summarizeLoop entityNameJson promptBudget descriptions.length
      (rest.zipIdx processed.length) usableTokens collected calls result = .ok (calls', result')) :
    Summarizes context entityNameJson descriptions calls' result' := by
  induction rest generalizing processed usableTokens collected calls result with
  | nil => exact absurd rfl hrest
  | cons description rest ih =>
    have hcount : processed.length + (rest.length + 1) = descriptions.length := by
      rw [← hdescriptions, List.length_append, List.length_cons]
    have hpush := hcollects.push description
    rw [List.zipIdx_cons, summarizeLoop, bind_eq_ok] at h
    obtain ⟨tokens, -, h⟩ := h
    dsimp only at h
    have hnext : processed ++ [description] ++ rest = descriptions := by
      rw [List.append_assoc, List.singleton_append, hdescriptions]
    have hindex : (processed ++ [description]).length = processed.length + 1 := by
      rw [List.length_append, List.length_singleton]
    by_cases hend : processed.length = descriptions.length - 1
    · -- the last description is always in a prompt
      have hnil : rest = [] := List.length_eq_zero_iff.mp (by omega)
      subst hnil
      rw [if_pos (Or.inr hend), bind_eq_ok] at h
      obtain ⟨prompt, hprompt, h⟩ := h
      rw [bind_eq_ok] at h
      obtain ⟨response, hresponse, h⟩ := h
      rw [if_neg (not_not.mpr hend), List.zipIdx_nil, summarizeLoop] at h
      cases h
      rw [← hdescriptions]
      exact hpush.flush (hcollects.length description (by omega)) hprompt hresponse
    · have hne : rest ≠ [] := by
        rintro rfl
        rw [List.length_nil] at hcount
        omega
      rw [← hindex] at h
      split at h
      next hflush =>
        rw [bind_eq_ok] at h
        obtain ⟨prompt, hprompt, h⟩ := h
        rw [bind_eq_ok] at h
        obtain ⟨response, hresponse, h⟩ := h
        have hitems : 2 ≤ (collected ++ [description]).length := by
          obtain ⟨-, hitems⟩ | habsurd := hflush
          · exact hitems
          · exact absurd habsurd hend
        rw [bind_eq_ok] at h
        obtain ⟨budgetTokens, -, h⟩ := h
        rw [bind_eq_ok] at h
        obtain ⟨responseTokens, -, h⟩ := h
        have hsummarized := hpush.flush hitems hprompt hresponse
        have hbehind := Collects.behind hsummarized []
        rw [List.append_nil] at hbehind
        exact ih hne hnext hbehind h
      next => exact ih hne hnext hpush h

/-- The parameters never fail. -/
structure Total (context : SummarizeContext ε) : Prop where
  complete : ∀ calls request, ∃ response, context.complete calls request = .ok response
  render : ∀ name descriptions length, ∃ prompt,
    context.renderTemplate name descriptions length = .ok prompt
  count : ∀ text, ∃ tokens, context.count text = .ok tokens

/-- The loop ends, whatever the budget. -/
theorem summarizeLoop_total (htotal : context.Total) {promptBudget : String} {count : ℕ}
    (rest : List (String × ℕ)) (usableTokens : ℕ) (collected : List String)
    (calls : List SummarizationCall) (result : String) :
    ∃ outcome, context.summarizeLoop entityNameJson promptBudget count rest usableTokens collected
      calls result = .ok outcome := by
  induction rest generalizing usableTokens collected calls result with
  | nil => exact ⟨_, rfl⟩
  | cons head rest ih =>
    obtain ⟨tokens, htokens⟩ := htotal.count head.1
    obtain ⟨prompt, hprompt⟩ := htotal.render entityNameJson
      (context.pythonJsonStringArray (collected ++ [head.1])) context.maxLength
    obtain ⟨response, hresponse⟩ := htotal.complete calls (.new [.user prompt])
    obtain ⟨budgetTokens, hbudget⟩ := htotal.count promptBudget
    obtain ⟨responseTokens, hresponseTokens⟩ := htotal.count response
    unfold summarizeLoop renderSummarizationPrompt
    simp only [htokens, hprompt, hresponse, hbudget, hresponseTokens, bind, Except.bind]
    split_ifs
    all_goals exact ih ..

/-! ### The list of descriptions -/

/-- What a list of descriptions gives: no call without two of them that differ, and else the calls
that summarize them. -/
def Summary (context : SummarizeContext ε) (entityNameJson : String) (distinct : List String)
    (calls : List SummarizationCall) (result : String) : Prop :=
  match distinct with
  | [] => calls = [] ∧ result = ""
  | [description] => calls = [] ∧ result = description
  | distinct => Summarizes context entityNameJson distinct calls result ∧
    ∀ description ∈ distinct, ∃! i : ℕ, ∃ added : List String,
      (addedDescriptions calls)[i]? = some added ∧ description ∈ added

theorem existsUnique_flatten {α : Type} {xss : List (List α)} (h : xss.flatten.Nodup) {x : α}
    (hx : x ∈ xss.flatten) : ∃! i : ℕ, ∃ xs : List α, xss[i]? = some xs ∧ x ∈ xs := by
  obtain ⟨xs, hxs, hmem⟩ := List.mem_flatten.mp hx
  obtain ⟨i, hi⟩ := List.mem_iff_getElem?.mp hxs
  refine ⟨i, ⟨xs, hi, hmem⟩, ?_⟩
  rintro j ⟨xs', hj, hmem'⟩
  obtain ⟨hilt, rfl⟩ := List.getElem?_eq_some_iff.mp hi
  obtain ⟨hjlt, rfl⟩ := List.getElem?_eq_some_iff.mp hj
  have hdisjoint := List.pairwise_iff_getElem.mp (List.nodup_flatten.mp h).2
  -- two lists that share an element are one list
  by_contra hne
  obtain hlt | hlt := Nat.lt_or_gt_of_ne hne
  · exact hdisjoint j i hjlt hilt hlt hmem' hmem
  · exact hdisjoint i j hilt hjlt hlt hmem hmem'

/-- Every run that ends well uses each distinct description once, in ascending order, and a run ends
well when the parameters do. -/
theorem summarizeDescriptionList_uses (context : SummarizeContext ε) (entityNameJson : String)
    (descriptions : List String) :
    (distinctDescriptions descriptions).Pairwise (· < ·) ∧
    (∀ description, description ∈ distinctDescriptions descriptions ↔
      description ∈ descriptions) ∧
    (∀ calls result,
      context.summarizeDescriptionList entityNameJson descriptions = .ok (calls, result) →
        Summary context entityNameJson (distinctDescriptions descriptions) calls result) ∧
    (context.Total → ∃ calls result,
      context.summarizeDescriptionList entityNameJson descriptions = .ok (calls, result)) := by
  refine ⟨distinctDescriptions_sorted descriptions, fun _ => mem_distinctDescriptions, ?_, ?_⟩
  · intro calls result h
    have hnodup := nodup_of_sorted (distinctDescriptions_sorted descriptions)
    unfold summarizeDescriptionList at h
    match hdistinct : distinctDescriptions descriptions with
    | [] =>
      rw [hdistinct] at h
      cases h
      exact ⟨rfl, rfl⟩
    | [description] =>
      rw [hdistinct] at h
      cases h
      exact ⟨rfl, rfl⟩
    | first :: second :: others =>
      rw [hdistinct] at h hnodup
      dsimp only at h
      rw [bind_eq_ok] at h
      obtain ⟨promptBudget, -, h⟩ := h
      rw [bind_eq_ok] at h
      obtain ⟨budgetTokens, -, h⟩ := h
      have hsummarizes := summarizeLoop_summarizes (by simp) (by simp) (List.nil_append _)
        (.first []) h
      refine ⟨hsummarizes, ?_⟩
      intro description hmem
      rw [← hsummarizes.added] at hnodup hmem
      exact existsUnique_flatten hnodup hmem
  · intro htotal
    unfold summarizeDescriptionList
    split
    · exact ⟨_, _, rfl⟩
    · exact ⟨_, _, rfl⟩
    · obtain ⟨promptBudget, hprompt⟩ := htotal.render entityNameJson
        (context.pythonJsonStringArray []) context.maxLength
      obtain ⟨budgetTokens, hbudget⟩ := htotal.count promptBudget
      unfold renderSummarizationPrompt
      simp only [hprompt, hbudget, bind, Except.bind]
      obtain ⟨outcome, houtcome⟩ := summarizeLoop_total htotal _ _ _ _ _
      exact ⟨outcome.1, outcome.2, houtcome⟩

/-- Prompts of which every one is over the budget. -/
def tightContext : SummarizeContext Unit where
  complete calls _ := .ok ("summary " ++ toString calls.length)
  renderTemplate name descriptions _ := .ok (name ++ ": " ++ descriptions)
  jsonString text := "'" ++ text ++ "'"
  count text := .ok text.length
  maxLength := 10
  maxInputTokens := 3

theorem tightContext_total : tightContext.Total :=
  ⟨fun _ _ => ⟨_, rfl⟩, fun _ _ _ => ⟨_, rfl⟩, fun _ => ⟨_, rfl⟩⟩

theorem summarizeDescriptionList_uses_tight :
    tightContext.summarizeDescriptionList "CAFE" ["b", "a", "c", "a"] =
      .ok ([⟨["a", "b"], "CAFE: ['a', 'b']", "summary 0"⟩,
        ⟨["summary 0", "c"], "CAFE: ['summary 0', 'c']", "summary 1"⟩], "summary 1") ∧
    Summary tightContext "CAFE" (distinctDescriptions ["b", "a", "c", "a"])
      [⟨["a", "b"], "CAFE: ['a', 'b']", "summary 0"⟩,
        ⟨["summary 0", "c"], "CAFE: ['summary 0', 'c']", "summary 1"⟩] "summary 1" ∧
    ∃ calls result, tightContext.summarizeDescriptionList "CAFE" ["b", "a", "c", "a"] =
      .ok (calls, result) := by
  have hrun : tightContext.summarizeDescriptionList "CAFE" ["b", "a", "c", "a"] =
      .ok ([⟨["a", "b"], "CAFE: ['a', 'b']", "summary 0"⟩,
        ⟨["summary 0", "c"], "CAFE: ['summary 0', 'c']", "summary 1"⟩], "summary 1") := by
    decide +kernel
  have huses := summarizeDescriptionList_uses tightContext "CAFE" ["b", "a", "c", "a"]
  exact ⟨hrun, huses.2.2.1 _ _ hrun, huses.2.2.2 tightContext_total⟩

/-- One description alone is in no prompt. -/
theorem summarizeDescriptionList_single :
    ¬ ∀ calls result, tightContext.summarizeDescriptionList "CAFE" ["a"] = .ok (calls, result) →
      ∀ description ∈ ["a"], ∃ call ∈ calls, description ∈ call.descriptions := by
  intro hall
  have hrun : tightContext.summarizeDescriptionList "CAFE" ["a"] = .ok ([], "a") := by
    decide +kernel
  obtain ⟨call, hcall, -⟩ := hall [] "a" hrun "a" (List.mem_singleton_self _)
  exact absurd hcall List.not_mem_nil

end SummarizeContext

end GraphLoom.Graph
