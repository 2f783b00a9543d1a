import GraphLoom.Foundation.TryBuffered
import GraphLoom.Graph.Equiv.Merge

/-!
## Correctness of the concurrent extraction

* `extractGraph_eq_sequential`: in whatever order the model calls complete, a call returns the graph
  that processing the text units one after another gives, and that graph is the one of the extracted
  records.
* `extractGraph_run_length`: every run of a call is short, and by `extractGraph_can_step` it goes on
  until the call returns.

A reachable state holds the records of the text units that completed, each with the position of its
text unit (`ExtractGraphState.Holds`), so that sorting them by position gives the sequential result.
-/

namespace GraphLoom.Graph

open Foundation ExtractGraphState

variable {ω : Type} [Add ω]

/-- Processing the text units one after another. -/
def extractGraphSequentially (extract : TextUnitInput → Except GraphLoomError (RawRecords ω))
    (textUnits : List TextUnitInput) : Except GraphLoomError (ExtractedGraph ω) := do
  let extracted ← textUnits.mapM extract
  mergeExtracted extracted

/-- What holds in every state of a call. -/
structure ExtractGraphState.Holds (extract : TextUnitInput → Except GraphLoomError (RawRecords ω))
    (textUnits : List TextUnitInput) (s : ExtractGraphState ω) : Prop where
  /-- The entries are the results of the text units that are not pending. -/
  extracted : s.returned = none → ∃ done : List (TextUnitInput × ℕ),
    textUnits.zipIdx.Perm (done ++ s.stream.pending) ∧
      List.Forall₂ (IsResultOf extract) done s.extracted
  returned : ∀ result, s.returned = some result → ∀ graph,
    result = .ok graph ↔ extractGraphSequentially extract textUnits = .ok graph

variable {extract : TextUnitInput → Except GraphLoomError (RawRecords ω)}
  {textUnits : List TextUnitInput} {concurrency : ℕ} {s t : ExtractGraphState ω}
  {action : ExtractGraphAction}

/-! ### Putting the results back in place -/

/-- When the results of all text units are there, the call returns the sequential result. -/
theorem finishExtraction_eq {done : List (TextUnitInput × ℕ)} {entries : List (ℕ × RawRecords ω)}
    (hdone : textUnits.zipIdx.Perm done) (hentries : List.Forall₂ (IsResultOf extract) done entries) :
    extractGraphSequentially extract textUnits = finishExtraction entries := by
  rw [extractGraphSequentially, mapM_of_results hdone hentries]
  rfl

/-- When a text unit fails, the sequential result is an error, too. -/
theorem extractGraphSequentially_ne_ok {textUnit : TextUnitInput} {error : GraphLoomError}
    (hmem : textUnit ∈ textUnits) (herror : extract textUnit = .error error)
    (graph : ExtractedGraph ω) : extractGraphSequentially extract textUnits ≠ .ok graph := by
  intro h
  obtain ⟨extracted, hextracted, -⟩ := bind_eq_ok.mp h
  exact mapM_ne_ok hmem herror extracted hextracted

/-! ### Runs -/

theorem ExtractGraphState.Holds.init :
    ExtractGraphState.Holds extract textUnits ⟨.full textUnits.zipIdx, 0, [], [], none⟩ where
  extracted _ := by
    refine ⟨[], ?_, .nil⟩
    show textUnits.zipIdx.Perm ([] ++ (textUnits.zipIdx ++ []))
    rw [List.nil_append, List.append_nil]
  returned _ h := by cases h

/-- A step keeps what holds of a call. -/
theorem ExtractGraphState.Holds.step (h : s.Holds extract textUnits)
    (hstep : ExtractGraphStep extract concurrency textUnits.length s action t) :
    t.Holds extract textUnits := by
  cases hstep with
  | start waits poll =>
    obtain ⟨done, hperm, hdone⟩ := h.extracted waits
    constructor
    · intro _
      exact ⟨done, hperm.trans (poll.pending_perm.append_left done), hdone⟩
    · exact h.returned
  | @extracted stream textUnit index records waits poll result =>
    obtain ⟨done, hperm, hdone⟩ := h.extracted waits
    constructor
    · intro _
      refine ⟨done ++ [(textUnit, index)], ?_, ?_⟩
      · rw [List.append_assoc]
        exact hperm.trans (poll.pending_perm.append_left done)
      · exact List.rel_append hdone (.cons ⟨rfl, result⟩ .nil)
    · intro _ hreturned
      rw [waits] at hreturned
      cases hreturned
  | @failed stream textUnit index error waits poll result =>
    obtain ⟨done, hperm, hdone⟩ := h.extracted waits
    constructor
    · intro hreturned
      cases hreturned
    · intro result' hreturned graph
      obtain rfl := Option.some.inj hreturned
      -- the failing text unit is one of the call's
      have hmem : (textUnit, index) ∈ textUnits.zipIdx := by
        apply (hperm.trans (poll.pending_perm.append_left done)).mem_iff.mpr
        simp
      have hmem' : textUnit ∈ textUnits := by
        rw [← List.zipIdx_map_fst 0 textUnits]
        exact List.mem_map_of_mem (f := Prod.fst) hmem
      constructor
      · intro hok
        cases hok
      · intro hok
        exact absurd hok (extractGraphSequentially_ne_ok hmem' result graph)
  | drained waits empty =>
    obtain ⟨done, hperm, hdone⟩ := h.extracted waits
    have hpending : s.stream.pending = [] := by
      rw [Buffer.pending, empty.1, empty.2, List.append_nil]
    rw [hpending, List.append_nil] at hperm
    constructor
    · intro hreturned
      cases hreturned
    · intro result hreturned graph
      obtain rfl := Option.some.inj hreturned
      rw [finishExtraction_eq hperm hdone]

theorem extractGraph_holds (h : (extractGraph extract textUnits concurrency).Reachable s) :
    s.Holds extract textUnits := by
  refine System.Reachable.invariant (fun s hs => ?_) (fun s a t _ hs hstep => hs.step hstep) h
  rw [show s = _ from hs]
  exact .init

/-- A call that has not returned can go on. -/
theorem extractGraph_can_step (hs : s.returned = none) :
    ∃ action t, (extractGraph extract textUnits concurrency).step s action t := by
  by_cases hdrained : s.stream.Drained
  · exact ⟨.drained, _, .drained hs hdrained⟩
  · obtain ⟨label, stream, hpoll⟩ :=
      Buffer.exists_poll (lt_of_lt_of_le Nat.one_pos (le_max_right concurrency 1)) hdrained
    cases label with
    | none => exact ⟨.start, _, .start hs hpoll⟩
    | some item =>
      obtain ⟨textUnit, index⟩ := item
      cases hresult : extract textUnit with
      | ok records => exact ⟨.completed index, _, .extracted hs hpoll hresult⟩
      | error error => exact ⟨.completed index, _, .failed hs hpoll hresult⟩

/-- What a call has left to do: that of its stream, and to return. -/
def ExtractGraphState.work (s : ExtractGraphState ω) : ℕ :=
  s.stream.work + if s.returned = none then 1 else 0

omit [Add ω] in
theorem ExtractGraphState.work_eq (hs : s.returned = none) : s.work = s.stream.work + 1 := by
  rw [work, hs]
  rfl

omit [Add ω] in
theorem ExtractGraphState.work_le (s : ExtractGraphState ω) : s.work ≤ s.stream.work + 1 := by
  unfold work
  split <;> omega

theorem ExtractGraphStep.work_lt
    (h : ExtractGraphStep extract concurrency textUnits.length s action t) : t.work < s.work := by
  cases h with
  | start waits poll =>
    have hwork := poll.work_lt
    rw [work_eq waits]
    exact lt_of_le_of_lt (work_le _) (Nat.add_lt_add_right hwork 1)
  | extracted waits poll result =>
    have hwork := poll.work_lt
    rw [work_eq waits]
    exact lt_of_le_of_lt (work_le _) (Nat.add_lt_add_right hwork 1)
  | failed waits poll result =>
    have hwork := poll.work_lt
    rw [work_eq waits]
    exact lt_of_le_of_lt (work_le _) (Nat.add_lt_add_right hwork 1)
  | drained waits empty =>
    rw [work_eq waits]
    show s.stream.work + 0 < s.stream.work + 1
    omega

/-- **Every run of a call ends**, after a start and a completion for each text unit. -/
theorem extractGraph_run_length {labels : List ExtractGraphAction}
    (hs : (extractGraph extract textUnits concurrency).init s)
    (h : (extractGraph extract textUnits concurrency).Run s labels t) :
    labels.length ≤ 2 * textUnits.length + 1 := by
  have hwork : labels.length + t.work ≤ s.work :=
    System.Run.length_le (fun _ _ _ hstep => ExtractGraphStep.work_lt hstep) h
  have hinit : s.work = 2 * textUnits.length + 1 := by
    rw [show s = _ from hs, work_eq rfl]
    show 2 * textUnits.zipIdx.length + 0 + 1 = _
    rw [List.length_zipIdx]
  omega

/-- **Concurrent extraction is sequential extraction**: in every state of every run a returned graph
is the one that processing the text units one after another gives, and it is the graph of the
records that are extracted from the text units; a call fails when the sequential one does, and goes
on until it returns. -/
theorem extractGraph_eq_sequential
    (h : (extractGraph extract textUnits concurrency).Reachable s) :
    (∀ result, s.returned = some result → ∀ graph,
      result = .ok graph ↔ extractGraphSequentially extract textUnits = .ok graph) ∧
    (∀ graph, s.returned = some (.ok graph) →
      ∃ extracted, textUnits.mapM extract = .ok extracted ∧ IsMergedGraph extracted graph) ∧
    (s.returned = none →
      ∃ action t, (extractGraph extract textUnits concurrency).step s action t) := by
  have hs := extractGraph_holds h
  refine ⟨hs.returned, fun graph hreturned => ?_, extractGraph_can_step⟩
  have hsequential := (hs.returned _ hreturned graph).mp rfl
  obtain ⟨extracted, hextracted, hmerged⟩ := bind_eq_ok.mp hsequential
  exact ⟨extracted, hextracted, mergeExtracted_spec hmerged⟩

/-! ### A call whose second text unit completes first -/

def sampleTextUnits : List TextUnitInput := [⟨"tu-1", "first"⟩, ⟨"tu-2", "second"⟩]

def sampleExtract (textUnit : TextUnitInput) : Except GraphLoomError (RawRecords ℕ) :=
  .ok ([⟨"ALICE", "person", textUnit.text, textUnit.id⟩],
    [⟨"ALICE", "ALICE", textUnit.text, textUnit.id, 2⟩, ⟨"ALICE", "BOB", "orphan", textUnit.id, 1⟩])

def sampleGraph : ExtractedGraph ℕ where
  entities := [⟨"ALICE", "person", ["first", "second"], ["tu-1", "tu-2"], 2⟩]
  relationships := [⟨"ALICE", "ALICE", ["first", "second"], ["tu-1", "tu-2"], 4⟩]

/-- The records of the two calls, in the order in which they come back. -/
def sampleExtracted : List (ℕ × RawRecords ℕ) :=
  [(1, [⟨"ALICE", "person", "second", "tu-2"⟩],
    [⟨"ALICE", "ALICE", "second", "tu-2", 2⟩, ⟨"ALICE", "BOB", "orphan", "tu-2", 1⟩]),
   (0, [⟨"ALICE", "person", "first", "tu-1"⟩],
    [⟨"ALICE", "ALICE", "first", "tu-1", 2⟩, ⟨"ALICE", "BOB", "orphan", "tu-1", 1⟩])]

theorem sample_reachable : (extractGraph sampleExtract sampleTextUnits 2).Reachable
    ⟨⟨[], []⟩, 2, [(1, 2), (2, 2)], sampleExtracted, some (finishExtraction sampleExtracted)⟩ := by
  let first : TextUnitInput × ℕ := (⟨"tu-1", "first"⟩, 0)
  let second : TextUnitInput × ℕ := (⟨"tu-2", "second"⟩, 1)
  have hstart : (extractGraph sampleExtract sampleTextUnits 2).Reachable
      ⟨⟨[first, second], []⟩, 0, [], [], none⟩ := .init rfl
  have hone : (extractGraph sampleExtract sampleTextUnits 2).Reachable
      ⟨⟨[second], [first]⟩, 0, [], [], none⟩ := hstart.step (.start rfl (.start (by decide)))
  have hboth : (extractGraph sampleExtract sampleTextUnits 2).Reachable
      ⟨⟨[], [first, second]⟩, 0, [], [], none⟩ := hone.step (.start rfl (.start (by decide)))
  have hsecond := hboth.step (.extracted rfl
    (show Buffer.Poll 2 ⟨[], [first] ++ second :: []⟩ (some second) ⟨[], [first] ++ []⟩
      from .complete) rfl)
  have hfirst := hsecond.step (.extracted rfl
    (show Buffer.Poll 2 ⟨[], [] ++ first :: []⟩ (some first) ⟨[], [] ++ []⟩ from .complete) rfl)
  exact hfirst.step (.drained rfl ⟨rfl, rfl⟩)

theorem extractGraph_eq_sequential_sample :
    extractGraphSequentially sampleExtract sampleTextUnits = .ok sampleGraph :=
  ((extractGraph_eq_sequential sample_reachable).1 _ rfl sampleGraph).mp rfl

end GraphLoom.Graph
