import GraphLoom.Query.Drift.Primer
import GraphLoom.Query.Equiv.Concurrency
import Mathlib.Algebra.GroupWithZero.Nat
import Mathlib.Algebra.Ring.Int.Defs

/-!
# The primer uses every report once

The folds are the reports in order, of even lengths (`arraySplit_spec`), and the primer returns what
their calls give one after another, in whatever order they complete (`runPrimer_spec`).
-/

namespace GraphLoom.Query.Drift

open Foundation

variable {α ω : Type}

/-! ### Folds -/

/-- Where a fold starts: the folds before it have a report more each, as long as there are some
left over. -/
def foldOffset (base remainder index : ℕ) : ℕ := index * base + min index remainder

theorem foldOffset_succ (base remainder index : ℕ) :
    foldOffset base remainder (index + 1) =
      foldOffset base remainder index + (base + if index < remainder then 1 else 0) := by
  unfold foldOffset
  have hmul : (index + 1) * base = index * base + base := Nat.succ_mul index base
  split <;> omega

theorem foldOffset_mono (base remainder : ℕ) {i j : ℕ} (h : i ≤ j) :
    foldOffset base remainder i ≤ foldOffset base remainder j := by
  unfold foldOffset
  have hmul : i * base ≤ j * base := Nat.mul_le_mul_right base h
  omega

/-- The folds from one on are the reports from where it starts. -/
theorem arraySplitFrom_spec (items : List α) (base remainder start count : ℕ)
    (hend : foldOffset base remainder (start + count) ≤ items.length) :
    (arraySplitFrom items base remainder (List.range' start count)
        (foldOffset base remainder start)).flatten =
      (items.take (foldOffset base remainder (start + count))).drop
        (foldOffset base remainder start) ∧
    (arraySplitFrom items base remainder (List.range' start count)
        (foldOffset base remainder start)).map List.length =
      (List.range' start count).map fun index => base + if index < remainder then 1 else 0 := by
  induction count generalizing start with
  | zero =>
    refine ⟨?_, rfl⟩
    rw [List.range'_zero, arraySplitFrom, List.flatten_nil, Nat.add_zero, List.drop_eq_nil_of_le]
    exact List.length_take_le _ _
  | succ count ih =>
    have hnext : start + 1 + count = start + (count + 1) := by omega
    obtain ⟨hflatten, hlengths⟩ := ih (start + 1) (by rw [hnext]; exact hend)
    rw [foldOffset_succ, hnext] at hflatten
    rw [foldOffset_succ] at hlengths
    have hsucc : foldOffset base remainder (start + 1) =
        foldOffset base remainder start + (base + if start < remainder then 1 else 0) :=
      foldOffset_succ base remainder start
    have hle : foldOffset base remainder (start + 1) ≤
        foldOffset base remainder (start + (count + 1)) := foldOffset_mono base remainder (by omega)
    have hslice : slice items (foldOffset base remainder start)
        (foldOffset base remainder start + (base + if start < remainder then 1 else 0)) =
        some ((items.take (foldOffset base remainder start +
          (base + if start < remainder then 1 else 0))).drop (foldOffset base remainder start)) := by
      unfold slice
      rw [if_pos ⟨by omega, by omega⟩]
    rw [List.range'_succ, arraySplitFrom, hslice, Option.getD_some]
    constructor
    · rw [List.flatten_cons, hflatten]
      -- the reports up to the next fold, and those from it on
      rw [← hsucc]
      have htake : items.take (foldOffset base remainder (start + 1)) =
          (items.take (foldOffset base remainder (start + (count + 1)))).take
            (foldOffset base remainder (start + 1)) := by
        rw [List.take_take, Nat.min_eq_left hle]
      rw [htake, ← List.drop_append_of_le_length, List.take_append_drop]
      rw [List.length_take, List.length_take]
      omega
    · rw [List.map_cons, List.map_cons, hlengths, List.length_drop, List.length_take]
      congr 1
      omega

/-- The folds are the reports in order; there is at least one, and the longer ones come first, by
one report. -/
theorem arraySplit_spec (items : List α) (folds : ℕ) :
    (arraySplit items folds).flatten = items ∧ (arraySplit items folds).length = max folds 1 ∧
      (arraySplit items folds).Pairwise fun a b => b.length ≤ a.length ∧ a.length ≤ b.length + 1 := by
  have hdiv : items.length / max folds 1 * max folds 1 + items.length % max folds 1 = items.length :=
    Nat.div_add_mod' _ _
  have hlt : items.length % max folds 1 < max folds 1 := Nat.mod_lt _ (by omega)
  have hend : foldOffset (items.length / max folds 1) (items.length % max folds 1)
      (0 + max folds 1) = items.length := by
    unfold foldOffset
    rw [Nat.zero_add, Nat.min_eq_right hlt.le, Nat.mul_comm]
    exact hdiv
  have hstart : foldOffset (items.length / max folds 1) (items.length % max folds 1) 0 = 0 := by
    simp [foldOffset]
  obtain ⟨hflatten, hlengths⟩ := arraySplitFrom_spec items (items.length / max folds 1)
    (items.length % max folds 1) 0 (max folds 1) hend.le
  rw [hend, hstart, ← List.range_eq_range', List.take_length, List.drop_zero] at hflatten
  rw [hstart, ← List.range_eq_range'] at hlengths
  refine ⟨hflatten, ?_, ?_⟩
  · have hcount := congrArg List.length hlengths
    simpa [arraySplit] using hcount
  · have hpairs : ((List.range (max folds 1)).map fun index =>
        items.length / max folds 1 + if index < items.length % max folds 1 then 1 else 0).Pairwise
          fun a b => b ≤ a ∧ a ≤ b + 1 := by
      rw [List.pairwise_map]
      refine (List.pairwise_lt_range (n := max folds 1)).imp fun {i j} hij => ?_
      split <;> split <;> omega
    rw [← hlengths, List.pairwise_map] at hpairs
    exact hpairs

/-! ### Usage -/

/-- A sum of counters, which stay at their largest value. -/
def usageSum (usages : List QueryUsageCategory) : QueryUsageCategory where
  llmCalls := min usizeMax (usages.map (·.llmCalls)).sum
  promptTokens := min usizeMax (usages.map (·.promptTokens)).sum
  outputTokens := min usizeMax (usages.map (·.outputTokens)).sum

theorem foldl_saturatingAdd (results : List (PrimerResponse × QueryUsageCategory))
    (before : List QueryUsageCategory) :
    results.foldl (fun total result => total.saturatingAdd result.2) (usageSum before) =
      usageSum (before ++ results.map Prod.snd) := by
  induction results generalizing before with
  | nil => simp
  | cons result results ih =>
    have hadd : (usageSum before).saturatingAdd result.2 = usageSum (before ++ [result.2]) := by
      simp only [usageSum, QueryUsageCategory.saturatingAdd, usizeAdd, List.map_append, List.map_cons,
        List.map_nil, List.sum_append, List.sum_cons, List.sum_nil]
      congr 1 <;> omega
    rw [List.foldl_cons, hadd, ih, List.append_assoc]
    rfl

/-! ### The primer -/

/-- The answers, the follow-ups and the usage are those of the results, in their order. -/
theorem aggregatePrimer_ok {mean : List ℤ → ω} {results : List (PrimerResponse × QueryUsageCategory)}
    {aggregate : PrimerAggregate ω} (h : aggregatePrimer mean results = .ok aggregate) :
    aggregate.answer = "\n\n".intercalate (results.map fun result => result.1.intermediateAnswer) ∧
      aggregate.followups = (results.flatMap fun result => result.1.followUpQueries) ∧
      aggregate.usage = usageSum (results.map Prod.snd) := by
  unfold aggregatePrimer at h
  dsimp only at h
  split at h
  · cases h
  · split at h
    · cases h
    · obtain rfl := Except.ok.inj h
      exact ⟨rfl, rfl, foldl_saturatingAdd results []⟩

/-- **The primer uses every report once and does not depend on timing.** The folds are the reports;
in every run the calls are bounded, go on until the primer returns, and none starts after an error;
and what it returns is what the calls give one after another. -/
theorem runPrimer_spec (mean : List ℤ → ω)
    (runFold : List α × ℕ → Except QueryError (PrimerResponse × QueryUsageCategory))
    (reports : List α) (folds concurrency : ℕ) :
    ((arraySplit reports folds).flatten = reports ∧
      (arraySplit reports folds).length = max folds 1 ∧
      (arraySplit reports folds).Pairwise fun a b =>
        b.length ≤ a.length ∧ a.length ≤ b.length + 1) ∧
    ∀ s, (primerCalls runFold reports folds concurrency).Reachable s →
      s.pending.length ≤ max concurrency 1 ∧
      ((∃ call t, (primerCalls runFold reports folds concurrency).step s call t) ↔
        s.returned = none) ∧
      (∀ call t, (primerCalls runFold reports folds concurrency).step s call t →
        t.work < s.work ∧
        ∀ fold error, call = some fold → runFold fold = .error error →
          t.futures = s.futures ∧ t.returned = some (.error error)) ∧
      ∀ outcome, s.returned = some outcome → ∀ aggregate,
        (runPrimer mean outcome = .ok aggregate ↔
          runPrimer mean ((arraySplit reports folds).zipIdx.mapM runFold) = .ok aggregate) ∧
        (runPrimer mean outcome = .ok aggregate →
          ∃ results, List.Forall₂ (fun fold result => runFold fold = .ok result)
              (arraySplit reports folds).zipIdx results ∧
            aggregate.answer =
              "\n\n".intercalate (results.map fun result => result.1.intermediateAnswer) ∧
            aggregate.followups = (results.flatMap fun result => result.1.followUpQueries) ∧
            aggregate.usage = usageSum (results.map Prod.snd)) := by
  refine ⟨arraySplit_spec reports folds, fun s hs => ⟨(BufferedOrdered.holds hs).bounded,
    step_iff_waits, fun call t hstep => ⟨hstep.work_lt, ?_⟩, fun outcome hreturned aggregate => ?_⟩⟩
  · rintro fold error rfl herror
    cases hstep with
    | completed _ _ ends => cases herror.symm.trans ends
    | failed _ _ ends =>
      obtain rfl := Except.error.inj (herror.symm.trans ends)
      exact ⟨rfl, rfl⟩
  · have hsame := tryBufferedOrdered_returned hs hreturned
    have hrun : ∀ returned, runPrimer mean returned = .ok aggregate ↔
        ∃ results, returned = .ok results ∧ aggregatePrimer mean results = .ok aggregate := by
      intro returned
      cases returned with
      | error error => simp [runPrimer, Except.bind]
      | ok results => simp [runPrimer, Except.bind]
    constructor
    · simp only [hrun, hsame]
    · intro hok
      obtain ⟨results, hresults, haggregate⟩ := (hrun outcome).mp hok
      exact ⟨results, mapM_eq_ok_iff.mp ((hsame results).mp hresults), aggregatePrimer_ok haggregate⟩

def sampleFold (fold : List ℕ × ℕ) : Except QueryError (PrimerResponse × QueryUsageCategory) :=
  .ok (⟨toString fold.1.length ++ " reports", 1, ["next"]⟩, ⟨1, 0, 0⟩)

/-- Five reports in three folds, two of them at once: the second call completes first, then the
third one, which is started after it. -/
theorem runPrimer_spec_sample : ∃ s outcome,
    (primerCalls sampleFold [1, 2, 3, 4, 5] 3 2).Reachable s ∧
    s.completed.map Prod.fst = [1, 2, 0] ∧ s.returned = some outcome ∧
    runPrimer List.sum outcome =
      .ok ⟨"2 reports\n\n2 reports\n\n1 reports", 3, ["next", "next", "next"], ⟨3, 0, 0⟩⟩ := by
  have hfolds : [[1, 2], [3, 4], [5]] = arraySplit [1, 2, 3, 4, 5] 3 := by decide
  have hstart : (primerCalls sampleFold [1, 2, 3, 4, 5] 3 2).Reachable
      ⟨[([5], 2)], [([1, 2], 0), ([3, 4], 1)], [], none⟩ :=
    .init (congrArg (BufferedOrdered.start · 2) hfolds)
  have hsecond := hstart.step (@BufferedOrderedStep.completed _ _ _ _ _ [_] _ _ _ rfl rfl rfl)
  have hthird := hsecond.step (@BufferedOrderedStep.completed _ _ _ _ _ [_] _ _ _ rfl rfl rfl)
  have hfirst := hthird.step (@BufferedOrderedStep.completed _ _ _ _ _ [] _ _ _ rfl rfl rfl)
  have hdrained := hfirst.step (.drained rfl rfl)
  exact ⟨_, _, hdrained, rfl, rfl, (((runPrimer_spec List.sum sampleFold [1, 2, 3, 4, 5] 3 2).2 _
    hdrained).2.2.2 _ rfl _).1.mpr (by decide)⟩

end GraphLoom.Query.Drift
