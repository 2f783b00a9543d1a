import GraphLoom.Foundation.Index
import GraphLoom.Query.Local.Equiv.Fitting

/-!
# The records of two attempts are merged

The candidates of the attempt that is given up are matched with those of the accepted one by their
identifiers, and the ones that are left are added (`rollbackCandidates_eq`).  What is merged is a
record of the accepted table (`rollbackOneSection_reported`).
-/

namespace GraphLoom.Query.Local

open Foundation

/-- The identifiers of the accepted candidates that are not matched yet. -/
def openIds (accepted : List (ExplainabilityCandidate × Bool)) : List String :=
  (accepted.filter fun candidate => !candidate.2).map (·.1.id)

theorem matchAccepted_spec (id : String) (accepted : List (ExplainabilityCandidate × Bool)) :
    match matchAccepted id accepted with
    | some accepted' => id ∈ openIds accepted ∧ openIds accepted' = (openIds accepted).erase id
    | none => id ∉ openIds accepted := by
  induction accepted with
  | nil => exact List.not_mem_nil
  | cons first rest ih =>
    obtain ⟨candidate, matched⟩ := first
    unfold matchAccepted
    cases matched with
    | true =>
      -- what is matched stays as it is
      have hopen : ∀ rest, openIds ((candidate, true) :: rest) = openIds rest := fun _ => rfl
      simp only [not_true_eq_false, false_and, if_false, hopen]
      cases hrest : matchAccepted id rest with
      | none =>
        rw [hrest] at ih
        exact ih
      | some rest' =>
        rw [hrest] at ih
        exact ih
    | false =>
      have hopen : ∀ rest, openIds ((candidate, false) :: rest) = candidate.id :: openIds rest :=
        fun _ => rfl
      have hopen' : ∀ rest, openIds ((candidate, true) :: rest) = openIds rest := fun _ => rfl
      by_cases hid : candidate.id = id
      · simp only [hid, Bool.false_eq_true, not_false_eq_true, and_self, if_true, hopen, hopen',
          List.mem_cons, true_or, List.erase_cons_head]
      · simp only [hid, and_false, if_false, hopen]
        cases hrest : matchAccepted id rest with
        | none =>
          rw [hrest] at ih
          exact fun hmem => ih ((List.mem_cons.mp hmem).resolve_left (Ne.symm hid))
        | some rest' =>
          rw [hrest] at ih
          refine ⟨List.mem_cons_of_mem _ ih.1, ?_⟩
          rw [hopen, ih.2, List.erase_cons_tail (by simpa using hid)]

/-- A candidate of the attempt that is given up. -/
def giveUp (candidate : ExplainabilityCandidate) : ExplainabilityCandidate :=
  if nonToken candidate.reason then candidate
  else { candidate with selected := false, reason := some .tokenBudget }

/-- The candidates that no accepted one is matched with are added. -/
theorem rollbackCandidates_eq (attempted : List ExplainabilityCandidate) :
    ∀ (accepted : List (ExplainabilityCandidate × Bool)) (added : List ExplainabilityCandidate)
      (rolledBack : ℕ), rolledBack ≤ usizeMax →
      rollbackCandidates accepted added rolledBack attempted =
        (added ++ (unmatched (·.id) (openIds accepted) attempted).map giveUp,
          min usizeMax (rolledBack + (unmatched (·.id) (openIds accepted) attempted).countP
            fun candidate => !nonToken candidate.reason)) := by
  induction attempted with
  | nil =>
    intro accepted added rolledBack hle
    rw [rollbackCandidates, unmatched, List.map_nil, List.append_nil, List.countP_nil, Nat.add_zero,
      Nat.min_eq_right hle]
  | cons candidate attempted ih =>
    intro accepted added rolledBack hle
    have hmatch := matchAccepted_spec candidate.id accepted
    unfold rollbackCandidates
    cases hfound : matchAccepted candidate.id accepted with
    | some accepted' =>
      rw [hfound] at hmatch
      obtain ⟨hmem, hopen⟩ := hmatch
      dsimp only
      rw [ih _ _ _ hle, unmatched, if_pos hmem, hopen]
    | none =>
      rw [hfound] at hmatch
      dsimp only at hmatch ⊢
      rw [unmatched, if_neg hmatch, List.map_cons, List.countP_cons]
      by_cases hreason : nonToken candidate.reason = true
      · rw [if_pos hreason, ih _ _ _ hle, giveUp, if_pos hreason, List.append_assoc,
          List.singleton_append, hreason]
        rfl
      · have hle' : usizeAdd rolledBack 1 ≤ usizeMax := Nat.min_le_left _ _
        rw [if_neg hreason, ih _ _ _ hle', giveUp, if_neg hreason, List.append_assoc,
          List.singleton_append, if_pos (by simpa using hreason), usizeAdd]
        refine congrArg _ ?_
        omega

theorem nonToken_giveUp (candidate : ExplainabilityCandidate) :
    nonToken (giveUp candidate).reason = nonToken candidate.reason := by
  unfold giveUp
  split_ifs with hreason
  · rfl
  · exact (Bool.eq_false_iff.mpr hreason).symm

theorem openIds_fresh (candidates : List ExplainabilityCandidate) :
    openIds (candidates.map fun candidate => (candidate, false)) = candidates.map (·.id) := by
  unfold openIds
  rw [List.filter_eq_self.mpr, List.map_map]
  · rfl
  · intro candidate hmem
    obtain ⟨_, -, rfl⟩ := List.mem_map.mp hmem
    rfl

/-- The candidates that count are the first part. -/
theorem countP_parts {counted filtered : List ExplainabilityCandidate}
    (hcounted : ∀ candidate ∈ counted, nonToken candidate.reason = false)
    (hfiltered : ∀ candidate ∈ filtered, nonToken candidate.reason = true) :
    (counted ++ filtered).countP (fun candidate => !nonToken candidate.reason) =
      counted.length := by
  have hall : counted.countP (fun candidate => !nonToken candidate.reason) = counted.length :=
    List.countP_eq_length.mpr fun candidate hmem => by rw [hcounted candidate hmem]; rfl
  have hnone : filtered.countP (fun candidate => !nonToken candidate.reason) = 0 :=
    List.countP_eq_zero.mpr fun candidate hmem => by
      rw [hfiltered candidate hmem]
      exact Bool.false_ne_true
  rw [List.countP_append, hall, hnone, Nat.add_zero]

/-- The record that is merged is that of the accepted table, with what the attempt has added. -/
theorem rollbackOneSection_reported {accepted rejected : SectionCandidates}
    {start attempted : SectionExplainability} {accepted? : Option SectionExplainability}
    (hstart : accepted?.getD (emptySectionExplainability attempted.kind attempted.name
      attempted.tokenBudget) = start)
    (haccepted : Recorded accepted start) (hrejected : Recorded rejected attempted) :
    (rollbackOneSection attempted accepted?).selectedCount = start.selectedCount ∧
      Reported accepted rejected (rollbackOneSection attempted accepted?) := by
  obtain ⟨counted, filtered, hcandidates, hids, hfiltered, hcounted, hnonToken⟩ := haccepted.parts
  obtain ⟨counted', filtered', hcandidates', hids', -, hcounted', hnonToken'⟩ := hrejected.parts
  have hpool : openIds (start.candidates.map fun candidate => (candidate, false)) =
      accepted.ids ++ accepted.filtered := by
    rw [openIds_fresh, hcandidates, List.map_append, hids, hfiltered]
  -- the candidates that are new count as far as the rank did not filter them out
  obtain ⟨fresh, hfresh, hfreshIds, hfreshCounted⟩ : ∃ fresh,
      unmatched (·.id) (accepted.ids ++ accepted.filtered) counted' = fresh ∧
        fresh.map (·.id) = accepted.added rejected ∧
        ∀ candidate ∈ fresh, nonToken candidate.reason = false := by
    refine ⟨_, rfl, ?_, fun candidate hmem => ?_⟩
    · rw [map_unmatched, hids']
      rfl
    · exact hcounted' candidate ((unmatched_sublist _ _).subset hmem)
  obtain ⟨dropped, hdropped, hdroppedFiltered⟩ : ∃ dropped,
      unmatched (·.id) ((accepted.ids ++ accepted.filtered).diff (counted'.map (·.id)))
        filtered' = dropped ∧
        ∀ candidate ∈ dropped, nonToken candidate.reason = true ∧ candidate.selected = false :=
    ⟨_, rfl, fun candidate hmem => hnonToken' candidate ((unmatched_sublist _ _).subset hmem)⟩
  have hlength : fresh.length = (accepted.added rejected).length := by
    rw [← hfreshIds, List.length_map]
  have hrollback : rollbackCandidates (start.candidates.map fun candidate => (candidate, false)) []
      0 attempted.candidates =
        ((fresh ++ dropped).map giveUp, min usizeMax (accepted.added rejected).length) := by
    rw [rollbackCandidates_eq _ _ _ _ (Nat.zero_le _), hpool, hcandidates', unmatched_append,
      hfresh, hdropped, countP_parts hfreshCounted fun candidate hmem =>
        (hdroppedFiltered candidate hmem).1, hlength, List.nil_append, Nat.zero_add]
  have hunselected : ((fresh ++ dropped).map giveUp).filter (·.selected) = [] := by
    refine List.filter_eq_nil_iff.mpr fun candidate hmem => ?_
    obtain ⟨candidate', hmem', rfl⟩ := List.mem_map.mp hmem
    rcases List.mem_append.mp hmem' with hfreshMem | hdroppedMem
    · rw [giveUp, hfreshCounted candidate' hfreshMem]
      exact Bool.false_ne_true
    · obtain ⟨hreason, hselected⟩ := hdroppedFiltered candidate' hdroppedMem
      rw [giveUp, if_pos hreason, hselected]
      exact Bool.false_ne_true
  have hselected : ((start.candidates ++ (fresh ++ dropped).map giveUp).filter (·.selected)).map
      (·.id) = start.selectedRecordIds := by
    rw [List.filter_append, hunselected, List.append_nil, haccepted.selected]
  have hcount : (start.candidates ++ (fresh ++ dropped).map giveUp).countP
      (fun candidate => !nonToken candidate.reason) =
        accepted.ids.length + (accepted.added rejected).length := by
    have hmap : ((fresh ++ dropped).map giveUp).countP
        (fun candidate => !nonToken candidate.reason) =
          (fresh ++ dropped).countP fun candidate => !nonToken candidate.reason := by
      rw [List.countP_map]
      refine congrArg (List.countP · _) (funext fun candidate => ?_)
      exact congrArg (! ·) (nonToken_giveUp candidate)
    rw [List.countP_append, hmap, hcandidates, countP_parts hcounted fun candidate hmem =>
      (hnonToken candidate hmem).1, countP_parts hfreshCounted fun candidate hmem =>
        (hdroppedFiltered candidate hmem).1, hlength, ← hids, List.length_map]
  have hselectedLength : start.selectedRecordIds.length = start.selectedCount := by
    rw [haccepted.selectedRecordIds, List.length_take, Nat.min_eq_left haccepted.selectedCount]
  unfold rollbackOneSection
  rw [hstart]
  dsimp only
  rw [hrollback]
  dsimp only
  refine ⟨?_, ?_, ?_, ?_, ?_⟩
  · rw [hselected, hselectedLength]
  · dsimp only
    rw [hselected, hselectedLength, haccepted.selectedRecordIds]
  · rfl
  · exact hcount
  · dsimp only
    rw [hselected, hselectedLength, haccepted.truncated, Bool.decide_or]
    refine congrArg (_ || ·) (decide_eq_decide.mpr ?_)
    rw [Ne, ← List.length_eq_zero_iff, lt_min_iff]
    have hpos : 0 < usizeMax := by decide
    omega

theorem sameSection_iff {a b : SectionExplainability} :
    sameSection a b = true ↔ a.kind = b.kind ∧ a.name = b.name := by
  unfold sameSection
  rw [Bool.and_eq_true, decide_eq_true_eq, decide_eq_true_eq]

/-- A record that is merged is of the section of the attempt. -/
theorem rollbackOneSection_same (attempted : SectionExplainability)
    (accepted : List SectionExplainability) :
    (rollbackOneSection attempted
        (accepted.find? fun acceptedSection => sameSection acceptedSection attempted)).kind =
          attempted.kind ∧
      (rollbackOneSection attempted
        (accepted.find? fun acceptedSection => sameSection acceptedSection attempted)).name =
          attempted.name := by
  cases hfound : accepted.find? fun acceptedSection => sameSection acceptedSection attempted with
  | none => exact ⟨rfl, rfl⟩
  | some acceptedSection =>
    have hsame := List.find?_some hfound
    exact sameSection_iff.mp hsame

/-- Where the attempt has a record of each accepted section, all records are merged ones. -/
theorem mem_rollbackSectionExplainability {attempted accepted : List SectionExplainability}
    (hcover : ∀ acceptedSection ∈ accepted, ∃ attemptedSection ∈ attempted,
      sameSection acceptedSection attemptedSection = true)
    {record : SectionExplainability}
    (h : record ∈ rollbackSectionExplainability attempted accepted) :
    ∃ attemptedSection ∈ attempted, record = rollbackOneSection attemptedSection
      (accepted.find? fun acceptedSection => sameSection acceptedSection attemptedSection) := by
  unfold rollbackSectionExplainability at h
  dsimp only at h
  generalize hmerged : (attempted.map fun attemptedSection => rollbackOneSection attemptedSection
    (accepted.find? fun acceptedSection => sameSection acceptedSection attemptedSection)) =
      merged at h
  have hall : ∀ acceptedSection ∈ accepted,
      merged.any (fun other => sameSection other acceptedSection) = true := by
    intro acceptedSection hmem
    obtain ⟨attemptedSection, hattempted, hsame⟩ := hcover acceptedSection hmem
    obtain ⟨hkind, hname⟩ := rollbackOneSection_same attemptedSection accepted
    refine List.any_eq_true.mpr ⟨_, hmerged ▸ List.mem_map_of_mem hattempted, ?_⟩
    rw [sameSection_iff] at hsame ⊢
    exact ⟨hkind.trans hsame.1.symm, hname.trans hsame.2.symm⟩
  have hfold : ∀ rest : List SectionExplainability, (∀ acceptedSection ∈ rest,
      merged.any (fun other => sameSection other acceptedSection) = true) →
      rest.foldl (fun rolledBack acceptedSection =>
        if rolledBack.any fun other => sameSection other acceptedSection then rolledBack
        else rolledBack ++ [acceptedSection]) merged = merged := by
    intro rest
    induction rest with
    | nil => exact fun _ => rfl
    | cons first rest ih =>
      intro hrest
      rw [List.foldl_cons, if_pos (hrest first (List.mem_cons_self ..))]
      exact ih fun other hother => hrest other (List.mem_cons_of_mem _ hother)
  rw [hfold accepted hall, ← hmerged] at h
  obtain ⟨attemptedSection, hmem, hrecord⟩ := List.mem_map.mp h
  exact ⟨attemptedSection, hmem, hrecord.symm⟩

end GraphLoom.Query.Local
