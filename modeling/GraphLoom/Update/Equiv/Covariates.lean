import GraphLoom.Update.Equiv.References
import Mathlib.Algebra.GroupWithZero.Nat

/-!
# Covariates across updates

The covariate ids in the text units of an index are ids of its covariates.  An update appends the
delta covariates when both sides have a table and leaves the table alone otherwise, while the text
units are always merged.  So nothing is lost exactly when the previous index has a table or the
delta has no covariates (`updateIndex_keepsCovariates_iff`), and then nothing is lost in any number
of updates (`updateSystem_keeps_covariates`).
-/

namespace GraphLoom.Tables

variable {ω : Type}

def covariateIds (tables : Tables ω) : List String :=
  (rowsOf tables.covariates).map CovariateRecord.id

/-- Every covariate id in the text units is the id of a covariate. -/
def CovariatesClosed (tables : Tables ω) : Prop :=
  ∀ row ∈ rowsOf tables.textUnits, ∀ id ∈ row.covariateIds.toStringList, id ∈ tables.covariateIds

end GraphLoom.Tables

namespace GraphLoom.Update

open Foundation Tables

variable {ω : Type}

/-- The covariates that several deltas bring. -/
def covariatesOf (inputs : List (UpdateInput ω)) : List CovariateRecord :=
  inputs.flatMap fun input => rowsOf input.delta.covariates

/-- The final table holds the previous covariates and then the new ones, whose human-readable ids
alone may differ, and the references to covariates are closed. -/
structure KeepsCovariates (previous : Tables ω) (covariates : List CovariateRecord)
    (final : Tables ω) : Prop where
  rows : ∃ rebased, rowsOf final.covariates = rowsOf previous.covariates ++ rebased ∧
    List.Forall₂ SameContents covariates rebased
  closed : final.CovariatesClosed

/-- The delta brings no covariates that the previous index has no table for. -/
def HasCovariatesTable (previous : Tables ω) (input : UpdateInput ω) : Prop :=
  previous.covariates.isSome ∨ rowsOf input.delta.covariates = []

/-! ### One update -/

section Merged

variable {previous delta final : Option (List CovariateRecord)}

theorem CovariatesMerged.keeps (h : CovariatesMerged previous delta previous final)
    (htable : previous.isSome ∨ rowsOf delta = []) :
    ∃ rebased, rowsOf final = rowsOf previous ++ rebased ∧
      List.Forall₂ SameContents (rowsOf delta) rebased := by
  cases h with
  | merged hprevious hdelta hrows =>
    obtain ⟨rebased, hmerged, hsame⟩ := concatenateWithRebasedIds_ok hrows
    rw [hprevious, hdelta]
    exact ⟨rebased, hmerged, hsame⟩
  | skipped hskip =>
    have hdelta : rowsOf delta = [] := by
      rcases hskip with hnone | hnone
      · rcases htable with hsome | hempty
        · rw [hnone] at hsome
          exact absurd hsome (by decide)
        · exact hempty
      · rw [hnone]
        rfl
    rw [hdelta]
    exact ⟨[], (List.append_nil _).symm, .nil⟩

/-- Without a previous table the delta covariates are lost. -/
theorem CovariatesMerged.eq_nil_of_none (h : CovariatesMerged none delta none final) :
    rowsOf final = [] := by
  cases h with
  | merged hprevious _ _ => exact absurd hprevious (by simp)
  | skipped _ => rfl

end Merged

theorem sameContents_map_id {rows rows' : List CovariateRecord}
    (h : List.Forall₂ SameContents rows rows') :
    rows'.map CovariateRecord.id = rows.map CovariateRecord.id := by
  induction h with
  | nil => rfl
  | cons hsame _ ih =>
    rw [List.map_cons, List.map_cons, ih, hsame]
    rfl

variable [Zero ω] [Add ω] [Div ω] [NatCast ω] {previous final : Tables ω} {input : UpdateInput ω}

/-- The covariate ids of the final text units are those of both indexes. -/
theorem updateIndex_textUnits (h : updateIndex previous input = .ok final) {row : TextUnitRecord}
    (hrow : row ∈ rowsOf final.textUnits) :
    ∃ row', (row' ∈ rowsOf previous.textUnits ∨ row' ∈ rowsOf input.delta.textUnits) ∧
      row.covariateIds = row'.covariateIds := by
  obtain ⟨-, -, -, mapping, -, -, -, -, -, old, new, units, -, -, -, -, -, -, hold, hnew, hunits,
    -, -, hfinal⟩ := (updateIndex_ok h).graph
  obtain ⟨rebased, hrebased, hmerged⟩ := mergeTextUnits_ok hunits
  rw [hfinal, rowsOf_some, hmerged] at hrow
  rw [hold, hnew, rowsOf_some, rowsOf_some]
  rcases List.mem_append.mp hrow with hrow | hrow
  · exact ⟨row, Or.inl hrow, rfl⟩
  · obtain ⟨newRow, hnewRow, rfl⟩ := List.mem_map.mp hrow
    obtain ⟨deltaRow, hdeltaRow, hsame⟩ := forall₂_exists_left hrebased hnewRow
    refine ⟨deltaRow, Or.inr hdeltaRow, ?_⟩
    show newRow.covariateIds = deltaRow.covariateIds
    rw [hsame]
    rfl

/-- **One update keeps the covariates exactly when there is a table for them.** -/
theorem updateIndex_keepsCovariates_iff (h : updateIndex previous input = .ok final)
    (hprevious : previous.CovariatesClosed) (hdelta : input.delta.CovariatesClosed) :
    KeepsCovariates previous (rowsOf input.delta.covariates) final ↔
      HasCovariatesTable previous input := by
  have hmerged := (updateIndex_ok h).covariates
  constructor
  · rintro ⟨⟨rebased, hrows, hsame⟩, -⟩
    by_cases htable : previous.covariates.isSome
    · exact Or.inl htable
    · have hnone : previous.covariates = none := by simpa using htable
      rw [hnone] at hmerged hrows
      rw [hmerged.eq_nil_of_none, rowsOf_none, List.nil_append] at hrows
      rw [← hrows, List.forall₂_nil_right_iff] at hsame
      exact Or.inr hsame
  · intro htable
    obtain ⟨rebased, hrows, hsame⟩ := hmerged.keeps htable
    refine ⟨⟨rebased, hrows, hsame⟩, fun row hrow id hid => ?_⟩
    obtain ⟨row', hrow', hids⟩ := updateIndex_textUnits h hrow
    rw [hids] at hid
    rw [covariateIds, hrows, List.map_append, List.mem_append, sameContents_map_id hsame]
    rcases hrow' with hrow' | hrow'
    · exact Or.inl (hprevious row' hrow' id hid)
    · exact Or.inr (hdelta row' hrow' id hid)

/-! ### Any number of updates -/

/-- **No covariate is lost and none is missing.**  One update of closed indexes keeps the
covariates exactly when the previous index has a table or the delta has no covariates, and a run of
updates that all meet this keeps the covariates of the first index and of every delta. -/
theorem updateSystem_keeps_covariates :
    (∀ (previous : Tables ω) input final, previous.CovariatesClosed →
      (updateSystem CovariatesClosed).step previous input final →
      (KeepsCovariates previous (rowsOf input.delta.covariates) final ↔
        HasCovariatesTable previous input)) ∧
    ∀ (first : Tables ω) inputs final, first.CovariatesClosed →
      ((updateSystem CovariatesClosed).restrict HasCovariatesTable).Run first inputs final →
      KeepsCovariates first (covariatesOf inputs) final := by
  refine ⟨fun previous input final hprevious hstep =>
    updateIndex_keepsCovariates_iff hstep.2 hprevious hstep.1, fun first inputs final hfirst h => ?_⟩
  induction h with
  | nil => exact ⟨⟨[], (List.append_nil _).symm, .nil⟩, hfirst⟩
  | @snoc inputs previous input final _ hstep ih =>
    obtain ⟨⟨hdelta, hupdate⟩, htable⟩ := hstep
    obtain ⟨⟨before, hbefore, hsameBefore⟩, hprevious⟩ := ih
    obtain ⟨⟨rebased, hrows, hsame⟩, hclosed⟩ :=
      (updateIndex_keepsCovariates_iff hupdate hprevious hdelta).mpr htable
    refine ⟨⟨before ++ rebased, ?_, ?_⟩, hclosed⟩
    · rw [hrows, hbefore, List.append_assoc]
    · rw [covariatesOf, List.flatMap_append, List.flatMap_singleton]
      exact List.rel_append hsameBefore hsame

/-! ### Sample updates -/

def sampleCovariate (id : String) (humanReadableId : ℤ) (textUnitId : String) :
    CovariateRecord where
  id := id
  humanReadableId := humanReadableId
  covariateType := "claim"
  claimType := none
  description := none
  subjectId := none
  objectId := none
  status := none
  startDate := none
  endDate := none
  sourceText := none
  textUnitId := textUnitId

/-- One text unit, with a claim that is in the table of covariates, if there is one. -/
def sampleClaims (id : String) (humanReadableId : ℤ) (covariateIds : List String)
    (covariates : Option (List CovariateRecord)) : Tables ℕ :=
  { sampleTables [] [sampleTextUnit id humanReadableId [] [] covariateIds] with covariates }

/-- An index without claims, and an update of it with claims. -/
def sampleWithoutClaims : Tables ℕ := sampleClaims "old" 0 [] none

def sampleWithClaims : Tables ℕ :=
  sampleClaims "new" 0 ["claim"] (some [sampleCovariate "claim" 0 "new"])

theorem sampleClaims_closed : sampleWithClaims.CovariatesClosed := by
  unfold CovariatesClosed
  decide

/-- What an update with claims makes of an index with claims. -/
def sampleWithMoreClaims : Tables ℕ :=
  { sampleTables [] [sampleTextUnit "new" 0 [] [] ["claim"],
      sampleTextUnit "new" 1 [] [] ["claim"]] with
    covariates := some [sampleCovariate "claim" 0 "new", sampleCovariate "claim" 1 "new"] }

/-- Two updates of an index with claims, one with claims and one without. -/
theorem updateSystem_keeps_covariates_sample :
    KeepsCovariates sampleWithClaims
      (covariatesOf [sampleInput sampleWithClaims, sampleInput sampleWithoutClaims])
      { sampleTables [] [sampleTextUnit "new" 0 [] [] ["claim"],
          sampleTextUnit "new" 1 [] [] ["claim"], sampleTextUnit "old" 2 [] [] []] with
        covariates := some [sampleCovariate "claim" 0 "new", sampleCovariate "claim" 1 "new"] } := by
  have hfirst : ((updateSystem CovariatesClosed).restrict HasCovariatesTable).step
      sampleWithClaims (sampleInput sampleWithClaims) sampleWithMoreClaims :=
    ⟨⟨sampleClaims_closed, rfl⟩, Or.inl rfl⟩
  have hsecond : ((updateSystem CovariatesClosed).restrict HasCovariatesTable).step
      sampleWithMoreClaims (sampleInput sampleWithoutClaims) _ :=
    ⟨⟨by unfold CovariatesClosed; decide, rfl⟩, Or.inl rfl⟩
  exact updateSystem_keeps_covariates.2 _ _ _ sampleClaims_closed (.snoc (.snoc .nil hfirst) hsecond)

/-- The claims of an update are lost when the previous index was made without claims. -/
theorem updateIndex_loses_covariates :
    sampleWithoutClaims.CovariatesClosed ∧ sampleWithClaims.CovariatesClosed ∧
      ∃ final, updateIndex sampleWithoutClaims (sampleInput sampleWithClaims) = .ok final ∧
        rowsOf final.covariates = [] ∧ ¬ final.CovariatesClosed := by
  refine ⟨by unfold CovariatesClosed; decide, sampleClaims_closed, _, rfl, rfl, ?_⟩
  unfold CovariatesClosed
  decide

end GraphLoom.Update
