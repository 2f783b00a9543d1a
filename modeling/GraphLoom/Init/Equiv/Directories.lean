import GraphLoom.Foundation.Directories
import GraphLoom.Foundation.Fallible
import GraphLoom.Init.Transaction

/-!
## The directories of a plan

* `createDirectories_spec`: the directories of a plan are made with those that are missing above
  them; when the making of one fails, those that come before it have been made.
* `removeEmptyDirectories_eq`: removing the planned directories that were missing gives the file
  system back when no other directory has been made.
-/

namespace GraphLoom.Init

open Foundation

variable {fs fs' : FileSystem} {made : Path → Prop} {path : Path}

/-! ### Making directories -/

/-- What is made for the first directories of a list. -/
def MadeFor (fs : FileSystem) (directories : List Path) (q : Path) : Prop :=
  Missing fs q ∧ ∃ directory ∈ directories, q <:+ directory

/-- The making of `stop`, for the directory with the given index, is the step that fails: nothing
before it has made it. -/
structure CreateFails (fs : FileSystem) (directories : List Path) (index : ℕ) (stop : Path) :
    Prop where
  missing : Missing fs stop
  needed : ∃ directory, directories[index]? = some directory ∧ stop <:+ directory
  first : ∀ directory ∈ directories.take index, ¬ stop <:+ directory

variable {directories : List Path}

theorem createDirectories_spec (fault : Option Step) (htree : fs.Tree)
    (hfree : ∀ directory ∈ directories, Unobstructed fs directory) {done rest : List Path}
    (hsplit : directories = done ++ rest) (h : MadeDirectories fs (MadeFor fs done) fs') :
    (∃ fs'', createDirectories fault (rest.zipIdx done.length) fs' = (.ok (), fs'') ∧
      MadeDirectories fs (MadeFor fs directories) fs'' ∧
      ∀ index stop, done.length ≤ index → CreateFails fs directories index stop →
        fault ≠ some (.createDirectory index stop)) ∨
    (∃ fs'' error index stop,
      createDirectories fault (rest.zipIdx done.length) fs' = (.error error, fs'') ∧
      (∃ operation path source, error = .io operation path source) ∧
      fault = some (.createDirectory index stop) ∧ CreateFails fs directories index stop ∧
      MadeDirectories fs (fun q => MadeFor fs (directories.take index) q ∨
        Missing fs q ∧ q <:+ stop ∧ q ≠ stop) fs'') := by
  induction rest generalizing done fs' with
  | nil =>
    rw [List.append_nil] at hsplit
    subst hsplit
    refine .inl ⟨fs', rfl, h, fun index stop hindex hfails => ?_⟩
    obtain ⟨directory, hdirectory, -⟩ := hfails.needed
    rw [List.getElem?_eq_none hindex] at hdirectory
    cases hdirectory
  | cons directory rest ih =>
    rw [List.zipIdx_cons]
    unfold createDirectories
    have hmem : directory ∈ directories := by
      rw [hsplit]
      exact List.mem_append_right _ (List.mem_cons_self ..)
    have hat : directories[done.length]? = some directory := by
      rw [hsplit, List.getElem?_append_right le_rfl, Nat.sub_self]
      rfl
    have htake : directories.take done.length = done := by
      rw [hsplit, List.take_left]
    rcases createDirAll_spec (fun path => fault = some (.createDirectory done.length path))
      htree (hfree directory hmem) h with
      ⟨fs'', heq, hmade, hfails⟩ | ⟨fs'', stop, kind, heq, hstop, hsuffix, hnot, hfails, hmade⟩
    · rw [heq]
      dsimp only
      have hmade' : MadeDirectories fs (MadeFor fs (done ++ [directory])) fs'' := by
        refine hmade.congr fun q => ?_
        simp only [MadeFor, List.mem_append, List.mem_singleton]
        constructor
        · rintro (⟨hq, d, hd, hsuffix⟩ | ⟨hq, hsuffix⟩)
          · exact ⟨hq, d, .inl hd, hsuffix⟩
          · exact ⟨hq, directory, .inr rfl, hsuffix⟩
        · rintro ⟨hq, d, hd | rfl, hsuffix⟩
          · exact .inl ⟨hq, d, hd, hsuffix⟩
          · exact .inr ⟨hq, hsuffix⟩
      have hlength : done.length + 1 = (done ++ [directory]).length := by simp
      rw [hlength]
      rw [List.append_cons] at hsplit
      rcases ih hsplit hmade' with ⟨fs₃, heq', hmade₃, hfails'⟩ | hfailed
      · refine .inl ⟨fs₃, heq', hmade₃, fun index stop hindex hcreate => ?_⟩
        by_cases hhere : index = done.length
        · subst hhere
          obtain ⟨d, hd, hsuffix⟩ := hcreate.needed
          rw [hat] at hd
          obtain rfl := Option.some.inj hd
          have hnot : ¬ MadeFor fs done stop := by
            rintro ⟨-, d, hd, hsuffix'⟩
            exact hcreate.first d (by rwa [htake]) hsuffix'
          simpa using hfails stop hcreate.missing hsuffix hnot
        · exact hfails' index stop (by rw [← hlength]; omega) hcreate
      · exact .inr hfailed
    · rw [heq]
      dsimp only
      refine .inr ⟨fs'', _, done.length, stop, rfl, ⟨_, _, _, rfl⟩,
        by simpa using hfails, ⟨hstop, ⟨directory, hat, hsuffix⟩, ?_⟩, ?_⟩
      · rw [htake]
        intro d hd hsuffix'
        exact hnot ⟨hstop, d, hd, hsuffix'⟩
      · rw [htake]
        exact hmade

/-! ### Removing directories -/

/-- The last directory is removed first. -/
theorem removeEmptyDirectories_append (directories : List Path) (directory : Path)
    (fs : FileSystem) :
    removeEmptyDirectories (directories ++ [directory]) fs =
      removeEmptyDirectories directories
        (match fs.removeDir directory with
        | .ok fs => fs
        | .error _ => fs) := by
  unfold removeEmptyDirectories
  rw [List.reverse_append]
  rfl

/-- Only the directories of the list are removed. -/
theorem removeEmptyDirectories_lookup (h : path ∈ directories → fs.lookup path ≠ some .directory) :
    (removeEmptyDirectories directories fs).lookup path = fs.lookup path := by
  induction directories using List.reverseRecOn generalizing fs with
  | nil => rfl
  | append_singleton directories directory ih =>
    rw [removeEmptyDirectories_append]
    have hstep : (match fs.removeDir directory with
        | .ok fs => fs
        | .error _ => fs).lookup path = fs.lookup path := by
      unfold FileSystem.removeDir
      cases hlookup : fs.lookup directory with
      | none => rfl
      | some node =>
        cases node with
        | file content => rfl
        | directory =>
          have hne : path ≠ directory := by
            rintro rfl
            exact h (List.mem_append_right _ (List.mem_singleton_self _)) hlookup
          dsimp only
          split_ifs
          · rfl
          · exact Finmap.lookup_erase_ne hne
    rw [ih, hstep]
    intro hmem
    rw [hstep]
    exact h (List.mem_append_left _ hmem)

/-- **Removing the planned directories undoes making them**, when no other directory was made and
they are listed parents first. -/
theorem removeEmptyDirectories_eq (htree : fs.Tree)
    (hmissing : ∀ directory ∈ directories, Missing fs directory)
    (hordered : directories.Pairwise fun d e => e <:+ d → e = d)
    (h : MadeDirectories fs made fs') (hmade : ∀ path, made path → path ∈ directories) :
    removeEmptyDirectories directories fs' = fs := by
  induction directories using List.reverseRecOn generalizing fs' made with
  | nil =>
    refine Finmap.ext_lookup fun path => ?_
    exact h.other path fun hpath => absurd (hmade path hpath) List.not_mem_nil
  | append_singleton directories directory ih =>
    rw [removeEmptyDirectories_append]
    have hmissing' := fun d hd => hmissing d (List.mem_append_left _ hd)
    obtain ⟨hordered', -, hlast⟩ := List.pairwise_append.mp hordered
    by_cases hdirectory : made directory
    · have hlast' : ∀ q, made q → directory <:+ q → directory = q := by
        intro q hq hsuffix
        rcases List.mem_append.mp (hmade q hq) with hmem | hmem
        · exact hlast q hmem directory (List.mem_singleton_self _) hsuffix
        · exact (List.mem_singleton.mp hmem).symm
      obtain ⟨hremove, herase⟩ := h.erase htree hdirectory hlast'
      rw [hremove]
      refine ih hmissing' hordered' herase fun path hpath => ?_
      exact (List.mem_append.mp (hmade path hpath.1)).resolve_right fun hmem =>
        hpath.2 (List.mem_singleton.mp hmem)
    · have hnone : fs'.lookup directory = none := by
        rw [h.other _ hdirectory]
        exact (hmissing directory (List.mem_append_right _ (List.mem_singleton_self _))).2
      have hremove : fs'.removeDir directory = .error .notFound := by
        unfold FileSystem.removeDir
        rw [hnone]
      rw [hremove]
      refine ih hmissing' hordered' h fun path hpath => ?_
      refine (List.mem_append.mp (hmade path hpath)).resolve_right fun hmem => hdirectory ?_
      rw [← List.mem_singleton.mp hmem]
      exact hpath

/-! ### Looking for directories -/

variable {fault : Option Step}

/-- A step that the file system allows is performed, unless it is the one that fails. -/
theorem attempt_ok {α : Type} {step : Step} (operation : String)
    (path : Path) (value : α) (h : fault ≠ some step) :
    attempt fault step operation path (.ok value) = .ok value := by
  unfold attempt
  rw [if_neg h]
  rfl

theorem attempt_fault {α : Type} (step : Step) (operation : String) (path : Path)
    (result : Except IoErrorKind α) :
    attempt (some step) step operation path result = .error (.io operation path .other) :=
  if_pos rfl

/-- The planned directories that are not there. -/
def missingOf (fs : FileSystem) (directories : List Path) : List Path :=
  directories.filter fun directory => directory ≠ [] ∧ fs.lookup directory = none

theorem addMissings_spec (start : ℕ)
    (missing : List Path) (hfree : ∀ directory ∈ directories, Unobstructed fs directory) :
    (directories.zipIdx start).foldlM (addMissing fault fs) missing =
      .ok (missing ++ missingOf fs directories) ∨
    ∃ operation path index, (directories.zipIdx start).foldlM (addMissing fault fs) missing =
      .error (.io operation path .other) ∧ fault = some (.checkDirectory index) := by
  induction directories generalizing start missing with
  | nil =>
    left
    simp [missingOf, pure, Except.pure]
  | cons directory directories ih =>
    rw [List.zipIdx_cons, List.foldlM_cons]
    by_cases hfault : fault = some (.checkDirectory start)
    · right
      subst hfault
      refine ⟨"check initialization directory", directory, start, ?_, rfl⟩
      unfold addMissing
      rw [attempt_fault]
      rfl
    · have hadd : addMissing fault fs missing (directory, start) =
          .ok (missing ++ missingOf fs [directory]) := by
        have hexists := tryExists_eq fun above hsuffix _ =>
          hfree directory (List.mem_cons_self ..) above hsuffix
        unfold addMissing
        rw [hexists, attempt_ok _ _ _ hfault]
        show Except.ok (if _ then missing else missing ++ [directory]) = _
        by_cases hthere : directory = [] ∨ fs.lookup directory ≠ none
        · have hnot : ¬ (directory ≠ [] ∧ fs.lookup directory = none) := by tauto
          simp only [missingOf, List.filter_cons, List.filter_nil]
          simp [hthere, hnot]
        · have hmissing : directory ≠ [] ∧ fs.lookup directory = none := by tauto
          simp only [missingOf, List.filter_cons, List.filter_nil]
          simp [hmissing]
      rw [hadd]
      show (directories.zipIdx (start + 1)).foldlM (addMissing fault fs) _ = _ ∨ _
      rcases ih (start + 1) (missing ++ missingOf fs [directory])
        (fun d hd => hfree d (List.mem_cons_of_mem _ hd)) with heq | hfailed
      · left
        rw [heq, List.append_assoc]
        unfold missingOf
        rw [← List.filter_append]
        rfl
      · right
        exact hfailed

/-- The directories that are missing, unless looking for one of them is the step that fails. -/
theorem missingDirectories_spec (hfree : ∀ directory ∈ directories, Unobstructed fs directory) :
    missingDirectories fault directories fs = .ok (missingOf fs directories) ∨
    ∃ operation path index, missingDirectories fault directories fs =
      .error (.io operation path .other) ∧ fault = some (.checkDirectory index) := by
  exact addMissings_spec 0 [] hfree

end GraphLoom.Init
