import GraphLoom.Foundation.TryBuffered
import GraphLoom.Init.Equiv.Staging
import Mathlib.Tactic.IntervalCases

/-!
## Project initialization is all or nothing

* `executePlan_allOrNothing_iff`: a call publishes the whole plan or leaves the file system as it was,
  except when the step that fails strands something (`Step.Strands`): the check of a file after
  another file has been staged, or any step after a directory that the plan does not list has been
  made above a planned one.

The plan is one that passes its preflight and has its files in directories that it lists or that are
there, parents before children.  The names of temporary files are new.
-/

namespace GraphLoom.Init

open Foundation FileSystem

/-! ### Plans -/

/-- What the construction of a plan promises. -/
structure InitPlan.WellFormed (plan : InitPlan) (fs : FileSystem) : Prop where
  distinct : plan.files.Pairwise fun file file' => file.path ≠ file'.path
  /-- No managed file is a planned directory or lies above one. -/
  apart : ∀ file ∈ plan.files, ∀ directory ∈ plan.directories, ¬ file.path <:+ directory
  /-- Parents are listed before their children. -/
  ordered : plan.directories.Pairwise fun directory directory' =>
    directory' <:+ directory → directory' = directory
  parents : ∀ file ∈ plan.files, file.path.tail ∈ plan.directories ∨ fs.isDirectory file.path.tail

/-- The plan of a project is well formed. -/
theorem InitPlan.build_wellFormed (root : Path) (settings dotenv : String)
    {prompts : List (String × String)} (force : Bool)
    (hprompts : prompts.Pairwise fun prompt prompt' => prompt.1 ≠ prompt'.1) (fs : FileSystem) :
    (InitPlan.build root settings dotenv prompts force).WellFormed fs := by
  have hfile : ∀ file ∈ (InitPlan.build root settings dotenv prompts force).files,
      file.path = "settings.yaml" :: root ∨ file.path = ".env" :: root ∨
        ∃ prompt ∈ prompts, file.path = prompt.1 :: "prompts" :: root := by
    intro file hfile
    simp only [InitPlan.build, List.mem_append, List.mem_cons, List.not_mem_nil, or_false,
      List.mem_map] at hfile
    rcases hfile with (rfl | rfl) | ⟨prompt, hprompt, rfl⟩
    · exact .inl rfl
    · exact .inr (.inl rfl)
    · exact .inr (.inr ⟨prompt, hprompt, rfl⟩)
  constructor
  · show List.Pairwise _ ([_, _] ++ _)
    rw [List.pairwise_append]
    refine ⟨by simp, ?_, ?_⟩
    · rw [List.pairwise_map]
      exact hprompts.imp fun hne heq => hne (List.cons.inj heq).1
    · intro file hmem file' hmem' heq
      obtain ⟨prompt, -, rfl⟩ := List.mem_map.mp hmem'
      simp only [List.mem_cons, List.not_mem_nil, or_false] at hmem
      rcases hmem with rfl | rfl <;> simp at heq
  · intro file hmem directory hdirectory hsuffix
    have hlength := hsuffix.length_le
    simp only [InitPlan.build, List.mem_cons, List.not_mem_nil, or_false] at hdirectory
    rcases hfile file hmem with hpath | hpath | ⟨prompt, -, hpath⟩ <;>
      rcases hdirectory with rfl | rfl | rfl <;> rw [hpath] at hsuffix hlength <;>
      simp only [List.length_cons] at hlength <;>
      first
      | omega
      | exact absurd (hsuffix.eq_of_length (by simp)) (by simp)
  · have hne : ∀ name : String, ¬ (name :: root <:+ root) := by
      intro name hsuffix
      have hlength := hsuffix.length_le
      rw [List.length_cons] at hlength
      omega
    simp [InitPlan.build, hne, List.suffix_cons_iff]
  · intro file hmem
    left
    rcases hfile file hmem with hpath | hpath | ⟨prompt, -, hpath⟩ <;> rw [hpath] <;>
      simp [InitPlan.build]

def Temporary.index : Temporary → ℕ
  | .staged index => index
  | .backup index => index

/-- A new UUID gives a temporary file a name that nothing has: not the file system, not the plan and
no other temporary file. -/
structure FreshNames (uuid : Temporary → String) (plan : InitPlan) (fs : FileSystem) : Prop where
  absent : ∀ file ∈ plan.files, ∀ temporary, temporary.index < plan.files.length →
    fs.lookup (temporaryPath uuid file.path temporary) = none
  unplanned : ∀ file ∈ plan.files, ∀ temporary, temporary.index < plan.files.length →
    ∀ path ∈ plan.directories ++ plan.files.map ManagedFilePlan.path,
      ¬ temporaryPath uuid file.path temporary <:+ path
  distinct : ∀ file ∈ plan.files, ∀ file' ∈ plan.files, ∀ temporary temporary',
    temporary.index < plan.files.length → temporary'.index < plan.files.length →
    temporaryPath uuid file.path temporary = temporaryPath uuid file'.path temporary' →
    temporary = temporary'

/-- The plan makes a directory that it does not list. -/
def InitPlan.MakesUnplanned (plan : InitPlan) (fs : FileSystem) : Prop :=
  ∃ path, MadeFor fs plan.directories path ∧ path ∉ plan.directories

/-- The planned files that have to be written, with their indices. -/
def InitPlan.needed (plan : InitPlan) (fs : FileSystem) : List IndexedFile :=
  neededOf fs plan.files.zipIdx

/-- The step is one of the call, and something stays behind when it fails: a staged file, or a
directory that the plan does not list. -/
def Step.Strands (plan : InitPlan) (fs : FileSystem) : Step → Prop
  | .checkDirectory _ => False
  | .createDirectory index stop =>
    CreateFails fs plan.directories index stop ∧
      ∃ path, (MadeFor fs (plan.directories.take index) path ∨
        Missing fs path ∧ path <:+ stop ∧ path ≠ stop) ∧ path ∉ plan.directories
  | .checkFile index =>
    index < plan.files.length ∧
      ((∃ file ∈ plan.needed fs, file.2 < index) ∨ plan.MakesUnplanned fs)
  | .createStaged index | .writeStaged index _ | .syncStaged index =>
    (∃ file ∈ plan.needed fs, file.2 = index) ∧ plan.MakesUnplanned fs
  | .checkTarget index | .beforePublish index _ | .publish index =>
    index < (plan.needed fs).length ∧ plan.MakesUnplanned fs
  | .backup index =>
    (∃ file, (plan.needed fs)[index]? = some file ∧ fs.lookup file.1.path ≠ none) ∧
      plan.MakesUnplanned fs

/-! ### What a call promises -/

def CliError.IsRollbackFailed : CliError → Prop
  | .rollbackFailed _ _ _ => True
  | _ => False

/-- The files that were absent or may be overwritten have the planned contents; everything else is
untouched, apart from the directories that were made. -/
structure IsPublished (plan : InitPlan) (fs fs' : FileSystem) : Prop where
  content : ∀ file ∈ plan.files, fs.lookup file.path = none ∨ file.overwrite →
    fs'.lookup file.path = some (.file file.content)
  other : ∀ path,
    (∀ file ∈ plan.files, fs.lookup file.path = none ∨ file.overwrite → path ≠ file.path) →
    fs'.lookup path = fs.lookup path ∨
      fs.lookup path = none ∧ fs'.lookup path = some .directory ∧
        ∃ directory ∈ plan.directories, path <:+ directory

/-- The plan is published, or nothing has happened. -/
def AllOrNothing (plan : InitPlan) (fs : FileSystem) (result : Except CliError Unit × FileSystem) :
    Prop :=
  match result.1 with
  | .ok () => IsPublished plan fs result.2
  | .error error => ¬ error.IsRollbackFailed ∧ result.2 = fs

variable {plan : InitPlan} {fs fs' base : FileSystem} {uuid : Temporary → String}
  {fault : Option Step} {made : Path → Prop}

/-! ### The preflight -/

variable {path : Path}

theorem metadata_eq_ok {node : Node} (h : fs.metadata path = .ok node) :
    path = [] ∧ node = .directory ∨ path ≠ [] ∧ fs.lookup path = some node := by
  unfold metadata at h
  by_cases hnil : path = []
  · rw [if_pos hnil] at h
    exact .inl ⟨hnil, (Except.ok.inj h).symm⟩
  · rw [if_neg hnil] at h
    cases hlookup : fs.lookup path with
    | none =>
      rw [hlookup] at h
      cases h
    | some node' =>
      rw [hlookup] at h
      obtain rfl := Except.ok.inj h
      exact .inr ⟨hnil, rfl⟩

theorem metadata_eq_notFound (h : fs.metadata path = .error .notFound) :
    path ≠ [] ∧ fs.lookup path = none ∧ Unobstructed fs path := by
  unfold metadata at h
  by_cases hnil : path = []
  · rw [if_pos hnil] at h
    cases h
  rw [if_neg hnil] at h
  cases hlookup : fs.lookup path with
  | some node =>
    rw [hlookup] at h
    cases h
  | none =>
    rw [hlookup] at h
    refine ⟨hnil, rfl, fun above hsuffix hfile => ?_⟩
    have hany : path.tails.any fs.isFile = true :=
      List.any_eq_true.mpr ⟨above, (List.mem_tails _ _).mpr hsuffix, hfile⟩
    rw [hany] at h
    cases h

/-- What is above a directory or a missing path is no file. -/
theorem preflight_directory (htree : fs.Tree) (h : plan.preflight fs = .ok ()) :
    ∀ directory ∈ plan.directories, Unobstructed fs directory := by
  obtain ⟨_, hdirectories, -⟩ := bind_eq_ok.mp h
  intro directory hmem
  have hpreflight := forM_eq_ok hdirectories directory hmem
  unfold preflightDirectory at hpreflight
  split at hpreflight
  · rename_i hmetadata
    intro above hsuffix
    apply not_isFile_of_isDirectory
    rcases metadata_eq_ok hmetadata with ⟨rfl, -⟩ | ⟨-, hlookup⟩
    · rw [List.eq_nil_of_suffix_nil hsuffix]
      rfl
    · by_cases hsame : above = directory
      · rw [hsame, isDirectory_iff]
        exact .inr hlookup
      · exact htree.above (by rw [hlookup]; simp) hsuffix hsame
  · cases hpreflight
  · rename_i hmetadata
    exact (metadata_eq_notFound hmetadata).2.2
  · cases hpreflight

theorem preflight_file (h : plan.preflight fs = .ok ()) :
    ∀ file ∈ plan.files, file.path ≠ [] ∧ fs.lookup file.path ≠ some .directory := by
  obtain ⟨_, -, hfiles⟩ := bind_eq_ok.mp h
  intro file hmem
  have hpreflight := forM_eq_ok hfiles file hmem
  unfold preflightManagedFile at hpreflight
  split at hpreflight
  · rename_i hmetadata
    rcases metadata_eq_ok hmetadata with ⟨-, hnode⟩ | ⟨hne, hlookup⟩
    · cases hnode
    · refine ⟨hne, ?_⟩
      rw [hlookup]
      simp
  · cases hpreflight
  · rename_i hmetadata
    obtain ⟨hne, hlookup, -⟩ := metadata_eq_notFound hmetadata
    refine ⟨hne, ?_⟩
    rw [hlookup]
    simp
  · cases hpreflight

/-! ### What the directories leave to the files -/

/-- The facts about the plan that the steps rely on. -/
structure Accepted (uuid : Temporary → String) (plan : InitPlan) (fs : FileSystem) : Prop where
  tree : fs.Tree
  wellFormed : plan.WellFormed fs
  preflight : plan.preflight fs = .ok ()
  fresh : FreshNames uuid plan fs

/-- Paths that are at or above no planned directory are as before. -/
theorem lookup_base (hmade : MadeDirectories fs (MadeFor fs plan.directories) base)
    (h : ∀ directory ∈ plan.directories, ¬ path <:+ directory) :
    base.lookup path = fs.lookup path := by
  refine hmade.other path ?_
  rintro ⟨-, directory, hdirectory, hsuffix⟩
  exact h directory hdirectory hsuffix

/-- The directories are there once they have been made. -/
theorem isDirectory_base (hmade : MadeDirectories fs made base)
    (h : fs.isDirectory path) : base.isDirectory path := by
  rcases isDirectory_iff.mp h with rfl | hlookup
  · rfl
  rw [isDirectory_iff, hmade.other]
  · exact .inr hlookup
  · intro hmadePath
    have hmissing := (hmade.missing path hmadePath).2
    rw [hlookup] at hmissing
    cases hmissing

/-- What is at or above a planned directory is a directory then. -/
theorem isDirectory_of_suffix (hfree : ∀ directory ∈ plan.directories, Unobstructed fs directory)
    (hmade : MadeDirectories fs (MadeFor fs plan.directories) base) {path directory : Path}
    (hdirectory : directory ∈ plan.directories) (hsuffix : path <:+ directory) :
    base.isDirectory path := by
  by_cases hnil : path = []
  · rw [hnil]
    rfl
  cases hlookup : fs.lookup path with
  | none =>
    rw [isDirectory_iff]
    exact .inr (hmade.directory path ⟨⟨hnil, hlookup⟩, directory, hdirectory, hsuffix⟩)
  | some node =>
    cases node with
    | directory => exact isDirectory_base hmade (isDirectory_iff.mpr (.inr hlookup))
    | file content =>
      have hfile : fs.isFile path := isFile_iff.mpr ⟨hnil, content, hlookup⟩
      exact absurd hfile (hfree directory hdirectory path hsuffix)

section

variable (h : Accepted uuid plan fs)
include h

theorem Accepted.lookup_target (hmade : MadeDirectories fs (MadeFor fs plan.directories) base) :
    ∀ file ∈ plan.files, base.lookup file.path = fs.lookup file.path :=
  fun file hfile => lookup_base hmade (h.wellFormed.apart file hfile)

theorem Accepted.lookup_temporary (hmade : MadeDirectories fs (MadeFor fs plan.directories) base)
    {file : ManagedFilePlan} (hfile : file ∈ plan.files) (temporary : Temporary)
    (hindex : temporary.index < plan.files.length) :
    base.lookup (temporaryPath uuid file.path temporary) = none := by
  rw [lookup_base hmade]
  · exact h.fresh.absent file hfile temporary hindex
  · exact fun directory hdirectory =>
      h.fresh.unplanned file hfile temporary hindex directory (List.mem_append_left _ hdirectory)

theorem Accepted.temporary_ne {file file' : ManagedFilePlan} (hfile : file ∈ plan.files)
    (hfile' : file' ∈ plan.files) (temporary : Temporary)
    (hindex : temporary.index < plan.files.length) :
    temporaryPath uuid file.path temporary ≠ file'.path := by
  intro heq
  refine h.fresh.unplanned file hfile temporary hindex file'.path ?_ ?_
  · exact List.mem_append_right _ (List.mem_map_of_mem hfile')
  · rw [heq]

omit h in
theorem mem_needed {file : IndexedFile} :
    file ∈ plan.needed fs ↔ plan.files[file.2]? = some file.1 ∧
      (fs.lookup file.1.path = none ∨ file.1.overwrite = true) := by
  unfold InitPlan.needed neededOf
  rw [List.mem_filter, List.mem_zipIdx_iff_getElem?]
  simp

omit h in
theorem needed_mem {file : IndexedFile} (hfile : file ∈ plan.needed fs) :
    file.1 ∈ plan.files ∧ file.2 < plan.files.length := by
  obtain ⟨hat, -⟩ := mem_needed.mp hfile
  obtain ⟨hlt, hget⟩ := List.getElem?_eq_some_iff.mp hat
  exact ⟨hget ▸ List.getElem_mem hlt, hlt⟩

/-- The same files are needed once the directories have been made. -/
theorem Accepted.needed_eq (hmade : MadeDirectories fs (MadeFor fs plan.directories) base) :
    neededOf base plan.files.zipIdx = plan.needed fs := by
  refine List.filter_congr fun file hfile => ?_
  rw [h.lookup_target hmade file.1 (List.fst_mem_of_mem_zipIdx hfile)]

/-- **The files are ready to be published** once the directories have been made. -/
theorem Accepted.ready (hmade : MadeDirectories fs (MadeFor fs plan.directories) base) :
    Ready uuid base (plan.needed fs) := by
  have hfree := preflight_directory h.tree h.preflight
  have hfiles := preflight_file h.preflight
  have hlength : (plan.needed fs).length ≤ plan.files.length := by
    have hle := List.length_filter_le
      (fun file : IndexedFile => decide (fs.lookup file.1.path = none ∨ file.1.overwrite = true))
      plan.files.zipIdx
    rwa [List.length_zipIdx] at hle
  constructor
  · exact fun file hfile => (hfiles file.1 (needed_mem hfile).1).1
  · -- what is above a target is a planned directory, above one, or there
    intro file hfile above hsuffix hne
    have hparent : above <:+ file.1.path.tail := by
      cases hpath : file.1.path with
      | nil =>
        rw [hpath] at hsuffix hne
        exact absurd (List.eq_nil_of_suffix_nil hsuffix) hne
      | cons name parent =>
        rw [hpath] at hsuffix hne
        exact (suffix_parent_iff name).mp ⟨hsuffix, hne⟩
    rcases h.wellFormed.parents file.1 (needed_mem hfile).1 with hplanned | hthere
    · exact isDirectory_of_suffix hfree hmade hplanned hparent
    · apply isDirectory_base hmade
      by_cases hsame : above = file.1.path.tail
      · rwa [hsame]
      · rcases isDirectory_iff.mp hthere with hnil | hlookup
        · rw [hnil] at hparent
          rw [List.eq_nil_of_suffix_nil hparent]
          rfl
        · exact h.tree.above (by rw [hlookup]; simp) hparent hsame
  · intro file hfile
    rw [h.lookup_target hmade file.1 (needed_mem hfile).1]
    exact (hfiles file.1 (needed_mem hfile).1).2
  · have hpairwise : plan.files.zipIdx.Pairwise fun file file' => file.1.path ≠ file'.1.path := by
      have hmap : (plan.files.zipIdx.map Prod.fst).Pairwise fun file file' =>
          file.path ≠ file'.path := by
        rw [List.zipIdx_map_fst]
        exact h.wellFormed.distinct
      rwa [List.pairwise_map] at hmap
    exact hpairwise.filter _
  · have hpairwise := (zipIdx_pairwise_lt plan.files 0).filter
      fun file => fs.lookup file.1.path = none ∨ file.1.overwrite
    refine hpairwise.imp_of_mem fun {file file'} hfile hfile' hlt hsame => ?_
    obtain ⟨hmem, hindex⟩ := needed_mem hfile
    obtain ⟨hmem', hindex'⟩ := needed_mem hfile'
    have heq := h.fresh.distinct file.1 hmem file'.1 hmem' (.staged file.2) (.staged file'.2)
      hindex hindex' hsame
    rw [Temporary.staged.inj heq] at hlt
    omega
  · intro file hfile
    exact h.lookup_temporary hmade (needed_mem hfile).1 (.staged file.2)
      (needed_mem hfile).2
  · intro file hfile file' hfile'
    exact h.temporary_ne (needed_mem hfile).1 (needed_mem hfile').1 (.staged file.2)
      (needed_mem hfile).2
  · intro file hfile index hindex
    exact h.lookup_temporary hmade (needed_mem hfile).1 (.backup index)
      (lt_of_lt_of_le hindex hlength)
  · intro file hfile index hindex file' hfile'
    exact h.temporary_ne (needed_mem hfile).1 (needed_mem hfile').1 (.backup index)
      (lt_of_lt_of_le hindex hlength)
  · intro file hfile index hindex file' hfile' hsame
    obtain ⟨hmem', hindex'⟩ := needed_mem hfile'
    have heq := h.fresh.distinct file.1 (needed_mem hfile).1 file'.1 hmem' (.backup index)
      (.staged file'.2) (lt_of_lt_of_le hindex hlength) hindex' hsame
    cases heq
  · intro file hfile index hindex file' hfile' index' hindex' hsame
    have heq := h.fresh.distinct file.1 (needed_mem hfile).1 file'.1 (needed_mem hfile').1
      (.backup index) (.backup index') (lt_of_lt_of_le hindex hlength)
      (lt_of_lt_of_le hindex' hlength) hsame
    exact Temporary.backup.inj heq

/-! ### What stays behind -/

/-- Removing the planned directories gives the file system back when no other one was made. -/
theorem Accepted.removeEmptyDirectories_iff (hmade : MadeDirectories fs made base) :
    removeEmptyDirectories (missingOf fs plan.directories) base = fs ↔
      ¬ ∃ path, made path ∧ path ∉ plan.directories := by
  constructor
  · rintro heq ⟨path, hpath, hnot⟩
    have hlookup : (removeEmptyDirectories (missingOf fs plan.directories) base).lookup path =
        base.lookup path :=
      removeEmptyDirectories_lookup fun hmem => absurd (List.mem_filter.mp hmem).1 hnot
    rw [heq, hmade.directory path hpath, (hmade.missing path hpath).2] at hlookup
    cases hlookup
  · intro hnone
    refine removeEmptyDirectories_eq h.tree (fun directory hdirectory => ?_)
      (h.wellFormed.ordered.filter _) hmade fun path hpath => ?_
    · simpa [missingOf, Missing] using (List.mem_filter.mp hdirectory).2
    · have hmissing := hmade.missing path hpath
      refine List.mem_filter.mpr ⟨?_, by simpa [Missing] using hmissing⟩
      by_contra hnot
      exact hnone ⟨path, hpath, hnot⟩

/-- A staged file stays when the directories are removed. -/
theorem Accepted.staged_remains {staged : List IndexedFile} (hstaged : staged ⊆ plan.needed fs)
    (hpublishing : Publishing uuid base [] staged fs') (hne : staged ≠ []) :
    removeEmptyDirectories (missingOf fs plan.directories) fs' ≠ fs := by
  intro heq
  obtain ⟨file, hfile⟩ := List.exists_mem_of_ne_nil staged hne
  have hlookup := hpublishing.staged file hfile
  have hremains : (removeEmptyDirectories (missingOf fs plan.directories) fs').lookup
      (stagedPath uuid file) = fs'.lookup (stagedPath uuid file) :=
    removeEmptyDirectories_lookup fun _ => by rw [hlookup]; simp
  obtain ⟨hmem, hindex⟩ := needed_mem (hstaged hfile)
  have habsent := h.fresh.absent file.1 hmem (.staged file.2) hindex
  rw [heq, hlookup] at hremains
  rw [show temporaryPath uuid file.1.path (.staged file.2) = stagedPath uuid file from rfl,
    hremains] at habsent
  cases habsent

/-! ### Calls -/

omit h in
theorem allOrNothing_error {operation : String} {source : IoErrorKind} :
    AllOrNothing plan fs (.error (.io operation path source), fs') ↔ fs' = fs :=
  ⟨fun hresult => hresult.2, fun hresult => ⟨id, hresult⟩⟩

omit h in
/-- A step of the staging or the publication strands what was made unplanned. -/
theorem strands_staging {step : Step} {file : IndexedFile} (hfile : file ∈ plan.needed fs)
    (hstep : step.IsStaging file.2) : step.Strands plan fs ↔ plan.MakesUnplanned fs := by
  cases step with
  | createStaged i | writeStaged i written | syncStaged i =>
    have hneeded : ∃ file ∈ plan.needed fs, file.2 = i := ⟨file, hfile, hstep.symm⟩
    exact and_iff_right hneeded
  | _ => exact hstep.elim

theorem Accepted.strands_publication
    (hmade : MadeDirectories fs (MadeFor fs plan.directories) base) {step : Step}
    {x : IndexedFile × ℕ} (hx : x ∈ (plan.needed fs).zipIdx) (hstep : step.IsPublication base x.1 x.2) :
    step.Strands plan fs ↔ plan.MakesUnplanned fs := by
  have hat := List.mem_zipIdx_iff_getElem?.mp hx
  obtain ⟨hlt, -⟩ := List.getElem?_eq_some_iff.mp hat
  cases step with
  | checkTarget i | beforePublish i operation | publish i =>
    have hindex : i < (plan.needed fs).length := by
      rwa [show i = x.2 from hstep]
    exact and_iff_right hindex
  | backup i =>
    obtain ⟨hindex, hthere⟩ := hstep
    have hmem := needed_mem (List.fst_mem_of_mem_zipIdx hx)
    rw [h.lookup_target hmade x.1.1 hmem.1] at hthere
    exact and_iff_right ⟨x.1, by rw [hindex, hat], hthere⟩
  | _ => exact hstep.elim

section

variable (hmade : MadeDirectories fs (MadeFor fs plan.directories) base)
include hmade

omit h in
/-- When all steps are performed, the plan is published. -/
theorem isPublished_of_finished
    (hfinished : Finished base (plan.needed fs) fs') : IsPublished plan fs fs' := by
  have hneeded : ∀ file ∈ plan.files, fs.lookup file.path = none ∨ file.overwrite = true →
      ∃ index, (file, index) ∈ plan.needed fs := by
    intro file hfile hneed
    obtain ⟨index, hlt, hget⟩ := List.getElem_of_mem hfile
    exact ⟨index, mem_needed.mpr ⟨by rw [List.getElem?_eq_getElem hlt, hget], hneed⟩⟩
  constructor
  · intro file hfile hneed
    obtain ⟨index, hmem⟩ := hneeded file hfile hneed
    exact hfinished.content _ hmem
  · intro path hpath
    rw [hfinished.other path fun file hfile => hpath file.1 (needed_mem hfile).1 (mem_needed.mp hfile).2]
    by_cases hmadePath : MadeFor fs plan.directories path
    · exact .inr ⟨hmadePath.1.2, hmade.directory path hmadePath, hmadePath.2⟩
    · exact .inl (hmade.other path hmadePath)

/-- When all steps are performed, none of them was the one that fails. -/
theorem Accepted.not_strands (hcreate : ∀ index stop, CreateFails fs plan.directories index stop →
      fault ≠ some (.createDirectory index stop))
    (hcheck : ∀ file ∈ plan.files.zipIdx, fault ≠ some (.checkFile file.2))
    (hstaging : ∀ file ∈ plan.needed fs, ∀ step, fault = some step → ¬ step.IsStaging file.2)
    (hpublication : ∀ x ∈ (plan.needed fs).zipIdx, ∀ step, fault = some step →
      ¬ step.IsPublication base x.1 x.2) {step : Step} (hfault : fault = some step) :
    ¬ step.Strands plan fs := by
  have hindexed : ∀ i < (plan.needed fs).length, ∃ x ∈ (plan.needed fs).zipIdx, x.2 = i := by
    intro i hi
    exact ⟨((plan.needed fs)[i], i),
      List.mem_zipIdx_iff_getElem?.mpr (List.getElem?_eq_getElem hi), rfl⟩
  intro hstrands
  cases step with
  | checkDirectory i => exact hstrands
  | createDirectory i stop => exact hcreate i stop hstrands.1 hfault
  | checkFile i =>
    have hlt : i < plan.files.length := hstrands.1
    have hmem : (plan.files[i], i) ∈ plan.files.zipIdx :=
      List.mem_zipIdx_iff_getElem?.mpr (List.getElem?_eq_getElem hlt)
    exact hcheck _ hmem hfault
  | createStaged i | writeStaged i written | syncStaged i =>
    obtain ⟨⟨file, hfile, hindex⟩, -⟩ := hstrands
    exact hstaging file hfile _ hfault hindex.symm
  | checkTarget i | beforePublish i operation | publish i =>
    obtain ⟨x, hx, hindex⟩ := hindexed i hstrands.1
    exact hpublication x hx _ hfault hindex.symm
  | backup i =>
    obtain ⟨⟨file, hat, hthere⟩, -⟩ := hstrands
    have hx : (file, i) ∈ (plan.needed fs).zipIdx := List.mem_zipIdx_iff_getElem?.mpr hat
    rw [← h.lookup_target hmade file.1 (needed_mem (List.mem_of_getElem? hat)).1] at hthere
    exact hpublication _ hx _ hfault ⟨rfl, hthere⟩

/-- A failing check strands the files that were staged before, and what was made unplanned. -/
theorem Accepted.checkFile_iff {earlier later : List IndexedFile} {file : IndexedFile}
    (hsplit : plan.files.zipIdx = earlier ++ file :: later)
    (hpublishing : Publishing uuid base [] (neededOf base earlier) fs') :
    removeEmptyDirectories (missingOf fs plan.directories) fs' = fs ↔
      ¬ (Step.checkFile file.2).Strands plan fs := by
  have hpairwise := zipIdx_pairwise_lt plan.files 0
  rw [hsplit] at hpairwise
  obtain ⟨-, hlater, hearlier⟩ := List.pairwise_append.mp hpairwise
  have hmem : file ∈ plan.files.zipIdx := by
    rw [hsplit]
    exact List.mem_append_right _ (List.mem_cons_self ..)
  have hlt : file.2 < plan.files.length := by
    simpa using List.snd_lt_of_mem_zipIdx hmem
  have hneeded : plan.needed fs = neededOf base earlier ++ neededOf base (file :: later) := by
    rw [← h.needed_eq hmade, hsplit, neededOf_append]
  show _ ↔ ¬ (_ ∧ (_ ∨ _))
  rw [and_iff_right hlt]
  by_cases hnone : neededOf base earlier = []
  · -- nothing has been staged
    have hsame : fs' = base := by
      refine Finmap.ext_lookup fun path => hpublishing.other path ?_ ?_ ?_
      · exact fun _ hfile => absurd hfile List.not_mem_nil
      · exact fun _ hx => absurd hx List.not_mem_nil
      · rw [hnone]
        exact fun _ hfile => absurd hfile List.not_mem_nil
    have hno : ¬ ∃ file' ∈ plan.needed fs, file'.2 < file.2 := by
      rintro ⟨file', hfile', hindex⟩
      rw [hneeded, hnone, List.nil_append] at hfile'
      rcases List.mem_cons.mp (List.mem_filter.mp hfile').1 with rfl | hmem'
      · omega
      · have hgreater := (List.pairwise_cons.mp hlater).1 file' hmem'
        omega
    rw [hsame, h.removeEmptyDirectories_iff hmade, or_iff_right hno]
    rfl
  · obtain ⟨file', hfile'⟩ := List.exists_mem_of_ne_nil _ hnone
    have hsubset : neededOf base earlier ⊆ plan.needed fs := by
      rw [hneeded]
      exact List.subset_append_left _ _
    have hindex : file'.2 < file.2 :=
      hearlier file' (List.mem_filter.mp hfile').1 file (List.mem_cons_self ..)
    have hsome : (∃ file' ∈ plan.needed fs, file'.2 < file.2) ∨ plan.MakesUnplanned fs :=
      .inl ⟨file', hsubset hfile', hindex⟩
    exact iff_of_false (h.staged_remains hsubset hpublishing hnone) (not_not.mpr hsome)

end

omit h in
/-- A step that fails decides whether something stays behind. -/
theorem forall_fault_iff {P : Step → Prop} {step : Step} (hfault : fault = some step) :
    (∀ step, fault = some step → ¬ P step) ↔ ¬ P step := by
  subst hfault
  simp

/-- Once the directories have been made, the files are published or everything is undone. -/
theorem Accepted.stageAndPublish_iff
    (hmade : MadeDirectories fs (MadeFor fs plan.directories) base)
    (hcreate : ∀ index stop, CreateFails fs plan.directories index stop →
      fault ≠ some (.createDirectory index stop)) :
    AllOrNothing plan fs
        (stageAndPublish fault uuid plan (missingOf fs plan.directories) base) ↔
      ∀ step, fault = some step → ¬ step.Strands plan fs := by
  have hneeded := h.needed_eq hmade
  have hready : Ready uuid base (neededOf base plan.files.zipIdx) := hneeded ▸ h.ready hmade
  have hstaged : ∀ file ∈ plan.files.zipIdx, ∀ file' ∈ neededOf base plan.files.zipIdx,
      file.1.path ≠ stagedPath uuid file' := by
    intro file hfile file' hfile'
    rw [hneeded] at hfile'
    exact (h.temporary_ne (needed_mem hfile').1 (List.fst_mem_of_mem_zipIdx hfile)
      (.staged file'.2) (needed_mem hfile').2).symm
  have hnothing : (neededOf base []).map (stagedOf uuid) = [] := rfl
  unfold stageAndPublish
  rcases stageManagedFiles_spec fault (List.nil_append plan.files.zipIdx).symm hready hstaged
      (Publishing.init uuid base) with
    ⟨fs', hstage, hpublishing, hcheck, hstaging⟩ |
    ⟨operation, path, fs', earlier, file, later, hstage, hsplit, hfault, hpublishing⟩ |
    ⟨operation, path, file, step, hstage, hfile, hfault, hstep⟩
  · rw [hnothing] at hstage
    rw [hstage]
    dsimp only
    rcases publishFiles_spec fault (missingOf fs plan.directories)
        (List.nil_append (neededOf base plan.files.zipIdx)).symm hready hpublishing with
      ⟨fs'', hpublish, hfinished, hpublication⟩ | ⟨operation, path, step, x, hpublish, hx, hfault, hstep⟩
    · rw [hneeded] at hfinished hpublication hstaging
      have hpublish' : publishFiles fault uuid ((neededOf base plan.files.zipIdx).map (stagedOf uuid))
          (missingOf fs plan.directories)
          ((neededOf base plan.files.zipIdx).map (stagedOf uuid)).zipIdx [] fs' = (.ok (), fs'') :=
        hpublish
      rw [hpublish']
      refine iff_of_true (isPublished_of_finished hmade hfinished) fun step hfault => ?_
      exact h.not_strands hmade hcreate hcheck hstaging hpublication hfault
    · rw [hneeded] at hx
      have hpublish' : publishFiles fault uuid ((neededOf base plan.files.zipIdx).map (stagedOf uuid))
          (missingOf fs plan.directories)
          ((neededOf base plan.files.zipIdx).map (stagedOf uuid)).zipIdx [] fs' =
            (.error (.io operation path .other),
              removeEmptyDirectories (missingOf fs plan.directories) base) :=
        hpublish
      rw [hpublish', forall_fault_iff hfault, h.strands_publication hmade hx hstep]
      exact allOrNothing_error.trans (h.removeEmptyDirectories_iff hmade)
  · rw [hnothing] at hstage
    rw [hstage, forall_fault_iff hfault]
    exact allOrNothing_error.trans (h.checkFile_iff hmade hsplit hpublishing)
  · rw [hnothing] at hstage
    rw [hneeded] at hfile
    rw [hstage, forall_fault_iff hfault, strands_staging hfile hstep]
    exact allOrNothing_error.trans (h.removeEmptyDirectories_iff hmade)

/-- **Project initialization is all or nothing**: the plan is published, or the file system is as it
was and the error is that of the step that failed, if and only if the step that fails, if there is
one, strands nothing. -/
theorem executePlan_allOrNothing_iff :
    AllOrNothing plan fs (executePlan fault uuid plan fs) ↔
      ∀ step, fault = some step → ¬ step.Strands plan fs := by
  have hfree := preflight_directory h.tree h.preflight
  unfold executePlan
  rcases missingDirectories_spec hfree with hmissing | ⟨operation, path, index, hmissing, hfault⟩
  · rw [hmissing]
    dsimp only
    have hinit : MadeDirectories fs (MadeFor fs []) fs :=
      (MadeDirectories.none fs).congr fun path => by simp [MadeFor]
    rcases createDirectories_spec fault h.tree hfree (List.nil_append plan.directories).symm hinit with
      ⟨base, hcreate, hmade, hnot⟩ | ⟨fs', error, index, stop, hcreate, ⟨operation, path, source, rfl⟩,
        hfault, hfails, hmade⟩
    · rw [List.length_nil] at hcreate
      rw [hcreate]
      exact h.stageAndPublish_iff hmade fun index stop => hnot index stop (Nat.zero_le index)
    · rw [List.length_nil] at hcreate
      rw [hcreate, forall_fault_iff hfault]
      refine allOrNothing_error.trans ((h.removeEmptyDirectories_iff hmade).trans (not_congr ?_))
      show _ ↔ _ ∧ _
      rw [and_iff_right hfails]
  · rw [hmissing, forall_fault_iff hfault]
    exact allOrNothing_error.trans (iff_of_true rfl id)

end

/-! ### A project with two files -/

def sampleUuid : Temporary → String
  | .staged index => "staged-" ++ toString index
  | .backup index => "backup-" ++ toString index

/-- The directory of the project is there, with an old file. -/
def sampleFileSystem : FileSystem :=
  ((∅ : FileSystem).insert ["project"] .directory).insert [".env", "project"] (.file "OLD=1")

def samplePlan : InitPlan where
  directories := [["project"], ["input", "project"]]
  files := [⟨["settings.yaml", "project"], "model: m", true⟩, ⟨[".env", "project"], "KEY=", true⟩]

theorem sample_lookup (h : sampleFileSystem.lookup path ≠ none) :
    path = ["project"] ∨ path = [".env", "project"] := by
  by_contra hnot
  rw [not_or] at hnot
  unfold sampleFileSystem at h
  rw [Finmap.lookup_insert_of_ne _ hnot.2, Finmap.lookup_insert_of_ne _ hnot.1,
    Finmap.lookup_empty] at h
  exact h rfl

theorem sample_accepted : Accepted sampleUuid samplePlan sampleFileSystem where
  tree := by
    constructor
    intro path _ hpath
    rcases sample_lookup hpath with rfl | rfl
    · rfl
    · decide
  wellFormed := by
    constructor <;> decide
  preflight := by decide
  fresh := by
    have htemporary : ∀ temporary : Temporary, temporary.index < samplePlan.files.length →
        temporary ∈ [.staged 0, .staged 1, .backup 0, .backup 1] := by
      intro temporary hindex
      cases temporary with
      | staged index | backup index =>
        have hindex : index < 2 := hindex
        interval_cases index <;> decide
    have habsent : ∀ file ∈ samplePlan.files,
        ∀ temporary ∈ [Temporary.staged 0, .staged 1, .backup 0, .backup 1],
          sampleFileSystem.lookup (temporaryPath sampleUuid file.path temporary) = none := by
      decide
    have hunplanned : ∀ file ∈ samplePlan.files,
        ∀ temporary ∈ [Temporary.staged 0, .staged 1, .backup 0, .backup 1],
          ∀ path ∈ samplePlan.directories ++ samplePlan.files.map ManagedFilePlan.path,
            ¬ temporaryPath sampleUuid file.path temporary <:+ path := by
      decide
    have hdistinct : ∀ file ∈ samplePlan.files, ∀ file' ∈ samplePlan.files,
        ∀ temporary ∈ [Temporary.staged 0, .staged 1, .backup 0, .backup 1],
          ∀ temporary' ∈ [Temporary.staged 0, .staged 1, .backup 0, .backup 1],
            temporaryPath sampleUuid file.path temporary =
              temporaryPath sampleUuid file'.path temporary' → temporary = temporary' := by
      decide
    constructor
    · exact fun file hfile temporary hindex => habsent file hfile _ (htemporary _ hindex)
    · exact fun file hfile temporary hindex => hunplanned file hfile _ (htemporary _ hindex)
    · exact fun file hfile file' hfile' temporary temporary' hindex hindex' =>
        hdistinct file hfile file' hfile' _ (htemporary _ hindex) _ (htemporary _ hindex')

/-- The publication of the second file fails, and the old file is restored. -/
theorem executePlan_allOrNothing_sample :
    AllOrNothing samplePlan sampleFileSystem
      (executePlan (some (.publish 1)) sampleUuid samplePlan sampleFileSystem) := by
  refine (executePlan_allOrNothing_iff sample_accepted).mpr fun step hstep => ?_
  obtain rfl := Option.some.inj hstep
  rintro ⟨-, path, ⟨hmissing, directory, hdirectory, hsuffix⟩, hplanned⟩
  have habove : ∀ directory ∈ samplePlan.directories, ∀ path ∈ directory.tails,
      path = [] ∨ path ∈ samplePlan.directories := by
    decide
  rcases habove directory hdirectory path ((List.mem_tails _ _).mpr hsuffix) with hnil | hmem
  · exact hmissing.1 hnil
  · exact hplanned hmem

/-- The check of the second file fails, and the staged first file stays. -/
theorem executePlan_strands :
    Accepted sampleUuid samplePlan sampleFileSystem ∧
    ¬ AllOrNothing samplePlan sampleFileSystem
      (executePlan (some (.checkFile 1)) sampleUuid samplePlan sampleFileSystem) := by
  refine ⟨sample_accepted, fun h => ?_⟩
  have hstays : (executePlan (some (.checkFile 1)) sampleUuid samplePlan
      sampleFileSystem).2.lookup [".settings.yaml.staged-0.tmp", "project"] =
        some (.file "model: m") := by
    decide
  have hsame : (executePlan (some (.checkFile 1)) sampleUuid samplePlan sampleFileSystem).2 =
      sampleFileSystem := h.2
  rw [hsame] at hstays
  exact absurd hstays (by decide)

end GraphLoom.Init
