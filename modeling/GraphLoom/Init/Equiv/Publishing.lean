import GraphLoom.Init.Equiv.Directories

/-!
## Staging, publishing and rolling back

A file system that is being published differs from the one before it at the targets that have been
published, at their backups and at the files that are staged (`Publishing`).  Staging and publishing
a file lead from one such state to the next, undoing the publication of a file leads back
(`unpublish_spec`), and cleaning up what is staged gives the first file system
(`Publishing.cleanupStaged`).
-/

namespace GraphLoom.Init

open Foundation FileSystem

variable {uuid : Temporary → String}

/-! ### Temporary files -/

def temporaryPath (uuid : Temporary → String) (path : Path) (temporary : Temporary) : Path :=
  match path with
  | [] => []
  | name :: parent =>
    let kind := match temporary with
      | .staged _ => "tmp"
      | .backup _ => "backup"
    ("." ++ name ++ "." ++ uuid temporary ++ "." ++ kind) :: parent

variable {path : Path}

theorem temporarySibling_staged (hpath : path ≠ []) (index : ℕ) :
    temporarySibling uuid path (.staged index) "tmp" =
      .ok (temporaryPath uuid path (.staged index)) := by
  cases path with
  | nil => exact absurd rfl hpath
  | cons name parent => rfl

theorem temporarySibling_backup (hpath : path ≠ []) (index : ℕ) :
    temporarySibling uuid path (.backup index) "backup" =
      .ok (temporaryPath uuid path (.backup index)) := by
  cases path with
  | nil => exact absurd rfl hpath
  | cons name parent => rfl

/-- A temporary file lies beside its target. -/
theorem temporaryPath_tail (path : Path) (temporary : Temporary) :
    (temporaryPath uuid path temporary).tail = path.tail := by
  cases path with
  | nil => rfl
  | cons name parent => rfl

theorem temporaryPath_ne_nil (hpath : path ≠ []) (temporary : Temporary) :
    temporaryPath uuid path temporary ≠ [] := by
  cases path with
  | nil => exact absurd rfl hpath
  | cons name parent => exact List.cons_ne_nil _ _

/-- A planned file, with its index. -/
abbrev IndexedFile := ManagedFilePlan × ℕ

def stagedPath (uuid : Temporary → String) (file : IndexedFile) : Path :=
  temporaryPath uuid file.1.path (.staged file.2)

def backupPath (uuid : Temporary → String) (file : IndexedFile) (index : ℕ) : Path :=
  temporaryPath uuid file.1.path (.backup index)

def stagedOf (uuid : Temporary → String) (file : IndexedFile) : StagedManagedFile where
  target := file.1.path
  staged := stagedPath uuid file

/-- The record of a file that was published over what `base` has. -/
def publishedOf (uuid : Temporary → String) (base : FileSystem) (x : IndexedFile × ℕ) :
    PublishedManagedFile where
  target := x.1.1.path
  backup := if base.lookup x.1.1.path = none then none else some (backupPath uuid x.1 x.2)

/-- The files can be published: they have different targets in directories that are there, and
temporary names that nothing has. -/
structure Ready (uuid : Temporary → String) (base : FileSystem) (files : List IndexedFile) :
    Prop where
  nonempty : ∀ file ∈ files, file.1.path ≠ []
  above : ∀ file ∈ files, ∀ above, above <:+ file.1.path → above ≠ file.1.path →
    base.isDirectory above
  target : ∀ file ∈ files, base.lookup file.1.path ≠ some .directory
  targets : files.Pairwise fun file file' => file.1.path ≠ file'.1.path
  staged : files.Pairwise fun file file' => stagedPath uuid file ≠ stagedPath uuid file'
  stagedFresh : ∀ file ∈ files, base.lookup (stagedPath uuid file) = none
  stagedTarget : ∀ file ∈ files, ∀ file' ∈ files, stagedPath uuid file ≠ file'.1.path
  backupFresh : ∀ file ∈ files, ∀ index < files.length, base.lookup (backupPath uuid file index) = none
  backupTarget : ∀ file ∈ files, ∀ index < files.length, ∀ file' ∈ files,
    backupPath uuid file index ≠ file'.1.path
  backupStaged : ∀ file ∈ files, ∀ index < files.length, ∀ file' ∈ files,
    backupPath uuid file index ≠ stagedPath uuid file'
  backup : ∀ file ∈ files, ∀ index < files.length, ∀ file' ∈ files, ∀ index' < files.length,
    backupPath uuid file index = backupPath uuid file' index' → index = index'

/-- The files `done` are published over `base`, and the files `rest` are staged. -/
structure Publishing (uuid : Temporary → String) (base : FileSystem) (done rest : List IndexedFile)
    (fs : FileSystem) : Prop where
  target : ∀ file ∈ done, fs.lookup file.1.path = some (.file file.1.content)
  backup : ∀ x ∈ done.zipIdx, base.lookup x.1.1.path ≠ none →
    fs.lookup (backupPath uuid x.1 x.2) = base.lookup x.1.1.path
  staged : ∀ file ∈ rest, fs.lookup (stagedPath uuid file) = some (.file file.1.content)
  other : ∀ path, (∀ file ∈ done, path ≠ file.1.path) →
    (∀ x ∈ done.zipIdx, base.lookup x.1.1.path ≠ none → path ≠ backupPath uuid x.1 x.2) →
    (∀ file ∈ rest, path ≠ stagedPath uuid file) → fs.lookup path = base.lookup path

variable {base fs fs' : FileSystem} {files done rest : List IndexedFile} {file : IndexedFile}

theorem Publishing.init (uuid : Temporary → String) (base : FileSystem) :
    Publishing uuid base [] [] base where
  target _ h := absurd h List.not_mem_nil
  backup _ h := absurd h List.not_mem_nil
  staged _ h := absurd h List.not_mem_nil
  other _ _ _ _ := rfl

/-! ### Cleaning up -/

theorem cleanupTmp_lookup (h : fs.lookup path ≠ some .directory) (q : Path) :
    (cleanupTmp path fs).lookup q = if q = path then none else fs.lookup q := by
  unfold cleanupTmp removeFile
  cases hlookup : fs.lookup path with
  | none =>
    by_cases hsame : q = path
    · rw [if_pos hsame, hsame]
      exact hlookup
    · rw [if_neg hsame]
  | some node =>
    cases node with
    | directory => exact absurd hlookup h
    | file content =>
      by_cases hsame : q = path
      · rw [if_pos hsame, hsame]
        exact Finmap.lookup_erase _ _
      · rw [if_neg hsame]
        exact Finmap.lookup_erase_ne hsame

/-- Cleaning up removes the files at the paths, and nothing else. -/
theorem foldl_cleanupTmp_lookup {paths : List Path}
    (h : ∀ path ∈ paths, fs.lookup path ≠ some .directory) (q : Path) :
    (paths.foldl (fun fs path => cleanupTmp path fs) fs).lookup q =
      if q ∈ paths then none else fs.lookup q := by
  induction paths generalizing fs with
  | nil => simp
  | cons path paths ih =>
    have hpath := h path (List.mem_cons_self ..)
    rw [List.foldl_cons, ih, cleanupTmp_lookup hpath]
    · by_cases hsame : q = path
      · simp [hsame]
      · simp [hsame]
    · intro path' hpath'
      rw [cleanupTmp_lookup hpath]
      split_ifs
      · exact Option.some_ne_none _ |>.symm
      · exact h path' (List.mem_cons_of_mem _ hpath')

theorem cleanupStaged_eq_foldl (files : List StagedManagedFile) (fs : FileSystem) :
    cleanupStaged files fs =
      (files.map StagedManagedFile.staged).foldl (fun fs path => cleanupTmp path fs) fs := by
  rw [List.foldl_map]
  rfl

theorem removeBackups_eq_foldl (files : List PublishedManagedFile) (fs : FileSystem) :
    removeBackups files fs =
      (files.filterMap PublishedManagedFile.backup).foldl (fun fs path => cleanupTmp path fs) fs := by
  induction files generalizing fs with
  | nil => rfl
  | cons file files ih =>
    obtain ⟨target, backup⟩ := file
    cases backup with
    | none => exact ih fs
    | some backup => exact ih (cleanupTmp backup fs)

/-! ### What is untouched -/

/-- The index of a published file is one of the files. -/
theorem mem_zipIdx_of_sublist {x : IndexedFile × ℕ} (hpart : (done ++ rest).Sublist files)
    (hx : x ∈ done.zipIdx) : x.1 ∈ files ∧ x.2 < files.length := by
  have hlength := hpart.length_le
  rw [List.length_append] at hlength
  have hindex := List.snd_lt_of_mem_zipIdx hx
  constructor
  · exact hpart.subset (List.mem_append_left _ (List.fst_mem_of_mem_zipIdx hx))
  · omega

section

variable (h : Publishing uuid base done rest fs)
include h

/-- The directories of the targets stay. -/
theorem Publishing.isDirectory
    (hready : Ready uuid base files) (hpart : (done ++ rest).Sublist files)
    (hpath : base.isDirectory path) : fs.isDirectory path := by
  rcases isDirectory_iff.mp hpath with rfl | hdirectory
  · rfl
  rw [isDirectory_iff]
  right
  rw [h.other path]
  · exact hdirectory
  · rintro file hfile rfl
    exact hready.target file (hpart.subset (List.mem_append_left _ hfile)) hdirectory
  · rintro x hx - rfl
    obtain ⟨hmem, hindex⟩ := mem_zipIdx_of_sublist hpart hx
    have hfresh := hready.backupFresh x.1 hmem x.2 hindex
    rw [hdirectory] at hfresh
    cases hfresh
  · rintro file hfile rfl
    have hfresh := hready.stagedFresh file (hpart.subset (List.mem_append_right _ hfile))
    rw [hdirectory] at hfresh
    cases hfresh

/-- A target that is not published is what it was. -/
theorem Publishing.lookup_target
    (hready : Ready uuid base files) (hpart : (done ++ rest).Sublist files) (hfile : file ∈ files)
    (hdone : ∀ file' ∈ done, file.1.path ≠ file'.1.path) :
    fs.lookup file.1.path = base.lookup file.1.path := by
  refine h.other _ hdone (fun x hx _ hsame => ?_) fun file' hfile' hsame => ?_
  · obtain ⟨hmem, hindex⟩ := mem_zipIdx_of_sublist hpart hx
    exact hready.backupTarget x.1 hmem x.2 hindex file hfile hsame.symm
  · have hmem := hpart.subset (List.mem_append_right _ hfile')
    exact hready.stagedTarget file' hmem file hfile hsame.symm

/-- A staged file that is not there has not been staged. -/
theorem Publishing.lookup_staged
    (hready : Ready uuid base files) (hpart : (done ++ rest).Sublist files) (hfile : file ∈ files)
    (hrest : ∀ file' ∈ rest, stagedPath uuid file ≠ stagedPath uuid file') :
    fs.lookup (stagedPath uuid file) = none := by
  rw [h.other (stagedPath uuid file)]
  · exact hready.stagedFresh file hfile
  · exact fun file' hfile' =>
      hready.stagedTarget file hfile file' (hpart.subset (List.mem_append_left _ hfile'))
  · intro x hx _ hsame
    obtain ⟨hmem, hindex⟩ := mem_zipIdx_of_sublist hpart hx
    exact hready.backupStaged x.1 hmem x.2 hindex file hfile hsame.symm
  · exact hrest

end

/-- **Cleaning up what is staged gives the first file system**, when nothing is published. -/
theorem Publishing.cleanupStaged (h : Publishing uuid base [] rest fs)
    (hready : Ready uuid base files) (hpart : rest.Sublist files) {staged : List IndexedFile}
    (hrest : rest ⊆ staged) (hstaged : staged ⊆ files) :
    cleanupStaged (staged.map (stagedOf uuid)) fs = base := by
  have hpart' : ([] ++ rest).Sublist files := hpart
  have hlookup : ∀ file ∈ files, fs.lookup (stagedPath uuid file) ≠ some .directory := by
    intro file hfile
    by_cases hin : ∃ file' ∈ rest, stagedPath uuid file = stagedPath uuid file'
    · obtain ⟨file', hfile', hsame⟩ := hin
      rw [hsame, h.staged file' hfile']
      simp
    · rw [h.lookup_staged hready hpart' hfile fun file' hfile' hsame => hin ⟨file', hfile', hsame⟩]
      simp
  refine Finmap.ext_lookup fun path => ?_
  rw [cleanupStaged_eq_foldl, foldl_cleanupTmp_lookup]
  · rw [List.map_map]
    by_cases hpath : path ∈ staged.map (StagedManagedFile.staged ∘ stagedOf uuid)
    · rw [if_pos hpath]
      obtain ⟨file, hfile, rfl⟩ := List.mem_map.mp hpath
      exact (hready.stagedFresh file (hstaged hfile)).symm
    · rw [if_neg hpath]
      refine h.other path (fun _ hfile => absurd hfile List.not_mem_nil)
        (fun _ hx => absurd hx List.not_mem_nil) ?_
      rintro file hfile rfl
      exact hpath (List.mem_map_of_mem (f := StagedManagedFile.staged ∘ stagedOf uuid) (hrest hfile))
  · intro path hpath
    rw [List.map_map] at hpath
    obtain ⟨file, hfile, rfl⟩ := List.mem_map.mp hpath
    exact hlookup file (hstaged hfile)

/-! ### Moving a target to its backup and back -/

theorem Ready.parent (h : Ready uuid base files) (hfile : file ∈ files) :
    base.isDirectory file.1.path.tail := by
  refine h.above file hfile _ (List.tail_suffix _) fun heq => ?_
  have hlength := congrArg List.length heq
  have hpos := List.length_pos_iff.mpr (h.nonempty file hfile)
  rw [List.length_tail] at hlength
  omega

/-- Looking for a target finds out whether it was there. -/
theorem Publishing.tryExists_target (h : Publishing uuid base done rest fs)
    (hready : Ready uuid base files) (hpart : (done ++ rest).Sublist files) (hfile : file ∈ files)
    (hdone : ∀ file' ∈ done, file.1.path ≠ file'.1.path) :
    fs.tryExists file.1.path = .ok (decide (base.lookup file.1.path ≠ none)) := by
  rw [tryExists_eq, h.lookup_target hready hpart hfile hdone]
  · simp [hready.nonempty file hfile]
  · intro above hsuffix hne
    exact not_isFile_of_isDirectory
      (h.isDirectory hready hpart (hready.above file hfile above hsuffix hne))

/-- The state after a target has been moved to its backup: moving it back undoes it. -/
structure BackedUp (uuid : Temporary → String) (base : FileSystem) (file : IndexedFile)
    (index : ℕ) (fs : FileSystem) (backup : Option Path) (fs' : FileSystem) : Prop where
  record : backup = (publishedOf uuid base (file, index)).backup
  restore : restoreBackup file.1.path backup fs' = (.ok (), fs)
  target : fs'.lookup file.1.path = none
  moved : base.lookup file.1.path ≠ none →
    fs'.lookup (backupPath uuid file index) = base.lookup file.1.path
  other : ∀ path, path ≠ file.1.path →
    (base.lookup file.1.path ≠ none → path ≠ backupPath uuid file index) →
    fs'.lookup path = fs.lookup path

/-- A step of the publication of the file with the given index. -/
def Step.IsPublication (base : FileSystem) (file : IndexedFile) (index : ℕ) : Step → Prop
  | .checkTarget i => i = index
  | .backup i => i = index ∧ base.lookup file.1.path ≠ none
  | .beforePublish i _ => i = index
  | .publish i => i = index
  | _ => False

theorem moveTargetToBackup_spec {fault : Option Step} (h : Publishing uuid base done rest fs)
    (hready : Ready uuid base files) (hpart : (done ++ rest).Sublist files) (hfile : file ∈ files)
    (hindex : done.length < files.length)
    (hdone : ∀ file' ∈ done, file.1.path ≠ file'.1.path) :
    (∃ backup fs', moveTargetToBackup fault uuid done.length file.1.path fs = (.ok backup, fs') ∧
      BackedUp uuid base file done.length fs backup fs' ∧
      fault ≠ some (.checkTarget done.length) ∧
      (base.lookup file.1.path ≠ none → fault ≠ some (.backup done.length))) ∨
    (∃ operation path step, moveTargetToBackup fault uuid done.length file.1.path fs =
        (.error (.io operation path .other), fs) ∧
      fault = some step ∧ step.IsPublication base file done.length) := by
  have hexists := h.tryExists_target hready hpart hfile hdone
  have hlookup := h.lookup_target hready hpart hfile hdone
  unfold moveTargetToBackup
  by_cases hcheck : fault = some (.checkTarget done.length)
  · right
    subst hcheck
    rw [attempt_fault]
    exact ⟨_, _, _, rfl, rfl, rfl⟩
  rw [hexists, attempt_ok _ _ _ hcheck]
  cases htarget : base.lookup file.1.path with
  | none =>
    left
    refine ⟨none, fs, rfl, ?_, hcheck, fun hne => absurd rfl hne⟩
    have hbackup : (publishedOf uuid base (file, done.length)).backup = none := by
      simp [publishedOf, htarget]
    exact ⟨hbackup.symm, rfl, hlookup.trans htarget, fun hne => absurd htarget hne,
      fun _ _ _ => rfl⟩
  | some node =>
    obtain ⟨content, rfl⟩ : ∃ content, node = .file content := by
      cases node with
      | file content => exact ⟨content, rfl⟩
      | directory => exact absurd htarget (hready.target file hfile)
    rw [htarget] at hlookup
    have hne := hready.nonempty file hfile
    have hfresh : fs.lookup (backupPath uuid file done.length) = none := by
      rw [h.other (backupPath uuid file done.length)]
      · exact hready.backupFresh file hfile _ hindex
      · exact fun file' hfile' => hready.backupTarget file hfile _ hindex file'
          (hpart.subset (List.mem_append_left _ hfile'))
      · intro x hx _ hsame
        obtain ⟨hmem, hindex'⟩ := mem_zipIdx_of_sublist hpart hx
        have hlt := List.snd_lt_of_mem_zipIdx hx
        have heq := hready.backup file hfile _ hindex x.1 hmem x.2 hindex' hsame
        omega
      · exact fun file' hfile' => hready.backupStaged file hfile _ hindex file'
          (hpart.subset (List.mem_append_right _ hfile'))
    have hbackupNe : backupPath uuid file done.length ≠ [] := temporaryPath_ne_nil hne _
    have hdiffer : backupPath uuid file done.length ≠ file.1.path :=
      hready.backupTarget file hfile _ hindex file hfile
    have hparent : fs.isDirectory (backupPath uuid file done.length).tail := by
      unfold backupPath
      rw [temporaryPath_tail]
      exact h.isDirectory hready hpart (hready.parent hfile)
    have hrename := rename_eq_ok hlookup hbackupNe (by rw [hfresh]; simp) hparent
    have hthere : decide (some (Node.file content) ≠ none) = true := by simp
    rw [hthere]
    dsimp only
    rw [temporarySibling_backup hne]
    dsimp only
    rw [show temporaryPath uuid file.1.path (.backup done.length) =
      backupPath uuid file done.length from rfl]
    by_cases hbackup : fault = some (.backup done.length)
    · right
      subst hbackup
      rw [attempt_fault]
      exact ⟨_, _, _, rfl, rfl, rfl, by rw [htarget]; simp⟩
    · left
      rw [hrename, attempt_ok _ _ _ hbackup]
      refine ⟨_, _, rfl, ?_, hcheck, fun _ => hbackup⟩
      constructor
      · simp [publishedOf, htarget]
      · unfold restoreBackup
        dsimp only
        rw [rename_back hlookup hfresh hne (h.isDirectory hready hpart (hready.parent hfile))]
      · rw [Finmap.lookup_insert_of_ne _ hdiffer.symm, Finmap.lookup_erase]
      · intro _
        rw [Finmap.lookup_insert, htarget]
      · intro path hpath hpath'
        rw [Finmap.lookup_insert_of_ne _ (hpath' (by rw [htarget]; simp)),
          Finmap.lookup_erase_ne hpath]

/-! ### Publishing a file and undoing it -/

theorem mem_zipIdx_append {x : IndexedFile × ℕ} (hx : x ∈ (done ++ [file]).zipIdx) :
    x ∈ done.zipIdx ∨ x = (file, done.length) := by
  rw [List.zipIdx_append, Nat.zero_add] at hx
  exact (List.mem_append.mp hx).imp_right List.mem_singleton.mp

/-- What the publication of a file needs to know of the other files. -/
structure Ready.Next (uuid : Temporary → String) (files done rest : List IndexedFile)
    (file : IndexedFile) : Prop where
  mem : file ∈ files
  index : done.length < files.length
  target : ∀ file' ∈ done, file.1.path ≠ file'.1.path
  staged : ∀ file' ∈ rest, stagedPath uuid file ≠ stagedPath uuid file'
  /-- The new backup is not one of the earlier ones. -/
  backup : ∀ x ∈ done.zipIdx, backupPath uuid file done.length ≠ backupPath uuid x.1 x.2

theorem Ready.next (h : Ready uuid base files) (hpart : (done ++ file :: rest).Sublist files) :
    Ready.Next uuid files done rest file := by
  have hmem : file ∈ files :=
    hpart.subset (List.mem_append_right _ (List.mem_cons_self ..))
  have hlength := hpart.length_le
  rw [List.length_append, List.length_cons] at hlength
  have hindex : done.length < files.length := by omega
  refine ⟨hmem, hindex, fun file' hfile' => ?_, fun file' hfile' => ?_, fun x hx hsame => ?_⟩
  · have hpairwise := (List.pairwise_append.mp (h.targets.sublist hpart)).2.2
    exact (hpairwise file' hfile' file (List.mem_cons_self ..)).symm
  · have hpairwise := (List.pairwise_append.mp (h.staged.sublist hpart)).2.1
    exact (List.pairwise_cons.mp hpairwise).1 file' hfile'
  · obtain ⟨hmem', hindex'⟩ := mem_zipIdx_of_sublist hpart hx
    have hlt := List.snd_lt_of_mem_zipIdx hx
    have heq := h.backup file hmem _ hindex x.1 hmem' x.2 hindex' hsame
    omega

/-- A directory of `base` is neither a target nor a temporary file. -/
theorem Ready.directory_ne (h : Ready uuid base files) (hfile : file ∈ files) {index : ℕ}
    (hindex : index < files.length) (hpath : base.lookup path = some .directory) :
    path ≠ file.1.path ∧ path ≠ backupPath uuid file index := by
  constructor
  · rintro rfl
    exact h.target file hfile hpath
  · rintro rfl
    rw [h.backupFresh file hfile index hindex] at hpath
    cases hpath

/-- A file that has been published, with its backup, joins the published ones. -/
theorem BackedUp.publish {backup : Option Path}
    (hb : BackedUp uuid base file done.length fs backup fs')
    (h : Publishing uuid base done (file :: rest) fs) (hready : Ready uuid base files)
    (hpart : (done ++ file :: rest).Sublist files) :
    ∃ fs'', fs'.rename (stagedPath uuid file) file.1.path = .ok fs'' ∧
      Publishing uuid base (done ++ [file]) rest fs'' := by
  have hnext := hready.next hpart
  have hstagedTarget := hready.stagedTarget file hnext.mem file hnext.mem
  have hbackupStaged := hready.backupStaged file hnext.mem _ hnext.index
  have hbackupTarget := hready.backupTarget file hnext.mem _ hnext.index
  have hother : ∀ path, path ≠ file.1.path → path ≠ backupPath uuid file done.length →
      fs'.lookup path = fs.lookup path := fun path hpath hpath' => hb.other path hpath fun _ => hpath'
  have hstaged : fs'.lookup (stagedPath uuid file) = some (.file file.1.content) := by
    rw [hother _ hstagedTarget (hbackupStaged file hnext.mem).symm]
    exact h.staged file (List.mem_cons_self ..)
  have hparent : fs'.isDirectory file.1.path.tail := by
    have hbase := hready.parent hnext.mem
    rcases isDirectory_iff.mp (h.isDirectory hready hpart hbase) with hnil | hdirectory
    · rw [hnil]
      rfl
    rcases isDirectory_iff.mp hbase with hnil | hbase
    · rw [hnil]
      rfl
    obtain ⟨hne, hne'⟩ := hready.directory_ne hnext.mem hnext.index hbase
    rw [isDirectory_iff, hother _ hne hne']
    exact .inr hdirectory
  refine ⟨_, rename_eq_ok hstaged (hready.nonempty file hnext.mem)
    (by rw [hb.target]; simp) hparent, ?_⟩
  have hlookup : ∀ path, path ≠ file.1.path → path ≠ stagedPath uuid file →
      ((fs'.erase (stagedPath uuid file)).insert file.1.path (.file file.1.content)).lookup path =
        fs'.lookup path := by
    intro path hpath hpath'
    rw [Finmap.lookup_insert_of_ne _ hpath, Finmap.lookup_erase_ne hpath']
  constructor
  · intro file' hfile'
    rcases List.mem_append.mp hfile' with hfile' | hfile'
    · have hmem' := hpart.subset (List.mem_append_left _ hfile')
      have hne := (hnext.target file' hfile').symm
      rw [hlookup _ hne (hready.stagedTarget file hnext.mem file' hmem').symm,
        hother _ hne (hbackupTarget file' hmem').symm]
      exact h.target file' hfile'
    · rw [List.mem_singleton.mp hfile', Finmap.lookup_insert]
  · intro x hx hbase
    rcases mem_zipIdx_append hx with hx | rfl
    · obtain ⟨hmem', hindex'⟩ := mem_zipIdx_of_sublist hpart hx
      have hne := hready.backupTarget x.1 hmem' x.2 hindex' file hnext.mem
      rw [hlookup _ hne (hready.backupStaged x.1 hmem' x.2 hindex' file hnext.mem),
        hother _ hne (hnext.backup x hx).symm]
      exact h.backup x hx hbase
    · rw [hlookup _ (hbackupTarget file hnext.mem) (hbackupStaged file hnext.mem)]
      exact hb.moved hbase
  · intro file' hfile'
    have hmem' := hpart.subset (List.mem_append_right _ (List.mem_cons_of_mem _ hfile'))
    have hne := hready.stagedTarget file' hmem' file hnext.mem
    rw [hlookup _ hne (hnext.staged file' hfile').symm, hother _ hne (hbackupStaged file' hmem').symm]
    exact h.staged file' (List.mem_cons_of_mem _ hfile')
  · intro path htarget hbackup hrest
    have hne : path ≠ file.1.path :=
      htarget file (List.mem_append_right _ (List.mem_singleton_self _))
    by_cases hpath : path = stagedPath uuid file
    · rw [hpath, Finmap.lookup_insert_of_ne _ hstagedTarget, Finmap.lookup_erase]
      exact (hready.stagedFresh file hnext.mem).symm
    · rw [hlookup _ hne hpath, hb.other path hne]
      · refine h.other path (fun file' hfile' => htarget file' (List.mem_append_left _ hfile')) ?_ ?_
        · intro x hx
          refine hbackup x ?_
          rw [List.zipIdx_append]
          exact List.mem_append_left _ hx
        · intro file' hfile'
          rcases List.mem_cons.mp hfile' with rfl | hfile'
          · exact hpath
          · exact hrest file' hfile'
      · intro hbase
        refine hbackup (file, done.length) ?_ hbase
        rw [List.zipIdx_append, Nat.zero_add]
        exact List.mem_append_right _ (List.mem_singleton_self _)

/-- What remains of a publication when its target is as before and its backup is gone. -/
theorem Publishing.undo (h : Publishing uuid base (done ++ [file]) rest fs)
    (hready : Ready uuid base files) (hpart : (done ++ file :: rest).Sublist files)
    (htarget : fs'.lookup file.1.path = base.lookup file.1.path)
    (hbackup : base.lookup file.1.path ≠ none →
      fs'.lookup (backupPath uuid file done.length) = none)
    (hother : ∀ path, path ≠ file.1.path →
      (base.lookup file.1.path ≠ none → path ≠ backupPath uuid file done.length) →
      fs'.lookup path = fs.lookup path) :
    Publishing uuid base done rest fs' := by
  have hnext := hready.next hpart
  have hbackupTarget := hready.backupTarget file hnext.mem _ hnext.index
  constructor
  · intro file' hfile'
    have hmem' := hpart.subset (List.mem_append_left _ hfile')
    rw [hother _ (hnext.target file' hfile').symm fun _ => (hbackupTarget file' hmem').symm]
    exact h.target file' (List.mem_append_left _ hfile')
  · intro x hx hbase
    obtain ⟨hmem', hindex'⟩ := mem_zipIdx_of_sublist hpart hx
    rw [hother _ (hready.backupTarget x.1 hmem' x.2 hindex' file hnext.mem)
      fun _ => (hnext.backup x hx).symm]
    refine h.backup x ?_ hbase
    rw [List.zipIdx_append]
    exact List.mem_append_left _ hx
  · intro file' hfile'
    have hmem' := hpart.subset (List.mem_append_right _ (List.mem_cons_of_mem _ hfile'))
    rw [hother _ (hready.stagedTarget file' hmem' file hnext.mem)
      fun _ => (hready.backupStaged file hnext.mem _ hnext.index file' hmem').symm]
    exact h.staged file' hfile'
  · intro path htargets hbackups hrest
    by_cases hpath : path = file.1.path
    · rw [hpath, htarget]
    by_cases hpath' : base.lookup file.1.path ≠ none ∧ path = backupPath uuid file done.length
    · obtain ⟨hbase, rfl⟩ := hpath'
      rw [hbackup hbase, hready.backupFresh file hnext.mem _ hnext.index]
    · have hnotBackup : base.lookup file.1.path ≠ none →
          path ≠ backupPath uuid file done.length := fun hbase hsame => hpath' ⟨hbase, hsame⟩
      rw [hother path hpath hnotBackup]
      refine h.other path (fun file' hfile' => ?_) (fun x hx hbase => ?_) hrest
      · rcases List.mem_append.mp hfile' with hfile' | hfile'
        · exact htargets file' hfile'
        · rwa [List.mem_singleton.mp hfile']
      · rcases mem_zipIdx_append hx with hx | rfl
        · exact hbackups x hx hbase
        · exact hnotBackup hbase

/-- **Undoing the publication of the last file leads back.** -/
theorem unpublish_spec (h : Publishing uuid base (done ++ [file]) rest fs)
    (hready : Ready uuid base files) (hpart : (done ++ file :: rest).Sublist files) :
    ∃ fs', unpublish (publishedOf uuid base (file, done.length)) fs = (.ok (), fs') ∧
      Publishing uuid base done rest fs' := by
  have hnext := hready.next hpart
  have hdiffer := hready.backupTarget file hnext.mem _ hnext.index file hnext.mem
  have hpart' : ((done ++ [file]) ++ rest).Sublist files := by
    rwa [List.append_assoc]
  have hpublished : fs.lookup file.1.path = some (.file file.1.content) :=
    h.target file (List.mem_append_right _ (List.mem_singleton_self _))
  have hremove : fs.removeFile file.1.path = .ok (fs.erase file.1.path) := by
    unfold removeFile
    rw [hpublished]
  unfold unpublish
  rw [show (publishedOf uuid base (file, done.length)).target = file.1.path from rfl, hremove]
  unfold publishedOf
  cases hbase : base.lookup file.1.path with
  | none =>
    refine ⟨fs.erase file.1.path, rfl, h.undo hready hpart ?_ (fun hne => absurd hbase hne) ?_⟩
    · rw [Finmap.lookup_erase, hbase]
    · exact fun path hpath _ => Finmap.lookup_erase_ne hpath
  | some node =>
    obtain ⟨content, rfl⟩ : ∃ content, node = .file content := by
      cases node with
      | file content => exact ⟨content, rfl⟩
      | directory => exact absurd hbase (hready.target file hnext.mem)
    have hmoved : (fs.erase file.1.path).lookup (backupPath uuid file done.length) =
        some (.file content) := by
      rw [Finmap.lookup_erase_ne hdiffer, h.backup (file, done.length) ?_ (by rw [hbase]; simp),
        hbase]
      rw [List.zipIdx_append, Nat.zero_add]
      exact List.mem_append_right _ (List.mem_singleton_self _)
    have hparent : isDirectory (fs.erase file.1.path) file.1.path.tail := by
      have hdirectory := h.isDirectory hready hpart' (hready.parent hnext.mem)
      rcases isDirectory_iff.mp hdirectory with hnil | hdirectory
      · rw [hnil]
        rfl
      rw [isDirectory_iff, Finmap.lookup_erase_ne]
      · exact .inr hdirectory
      · intro hsame
        rw [hsame, hpublished] at hdirectory
        cases hdirectory
    have hrename := rename_eq_ok hmoved (hready.nonempty file hnext.mem)
      (by rw [Finmap.lookup_erase]; simp) hparent
    simp only [reduceCtorEq, if_false, restoreBackup]
    rw [hrename]
    refine ⟨_, rfl, h.undo hready hpart ?_ (fun _ => ?_) fun path hpath hpath' => ?_⟩
    · rw [Finmap.lookup_insert, hbase]
    · rw [Finmap.lookup_insert_of_ne _ hdiffer, Finmap.lookup_erase]
    · rw [Finmap.lookup_insert_of_ne _ hpath,
        Finmap.lookup_erase_ne (hpath' (by rw [hbase]; simp)), Finmap.lookup_erase_ne hpath]

/-- **Rolling back undoes all publications.** -/
theorem rollbackPublished_spec (h : Publishing uuid base done rest fs)
    (hready : Ready uuid base files) (hpart : (done ++ rest).Sublist files) :
    ∃ fs', rollbackPublished (done.zipIdx.map (publishedOf uuid base)) fs = (.ok (), fs') ∧
      Publishing uuid base [] rest fs' := by
  induction done using List.reverseRecOn generalizing fs with
  | nil => exact ⟨fs, rfl, h⟩
  | append_singleton done file ih =>
    have hpart' : (done ++ file :: rest).Sublist files := by
      rwa [List.append_assoc] at hpart
    obtain ⟨fs', hundo, hprevious⟩ := unpublish_spec h hready hpart'
    have hsmaller : (done ++ rest).Sublist files :=
      ((List.Sublist.refl done).append (List.sublist_cons_self file rest)).trans hpart'
    obtain ⟨fs'', hrollback, hfirst⟩ := ih hprevious hsmaller
    refine ⟨fs'', ?_, hfirst⟩
    rw [List.zipIdx_append, Nat.zero_add, List.map_append]
    unfold rollbackPublished at hrollback ⊢
    rw [List.reverse_append]
    show List.foldl _ (firstError (.ok ()) (unpublish (publishedOf uuid base (file, done.length)) fs).1,
      (unpublish (publishedOf uuid base (file, done.length)) fs).2) _ = _
    rw [hundo]
    exact hrollback

end GraphLoom.Init
