import GraphLoom.Init.Equiv.Publishing

/-!
## The loops of the transaction

* `stageManagedFiles_spec`: staging either stages all files that are needed, or fails and cleans up;
  the exception is a failing check of a file, after which the files staged before it stay.
* `publishFiles_spec`: publishing either replaces all targets and removes their backups, or fails and
  gives the file system back as it was before the files were staged.
-/

namespace GraphLoom.Init

open Foundation

variable {uuid : Temporary → String} {fault : Option Step} {base fs fs' : FileSystem}
  {files done rest : List IndexedFile} {file : IndexedFile}

/-! ### Staging -/

/-- A step of the staging of the file with the given index. -/
def Step.IsStaging (index : ℕ) : Step → Prop
  | .createStaged i => i = index
  | .writeStaged i _ => i = index
  | .syncStaged i => i = index
  | _ => False

/-- Removing a file that was just made gives the file system back. -/
theorem cleanupTmp_insert {path : Path} {content : String} (hfresh : fs.lookup path = none)
    (hlookup : fs'.lookup path = some (.file content))
    (hother : ∀ q, q ≠ path → fs'.lookup q = fs.lookup q) : cleanupTmp path fs' = fs := by
  refine Finmap.ext_lookup fun q => ?_
  rw [cleanupTmp_lookup (by rw [hlookup]; simp)]
  by_cases hsame : q = path
  · rw [if_pos hsame, hsame, hfresh]
  · rw [if_neg hsame, hother q hsame]

theorem writeContent_spec (fault : Option Step) (index : ℕ) (path : Path) (content : String)
    (fs : FileSystem) :
    (writeContent fault index path content fs = (.ok (), fs.write path content) ∧
      ∀ written, fault ≠ some (.writeStaged index written)) ∨
    ∃ written, writeContent fault index path content fs =
        (.error (.io "write staged managed file" path .other), fs.write path written) ∧
      fault = some (.writeStaged index written) := by
  unfold writeContent
  split
  · rename_i faulty written
    by_cases hfault : faulty = index
    · right
      subst hfault
      exact ⟨written, if_pos rfl, rfl⟩
    · left
      refine ⟨if_neg hfault, fun written' heq => hfault ?_⟩
      cases heq
      rfl
  · rename_i hfault
    exact .inl ⟨rfl, fun written heq => hfault index written heq⟩

/-- A staged file is there with its content, or the file system is as before. -/
theorem writeStagedFile_spec {path : Path} {index : ℕ} {content : String} (hne : path ≠ [])
    (hfresh : fs.lookup path = none) (hparent : fs.isDirectory path.tail) :
    (∃ fs', writeStagedFile fault index path content fs = (.ok (), fs') ∧
      fs'.lookup path = some (.file content) ∧ (∀ q, q ≠ path → fs'.lookup q = fs.lookup q) ∧
      ∀ step, fault = some step → ¬ step.IsStaging index) ∨
    (∃ operation step,
      writeStagedFile fault index path content fs = (.error (.io operation path .other), fs) ∧
      fault = some step ∧ step.IsStaging index) := by
  have hcreate : fs.createNew path = .ok (fs.insert path (.file "")) := by
    unfold FileSystem.createNew
    rw [if_neg (by simp [hne, hfresh]), if_pos hparent]
  have hlookup : ∀ text,
      (FileSystem.write (fs.insert path (.file "")) path text).lookup path = some (.file text) :=
    fun text => Finmap.lookup_insert _
  have hother : ∀ text q, q ≠ path →
      (FileSystem.write (fs.insert path (.file "")) path text).lookup q = fs.lookup q := by
    intro text q hq
    unfold FileSystem.write
    rw [Finmap.lookup_insert_of_ne _ hq, Finmap.lookup_insert_of_ne _ hq]
  have hcleanup : ∀ text,
      cleanupTmp path (FileSystem.write (fs.insert path (.file "")) path text) = fs :=
    fun text => cleanupTmp_insert hfresh (hlookup text) (hother text)
  unfold writeStagedFile
  rw [hcreate]
  by_cases hopen : fault = some (.createStaged index)
  · right
    subst hopen
    rw [attempt_fault]
    exact ⟨_, _, rfl, rfl, rfl⟩
  rw [attempt_ok _ _ _ hopen]
  dsimp only
  rcases writeContent_spec fault index path content (fs.insert path (.file "")) with
    ⟨hwrite, hnot⟩ | ⟨written, hwrite, hfault⟩
  · rw [hwrite]
    dsimp only
    by_cases hsync : fault = some (.syncStaged index)
    · right
      subst hsync
      rw [attempt_fault]
      dsimp only
      rw [hcleanup content]
      exact ⟨_, _, rfl, rfl, rfl⟩
    · left
      rw [attempt_ok _ _ _ hsync]
      refine ⟨_, rfl, hlookup content, hother content, ?_⟩
      rintro step rfl hstaging
      cases step with
      | createStaged i => exact hopen (by rw [show i = index from hstaging])
      | writeStaged i written => exact hnot written (by rw [show i = index from hstaging])
      | syncStaged i => exact hsync (by rw [show i = index from hstaging])
      | _ => exact hstaging
  · right
    rw [hwrite]
    dsimp only
    rw [hcleanup written]
    exact ⟨_, _, rfl, hfault, rfl⟩

/-- The files that have to be written. -/
def neededOf (base : FileSystem) (files : List IndexedFile) : List IndexedFile :=
  files.filter fun file => base.lookup file.1.path = none ∨ file.1.overwrite

/-- One more file is staged. -/
theorem Publishing.stage (h : Publishing uuid base [] done fs) (hready : Ready uuid base files)
    (hpart : (done ++ [file]).Sublist files)
    (hlookup : fs'.lookup (stagedPath uuid file) = some (.file file.1.content))
    (hother : ∀ path, path ≠ stagedPath uuid file → fs'.lookup path = fs.lookup path) :
    Publishing uuid base [] (done ++ [file]) fs' where
  target _ hfile := absurd hfile List.not_mem_nil
  backup _ hx := absurd hx List.not_mem_nil
  staged file' hfile' := by
    rcases List.mem_append.mp hfile' with hfile' | hfile'
    · have hpairwise := (List.pairwise_append.mp (hready.staged.sublist hpart)).2.2
      rw [hother _ (hpairwise file' hfile' file (List.mem_singleton_self _))]
      exact h.staged file' hfile'
    · rw [List.mem_singleton.mp hfile']
      exact hlookup
  other path htarget hbackup hstaged := by
    rw [hother path (hstaged file (List.mem_append_right _ (List.mem_singleton_self _)))]
    exact h.other path htarget hbackup fun file' hfile' =>
      hstaged file' (List.mem_append_left _ hfile')

/-- Looking for a planned file finds out whether it was there. -/
theorem Publishing.tryExists_staging (h : Publishing uuid base [] done fs)
    (hready : Ready uuid base files) (hpart : done.Sublist files)
    (hneeded : file ∈ files ∨ base.lookup file.1.path ≠ none)
    (hstaged : ∀ file' ∈ files, file.1.path ≠ stagedPath uuid file') :
    fs.tryExists file.1.path = .ok (decide (base.lookup file.1.path ≠ none)) := by
  by_cases hfile : file ∈ files
  · exact h.tryExists_target hready hpart hfile fun _ hmem => absurd hmem List.not_mem_nil
  · have hthere := hneeded.resolve_left hfile
    have hlookup : fs.lookup file.1.path = base.lookup file.1.path :=
      h.other _ (fun _ hmem => absurd hmem List.not_mem_nil)
        (fun _ hmem => absurd hmem List.not_mem_nil) fun file' hfile' =>
          hstaged file' (hpart.subset hfile')
    unfold FileSystem.tryExists FileSystem.metadata
    rw [hlookup]
    cases hbase : base.lookup file.1.path with
    | none => exact absurd hbase hthere
    | some node => split_ifs <;> simp

theorem neededOf_append (base : FileSystem) (files files' : List IndexedFile) :
    neededOf base (files ++ files') = neededOf base files ++ neededOf base files' :=
  List.filter_append ..

/-- **Staging stages all files that are needed, or cleans up**, unless the check of a file is the
step that fails: then the files staged before it stay. -/
theorem stageManagedFiles_spec (fault : Option Step) {all before rest : List IndexedFile}
    (hsplit : all = before ++ rest)
    (hready : Ready uuid base (neededOf base all))
    (hstaged : ∀ file ∈ all, ∀ file' ∈ neededOf base all, file.1.path ≠ stagedPath uuid file')
    (h : Publishing uuid base [] (neededOf base before) fs) :
    (∃ fs', stageManagedFiles fault uuid rest ((neededOf base before).map (stagedOf uuid)) fs =
        (.ok ((neededOf base all).map (stagedOf uuid)), fs') ∧
      Publishing uuid base [] (neededOf base all) fs' ∧
      (∀ file ∈ rest, fault ≠ some (.checkFile file.2)) ∧
      ∀ file ∈ neededOf base rest, ∀ step, fault = some step → ¬ step.IsStaging file.2) ∨
    (∃ operation path fs' earlier file later,
      stageManagedFiles fault uuid rest ((neededOf base before).map (stagedOf uuid)) fs =
        (.error (.io operation path .other), fs') ∧
      all = earlier ++ file :: later ∧ fault = some (.checkFile file.2) ∧
      Publishing uuid base [] (neededOf base earlier) fs') ∨
    (∃ operation path file step,
      stageManagedFiles fault uuid rest ((neededOf base before).map (stagedOf uuid)) fs =
        (.error (.io operation path .other), base) ∧
      file ∈ neededOf base all ∧ fault = some step ∧ step.IsStaging file.2) := by
  induction rest generalizing before fs with
  | nil =>
    rw [List.append_nil] at hsplit
    subst hsplit
    exact .inl ⟨fs, rfl, h, fun file hfile => absurd hfile List.not_mem_nil,
      fun file hfile => absurd hfile List.not_mem_nil⟩
  | cons file rest ih =>
    have hall : file ∈ all := by
      rw [hsplit]
      exact List.mem_append_right _ (List.mem_cons_self ..)
    have hsplit' : all = (before ++ [file]) ++ rest := by
      rw [hsplit, List.append_cons]
    have hpart : (neededOf base before).Sublist (neededOf base all) := by
      rw [hsplit, neededOf_append]
      exact List.sublist_append_left _ _
    have hneeded : file ∈ neededOf base all ∨ base.lookup file.1.path ≠ none := by
      by_cases hthere : base.lookup file.1.path = none
      · exact .inl (List.mem_filter.mpr ⟨hall, by simp [hthere]⟩)
      · exact .inr hthere
    have hexists := h.tryExists_staging hready hpart hneeded (hstaged file hall)
    obtain ⟨plan, index⟩ := file
    unfold stageManagedFiles
    by_cases hcheck : fault = some (.checkFile index)
    · right
      left
      subst hcheck
      rw [attempt_fault]
      exact ⟨_, _, fs, before, (plan, index), rest, rfl, hsplit, rfl, h⟩
    rw [hexists, attempt_ok _ _ _ hcheck]
    dsimp only
    by_cases hskip : base.lookup plan.path ≠ none ∧ plan.overwrite = false
    · -- the file stays as it is
      have hcondition : (decide (base.lookup plan.path ≠ none) && !plan.overwrite) = true := by
        simp [hskip.1, hskip.2]
      have hsame : neededOf base (before ++ [(plan, index)]) = neededOf base before := by
        rw [neededOf_append]
        simp [neededOf, hskip.1, hskip.2]
      have hrest : neededOf base ((plan, index) :: rest) = neededOf base rest := by
        simp [neededOf, hskip.1, hskip.2]
      rw [if_pos hcondition, hrest, ← hsame]
      rw [← hsame] at h
      rcases ih hsplit' h with ⟨fs', heq, hpublishing, hnot, hnot'⟩ | hfailed
      · refine .inl ⟨fs', heq, hpublishing, fun file hfile => ?_, hnot'⟩
        rcases List.mem_cons.mp hfile with rfl | hfile
        · exact hcheck
        · exact hnot file hfile
      · exact .inr hfailed
    · have hcondition : ¬ (decide (base.lookup plan.path ≠ none) && !plan.overwrite) = true := by
        intro h
        simp only [Bool.and_eq_true, decide_eq_true_eq, Bool.not_eq_true'] at h
        exact hskip h
      have hneed : base.lookup plan.path = none ∨ plan.overwrite = true := by
        by_cases hnone : base.lookup plan.path = none
        · exact .inl hnone
        · exact .inr (Bool.not_eq_false _ ▸ fun hfalse => hskip ⟨hnone, hfalse⟩)
      have hmore : neededOf base (before ++ [(plan, index)]) =
          neededOf base before ++ [(plan, index)] := by
        rw [neededOf_append]
        simp [neededOf, hneed]
      have hrest : neededOf base ((plan, index) :: rest) = (plan, index) :: neededOf base rest := by
        simp [neededOf, hneed]
      have hmem : (plan, index) ∈ neededOf base all :=
        List.mem_filter.mpr ⟨hall, by simpa using hneed⟩
      have hne := hready.nonempty _ hmem
      have hpart' : (neededOf base before ++ [(plan, index)]).Sublist (neededOf base all) := by
        rw [← hmore, hsplit', neededOf_append base (before ++ [(plan, index)])]
        exact List.sublist_append_left _ _
      -- the staged path is free, in a directory that is there
      have hfresh : fs.lookup (stagedPath uuid (plan, index)) = none := by
        have hpairwise := (List.pairwise_append.mp (hready.staged.sublist hpart')).2.2
        exact h.lookup_staged hready hpart hmem fun file' hfile' =>
          (hpairwise file' hfile' _ (List.mem_singleton_self _)).symm
      have hparent : fs.isDirectory (stagedPath uuid (plan, index)).tail := by
        unfold stagedPath
        rw [temporaryPath_tail]
        exact h.isDirectory hready hpart (hready.parent hmem)
      rw [if_neg hcondition, temporarySibling_staged hne]
      dsimp only
      rw [show temporaryPath uuid plan.path (.staged index) = stagedPath uuid (plan, index) from rfl]
      have hstagedNe : stagedPath uuid (plan, index) ≠ [] := temporaryPath_ne_nil hne _
      rcases writeStagedFile_spec hstagedNe hfresh hparent with
        ⟨fs', hwrite, hlookup, hother, hnot⟩ | ⟨operation, step, hwrite, hfault, hstaging⟩
      · rw [hwrite]
        dsimp only
        have hnext : Publishing uuid base [] (neededOf base (before ++ [(plan, index)])) fs' := by
          rw [hmore]
          exact h.stage hready hpart' hlookup hother
        have hstagedOf : (neededOf base before).map (stagedOf uuid) ++
            [⟨plan.path, stagedPath uuid (plan, index)⟩] =
              (neededOf base (before ++ [(plan, index)])).map (stagedOf uuid) := by
          rw [hmore, List.map_append]
          rfl
        rw [hstagedOf]
        rcases ih hsplit' hnext with ⟨fs'', heq, hpublishing, hnot', hnot''⟩ | hfailed
        · refine .inl ⟨fs'', heq, hpublishing, fun file hfile => ?_, fun file hfile => ?_⟩
          · rcases List.mem_cons.mp hfile with rfl | hfile
            · exact hcheck
            · exact hnot' file hfile
          · rw [hrest] at hfile
            rcases List.mem_cons.mp hfile with rfl | hfile
            · exact hnot
            · exact hnot'' file hfile
        · exact .inr hfailed
      · right
        right
        rw [hwrite]
        dsimp only
        rw [h.cleanupStaged hready hpart (List.Subset.refl _) hpart.subset]
        exact ⟨_, _, (plan, index), step, rfl, hmem, hfault, hstaging⟩

/-! ### Publishing -/

/-- The targets have their new contents, and everything else is as before. -/
structure Finished (base : FileSystem) (files : List IndexedFile) (fs : FileSystem) : Prop where
  content : ∀ file ∈ files, fs.lookup file.1.path = some (.file file.1.content)
  other : ∀ path, (∀ file ∈ files, path ≠ file.1.path) → fs.lookup path = base.lookup path

/-- When all files are published, their backups are removed. -/
theorem Publishing.finish (h : Publishing uuid base files [] fs) (hready : Ready uuid base files) :
    Finished base files (removeBackups (files.zipIdx.map (publishedOf uuid base)) fs) := by
  have hpart : (files ++ []).Sublist files := by
    rw [List.append_nil]
  have hmem : ∀ path, path ∈ (files.zipIdx.map (publishedOf uuid base)).filterMap
      PublishedManagedFile.backup ↔
        ∃ x ∈ files.zipIdx, base.lookup x.1.1.path ≠ none ∧ path = backupPath uuid x.1 x.2 := by
    intro path
    rw [List.mem_filterMap]
    constructor
    · rintro ⟨published, hpublished, hpath⟩
      obtain ⟨x, hx, rfl⟩ := List.mem_map.mp hpublished
      by_cases hbase : base.lookup x.1.1.path = none
      · simp [publishedOf, hbase] at hpath
      · refine ⟨x, hx, hbase, ?_⟩
        simp only [publishedOf, hbase, if_false] at hpath
        exact (Option.some.inj hpath).symm
    · rintro ⟨x, hx, hbase, rfl⟩
      exact ⟨publishedOf uuid base x, List.mem_map_of_mem hx, by simp [publishedOf, hbase]⟩
  have hlookup : ∀ path, (removeBackups (files.zipIdx.map (publishedOf uuid base)) fs).lookup path =
      if path ∈ (files.zipIdx.map (publishedOf uuid base)).filterMap PublishedManagedFile.backup
        then none else fs.lookup path := by
    intro path
    rw [removeBackups_eq_foldl, foldl_cleanupTmp_lookup]
    intro path' hpath'
    obtain ⟨x, hx, hbase, rfl⟩ := (hmem path').mp hpath'
    rw [h.backup x hx hbase]
    exact hready.target x.1 (mem_zipIdx_of_sublist hpart hx).1
  constructor
  · intro file hfile
    rw [hlookup, if_neg]
    · exact h.target file hfile
    · intro hpath
      obtain ⟨x, hx, -, hsame⟩ := (hmem _).mp hpath
      obtain ⟨hfile', hindex⟩ := mem_zipIdx_of_sublist hpart hx
      exact hready.backupTarget x.1 hfile' x.2 hindex file hfile hsame.symm
  · intro path hpath
    rw [hlookup]
    split_ifs with hbackup
    · obtain ⟨x, hx, -, rfl⟩ := (hmem _).mp hbackup
      obtain ⟨hfile', hindex⟩ := mem_zipIdx_of_sublist hpart hx
      exact (hready.backupFresh x.1 hfile' x.2 hindex).symm
    · exact h.other path hpath (fun x hx hbase hsame => hbackup ((hmem _).mpr ⟨x, hx, hbase, hsame⟩))
        fun _ hfile => absurd hfile List.not_mem_nil

/-- **A failed publication is rolled back.** -/
theorem rollback_spec {target : Path} {backup : Option Path} (error : CliError)
    (created : List Path) (hrestore : restoreBackup target backup fs' = (.ok (), fs))
    (h : Publishing uuid base done rest fs) (hready : Ready uuid base files)
    (hpart : (done ++ rest).Sublist files) :
    rollback (files.map (stagedOf uuid)) created (done.zipIdx.map (publishedOf uuid base))
      (target, backup) error fs' = (.error error, removeEmptyDirectories created base) := by
  obtain ⟨fs'', hrollback, hfirst⟩ := rollbackPublished_spec h hready hpart
  have hsublist : rest.Sublist files := (List.sublist_append_right done rest).trans hpart
  unfold rollback
  dsimp only
  rw [hrestore, hrollback]
  dsimp only
  rw [hfirst.cleanupStaged hready hsublist hsublist.subset (List.Subset.refl _)]
  rfl

theorem beforePublish_spec (fault : Option Step) (index : ℕ) (target : Path) :
    (beforePublish fault index target = .ok () ∧
      ∀ operation, fault ≠ some (.beforePublish index operation)) ∨
    ∃ operation, beforePublish fault index target = .error (.io operation target .other) ∧
      fault = some (.beforePublish index operation) := by
  unfold beforePublish
  split
  · rename_i faulty operation
    by_cases hfault : faulty = index
    · right
      subst hfault
      exact ⟨operation, if_pos rfl, rfl⟩
    · left
      refine ⟨if_neg hfault, fun operation' heq => hfault ?_⟩
      cases heq
      rfl
  · rename_i hfault
    exact .inl ⟨rfl, fun operation heq => hfault index operation heq⟩

/-- **Publishing replaces all targets, or gives back what was there before.** -/
theorem publishFiles_spec (fault : Option Step) (created : List Path) (hsplit : files = done ++ rest)
    (hready : Ready uuid base files) (h : Publishing uuid base done rest fs) :
    (∃ fs', publishFiles fault uuid (files.map (stagedOf uuid)) created
        ((rest.map (stagedOf uuid)).zipIdx done.length) (done.zipIdx.map (publishedOf uuid base)) fs =
          (.ok (), fs') ∧ Finished base files fs' ∧
      ∀ x ∈ rest.zipIdx done.length, ∀ step, fault = some step →
        ¬ step.IsPublication base x.1 x.2) ∨
    (∃ operation path step x, publishFiles fault uuid (files.map (stagedOf uuid)) created
        ((rest.map (stagedOf uuid)).zipIdx done.length) (done.zipIdx.map (publishedOf uuid base)) fs =
          (.error (.io operation path .other), removeEmptyDirectories created base) ∧
      x ∈ rest.zipIdx done.length ∧ fault = some step ∧ step.IsPublication base x.1 x.2) := by
  induction rest generalizing done fs with
  | nil =>
    rw [List.append_nil] at hsplit
    subst hsplit
    exact .inl ⟨_, rfl, h.finish hready, fun x hx => absurd hx List.not_mem_nil⟩
  | cons file rest ih =>
    have hpart : (done ++ file :: rest).Sublist files := by
      rw [hsplit]
    have hnext := hready.next hpart
    have hfirst : (file, done.length) ∈ (file :: rest).zipIdx done.length := by
      rw [List.zipIdx_cons]
      exact List.mem_cons_self ..
    rw [List.map_cons, List.zipIdx_cons]
    unfold publishFiles
    rw [show (stagedOf uuid file).target = file.1.path from rfl,
      show (stagedOf uuid file).staged = stagedPath uuid file from rfl]
    rcases moveTargetToBackup_spec h hready hpart hnext.mem hnext.index hnext.target with
      ⟨backup, fs', hmove, hb, hcheck, hbackup⟩ | ⟨operation, path, step, hmove, hfault, hstep⟩
    · rw [hmove]
      dsimp only
      rcases beforePublish_spec fault done.length file.1.path with
        ⟨hhook, hnot⟩ | ⟨operation, hhook, hfault⟩
      · rw [hhook]
        dsimp only
        obtain ⟨fs'', hrename, hpublished⟩ := hb.publish h hready hpart
        rw [hrename]
        by_cases hpublish : fault = some (.publish done.length)
        · right
          subst hpublish
          rw [attempt_fault]
          dsimp only
          rw [rollback_spec _ created hb.restore h hready hpart]
          exact ⟨_, _, _, (file, done.length), rfl, hfirst, rfl, rfl⟩
        · rw [attempt_ok _ _ _ hpublish]
          dsimp only
          have hlength : done.length + 1 = (done ++ [file]).length := by simp
          have hrecord : done.zipIdx.map (publishedOf uuid base) ++ [⟨file.1.path, backup⟩] =
              (done ++ [file]).zipIdx.map (publishedOf uuid base) := by
            rw [List.zipIdx_append, Nat.zero_add, List.map_append, hb.record]
            rfl
          rw [hrecord, hlength]
          rw [List.append_cons] at hsplit
          rcases ih hsplit hpublished with ⟨fs₃, heq, hfinished, hnot'⟩ | hfailed
          · refine .inl ⟨fs₃, heq, hfinished, fun x hx step hstep hpublication => ?_⟩
            rw [List.zipIdx_cons, hlength] at hx
            rcases List.mem_cons.mp hx with rfl | hx
            · subst hstep
              cases step with
              | checkTarget i => exact hcheck (by rw [show i = done.length from hpublication])
              | backup i => exact hbackup hpublication.2 (by rw [hpublication.1])
              | beforePublish i operation =>
                exact hnot operation (by rw [show i = done.length from hpublication])
              | publish i => exact hpublish (by rw [show i = done.length from hpublication])
              | _ => exact hpublication
            · exact hnot' x hx step hstep hpublication
          · obtain ⟨operation, path, step, x, heq, hx, hfault, hstep⟩ := hfailed
            refine .inr ⟨operation, path, step, x, heq, ?_, hfault, hstep⟩
            rw [List.zipIdx_cons, hlength]
            exact List.mem_cons_of_mem _ hx
      · right
        rw [hhook]
        dsimp only
        rw [rollback_spec _ created hb.restore h hready hpart]
        exact ⟨_, _, _, (file, done.length), rfl, hfirst, hfault, rfl⟩
    · right
      rw [hmove]
      dsimp only
      rw [rollback_spec _ created rfl h hready hpart]
      exact ⟨_, _, step, (file, done.length), rfl, hfirst, hfault, hstep⟩

end GraphLoom.Init
