import GraphLoom.Foundation.FileSystem
import Mathlib.Data.Finset.Sort
import Mathlib.Data.String.Basic
import Mathlib.Algebra.GroupWithZero.Nat

/-!
# Trees of directories

What has been made is a predicate on the paths (`MadeDirectories`).  Making a directory with those
above it makes those that are missing (`createDirAll_spec`).

What lies below a directory lies in it or below a directory in it (`below_perm`), so a walk that
keeps the directories it has still to read on a stack meets everything once (`walk_perm`), in a
number of turns that is one for each directory (`walkTurns`).
-/

namespace GraphLoom.Foundation

open FileSystem

/-- A directory that is not there. -/
def Missing (fs : FileSystem) (path : Path) : Prop := path ≠ [] ∧ fs.lookup path = none

/-- No file is at the path or above it. -/
def Unobstructed (fs : FileSystem) (path : Path) : Prop := ∀ above, above <:+ path → ¬ fs.isFile above

/-- `fs'` is `fs` with directories made at the missing paths `made`. -/
structure MadeDirectories (fs : FileSystem) (made : Path → Prop) (fs' : FileSystem) : Prop where
  directory : ∀ path, made path → fs'.lookup path = some .directory
  other : ∀ path, ¬ made path → fs'.lookup path = fs.lookup path
  missing : ∀ path, made path → Missing fs path
  /-- With a directory those above it have been made. -/
  above : ∀ path, made path → ∀ above, above <:+ path → Missing fs above → made above

variable {fs fs' : FileSystem} {made : Path → Prop} {path : Path}

theorem MadeDirectories.none (fs : FileSystem) : MadeDirectories fs (fun _ => False) fs where
  directory _ h := h.elim
  other _ _ := rfl
  missing _ h := h.elim
  above _ h := h.elim

theorem MadeDirectories.congr {made' : Path → Prop} (h : MadeDirectories fs made fs')
    (hmade : ∀ path, made path ↔ made' path) : MadeDirectories fs made' fs' := by
  obtain rfl : made = made' := funext fun path => propext (hmade path)
  exact h

/-- One more directory is made, when those above it are there. -/
theorem MadeDirectories.insert (h : MadeDirectories fs made fs') (hpath : Missing fs path)
    (habove : ∀ above, above <:+ path → above ≠ path → Missing fs above → made above) :
    MadeDirectories fs (fun q => made q ∨ q = path) (fs'.insert path .directory) where
  directory q hq := by
    by_cases hsame : q = path
    · rw [hsame, Finmap.lookup_insert]
    · rw [Finmap.lookup_insert_of_ne _ hsame]
      exact h.directory q (hq.resolve_right hsame)
  other q hq := by
    rw [not_or] at hq
    rw [Finmap.lookup_insert_of_ne _ hq.2]
    exact h.other q hq.1
  missing q hq := by
    rcases hq with hq | rfl
    · exact h.missing q hq
    · exact hpath
  above q hq above hsuffix hmissing := by
    rcases hq with hq | rfl
    · exact .inl (h.above q hq above hsuffix hmissing)
    · by_cases hsame : above = q
      · exact .inr hsame
      · exact .inl (habove above hsuffix hsame hmissing)

/-! ### Making directories -/

/-- What is strictly above a path is at its parent or above that. -/
theorem suffix_parent_iff (name : String) {q parent : Path} :
    q <:+ name :: parent ∧ q ≠ name :: parent ↔ q <:+ parent := by
  constructor
  · rintro ⟨hsuffix, hne⟩
    exact (List.suffix_cons_iff.mp hsuffix).resolve_left hne
  · intro hsuffix
    refine ⟨hsuffix.trans (List.suffix_cons name parent), fun heq => ?_⟩
    have hlength := hsuffix.length_le
    rw [heq, List.length_cons] at hlength
    omega

/-- Making a directory makes the missing ones above it; when the making of one fails, those above
that one have been made. -/
theorem createDirAll_spec (fails : Path → Bool) (htree : fs.Tree) (hfree : Unobstructed fs path)
    (h : MadeDirectories fs made fs') :
    (∃ fs'', createDirAll fails path fs' = (.ok (), fs'') ∧
      MadeDirectories fs (fun q => made q ∨ Missing fs q ∧ q <:+ path) fs'' ∧
      ∀ q, Missing fs q → q <:+ path → ¬ made q → fails q = false) ∨
    (∃ fs'' stop kind, createDirAll fails path fs' = (.error kind, fs'') ∧
      Missing fs stop ∧ stop <:+ path ∧ ¬ made stop ∧ fails stop ∧
      MadeDirectories fs (fun q => made q ∨ Missing fs q ∧ q <:+ stop ∧ q ≠ stop) fs'') := by
  induction path with
  | nil =>
    have hnil : ∀ q, Missing fs q → ¬ q <:+ [] := fun q hq hsuffix =>
      hq.1 (List.eq_nil_of_suffix_nil hsuffix)
    refine .inl ⟨fs', rfl, h.congr fun q => ?_, fun q hq hsuffix _ => absurd hsuffix (hnil q hq)⟩
    constructor
    · exact .inl
    · rintro (hq | ⟨hq, hsuffix⟩)
      · exact hq
      · exact absurd hsuffix (hnil q hq)
  | cons name parent ih =>
    have hne : name :: parent ≠ [] := List.cons_ne_nil _ _
    unfold createDirAll
    cases hlookup : fs'.lookup (name :: parent) with
    | some node =>
      cases node with
      | file content =>
        -- no file is in the way
        have hnot : ¬ made (name :: parent) := by
          intro hmade
          rw [h.directory _ hmade] at hlookup
          cases hlookup
        rw [h.other _ hnot] at hlookup
        have hfile : fs.isFile (name :: parent) := isFile_iff.mpr ⟨hne, content, hlookup⟩
        exact absurd hfile (hfree _ (List.suffix_refl _))
      | directory =>
        -- what is above a directory is there
        have hthere : ∀ q, Missing fs q → q <:+ name :: parent → made q := by
          intro q hq hsuffix
          by_cases hmade : made (name :: parent)
          · exact h.above _ hmade q hsuffix hq
          · rw [h.other _ hmade] at hlookup
            have hbelow := htree.below_none hq.2 hq.1 hsuffix
            rw [hlookup] at hbelow
            cases hbelow
        refine .inl ⟨fs', rfl, h.congr fun q => ?_, fun q hq hsuffix hnot =>
          absurd (hthere q hq hsuffix) hnot⟩
        constructor
        · exact .inl
        · rintro (hq | ⟨hq, hsuffix⟩)
          · exact hq
          · exact hthere q hq hsuffix
    | none =>
      have hnot : ¬ made (name :: parent) := by
        intro hmade
        rw [h.directory _ hmade] at hlookup
        cases hlookup
      have hmissing : Missing fs (name :: parent) := ⟨hne, by rw [← h.other _ hnot]; exact hlookup⟩
      have hfree' : Unobstructed fs parent := fun above hsuffix =>
        hfree above (hsuffix.trans (List.suffix_cons name parent))
      dsimp only
      rcases ih hfree' with ⟨fs'', heq, hmade, hfails⟩ |
        ⟨fs'', stop, kind, heq, hstop, hsuffix, hnot', hfails, hmade⟩
      · rw [heq]
        dsimp only
        by_cases hfail : fails (name :: parent) = true
        · rw [if_pos hfail]
          refine .inr ⟨fs'', name :: parent, .other, rfl, hmissing, List.suffix_refl _, hnot, hfail,
            hmade.congr fun q => ?_⟩
          rw [suffix_parent_iff name]
        · rw [if_neg hfail]
          have hinsert := hmade.insert hmissing fun above hsuffix hne habove =>
            .inr ⟨habove, (suffix_parent_iff name).mp ⟨hsuffix, hne⟩⟩
          refine .inl ⟨_, rfl, hinsert.congr fun q => ?_, fun q hq hsuffix hnotq => ?_⟩
          · by_cases hsame : q = name :: parent
            · simp [hsame, hmissing]
            · rw [or_assoc]
              simp only [hsame, or_false]
              rw [← suffix_parent_iff name]
              simp [hsame]
          · by_cases hsame : q = name :: parent
            · rw [hsame]
              exact Bool.eq_false_iff.mpr hfail
            · exact hfails q hq ((suffix_parent_iff name).mp ⟨hsuffix, hsame⟩) hnotq
      · rw [heq]
        dsimp only
        exact .inr ⟨fs'', stop, kind, rfl, hstop, hsuffix.trans (List.suffix_cons name parent), hnot',
          hfails, hmade⟩

/-- What was a directory is one. -/
theorem MadeDirectories.isDirectory (h : MadeDirectories fs made fs') (hpath : fs.isDirectory path) :
    fs'.isDirectory path := by
  rcases isDirectory_iff.mp hpath with rfl | hdirectory
  · rfl
  · have hnot : ¬ made path := by
      intro hmade
      rw [(h.missing path hmade).2] at hdirectory
      cases hdirectory
    rw [isDirectory_iff, h.other path hnot]
    exact .inr hdirectory

/-- What is at a path that no file obstructs is a directory when the missing ones have been made. -/
theorem MadeDirectories.isDirectory_of_unobstructed (h : MadeDirectories fs made fs')
    (hfree : Unobstructed fs path) (hmade : Missing fs path → made path) : fs'.isDirectory path := by
  by_cases hnil : path = []
  · rw [hnil]
    rfl
  by_cases hmissing : fs.lookup path = Option.none
  · exact isDirectory_iff.mpr (.inr (h.directory path (hmade ⟨hnil, hmissing⟩)))
  · refine h.isDirectory (isDirectory_iff.mpr (.inr ?_))
    obtain ⟨node, hnode⟩ := Option.ne_none_iff_exists'.mp hmissing
    cases node with
    | directory => exact hnode
    | file content =>
      exact absurd (isFile_iff.mpr ⟨hnil, content, hnode⟩) (hfree _ (List.suffix_refl _))

/-- Making directories where no file is in the way keeps a tree. -/
theorem MadeDirectories.tree (h : MadeDirectories fs made fs') (htree : fs.Tree)
    (hfree : ∀ path, made path → Unobstructed fs path) : fs'.Tree where
  parent path hne hlookup := by
    by_cases hmade : made path
    · refine h.isDirectory_of_unobstructed (fun above habove => ?_) fun hmissing =>
        h.above path hmade _ (List.tail_suffix path) hmissing
      exact hfree path hmade above (habove.trans (List.tail_suffix path))
    · rw [h.other path hmade] at hlookup
      exact h.isDirectory (htree.parent path hne hlookup)

/-- A tree with a file more in a directory is a tree. -/
theorem tree_insert_file (htree : fs.Tree) (hparent : fs.isDirectory path.tail)
    (hpath : ¬ fs.isDirectory path) (content : String) :
    FileSystem.Tree (fs.insert path (.file content)) where
  parent q hne hlookup := by
    have hkeep : ∀ q, fs.isDirectory q → isDirectory (fs.insert path (.file content)) q := by
      intro q hq
      have hdiffer : q ≠ path := by
        rintro rfl
        exact hpath hq
      rcases isDirectory_iff.mp hq with rfl | hdirectory
      · rfl
      · rw [isDirectory_iff, Finmap.lookup_insert_of_ne _ hdiffer]
        exact .inr hdirectory
    by_cases hsame : q = path
    · rw [hsame]
      exact hkeep _ hparent
    · rw [Finmap.lookup_insert_of_ne _ hsame] at hlookup
      exact hkeep _ (htree.parent q hne hlookup)

/-- An empty directory that was made is removed. -/
theorem MadeDirectories.erase (htree : fs.Tree) (h : MadeDirectories fs made fs')
    (hpath : made path) (hlast : ∀ q, made q → path <:+ q → path = q) :
    fs'.removeDir path = .ok (fs'.erase path) ∧
    MadeDirectories fs (fun q => made q ∧ q ≠ path) (fs'.erase path) := by
  have hmissing := h.missing path hpath
  constructor
  · have hempty : fs'.hasEntries path = false := by
      rw [Bool.eq_false_iff]
      intro hentries
      obtain ⟨entry, hne, hentry, htail⟩ := hasEntries_iff.mp hentries
      have hbelow : path <:+ entry := htail ▸ List.tail_suffix entry
      by_cases hmade : made entry
      · rw [hlast entry hmade hbelow] at htail
        have hlength := congrArg List.length htail
        rw [List.length_tail] at hlength
        have hpos := List.length_pos_iff.mpr hne
        omega
      · rw [h.other entry hmade] at hentry
        exact hentry (htree.below_none hmissing.2 hmissing.1 hbelow)
    unfold removeDir
    rw [h.directory path hpath]
    dsimp only
    rw [hempty]
    rfl
  · constructor
    · rintro q ⟨hq, hne⟩
      rw [Finmap.lookup_erase_ne hne]
      exact h.directory q hq
    · intro q hq
      by_cases hsame : q = path
      · rw [hsame, Finmap.lookup_erase, hmissing.2]
      · rw [Finmap.lookup_erase_ne hsame]
        exact h.other q fun hmade => hq ⟨hmade, hsame⟩
    · exact fun q hq => h.missing q hq.1
    · rintro q ⟨hq, hne⟩ above hsuffix habove
      refine ⟨h.above q hq above hsuffix habove, ?_⟩
      rintro rfl
      exact hne (hlast q hq hsuffix).symm

/-! ### Looking for directories -/

/-- Looking for what is not obstructed finds out whether it is there. -/
theorem tryExists_eq (hfree : ∀ above, above <:+ path → above ≠ path → ¬ fs.isFile above) :
    fs.tryExists path = .ok (decide (path = [] ∨ fs.lookup path ≠ none)) := by
  unfold tryExists metadata
  by_cases hnil : path = []
  · simp [hnil]
  · rw [if_neg hnil]
    cases hlookup : fs.lookup path with
    | some node => simp
    | none =>
      have hany : path.tails.any fs.isFile = false := by
        rw [List.any_eq_false]
        intro above habove
        rw [List.mem_tails] at habove
        by_cases hsame : above = path
        · rw [hsame, isFile_iff, hlookup]
          rintro ⟨-, content, h⟩
          cases h
        · exact hfree above habove hsame
      simp [hany, hnil]

end GraphLoom.Foundation

/-! ## Walking through directories -/

namespace GraphLoom.Foundation.FileSystem

/-- What lies in a directory. -/
def entries (fs : FileSystem) (directory : Path) : List Path :=
  (fs.keys.filter fun path => path ≠ [] ∧ path.tail = directory).sort (· ≤ ·)

/-- What lies in a directory and in those below it. -/
def below (fs : FileSystem) (directory : Path) : List Path :=
  (fs.keys.filter fun path => directory <:+ path ∧ path ≠ directory).sort (· ≤ ·)

variable {fs : FileSystem} {directory path : Path}

theorem mem_entries :
    path ∈ fs.entries directory ↔ fs.lookup path ≠ none ∧ path ≠ [] ∧ path.tail = directory := by
  simp [entries, Finmap.mem_keys, Finmap.mem_iff, Option.ne_none_iff_exists']

theorem mem_below :
    path ∈ fs.below directory ↔
      fs.lookup path ≠ none ∧ directory <:+ path ∧ path ≠ directory := by
  simp [below, Finmap.mem_keys, Finmap.mem_iff, Option.ne_none_iff_exists']

theorem nodup_entries : (fs.entries directory).Nodup := Finset.sort_nodup ..

theorem nodup_below : (fs.below directory).Nodup := Finset.sort_nodup ..

theorem length_of_mem_entries (h : path ∈ fs.entries directory) :
    path.length = directory.length + 1 := by
  obtain ⟨-, hne, rfl⟩ := mem_entries.mp h
  cases path with
  | nil => exact absurd rfl hne
  | cons name parent => rfl

theorem suffix_of_mem_entries (h : path ∈ fs.entries directory) : directory <:+ path := by
  obtain ⟨-, -, rfl⟩ := mem_entries.mp h
  exact List.tail_suffix path

theorem length_of_mem_below (h : path ∈ fs.below directory) : directory.length < path.length := by
  obtain ⟨-, hsuffix, hne⟩ := mem_below.mp h
  by_contra hlt
  exact hne (hsuffix.eq_of_length_le (by omega)).symm

/-- What is below a directory is in it, or there is a directory in it that it is below. -/
theorem mem_below_iff (h : fs.Tree) :
    path ∈ fs.below directory ↔ path ∈ fs.entries directory ∨
      ∃ entry ∈ fs.entries directory, fs.isDirectory entry ∧ path ∈ fs.below entry := by
  constructor
  · intro hpath
    obtain ⟨hlookup, hsuffix, hne⟩ := mem_below.mp hpath
    obtain ⟨front, rfl⟩ := hsuffix
    rcases List.eq_nil_or_concat front with rfl | ⟨front, name, rfl⟩
    · exact absurd rfl hne
    rw [List.concat_eq_append] at hlookup hne ⊢
    by_cases hnil : front = []
    · subst hnil
      exact .inl (mem_entries.mpr ⟨hlookup, by simp, by simp⟩)
    · have hentry : name :: directory <:+ front ++ [name] ++ directory := ⟨front, by simp⟩
      have hne' : name :: directory ≠ front ++ [name] ++ directory := by
        intro heq
        have hlength := congrArg List.length heq
        have hpos := List.length_pos_iff.mpr hnil
        simp only [List.length_cons, List.length_append, List.length_nil] at hlength
        omega
      have hdirectory := h.above hlookup hentry hne'
      have hthere : fs.lookup (name :: directory) ≠ none := by
        rcases isDirectory_iff.mp hdirectory with hnil | hdirectory
        · cases hnil
        · rw [hdirectory]
          simp
      exact .inr ⟨_, mem_entries.mpr ⟨hthere, by simp, rfl⟩, hdirectory,
        mem_below.mpr ⟨hlookup, hentry, hne'.symm⟩⟩
  · rintro (hentry | ⟨entry, hentry, -, hbelow⟩)
    · have hlength := length_of_mem_entries hentry
      refine mem_below.mpr ⟨(mem_entries.mp hentry).1, suffix_of_mem_entries hentry, ?_⟩
      rintro rfl
      omega
    · obtain ⟨hlookup, hsuffix, -⟩ := mem_below.mp hbelow
      have hlength := length_of_mem_entries hentry
      have hlength' := length_of_mem_below hbelow
      refine mem_below.mpr ⟨hlookup, (suffix_of_mem_entries hentry).trans hsuffix, ?_⟩
      rintro rfl
      omega

/-- What lies below a directory, by the directory in it that it is below. -/
theorem below_perm (h : fs.Tree) : (fs.below directory).Perm
    (fs.entries directory ++ ((fs.entries directory).filter fs.isDirectory).flatMap fs.below) := by
  rw [List.perm_ext_iff_of_nodup nodup_below]
  · intro path
    rw [mem_below_iff h, List.mem_append, List.mem_flatMap]
    simp only [List.mem_filter, and_assoc]
  · rw [List.nodup_append]
    refine ⟨nodup_entries, ?_, ?_⟩
    · rw [List.nodup_flatMap]
      refine ⟨fun _ _ => nodup_below, (nodup_entries.filter _).imp_of_mem ?_⟩
      intro left right hleft hright hne
      rw [Function.onFun, List.disjoint_left]
      intro path hpath hpath'
      have hleft := length_of_mem_entries (List.mem_filter.mp hleft).1
      have hright := length_of_mem_entries (List.mem_filter.mp hright).1
      have hsuffix := List.suffix_of_suffix_length_le (mem_below.mp hpath).2.1
        (mem_below.mp hpath').2.1 (by omega)
      exact hne (hsuffix.eq_of_length (by omega))
    · intro path hpath other hother
      rintro rfl
      obtain ⟨entry, hentry, hbelow⟩ := List.mem_flatMap.mp hother
      have hpath := length_of_mem_entries hpath
      have hentry := length_of_mem_entries (List.mem_filter.mp hentry).1
      have hbelow := length_of_mem_below hbelow
      omega

/-! ### The walk -/

/-- The paths that a walk meets.  In each turn it takes a directory from the stack, meets what is in
it and puts the directories of it on the stack. -/
def walk (fs : FileSystem) : ℕ → List Path → List Path → List Path
  | 0, _, met => met
  | _ + 1, [], met => met
  | turns + 1, current :: stack, met =>
    walk fs turns (((fs.entries current).filter fs.isDirectory).reverse ++ stack)
      (met ++ fs.entries current)

/-- The turns that a walk takes for the directories on its stack. -/
def walkTurns (fs : FileSystem) (stack : List Path) : ℕ :=
  (stack.map fun directory => 1 + (fs.below directory).countP fs.isDirectory).sum

theorem walkTurns_cons (h : fs.Tree) (stack : List Path) :
    fs.walkTurns (directory :: stack) =
      1 + fs.walkTurns (((fs.entries directory).filter fs.isDirectory).reverse ++ stack) := by
  have hbelow : (fs.below directory).countP fs.isDirectory =
      fs.walkTurns ((fs.entries directory).filter fs.isDirectory) := by
    rw [(below_perm h).countP_eq, List.countP_append, List.countP_flatMap, walkTurns,
      List.sum_map_add, List.countP_eq_length_filter, List.map_const', List.sum_replicate]
    simp [Function.comp_def]
  rw [walkTurns, List.map_cons, List.sum_cons, hbelow]
  unfold walkTurns
  rw [List.map_append, List.sum_append, List.map_reverse, List.sum_reverse]
  omega

/-- A walk with enough turns meets everything below the directories of its stack once. -/
theorem walk_perm (h : fs.Tree) {turns : ℕ} {stack met : List Path}
    (hturns : fs.walkTurns stack ≤ turns) :
    (fs.walk turns stack met).Perm (met ++ stack.flatMap fs.below) := by
  induction turns generalizing stack met with
  | zero =>
    cases stack with
    | nil => simp [walk]
    | cons directory stack =>
      rw [walkTurns_cons h] at hturns
      omega
  | succ turns ih =>
    cases stack with
    | nil => simp [walk]
    | cons directory stack =>
      rw [walkTurns_cons h] at hturns
      refine (ih (by omega)).trans ?_
      rw [List.append_assoc, List.flatMap_cons, List.flatMap_append]
      refine List.Perm.append_left _ ?_
      rw [← List.append_assoc]
      refine List.Perm.append_right _ (List.Perm.trans ?_ (below_perm h).symm)
      exact List.Perm.append_left _ ((List.reverse_perm _).flatMap_right _)

end GraphLoom.Foundation.FileSystem
