import GraphLoom.Foundation.Directories

/-!
# What an operation touches

An operation on a file system touches some paths when its answer and what it leaves there depend
only on them, and nothing else changes (`ReadsOnly`, `WritesOnly`).
-/

namespace GraphLoom.Foundation

variable {α β : Type} {touched : Path → Prop} {fs fs' : FileSystem} {path : Path}

/-- Two file systems are the same at the paths. -/
def Agree (touched : Path → Prop) (fs fs' : FileSystem) : Prop :=
  ∀ q, touched q → fs.lookup q = fs'.lookup q

section

variable (h : Agree touched fs fs')
include h

theorem Agree.symm : Agree touched fs' fs := fun q hq => (h q hq).symm

theorem Agree.isDirectory (hpath : touched path) : fs.isDirectory path = fs'.isDirectory path := by
  rw [FileSystem.isDirectory, FileSystem.isDirectory, h path hpath]

theorem Agree.isFile (hpath : touched path) : fs.isFile path = fs'.isFile path := by
  rw [FileSystem.isFile, FileSystem.isFile, h path hpath]

section

variable (hpath : ∀ q, q <:+ path → touched q)
include hpath

/-- The node at a path depends on what is there and above. -/
theorem Agree.metadata : fs.metadata path = fs'.metadata path := by
  have hany : path.tails.any fs.isFile = path.tails.any fs'.isFile := by
    rw [Bool.eq_iff_iff, List.any_eq_true, List.any_eq_true]
    refine exists_congr fun q => and_congr_right fun hq => ?_
    rw [h.isFile (hpath q ((List.mem_tails _ _).mp hq))]
  unfold FileSystem.metadata
  rw [h path (hpath path (List.suffix_refl _)), hany]

theorem Agree.tryExists : fs.tryExists path = fs'.tryExists path := by
  rw [FileSystem.tryExists, FileSystem.tryExists, h.metadata hpath]

theorem Agree.unobstructed (hfree : Unobstructed fs path) : Unobstructed fs' path := by
  intro above habove
  rw [← h.isFile (hpath above habove)]
  exact hfree above habove

end

/-- What lies below a directory depends on what is there. -/
theorem Agree.below (hpath : ∀ q, path <:+ q → touched q) : fs.below path = fs'.below path := by
  unfold FileSystem.below
  congr 1
  ext q
  rw [Finset.mem_filter, Finset.mem_filter, Finmap.mem_keys, Finmap.mem_keys]
  refine and_congr_left fun hq => ?_
  rw [Finmap.mem_iff, Finmap.mem_iff, h q (hpath q hq.1)]

theorem Agree.entries (hpath : ∀ q, path <:+ q → touched q) :
    fs.entries path = fs'.entries path := by
  unfold FileSystem.entries
  congr 1
  ext q
  rw [Finset.mem_filter, Finset.mem_filter, Finmap.mem_keys, Finmap.mem_keys]
  refine and_congr_left fun hq => ?_
  rw [Finmap.mem_iff, Finmap.mem_iff, h q (hpath q (hq.2 ▸ List.tail_suffix q))]

/-! ### Writing -/

theorem Agree.insert (path : Path) (node : Node) :
    Agree touched (fs.insert path node) (fs'.insert path node) := by
  intro q hq
  by_cases hsame : q = path
  · rw [hsame, Finmap.lookup_insert, Finmap.lookup_insert]
  · rw [Finmap.lookup_insert_of_ne _ hsame, Finmap.lookup_insert_of_ne _ hsame, h q hq]

theorem Agree.erase (path : Path) : Agree touched (fs.erase path) (fs'.erase path) := by
  intro q hq
  by_cases hsame : q = path
  · rw [hsame, Finmap.lookup_erase, Finmap.lookup_erase]
  · rw [Finmap.lookup_erase_ne hsame, Finmap.lookup_erase_ne hsame, h q hq]

/-- Making directories depends on what is at the path and above. -/
theorem Agree.createDirAll (fails : Path → Bool) (hpath : ∀ q, q <:+ path → touched q) :
    (FileSystem.createDirAll fails path fs).1 = (FileSystem.createDirAll fails path fs').1 ∧
      Agree touched (FileSystem.createDirAll fails path fs).2
        (FileSystem.createDirAll fails path fs').2 := by
  induction path with
  | nil => exact ⟨rfl, h⟩
  | cons name parent ih =>
    obtain ⟨hresult, hagree⟩ := ih fun q hq => hpath q (hq.trans (List.suffix_cons name parent))
    unfold FileSystem.createDirAll
    rw [h _ (hpath _ (List.suffix_refl _))]
    rcases fs'.lookup (name :: parent) with _ | node
    · dsimp only
      rcases hcreate : FileSystem.createDirAll fails parent fs with ⟨result, made⟩
      rcases hcreate' : FileSystem.createDirAll fails parent fs' with ⟨result', made'⟩
      rw [hcreate, hcreate'] at hresult hagree
      obtain rfl : result = result' := hresult
      cases result with
      | error kind => exact ⟨rfl, hagree⟩
      | ok _ =>
        dsimp only
        split
        · exact ⟨rfl, hagree⟩
        · exact ⟨rfl, hagree.insert _ _⟩
    · cases node with
      | file content => exact ⟨rfl, h⟩
      | directory => exact ⟨rfl, h⟩

end

end GraphLoom.Foundation
