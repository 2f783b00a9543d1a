import Mathlib.Data.List.Basic

/-!
# Paths as text

A path is a text with slashes between the names.  Its components are the names, without empty ones
and without dots other than a leading one.
-/

namespace GraphLoom.Foundation

/-- The components of a Unix path. -/
inductive Component where
  | rootDir
  | curDir
  | parentDir
  | normal (name : String)
deriving DecidableEq, Repr

/-- What stands between the slashes. -/
def pieces (path : String) : List String :=
  (path.toList.splitOn '/').map String.ofList

def Component.ofPiece (piece : String) : Option Component :=
  if piece = "" ∨ piece = "." then none
  else if piece = ".." then some .parentDir
  else some (.normal piece)

def isAbsolute (path : String) : Bool := path.toList.head? = some '/'

/-- `Path::components`.  A dot counts only in front of a relative path. -/
def components (path : String) : List Component :=
  (if isAbsolute path then [.rootDir]
    else if (pieces path).head? = some "." then [.curDir] else []) ++
    (pieces path).filterMap Component.ofPiece

/-- A name has something in it and no slash. -/
def IsName (name : String) : Prop := name ≠ "" ∧ '/' ∉ name.toList

instance (name : String) : Decidable (IsName name) := inferInstanceAs (Decidable (_ ∧ _))

/-- What a file can be named. -/
def FileName (name : String) : Prop := IsName name ∧ name ≠ "." ∧ name ≠ ".."

instance (name : String) : Decidable (FileName name) := inferInstanceAs (Decidable (_ ∧ _))

variable {path : String} {names names' : List String}

/-- A piece has no slash in it. -/
theorem notMem_of_mem_pieces {piece : String} (h : piece ∈ pieces path) : '/' ∉ piece.toList := by
  obtain ⟨text, htext, rfl⟩ := List.mem_map.mp h
  rw [String.toList_ofList]
  clear h
  generalize path.toList = chars at htext
  induction chars generalizing text with
  | nil =>
    rw [List.splitOn_nil, List.mem_singleton] at htext
    rw [htext]
    exact List.not_mem_nil
  | cons c chars ih =>
    rw [List.splitOn_eq_splitOnP, List.splitOnP_cons_eq_if_modifyHead,
      ← List.splitOn_eq_splitOnP] at htext
    split at htext
    · rcases List.mem_cons.mp htext with rfl | htext
      · exact List.not_mem_nil
      · exact ih text htext
    · rename_i hc
      obtain ⟨first, others, hsplit⟩ := List.exists_cons_of_ne_nil (List.splitOn_ne_nil '/' chars)
      rw [hsplit, List.modifyHead_cons] at htext
      rcases List.mem_cons.mp htext with rfl | htext
      · have hfirst := ih first (by rw [hsplit]; exact List.mem_cons_self ..)
        rintro (_ | ⟨_, hmem⟩)
        · exact hc rfl
        · exact hfirst hmem
      · exact ih text (by rw [hsplit]; exact List.mem_cons_of_mem _ htext)

/-- A relative path does not start with an empty piece. -/
theorem head_pieces_ne_empty (hne : path ≠ "") (hrelative : ¬ isAbsolute path) :
    (pieces path).head? ≠ some "" := by
  cases hchars : path.toList with
  | nil => exact absurd (String.toList_inj.mp (by rw [hchars]; rfl)) hne
  | cons c rest =>
    have hslash : c ≠ '/' := by
      rintro rfl
      exact hrelative (by simp [isAbsolute, hchars])
    obtain ⟨first, others, hrest⟩ :=
      List.exists_cons_of_ne_nil (List.splitOn_ne_nil '/' rest)
    have hsplit : (c :: rest).splitOn '/' = (c :: first) :: others := by
      rw [List.splitOn_eq_splitOnP] at hrest ⊢
      rw [List.splitOnP_cons_eq_if_modifyHead, if_neg (by simpa using hslash), hrest]
      rfl
    rw [pieces, hchars, hsplit]
    simp only [List.map_cons, List.head?_cons, ne_eq, Option.some.injEq]
    intro hempty
    rw [← String.toList_inj, String.toList_ofList] at hempty
    cases hempty

/-- A path with something in it has components. -/
theorem components_ne_nil (hne : path ≠ "") : components path ≠ [] := by
  unfold components
  by_cases habsolute : isAbsolute path
  · rw [if_pos habsolute]
    exact List.cons_ne_nil _ _
  rw [if_neg habsolute]
  intro hnil
  obtain ⟨hdot, hpieces⟩ := List.append_eq_nil_iff.mp hnil
  have hhead := head_pieces_ne_empty hne habsolute
  have hsome : pieces path ≠ [] := by simp [pieces]
  obtain ⟨first, others, hfirst⟩ := List.exists_cons_of_ne_nil hsome
  rw [hfirst, List.head?_cons] at hhead hdot
  have hnot : first ≠ "." := by
    rintro rfl
    cases hdot
  have hsome : Component.ofPiece first ≠ none := by
    unfold Component.ofPiece
    rw [if_neg]
    · split <;> simp
    · rintro (rfl | rfl)
      · exact hhead rfl
      · exact hnot rfl
  obtain ⟨component, hcomponent⟩ := Option.ne_none_iff_exists'.mp hsome
  rw [hfirst, List.filterMap_cons, hcomponent] at hpieces
  cases hpieces

/-- The pieces of joined names are the names. -/
theorem pieces_intercalate (hnames : ∀ name ∈ names, '/' ∉ name.toList) (h : names ≠ []) :
    pieces ("/".intercalate names) = names := by
  unfold pieces
  rw [String.toList_intercalate, show "/".toList = ['/'] by decide, List.splitOn_intercalate]
  · simp [Function.comp_def]
  · intro text htext
    obtain ⟨name, hname, rfl⟩ := List.mem_map.mp htext
    exact hnames name hname
  · simpa using h

/-- Names that are no dots are the components of their path. -/
theorem components_intercalate
    (hnames : ∀ name ∈ names, FileName name) :
    components ("/".intercalate names) = names.map .normal := by
  cases names with
  | nil => decide
  | cons name others =>
    have hslash : ∀ part ∈ name :: others, '/' ∉ part.toList := fun part hpart =>
      (hnames part hpart).1.2
    have hhead := hnames name (List.mem_cons_self ..)
    have hrelative : ¬ isAbsolute ("/".intercalate (name :: others)) := by
      have hne : name.toList ≠ [] := fun hnil =>
        hhead.1.1 (String.toList_inj.mp (by rw [hnil]; rfl))
      obtain ⟨c, rest, hname⟩ := List.exists_cons_of_ne_nil hne
      have hc : c ≠ '/' := by
        rintro rfl
        exact hhead.1.2 (by simp [hname])
      unfold isAbsolute
      cases others with
      | nil => simpa [hname] using hc
      | cons _ _ => simpa [hname] using hc
    unfold components
    rw [if_neg hrelative, pieces_intercalate hslash (List.cons_ne_nil _ _),
      if_neg (by simpa using hhead.2.1), List.nil_append]
    rw [List.filterMap_eq_map_iff_forall_eq_some.mpr]
    intro part hpart
    obtain ⟨⟨hempty, -⟩, hdot, hparent⟩ := hnames part hpart
    unfold Component.ofPiece
    rw [if_neg (by simp [hempty, hdot]), if_neg hparent]

/-- A path is its pieces, joined. -/
theorem intercalate_pieces (path : String) : "/".intercalate (pieces path) = path := by
  rw [← String.toList_inj, String.toList_intercalate, pieces, List.map_map]
  rw [show String.toList ∘ String.ofList = id from funext fun text => String.toList_ofList,
    List.map_id, show "/".toList = ['/'] by decide, List.intercalate_splitOn]

/-- The pieces before and after a slash. -/
theorem pieces_append (front back : String) :
    pieces (front ++ "/" ++ back) = pieces front ++ pieces back := by
  unfold pieces
  rw [String.toList_append, String.toList_append, show "/".toList = ['/'] by decide,
    List.append_assoc, List.singleton_append, List.splitOn_eq_splitOnP, List.splitOn_eq_splitOnP,
    List.splitOn_eq_splitOnP, List.splitOnP_append_cons _ _ (by simp), List.map_append]

/-- The components of a path behind the root. -/
theorem components_slash_intercalate (hnames : ∀ name ∈ names, FileName name) (h : names ≠ []) :
    components ("/" ++ "/".intercalate names) = .rootDir :: names.map .normal := by
  have habsolute : isAbsolute ("/" ++ "/".intercalate names) := by simp [isAbsolute]
  have hpieces : pieces ("/" ++ "/".intercalate names) = "" :: names := by
    have happend := pieces_append "" ("/".intercalate names)
    rw [String.empty_append, pieces_intercalate (fun name hname => (hnames name hname).1.2) h] at happend
    rw [happend]
    rfl
  unfold components
  rw [if_pos habsolute, hpieces, List.filterMap_cons]
  have hempty : Component.ofPiece "" = none := rfl
  rw [hempty, List.filterMap_eq_map_iff_forall_eq_some.mpr]
  · rfl
  · intro name hname
    obtain ⟨⟨hne, -⟩, hdot, hparent⟩ := hnames name hname
    unfold Component.ofPiece
    rw [if_neg (by simp [hne, hdot]), if_neg hparent]

theorem intercalate_ne_empty (hnames : ∀ name ∈ names, IsName name) (h : names ≠ []) :
    "/".intercalate names ≠ "" := by
  intro hempty
  have hpieces := pieces_intercalate (fun name hname => (hnames name hname).2) h
  rw [hempty, show pieces "" = [""] by decide] at hpieces
  exact (hnames "" (by simp [← hpieces])).1 rfl

/-- Joined names can be told apart. -/
theorem intercalate_injective (hnames : ∀ name ∈ names, IsName name)
    (hnames' : ∀ name ∈ names', IsName name) (h : "/".intercalate names = "/".intercalate names') :
    names = names' := by
  by_cases hnil : names = []
  · by_contra hne
    rw [hnil, String.intercalate_nil] at h
    exact intercalate_ne_empty hnames' (fun hnil' => hne (by rw [hnil, hnil'])) h.symm
  by_cases hnil' : names' = []
  · rw [hnil', String.intercalate_nil] at h
    exact absurd h (intercalate_ne_empty hnames hnil)
  rw [← pieces_intercalate (fun name hname => (hnames name hname).2) hnil, h,
    pieces_intercalate (fun name hname => (hnames' name hname).2) hnil']

end GraphLoom.Foundation
