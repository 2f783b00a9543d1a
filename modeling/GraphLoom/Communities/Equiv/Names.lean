import GraphLoom.Communities.Equiv.Create
import GraphLoom.Communities.Equiv.Edges
import GraphLoom.Graph.Equiv.Merge
import GraphLoom.Graph.TextUnit
import GraphLoom.Llm.Equiv.WhiteSpace

/-!
# The names of the nodes in the clusters

The parser decodes a name after the change to upper case, and the clustering decodes it once more
and changes it to upper case then.  A title is left as it is exactly when its field is settled
(`normalizeNodeName_cleanStr_iff`): nothing is left in it to be decoded, to be trimmed or to be
changed to upper case.
-/

namespace GraphLoom.Communities

open Foundation Llm GraphLoom.Graph

variable {ω : Type}

/-! ### Upper case -/

/-- The characters stay what they are in upper case. -/
def IsUpper (upperChar : Char → List Char) (cs : List Char) : Prop := ∀ c ∈ cs, upperChar c = [c]

/-- What is documented of the functions of both modules: they decode with one function and have one
case mapping, of one character after the other, which maps no character twice; a reference is longer
than what it stands for, also in upper case; and the algorithm clusters nodes of its edges. -/
structure NameTools (tools : GraphTools ω) (clusterTools : ClusterTools ω)
    (upperChar : Char → List Char) : Prop where
  same_decode : clusterTools.decodeHtmlEntities = tools.decodeHtmlEntities
  same_uppercase : clusterTools.toUppercase = tools.toUppercase
  toUppercase : ∀ text, tools.toUppercase text = String.ofList (text.toList.flatMap upperChar)
  upper_upper : ∀ c, IsUpper upperChar (upperChar c)
  decode_shorter : ∀ text, IsUpper upperChar text.toList → tools.decodeHtmlEntities text ≠ text →
    ((tools.decodeHtmlEntities text).toList.flatMap upperChar).length < text.toList.length
  nodes : ∀ edges size seed entries,
    clusterTools.hierarchicalLeiden edges size seed = .ok entries →
    ∀ entry ∈ entries, ∃ edge ∈ edges, entry.node = edge.1 ∨ entry.node = edge.2.1

theorem IsUpper.flatMap {upperChar : Char → List Char} {cs : List Char}
    (h : IsUpper upperChar cs) : cs.flatMap upperChar = cs := by
  induction cs with
  | nil => rfl
  | cons c cs ih =>
    have hrest : IsUpper upperChar cs := fun d hd => h d (List.mem_cons_of_mem _ hd)
    rw [List.flatMap_cons, h c (List.mem_cons_self ..), ih hrest]
    rfl

theorem isUpper_flatMap {upperChar : Char → List Char} (h : ∀ c, IsUpper upperChar (upperChar c))
    (cs : List Char) : IsUpper upperChar (cs.flatMap upperChar) := by
  intro d hd
  obtain ⟨c, -, hd⟩ := List.mem_flatMap.mp hd
  exact h c d hd

theorem trimChars_sublist (cs : List Char) : (trimChars cs).Sublist cs := by
  obtain ⟨before, after, hcs, -, -⟩ := exists_pad cs
  have hcore : (trimChars cs).Sublist (before ++ (trimChars cs ++ after)) :=
    (List.sublist_append_left ..).trans (List.sublist_append_right ..)
  rwa [← hcs] at hcore

theorem trimChars_of_isTrimmed {cs : List Char} (h : IsTrimmed cs) : trimChars cs = cs := by
  have hpad := trimChars_pad Blank.nil h Blank.nil
  rwa [List.nil_append, List.append_nil] at hpad

/-! ### Titles -/

/-- What is left of a title field, in upper case, decoded and without control characters. -/
def settledChars (tools : GraphTools ω) (field : String) : List Char :=
  (tools.decodeHtmlEntities (trim (tools.toUppercase field))).toList.filter fun c => !isControl c

/-- No reference, no lower-case letter and no blank at an end is left of a title field. -/
structure Settled (tools : GraphTools ω) (upperChar : Char → List Char) (field : String) :
    Prop where
  references : tools.decodeHtmlEntities (String.ofList (settledChars tools field)) =
    String.ofList (settledChars tools field)
  letters : IsUpper upperChar (settledChars tools field)
  blanks : IsTrimmed (settledChars tools field)

section Names

variable {tools : GraphTools ω} {clusterTools : ClusterTools ω} {upperChar : Char → List Char}
  (h : NameTools tools clusterTools upperChar)

include h

theorem NameTools.normalizeNodeName_eq (name : String) :
    normalizeNodeName clusterTools name = String.ofList
      ((trimChars (tools.decodeHtmlEntities name).toList).flatMap upperChar) := by
  rw [normalizeNodeName, h.same_uppercase, h.same_decode, h.toUppercase, trim_eq,
    String.toList_ofList]

/-- A name is left as it is when there is nothing to do for it. -/
theorem NameTools.normalizeNodeName_eq_self_iff (cs : List Char) :
    normalizeNodeName clusterTools (String.ofList cs) = String.ofList cs ↔
      tools.decodeHtmlEntities (String.ofList cs) = String.ofList cs ∧ IsUpper upperChar cs ∧
        IsTrimmed cs := by
  rw [h.normalizeNodeName_eq]
  constructor
  · intro heq
    have hcs : (trimChars (tools.decodeHtmlEntities (String.ofList cs)).toList).flatMap upperChar =
        cs := String.ofList_injective heq
    have hupper : IsUpper upperChar cs := by
      rw [← hcs]
      exact isUpper_flatMap h.upper_upper _
    have hdecode : tools.decodeHtmlEntities (String.ofList cs) = String.ofList cs := by
      by_contra hne
      -- a reference that is decoded would make the name shorter
      have hshorter := h.decode_shorter (String.ofList cs)
        (by rwa [String.toList_ofList]) hne
      have htrimmed := ((trimChars_sublist
        (tools.decodeHtmlEntities (String.ofList cs)).toList).flatMap upperChar).length_le
      rw [hcs] at htrimmed
      rw [String.toList_ofList] at hshorter
      omega
    refine ⟨hdecode, hupper, ?_⟩
    rw [hdecode, String.toList_ofList] at hcs
    have hcore : IsUpper upperChar (trimChars cs) := fun c hc =>
      hupper c ((trimChars_sublist cs).subset hc)
    rw [hcore.flatMap] at hcs
    rw [← hcs]
    exact isTrimmed_trimChars cs
  · rintro ⟨hdecode, hupper, htrimmed⟩
    rw [hdecode, String.toList_ofList, trimChars_of_isTrimmed htrimmed, hupper.flatMap]

/-- **A title is a node name exactly when its field is settled.** -/
theorem NameTools.normalizeNodeName_cleanStr_iff (field : String) :
    normalizeNodeName clusterTools (cleanStr tools (tools.toUppercase field)) =
      cleanStr tools (tools.toUppercase field) ↔ Settled tools upperChar field := by
  refine (h.normalizeNodeName_eq_self_iff (settledChars tools field)).trans ?_
  constructor
  · rintro ⟨hreferences, hletters, hblanks⟩
    exact ⟨hreferences, hletters, hblanks⟩
  · intro hsettled
    exact ⟨hsettled.references, hsettled.letters, hsettled.blanks⟩

end Names

/-- The title fields of a record. -/
def recordTitleFields (rawRecord : String) : List String :=
  let record := trimTupleRecord rawRecord
  if record.isEmpty ∨ record = completionDelimiter then []
  else
    match split tupleDelimiter record with
    | "\"relationship\"" :: source :: target :: _ :: _ :: _ => [source, target]
    | "\"entity\"" :: title :: _ :: _ :: _ => [title]
    | _ => []

/-- The title fields of a response. -/
def titleFields (result : String) : List String :=
  (split recordDelimiter result).flatMap recordTitleFields

/-- The titles of what a response is parsed as. -/
def titlesOf (extraction : GraphExtraction ω) : List String :=
  extraction.entities.map (·.title) ++
    extraction.relationships.flatMap fun relationship => [relationship.source, relationship.target]

def recordTitles : Llm.EntityRecord ⊕ Llm.RelationshipRecord ω → List String
  | .inl entity => [entity.title]
  | .inr relationship => [relationship.source, relationship.target]

theorem recordTitles_parseGraphTuple [One ω] (tools : GraphTools ω) (sourceId rawRecord : String) :
    (parseGraphTuple tools sourceId rawRecord).toList.flatMap recordTitles =
      (recordTitleFields rawRecord).map fun field => cleanStr tools (tools.toUppercase field) := by
  unfold parseGraphTuple recordTitleFields
  by_cases hempty : (trimTupleRecord rawRecord).isEmpty ∨
      trimTupleRecord rawRecord = completionDelimiter
  · rw [if_pos hempty, if_pos hempty]
    rfl
  · rw [if_neg hempty, if_neg hempty]
    split
    · next hsplit =>
      simp only [hsplit]
      rfl
    · next hsplit =>
      simp only [hsplit]
      rfl
    · next hentity hrelationship =>
      split
      · next hsplit => exact absurd hsplit (hrelationship _ _ _ _ _)
      · next hsplit => exact absurd hsplit (hentity _ _ _ _)
      · rfl

theorem mem_titlesOf_parseGraphTuples [One ω] {tools : GraphTools ω} {result sourceId : String}
    {title : String} : title ∈ titlesOf (parseGraphTuples tools result sourceId) ↔
      ∃ field ∈ titleFields result, title = cleanStr tools (tools.toUppercase field) := by
  have hrecords : title ∈ titlesOf (parseGraphTuples tools result sourceId) ↔
      ∃ rawRecord ∈ split recordDelimiter result,
        title ∈ (parseGraphTuple tools sourceId rawRecord).toList.flatMap recordTitles := by
    simp only [titlesOf, parseGraphTuples, List.mem_append, List.mem_map, List.mem_flatMap,
      List.mem_filterMap, Option.mem_toList]
    constructor
    · rintro (⟨entity, ⟨record, ⟨raw, hraw, hrecord⟩, hentity⟩, rfl⟩ |
        ⟨relationship, ⟨record, ⟨raw, hraw, hrecord⟩, hrelationship⟩, htitle⟩)
      · obtain rfl := Sum.getLeft?_eq_some_iff.mp hentity
        exact ⟨raw, hraw, _, hrecord, List.mem_singleton_self _⟩
      · obtain rfl := Sum.getRight?_eq_some_iff.mp hrelationship
        exact ⟨raw, hraw, _, hrecord, htitle⟩
    · rintro ⟨raw, hraw, record, hrecord, htitle⟩
      cases record with
      | inl entity =>
        have htitle := List.mem_singleton.mp htitle
        exact Or.inl ⟨entity, ⟨_, ⟨raw, hraw, hrecord⟩, rfl⟩, htitle.symm⟩
      | inr relationship =>
        exact Or.inr ⟨relationship, ⟨_, ⟨raw, hraw, hrecord⟩, rfl⟩, htitle⟩
  rw [hrecords]
  simp only [recordTitles_parseGraphTuple, List.mem_map, titleFields, List.mem_flatMap]
  constructor
  · rintro ⟨raw, hraw, field, hfield, rfl⟩
    exact ⟨field, ⟨raw, hraw, hfield⟩, rfl⟩
  · rintro ⟨field, ⟨raw, hraw, hfield⟩, rfl⟩
    exact ⟨raw, hraw, field, hfield, rfl⟩

/-! ### Members of the clusters -/

/-- An edge of the component has the normalised names of a relationship. -/
theorem exists_relationship_of_edge {clusterTools : ClusterTools ω}
    {relationships : List (ClusterRelationship ω)} {edge : Edge ω}
    (h : edge ∈ prepareClusterEdges clusterTools relationships true) :
    ∃ relationship ∈ relationships,
      sortedPair (normalizeNodeName clusterTools relationship.source)
        (normalizeNodeName clusterTools relationship.target) = (edge.1, edge.2.1) := by
  have hne : relationships ≠ [] := by
    rintro rfl
    exact absurd h (by simp [prepareClusterEdges, dedupeEdges, stableLcc, groupBy])
  obtain ⟨lcc, -, hedges⟩ := prepareClusterEdges_component clusterTools hne
  obtain ⟨-, hfind⟩ := (hedges.mem_iff edge.1 edge.2.1 edge.2.2).mp h
  obtain ⟨row, hfind, -⟩ := Option.map_eq_some_iff.mp hfind
  have hpair : row.normalPair clusterTools = (edge.1, edge.2.1) := by
    simpa using List.find?_some hfind
  exact ⟨row, mem_lastRows (List.mem_of_find?_eq_some hfind), hpair⟩

/-- The members of the clusters are the names of relationships when these are node names. -/
theorem NameTools.mem_titles {tools : GraphTools ω} {clusterTools : ClusterTools ω}
    {upperChar : Char → List Char} (h : NameTools tools clusterTools upperChar)
    {relationships : List (ClusterRelationship ω)} {maxClusterSize seed : ℕ}
    {clusters : List CommunityCluster}
    (hnames : ∀ relationship ∈ relationships,
      normalizeNodeName clusterTools relationship.source = relationship.source ∧
        normalizeNodeName clusterTools relationship.target = relationship.target)
    (hclusters : clusterGraph clusterTools relationships maxClusterSize true seed = .ok clusters)
    {cluster : CommunityCluster} (hcluster : cluster ∈ clusters) {member : String}
    (hmember : member ∈ cluster.titles) :
    ∃ relationship ∈ relationships, member = relationship.source ∨ member = relationship.target := by
  obtain ⟨entries, hentries, hcollects⟩ := clusterGraph_ok hclusters
  obtain ⟨entry, hentry, -, rfl⟩ := (hcollects.mem_titles_iff cluster hcluster member).mp hmember
  obtain ⟨edge, hedge, hnode⟩ := h.nodes _ _ _ _ hentries entry hentry
  obtain ⟨relationship, hrelationship, hpair⟩ := exists_relationship_of_edge hedge
  obtain ⟨hsource, htarget⟩ := hnames relationship hrelationship
  rw [hsource, htarget] at hpair
  refine ⟨relationship, hrelationship, ?_⟩
  rcases sortedPair_eq_or relationship.source relationship.target with heq | heq
  · rw [heq] at hpair
    obtain ⟨hfst, hsnd⟩ := Prod.mk.inj hpair
    rw [hfst, hsnd]
    exact hnode
  · rw [heq] at hpair
    obtain ⟨hfst, hsnd⟩ := Prod.mk.inj hpair
    rw [hfst, hsnd]
    exact hnode.symm

/-- A title that some entity has is found, with an entity of that title. -/
theorem lookup_titleToEntityId {entities : List EntityRow} {title : String}
    (h : title ∈ entities.map (·.title)) : ∃ entity ∈ entities, entity.title = title ∧
      (titleToEntityId entities).lookup title = some entity.id := by
  induction entities using List.reverseRecOn with
  | nil => cases h
  | append_singleton entities entity ih =>
    rw [titleToEntityId, List.foldl_append, List.foldl_cons, List.foldl_nil]
    by_cases htitle : title = entity.title
    · subst htitle
      exact ⟨entity, List.mem_append_right _ (List.mem_singleton_self _), rfl,
        AList.lookup_insert _⟩
    · rw [AList.lookup_insert_ne htitle]
      rw [List.map_append, List.mem_append] at h
      rcases h with h | h
      · obtain ⟨found, hfound, heq, hlookup⟩ := ih h
        exact ⟨found, List.mem_append_left _ hfound, heq, hlookup⟩
      · exact absurd (List.mem_singleton.mp h) htitle

/-! ### The graph of the responses -/

/-- The records of the responses of a run, which come with the text units they are for. -/
def recordsOf [One ω] (tools : GraphTools ω) (responses : List (String × String)) :
    List (RawRecords ω) :=
  responses.map fun response => rawRecords (parseGraphTuples tools response.1 response.2)

/-- The tables have the entities and the relationships of the graph. -/
structure TablesOf (graph : ExtractedGraph ω) (entities : List EntityRow)
    (relationships : List (RelationshipRow ω)) : Prop where
  titles : ∀ title, title ∈ entities.map (·.title) ↔ title ∈ graph.entities.map (·.title)
  ends : ∀ pair, pair ∈ (relationships.map fun row => (row.source, row.target)) ↔
    pair ∈ graph.relationships.map fun row => (row.source, row.target)

/-- The relationships as they are clustered. -/
def clusterInput (relationships : List (RelationshipRow ω)) : List (ClusterRelationship ω) :=
  relationships.map fun relationship =>
    { source := relationship.source
      target := relationship.target
      weight := relationship.weight }

/-- The titles are node names, and what is in a cluster of the largest component is in the tables
and joins back to its entity. -/
structure SpeaksNames [One ω] [Add ω] (tools : GraphTools ω) (clusterTools : ClusterTools ω)
    (responses : List (String × String)) : Prop where
  titles : ∀ response ∈ responses, ∀ title ∈ titlesOf (parseGraphTuples tools response.1 response.2),
    normalizeNodeName clusterTools title = title
  members : ∀ graph entities relationships,
    mergeExtracted (recordsOf tools responses) = .ok graph → TablesOf graph entities relationships →
    ∀ maxClusterSize seed clusters,
      clusterGraph clusterTools (clusterInput relationships) maxClusterSize true seed =
        .ok clusters →
      ∀ cluster ∈ clusters, ∀ member ∈ cluster.titles,
        (∃ relationship ∈ relationships,
          member = relationship.source ∨ member = relationship.target) ∧
        ∃ entity ∈ entities, entity.title = member ∧
          (titleToEntityId entities).lookup member = some entity.id

/-- The titles of the merged graph are titles of the responses. -/
theorem exists_title_of_graph [One ω] [Add ω] {tools : GraphTools ω}
    {responses : List (String × String)} {graph : ExtractedGraph ω}
    (hgraph : mergeExtracted (recordsOf tools responses) = .ok graph) {title : String}
    (htitle : title ∈ graph.entities.map (·.title)) :
    ∃ response ∈ responses, title ∈ titlesOf (parseGraphTuples tools response.1 response.2) := by
  obtain ⟨entity, hentity, rfl⟩ := List.mem_map.mp htitle
  obtain ⟨key, hkey, hgroup⟩ := forall₂_exists_left (mergeExtracted_spec hgraph).entities hentity
  obtain ⟨raw, hraw, rfl⟩ := List.mem_map.mp (List.mem_eraseDups.mp hkey)
  obtain ⟨records, hrecords, hraw⟩ := List.mem_flatMap.mp hraw
  obtain ⟨response, hresponse, rfl⟩ := List.mem_map.mp hrecords
  obtain ⟨parsed, hparsed, rfl⟩ := List.mem_map.mp hraw
  have hsame : entity.title = parsed.title := congrArg Prod.fst hgroup.keyEq
  refine ⟨response, hresponse, ?_⟩
  rw [hsame]
  exact List.mem_append_left _ (List.mem_map_of_mem hparsed)

/-- **The clustering speaks the names of the graph exactly when the title fields are settled.** -/
theorem speaksNames_iff [One ω] [Add ω] {tools : GraphTools ω} {clusterTools : ClusterTools ω}
    {upperChar : Char → List Char} (h : NameTools tools clusterTools upperChar)
    (responses : List (String × String)) :
    SpeaksNames tools clusterTools responses ↔
      ∀ response ∈ responses, ∀ field ∈ titleFields response.1,
        Settled tools upperChar field := by
  constructor
  · intro hspeaks response hresponse field hfield
    refine (h.normalizeNodeName_cleanStr_iff field).mp ?_
    exact hspeaks.titles response hresponse _ (mem_titlesOf_parseGraphTuples.mpr ⟨field, hfield, rfl⟩)
  · intro hsettled
    have htitles : ∀ response ∈ responses,
        ∀ title ∈ titlesOf (parseGraphTuples tools response.1 response.2),
          normalizeNodeName clusterTools title = title := by
      intro response hresponse title htitle
      obtain ⟨field, hfield, rfl⟩ := mem_titlesOf_parseGraphTuples.mp htitle
      exact (h.normalizeNodeName_cleanStr_iff field).mpr (hsettled response hresponse field hfield)
    refine ⟨htitles, ?_⟩
    intro graph entities relationships hgraph htables maxClusterSize seed clusters hclusters cluster
      hcluster member hmember
    have hends : ∀ row ∈ relationships, row.source ∈ graph.entities.map (·.title) ∧
        row.target ∈ graph.entities.map (·.title) := by
      intro row hrow
      obtain ⟨kept, hkept, heq⟩ := List.mem_map.mp
        ((htables.ends _).mp (List.mem_map_of_mem (f := fun row => (row.source, row.target)) hrow))
      obtain ⟨hsource, htarget⟩ := Prod.mk.inj heq
      have hendpoints := (mergeExtracted_spec hgraph).endpoints kept hkept
      rwa [hsource, htarget] at hendpoints
    have hnames : ∀ title ∈ graph.entities.map (·.title),
        normalizeNodeName clusterTools title = title := by
      intro title htitle
      obtain ⟨response, hresponse, htitle⟩ := exists_title_of_graph hgraph htitle
      exact htitles response hresponse title htitle
    have hinput : ∀ relationship ∈ clusterInput relationships,
        normalizeNodeName clusterTools relationship.source = relationship.source ∧
          normalizeNodeName clusterTools relationship.target = relationship.target := by
      intro relationship hrelationship
      obtain ⟨row, hrow, rfl⟩ := List.mem_map.mp hrelationship
      exact ⟨hnames _ (hends row hrow).1, hnames _ (hends row hrow).2⟩
    obtain ⟨relationship, hrelationship, hmember⟩ :=
      h.mem_titles hinput hclusters hcluster hmember
    obtain ⟨row, hrow, rfl⟩ := List.mem_map.mp hrelationship
    have htitle : member ∈ entities.map (·.title) := by
      rcases hmember with rfl | rfl
      · exact (htables.titles _).mpr (hends row hrow).1
      · exact (htables.titles _).mpr (hends row hrow).2
    exact ⟨⟨row, hrow, hmember⟩, lookup_titleToEntityId htitle⟩

/-! ### A name that is written as a reference -/

/-- The case mapping and the decoder, as far as the sample needs them. -/
def letterUpper (c : Char) : List Char := if c = 'a' then ['A'] else [c]

def letterGraphTools : GraphTools ℕ where
  toUppercase text := String.ofList (text.toList.flatMap letterUpper)
  decodeHtmlEntities text := if text = "&#97;" then "a" else text
  parseWeight text := if text = "1" then some 1 else none

/-- One cluster of all nodes. -/
def letterClusterTools : ClusterTools ℕ where
  decodeHtmlEntities := letterGraphTools.decodeHtmlEntities
  toUppercase := letterGraphTools.toUppercase
  hierarchicalLeiden edges _ _ := .ok (edges.flatMap fun edge =>
    [⟨edge.1, 0, 0, none⟩, ⟨edge.2.1, 0, 0, none⟩])

theorem letterNameTools : NameTools letterGraphTools letterClusterTools letterUpper where
  same_decode := rfl
  same_uppercase := rfl
  toUppercase _ := rfl
  upper_upper c d hd := by
    unfold letterUpper at hd ⊢
    split at hd
    · obtain rfl := List.mem_singleton.mp hd
      decide
    · next hne =>
      obtain rfl := List.mem_singleton.mp hd
      exact if_neg hne
  decode_shorter text hupper hdecode := by
    by_cases htext : text = "&#97;"
    · subst htext
      decide
    · exact absurd (if_neg htext) hdecode
  nodes edges size seed entries hentries entry hentry := by
    obtain rfl := Except.ok.inj hentries
    obtain ⟨edge, hedge, hentry⟩ := List.mem_flatMap.mp hentry
    refine ⟨edge, hedge, ?_⟩
    rcases List.mem_cons.mp hentry with rfl | hentry
    · exact Or.inl rfl
    · obtain rfl := List.mem_singleton.mp hentry
      exact Or.inr rfl

/-- Two entities and a relationship between them, with the name of the first. -/
def letterResponse (name : String) : String :=
  "(\"entity\"<|>" ++ name ++ "<|>PERSON<|>first)##(\"entity\"<|>B<|>PERSON<|>second)##" ++
    "(\"relationship\"<|>" ++ name ++ "<|>B<|>knows<|>1)<|COMPLETE|>"

/-- A decimal reference to a lower-case letter: the cluster has a member that no table knows. -/
theorem speaksNames_reference :
    titlesOf (parseGraphTuples letterGraphTools (letterResponse "&#97;") "t1") =
        ["a", "B", "a", "B"] ∧
      normalizeNodeName letterClusterTools "a" = "A" ∧
      clusterGraph letterClusterTools [⟨"a", "B", 1⟩] 10 true 1 = .ok [⟨0, 0, -1, ["A", "B"]⟩] ∧
      (titleToEntityId [⟨"e1", "a"⟩, ⟨"e2", "B"⟩]).lookup "A" = none ∧
      ¬ SpeaksNames letterGraphTools letterClusterTools [(letterResponse "&#97;", "t1")] := by
  have htitles : titlesOf (parseGraphTuples letterGraphTools (letterResponse "&#97;") "t1") =
      ["a", "B", "a", "B"] := by decide +kernel
  refine ⟨htitles, by decide +kernel, by decide +kernel, by decide +kernel, fun hspeaks => ?_⟩
  have hfixed := hspeaks.titles _ (List.mem_singleton_self _) "a"
    (htitles ▸ List.mem_cons_self ..)
  exact absurd hfixed (by decide +kernel)

theorem speaksNames_iff_letter :
    SpeaksNames letterGraphTools letterClusterTools [(letterResponse "A", "t1")] := by
  refine (speaksNames_iff letterNameTools _).mpr fun response hresponse field hfield => ?_
  obtain rfl := List.mem_singleton.mp hresponse
  have hfields : titleFields (letterResponse "A") = ["A", "B", "A", "B"] := by decide +kernel
  have hfield : field = "A" ∨ field = "B" := by
    rw [hfields] at hfield
    simp only [List.mem_cons, List.not_mem_nil, or_false] at hfield
    tauto
  rcases hfield with rfl | rfl
  · have hchars : settledChars letterGraphTools "A" = ['A'] := by decide +kernel
    constructor
    · decide +kernel
    · rw [hchars]
      simp [IsUpper, letterUpper]
    · rw [hchars]
      constructor <;> simp [isWhiteSpace]
  · have hchars : settledChars letterGraphTools "B" = ['B'] := by decide +kernel
    constructor
    · decide +kernel
    · rw [hchars]
      simp [IsUpper, letterUpper]
    · rw [hchars]
      constructor <;> simp [isWhiteSpace]

end GraphLoom.Communities
