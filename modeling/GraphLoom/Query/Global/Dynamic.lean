import GraphLoom.Foundation.Index
import GraphLoom.Query.Result

/-!
# Dynamic community selection

The communities of level 0 are rated, then wave by wave the children of those that pass the
threshold.  While nothing has passed, the next level is rated instead.  A community that passes
takes its parent out of the selection, unless parents are kept.
-/

namespace GraphLoom.Query.Global

open Foundation

structure Community where
  shortId : String
  level : ℤ
  parent : ℤ
  children : List ℤ
deriving DecidableEq, Repr

structure CommunityReport where
  id : String
  communityId : String
  summary : String
  fullContent : String
deriving DecidableEq, Repr

structure GlobalSearchConfig where
  dynamicSearchThreshold : ℤ
  dynamicSearchKeepParent : Bool
  dynamicSearchMaxLevel : ℤ
  -- an `i64`
  maxLevel_le : dynamicSearchMaxLevel ≤ i64Max

/-- What the repeated ratings of one community come to; `ν` is the type of JSON values. -/
structure CommunityVote (ν : Type) where
  selectedRating : ℤ
  repeatedRatings : List ν
  usage : QueryUsageCategory

structure DynamicRating (ν : Type) where
  communityId : String
  selectedRating : ℤ
  repeatedRatings : List ν
  selected : Bool
  level : ℤ

structure DynamicSelectionResult (ν : Type) where
  reports : List CommunityReport
  ratings : List (DynamicRating ν)
  usage : QueryUsageCategory

/-- A selection, with the function that rates a community by its report. -/
structure DynamicCommunitySelection (ν : Type) where
  config : GlobalSearchConfig
  reports : List CommunityReport
  communities : List Community
  rateCommunity : String → CommunityReport → Except QueryError (CommunityVote ν)

/-- The variables of the traversal. -/
structure Traversal (ν : Type) where
  queue : List String
  nextQueue : List String
  queuedOrVisited : List String
  traversalLevel : ℤ
  relevant : List String
  relevantFirstSeen : List String
  ratings : List (DynamicRating ν)
  usage : QueryUsageCategory

variable {ν : Type}

namespace DynamicCommunitySelection

variable (sel : DynamicCommunitySelection ν)

def reportsById : AList fun _ : String => CommunityReport :=
  indexBy CommunityReport.communityId sel.reports

def communitiesById : AList fun _ : String => Community :=
  indexBy Community.shortId sel.communities

/-- A community joins its level when it has a report. -/
def addToLevel (levels : AList fun _ : ℤ => List String) (community : Community) :
    AList fun _ : ℤ => List String :=
  if (sel.reportsById.lookup community.shortId).isSome then
    let communitiesAtLevel := (levels.lookup community.level).getD []
    if community.shortId ∈ communitiesAtLevel then levels
    else levels.insert community.level (communitiesAtLevel ++ [community.shortId])
  else levels

/-- The communities with a report, by their level. -/
def levels : AList fun _ : ℤ => List String :=
  sel.communities.foldl sel.addToLevel ∅

/-- The future of one community of a queue. -/
def rateReport (communityId : String) : Except QueryError (CommunityVote ν) :=
  match sel.reportsById.lookup communityId with
  | some report => sel.rateCommunity communityId report
  | none => .error (.queryContext .global "rate dynamic community"
      ("community " ++ reprStr communityId ++ " has no report"))

/-- The votes of a queue, in its order.  The futures run concurrently: when some of them fail, any
of their errors may be the one that is returned. -/
def rateQueue (queue : List String) : Except QueryError (List (CommunityVote ν)) :=
  queue.mapM sel.rateReport

end DynamicCommunitySelection

namespace Traversal

/-- Queue a community for the next wave, unless it was queued before. -/
def enqueue (s : Traversal ν) (communityId : String) : Traversal ν :=
  if communityId ∈ s.queuedOrVisited then s
  else
    { s with
      queuedOrVisited := s.queuedOrVisited ++ [communityId]
      nextQueue := s.nextQueue ++ [communityId] }

/-- A child is queued when it has a report. -/
def enqueueChild (sel : DynamicCommunitySelection ν) (s : Traversal ν) (child : ℤ) : Traversal ν :=
  if (sel.reportsById.lookup (toString child)).isSome then s.enqueue (toString child) else s

def markRelevant (s : Traversal ν) (communityId : String) : Traversal ν :=
  if communityId ∈ s.relevant then s
  else
    { s with
      relevant := s.relevant ++ [communityId]
      relevantFirstSeen := s.relevantFirstSeen ++ [communityId] }

/-- What a community that passes does to its parent and its children. -/
def expand (sel : DynamicCommunitySelection ν) (s : Traversal ν) (communityId : String) :
    Traversal ν :=
  match sel.communitiesById.lookup communityId with
  | some community =>
    let s :=
      if sel.config.dynamicSearchKeepParent then s
      else { s with relevant := s.relevant.filter (· ≠ toString community.parent) }
    community.children.foldl (enqueueChild sel) s
  | none => s

/-- One community of the queue with its vote. -/
def recordVote (sel : DynamicCommunitySelection ν) (s : Traversal ν)
    (entry : String × CommunityVote ν) : Traversal ν :=
  let (communityId, vote) := entry
  let s := { s with usage := s.usage.saturatingAdd vote.usage }
  let s :=
    if sel.config.dynamicSearchThreshold ≤ vote.selectedRating then
      (s.markRelevant communityId).expand sel communityId
    else s
  { s with
    ratings := s.ratings ++ [{
      communityId
      selectedRating := vote.selectedRating
      repeatedRatings := vote.repeatedRatings
      selected := false
      level := (sel.communitiesById.lookup communityId).elim s.traversalLevel Community.level }] }

/-- The next level, while nothing has passed and no children are queued. -/
def fallback (sel : DynamicCommunitySelection ν) (s : Traversal ν) : Traversal ν :=
  if s.nextQueue = [] ∧ s.relevant = [] ∧
      s.traversalLevel ≤ sel.config.dynamicSearchMaxLevel then
    ((sel.levels.lookup s.traversalLevel).getD []).foldl enqueue s
  else s

/-- One wave. -/
def wave (sel : DynamicCommunitySelection ν) (s : Traversal ν) : Except QueryError (Traversal ν) := do
  let votes ← sel.rateQueue s.queue
  let s := (s.queue.zip votes).foldl (recordVote sel) s
  let s := { s with traversalLevel := saturatingAdd s.traversalLevel 1 }
  let s := s.fallback sel
  return { s with queue := s.nextQueue, nextQueue := [] }

/-- Waves until the queue is empty; `none` when the fuel does not last. -/
def traverse (sel : DynamicCommunitySelection ν) : ℕ → Traversal ν →
    Option (Except QueryError (Traversal ν))
  | fuel, s =>
    if s.queue = [] then some (.ok s)
    else
      match fuel with
      | 0 => none
      | fuel + 1 =>
        match s.wave sel with
        | .ok s => traverse sel fuel s
        | .error error => some (.error error)

/-- The traversal begins with the communities of level 0. -/
def start (starting : List String) : Traversal ν where
  queue := starting
  nextQueue := []
  queuedOrVisited := starting
  traversalLevel := 0
  relevant := []
  relevantFirstSeen := []
  ratings := []
  usage := .none

/-- What the selection returns at the end of the traversal. -/
def finish (sel : DynamicCommunitySelection ν) (s : Traversal ν) : DynamicSelectionResult ν where
  reports := (s.relevantFirstSeen.filter (· ∈ s.relevant)).filterMap
    fun communityId => sel.reportsById.lookup communityId
  ratings := s.ratings.map fun rating =>
    { rating with selected := rating.communityId ∈ s.relevant }
  usage := s.usage

end Traversal

/-- `select_explainable`, with fuel for the waves. -/
def DynamicCommunitySelection.selectExplainable (sel : DynamicCommunitySelection ν) (fuel : ℕ) :
    Option (Except QueryError (DynamicSelectionResult ν)) :=
  match sel.levels.lookup 0 with
  | none => some (.error (.queryContext .global "initialize dynamic community selection"
      "no report-backed level 0 communities are available"))
  | some starting =>
    match Traversal.traverse sel fuel (.start starting) with
    | some (.ok s) => some (.ok (s.finish sel))
    | some (.error error) => some (.error error)
    | none => none

end GraphLoom.Query.Global
