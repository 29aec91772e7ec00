import ResearchKernel.Canonical
import ResearchKernel.Foundation.Dict
import ResearchKernel.Product.Jobs

/-!
# Slices of the indexed fact graph

The product reads the fact graph from an index that is rebuilt from the kernel's events. A
slice starts from seeds and follows edges level by level. The preview of a revocation is a
slice of the claims that depend on the target, read at the revision of the kernel.
-/

namespace ResearchKernel.Product

open Foundation

/-! ## The index -/

/-- A row of `product_graph_nodes`. -/
structure GraphNodeRow where
  runId : Id
  claimId : Id
  lifecycle : String
  dependable : Bool
  claimType : String
  authorityAxes : Json
  verificationMethod : String
  routeId : Option Id

/-- A row of `product_graph_edges`. -/
structure GraphEdgeRow where
  runId : Id
  edgeId : Id
  fromClaimId : Id
  toClaimId : Id
  logicalDirection : Direction

/-- A row of `product_graph_index_watermarks`. -/
structure GraphWatermarkRow where
  runId : Id
  processedCursor : ℕ
  researchRevision : ℕ

/-- The index. A claim is indexed once in its run, and edges join indexed claims. -/
structure GraphIndex where
  nodes : List GraphNodeRow
  edges : List GraphEdgeRow
  watermarks : List GraphWatermarkRow
  unique : (nodes.map fun node => (node.runId, node.claimId)).Nodup
  joined : ∀ edge ∈ edges, (∃ node ∈ nodes, node.runId = edge.runId ∧
    node.claimId = edge.fromClaimId) ∧ ∃ node ∈ nodes, node.runId = edge.runId ∧
      node.claimId = edge.toClaimId

/-- A claim as a slice reads it. -/
structure IndexedGraphNode where
  claimId : Id
  lifecycle : String
  dependable : Bool
  claimType : String
  authorityAxes : JsonObject
  verificationMethod : String
  routeId : Id

/-- What the functions below raise. -/
inductive PreviewError where
  /-- `ValueError`. -/
  | value (message : String)
  /-- `GraphQueryError`. -/
  | query (message : String)
  /-- `GraphSeedNotFound`. -/
  | seedNotFound (message : String)
  /-- `StaleQuery`. -/
  | stale (message : String)
  /-- `ProjectionLag`. -/
  | lag
  /-- `RevocationConflict`. -/
  | conflict (message : String)

/-- Read a row of the index. -/
def indexedNode (row : GraphNodeRow) : Except PreviewError IndexedGraphNode := do
  let axes ← orReject row.authorityAxes.mapping? (.query "indexed authority axes are invalid")
  rejectIf axes.isEmpty (.query "indexed authority axes are invalid")
  let routeId ← orReject row.routeId (.query "graph node has no route_id")
  return { claimId := row.claimId
           lifecycle := row.lifecycle
           dependable := row.dependable
           claimType := row.claimType
           authorityAxes := axes
           verificationMethod := row.verificationMethod
           routeId := routeId }

/-! ## Requests -/

/-- Which claims a slice shows. -/
inductive GraphMode where
  | verified | researchHistory
deriving DecidableEq

/-- Which edges a slice follows. -/
inductive SliceDirection where
  | predecessors | successors | both
deriving DecidableEq

/-- On which side of an edge a neighbor is. -/
inductive Relationship where
  | predecessor | successor
deriving DecidableEq

/-- Text of a relationship. -/
def Relationship.wire : Relationship → String
  | .predecessor => "PREDECESSOR"
  | .successor => "SUCCESSOR"

/-- Filters of a slice; an empty one admits everything. -/
structure GraphFilters where
  claimTypes : List String := []
  routeIds : List Id := []
  verificationMethods : List String := []
  lifecycles : List String := []

/-- A request for the first page of a slice. -/
structure GraphSliceRequest where
  runId : Id
  atCursor : ℤ
  atRevision : ℤ
  contractVersion : ℤ
  mode : GraphMode
  seedIds : List Id
  direction : SliceDirection
  depth : ℕ
  filters : GraphFilters
  nodeLimit : ℕ

/-- Whether a text is left as it is by `str.strip`. -/
def isTrimmed (text : String) : Bool :=
  text.toList.head?.all (!isSpace ·) && text.toList.getLast?.all (!isSpace ·)

def checkFilter (label : String) (values : List String) : Except PreviewError Unit :=
  rejectIf (!decide values.Nodup || values.any fun value => value == "" || !isTrimmed value)
    (.value (label ++ " must contain unique trimmed values"))

/-- The checks of a request. -/
def GraphSliceRequest.validate (request : GraphSliceRequest) : Except PreviewError Unit := do
  rejectIf (request.runId == "" || !isTrimmed request.runId)
    (.value "run_id must be a non-empty trimmed string")
  rejectIf (decide (request.atCursor < 0)) (.value "at_cursor must be non-negative")
  rejectIf (decide (request.atRevision < 0)) (.value "at_revision must be non-negative")
  rejectIf (decide (request.contractVersion < 1)) (.value "contract_version must be positive")
  rejectIf (request.seedIds.isEmpty || !decide request.seedIds.Nodup)
    (.value "seed_ids must be non-empty and unique")
  rejectIf (request.seedIds.any fun seed => seed == "" || !isTrimmed seed)
    (.value "seed_ids must contain trimmed identifiers")
  rejectIf (decide (60 < request.depth)) (.value "depth must be between 0 and 60")
  rejectIf (!(decide (1 ≤ request.nodeLimit) && decide (request.nodeLimit ≤ 200)))
    (.value "node_limit must be between 1 and 200")
  rejectIf (request.mode == .verified && !request.filters.lifecycles.isEmpty)
    (.value "VERIFIED graph does not accept lifecycle filters")
  checkFilter "claim_types" request.filters.claimTypes
  checkFilter "route_ids" request.filters.routeIds
  checkFilter "verification_methods" request.filters.verificationMethods
  checkFilter "lifecycles" request.filters.lifecycles

/-- Whether a claim is of the kind that the mode shows. -/
def modeMatches (node : IndexedGraphNode) : GraphMode → Bool
  | .verified => node.dependable
  | .researchHistory => !node.dependable

/-- Whether the filter on routes excludes a claim. -/
def routeOnlyMismatch (node : IndexedGraphNode) (filters : GraphFilters) : Bool :=
  !filters.routeIds.isEmpty && !filters.routeIds.contains node.routeId

/-- Whether a filter that is not on routes admits a value. -/
def admits (filter : List String) (value : String) : Bool :=
  filter.isEmpty || filter.contains value

/-- Whether the filters other than that on routes admit a claim. -/
def otherFiltersMatch (node : IndexedGraphNode) (filters : GraphFilters) : Bool :=
  admits filters.claimTypes node.claimType &&
    admits filters.verificationMethods node.verificationMethod &&
      admits filters.lifecycles node.lifecycle

/-! ## The traversal -/

/-- A step of the traversal: from a claim to a neighbor. -/
structure Transition where
  current : Id
  neighbor : Id
  relationship : Relationship
deriving DecidableEq

/-- The order in which Python sorts the steps. -/
def Transition.le (a b : Transition) : Bool :=
  decide (a.current < b.current) || a.current == b.current &&
    (decide (a.neighbor < b.neighbor) || a.neighbor == b.neighbor &&
      (a.relationship == .predecessor || b.relationship == .successor))

/-- The arcs that an edge stands for. -/
def edgeArcs (edge : GraphEdgeRow) : List (Id × Id) :=
  (if edge.logicalDirection == .reverse then [] else [(edge.fromClaimId, edge.toClaimId)]) ++
    if edge.logicalDirection == .forward then [] else [(edge.toClaimId, edge.fromClaimId)]

/-- The steps that an edge offers to a claim. -/
def edgeTransitions (edge : GraphEdgeRow) (current : Id) (direction : SliceDirection) :
    List Transition :=
  (edgeArcs edge).flatMap fun arc =>
    (if direction != .predecessors && arc.1 == current then [⟨current, arc.2, .successor⟩] else []) ++
      if direction != .successors && arc.2 == current then [⟨current, arc.1, .predecessor⟩] else []

/-- A claim of another route at which the traversal has stopped. -/
structure CrossRouteBoundary where
  boundaryId : Digest
  claimId : Id
  sourceRouteId : Id
  direction : Relationship
  dependable : Bool
  foldedCount : ℕ
  pathToTarget : List Id

/-- What the traversal has visited, in order, with the claims, a path to each of them, the
deepest level, and the boundaries it has met with the claims they were met from. -/
structure Traversal where
  orderedIds : List Id
  nodes : List IndexedGraphNode
  paths : List (Id × List Id)
  boundaries : List ((Id × Relationship) × Id × CrossRouteBoundary)
  maxDepth : ℕ

namespace GraphIndex

variable (index : GraphIndex)

/-- The indexed claims with the given identifiers. -/
def loadNodes (runId : Id) (claimIds : List Id) : Except PreviewError (List IndexedGraphNode) :=
  (index.nodes.filter fun row => row.runId == runId && claimIds.contains row.claimId).mapM indexedNode

def touchingEdges (runId : Id) (claimIds : List Id) : List GraphEdgeRow :=
  (index.edges.filter fun edge => edge.runId == runId &&
    (claimIds.contains edge.fromClaimId || claimIds.contains edge.toClaimId)).insertionSort
      fun a b => a.edgeId ≤ b.edgeId

end GraphIndex

section Traverse

variable (P : Platform) (request : GraphSliceRequest)

/-- The path to a claim that was visited. -/
def Traversal.path (state : Traversal) (claimId : Id) : List Id :=
  (state.paths.lookup claimId).getD []

def extendPath (state : Traversal) (step : Transition) : List Id :=
  match step.relationship with
  | .predecessor => step.neighbor :: state.path step.current
  | .successor => state.path step.current ++ [step.neighbor]

/-- The boundary at a neighbor of another route. -/
def boundaryAt (state : Traversal) (step : Transition) (node : IndexedGraphNode) :
    CrossRouteBoundary where
  boundaryId := P.sha256 (dumps (.obj
    [("run_id", .str request.runId), ("revision", .int request.atRevision),
      ("claim_id", .str step.neighbor), ("direction", .str step.relationship.wire),
      ("path", Json.ofTexts (extendPath state step))]))
  claimId := step.neighbor
  sourceRouteId := node.routeId
  direction := step.relationship
  dependable := node.dependable
  foldedCount := match state.boundaries.lookup (step.neighbor, step.relationship) with
    | none => 1
    | some hit => hit.2.foldedCount + 1
  pathToTarget := extendPath state step

/-- Take one step: visit a neighbor, or note the boundary that it stands behind. The second
part of the state is the next frontier. -/
def follow (candidates : List IndexedGraphNode) (level : ℕ) (state : Traversal × List Id)
    (step : Transition) : Traversal × List Id :=
  if state.1.orderedIds.contains step.neighbor then state
  else match candidates.find? (·.claimId == step.neighbor) with
    | none => state
    | some node =>
      if !modeMatches node request.mode then state
      else if routeOnlyMismatch node request.filters then
        if node.dependable && otherFiltersMatch node request.filters then
          ({ state.1 with
            boundaries := setKey (step.neighbor, step.relationship)
              (step.current, boundaryAt P request state.1 step node) state.1.boundaries }, state.2)
        else state
      else if !otherFiltersMatch node request.filters then state
      else
        ({ state.1 with
          orderedIds := state.1.orderedIds ++ [step.neighbor]
          nodes := state.1.nodes ++ [node]
          paths := state.1.paths ++ [(step.neighbor, extendPath state.1 step)]
          maxDepth := max state.1.maxDepth level }, state.2 ++ [step.neighbor])

/-- The steps from a frontier. -/
def frontierTransitions (index : GraphIndex) (frontier : List Id) : List Transition :=
  (((index.touchingEdges request.runId frontier).flatMap fun edge =>
    ([edge.fromClaimId, edge.toClaimId].filter (frontier.contains ·)).flatMap
      fun current => edgeTransitions edge current request.direction).dedup).insertionSort
        fun a b => a.le b

/-- The levels of the traversal, at most so many from the given one on. -/
def traverseLevels (index : GraphIndex) :
    ℕ → ℕ → List Id → Traversal → Except PreviewError Traversal
  | 0, _, _, state => .ok state
  | remaining + 1, level, frontier, state =>
    if frontier.isEmpty then .ok state
    else do
      let transitions := frontierTransitions request index frontier
      let candidates ← index.loadNodes request.runId
        ((transitions.map (·.neighbor)).filter (!state.orderedIds.contains ·))
      let next := transitions.foldl (follow P request candidates level) (state, [])
      traverseLevels index remaining (level + 1) (next.2.dedup.insertionSort (· ≤ ·)) next.1

/-- Follow the edges from the seeds, level by level. -/
def traverse (index : GraphIndex) : Except PreviewError Traversal := do
  let seeds := request.seedIds.dedup.insertionSort (· ≤ ·)
  let seedNodes ← index.loadNodes request.runId seeds
  rejectIf (seeds.any fun seed => !seedNodes.any (·.claimId == seed))
    (.seedNotFound "one or more graph seeds are absent")
  rejectIf (seedNodes.any fun node => !(modeMatches node request.mode &&
      !routeOnlyMismatch node request.filters && otherFiltersMatch node request.filters))
    (.seedNotFound "one or more graph seeds are outside the requested mode or filters")
  traverseLevels P request index request.depth 1 seeds
    { orderedIds := seeds
      nodes := seedNodes
      paths := seeds.map fun seed => (seed, [seed])
      boundaries := []
      maxDepth := 0 }

/-- A page of a slice. -/
structure GraphSlice where
  nodes : List IndexedGraphNode
  crossRouteBoundary : List CrossRouteBoundary
  totalMatches : ℕ
  truncated : Bool

/-- The first page of the slice. -/
def sliceAt (index : GraphIndex) : Except PreviewError GraphSlice := do
  let traversal ← traverse P request index
  let selected := traversal.orderedIds.take request.nodeLimit
  let boundaries := traversal.boundaries.insertionSort fun a b =>
    a.1.2 == .predecessor && b.1.2 == .successor || a.1.2 == b.1.2 && decide (a.1.1 ≤ b.1.1)
  return { nodes := selected.filterMap fun id => traversal.nodes.find? (·.claimId == id)
           crossRouteBoundary := ((boundaries.filter fun hit => selected.contains hit.2.1).map
             fun hit => hit.2.2).take 200
           totalMatches := traversal.orderedIds.length
           truncated := decide (min request.nodeLimit traversal.orderedIds.length <
             traversal.orderedIds.length) }

/-- Read a slice at the cursor and the revision of the request. -/
def slice (index : GraphIndex) : Except PreviewError GraphSlice := do
  request.validate
  let watermark := (index.watermarks.find? (·.runId == request.runId)).getD ⟨request.runId, 0, 0⟩
  if (watermark.processedCursor : ℤ) = request.atCursor ∧
      (watermark.researchRevision : ℤ) = request.atRevision then
    sliceAt P request index
  else if request.atCursor < watermark.processedCursor ∨
      (watermark.processedCursor : ℤ) = request.atCursor then
    .error (.stale "requested graph revision is no longer present in the current index")
  else .error .lag

end Traverse

/-! ## The preview of a revocation -/

/-- The closure of a revocation. -/
structure RevocationClosure where
  runId : Id
  researchRevision : ℤ
  contractVersion : ℤ
  targetFactId : Id
  targetFactDigest : Digest
  affectedFactIds : List Id
  preservedSiblingIds : List Id
  reopenedObligationIds : List Id
deriving DecidableEq

/-- The checks of a closure. -/
def RevocationClosure.check (closure : RevocationClosure) : Except PreviewError RevocationClosure := do
  rejectIf (closure.runId == "" || decide (closure.researchRevision < 0) ||
      decide (closure.contractVersion < 1) || closure.targetFactId == "" ||
      !isDigest closure.targetFactDigest ||
      !closure.affectedFactIds.contains closure.targetFactId)
    (.value "revocation closure scope or target binding is invalid")
  rejectIf ([closure.affectedFactIds, closure.preservedSiblingIds,
      closure.reopenedObligationIds].any fun ids =>
        ids.contains "" || !decide ids.Nodup)
    (.value "revocation closure identities must be non-empty and unique")
  rejectIf (closure.affectedFactIds.any (closure.preservedSiblingIds.contains ·))
    (.value "affected facts and preserved siblings must be disjoint")
  return closure

/-- What the kernel says about the target of a revocation. -/
structure RevocationGraphFence where
  runId : Id
  atCursor : ℤ
  atRevision : ℤ
  contractVersion : ℤ
  targetFactId : Id
  targetFactDigest : Digest
  preservedSiblingIds : List Id
  reopenedObligationIds : List Id

/-- The reader of previews with its bound on the number of claims. -/
structure RevocationPreviewReader where
  nodeLimit : ℕ := 200
  one_le : 1 ≤ nodeLimit
  le_limit : nodeLimit ≤ 200

/-- The request for the claims that depend on a claim. -/
def closureSlice (runId : Id) (fence : RevocationGraphFence) (claimId : Id) (nodeLimit : ℕ)
    (direction : SliceDirection) : GraphSliceRequest where
  runId := runId
  atCursor := fence.atCursor
  atRevision := fence.atRevision
  contractVersion := fence.contractVersion
  mode := .verified
  seedIds := [claimId]
  direction := direction
  depth := 60
  filters := {}
  nodeLimit := nodeLimit

/-- The preview of a revocation, read from the index at the fence that the kernel gives. -/
def RevocationPreviewReader.preview (P : Platform) (reader : RevocationPreviewReader)
    (index : GraphIndex) (fence : RevocationGraphFence) (runId targetFactId : Id) :
    Except PreviewError RevocationClosure := do
  rejectIf (fence.runId != runId || fence.targetFactId != targetFactId)
    (.conflict "revocation graph fence crossed requested target")
  let graph ← slice P (closureSlice runId fence targetFactId reader.nodeLimit .successors) index
  rejectIf graph.truncated (.conflict "revoke closure exceeds the configured graph boundary")
  RevocationClosure.check
    { runId := runId
      researchRevision := fence.atRevision
      contractVersion := fence.contractVersion
      targetFactId := targetFactId
      targetFactDigest := fence.targetFactDigest
      affectedFactIds := (graph.nodes.map (·.claimId)).insertionSort (· ≤ ·)
      preservedSiblingIds := fence.preservedSiblingIds
      reopenedObligationIds := fence.reopenedObligationIds }

end ResearchKernel.Product
