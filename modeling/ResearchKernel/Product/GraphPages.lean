import ResearchKernel.Canonical.Loads
import ResearchKernel.Foundation.Base64
import ResearchKernel.Product.IndexReplay

/-!
# Pages of slices and of searches

A slice or a search is served page by page from the index at one fence. With a page that is not
the last the service gives a cursor: a signed text that says which query it belongs to, at which
fence, and where the page has ended. A cursor of another query or another fence is stale.
-/

namespace ResearchKernel.Product.Pages

open Foundation Indexing

/-! ## The service -/

/-- What the queries take from their surroundings: the HMAC with SHA-256 of bytes under a key, the
letters and digits of Unicode, and the matches and ranks of the full-text table, which depend on
all of its documents. -/
structure QueryRuntime (R : Type) extends Platform where
  hmacDigest : List UInt8 → List UInt8 → List UInt8
  length_hmacDigest : ∀ secret body, (hmacDigest secret body).length = 32
  isWordChar : Char → Bool
  ftsMatches : List FtsRow → String → FtsRow → Bool
  bm25 : List FtsRow → String → FtsRow → R

/-- The signer of cursors with its secret. -/
structure CursorCodec where
  secret : List UInt8
  long : 32 ≤ secret.length

/-- What a query raises. -/
inductive QueryError where
  /-- An error of the graph queries without pages. -/
  | graph (error : PreviewError)
  /-- `InvalidQueryCursor`. -/
  | invalidCursor (message : String)
  /-- An error of the index that is caught up. -/
  | index (error : IndexError)

/-- `StaleQuery`. -/
def QueryError.stale (message : String) : QueryError := .graph (.stale message)

/-- Pass an error of the graph queries on. -/
def liftGraph {α : Type} (result : Except PreviewError α) : Except QueryError α :=
  result.mapError .graph

/-! ## The index that is read -/

/-- An index whose tables are sound and whose claims have identifiers. -/
structure IndexedGraph where
  database : GraphDatabase
  sound : database.tables.Sound
  named : database.tables.Named

/-- A claim as the traversal reads it. -/
def nodeView (row : NodeRow) : GraphNodeRow where
  runId := row.runId
  claimId := row.claimId
  lifecycle := row.lifecycle
  dependable := row.dependable
  claimType := row.claimType
  authorityAxes := (loads row.authorityAxesJson).getD .null
  verificationMethod := row.verificationMethod
  routeId := row.routeId

/-- An edge as the traversal reads it. -/
def edgeView (row : EdgeRow) : GraphEdgeRow where
  runId := row.runId
  edgeId := row.edgeId
  fromClaimId := row.fromClaimId
  toClaimId := row.toClaimId
  logicalDirection := row.logicalDirection

/-- The index as the traversal reads it. -/
def IndexedGraph.view (graph : IndexedGraph) : GraphIndex where
  nodes := graph.database.tables.nodes.map nodeView
  edges := graph.database.tables.edges.map edgeView
  watermarks := graph.database.watermarks.map fun row =>
    ⟨row.runId, row.processedCursor, row.researchRevision⟩
  unique := by
    rw [List.map_map]
    exact graph.sound.nodes
  joined := by
    intro edge hedge
    obtain ⟨row, hrow, rfl⟩ := List.mem_map.mp hedge
    have hend : ∀ id, graph.database.tables.hasNode row.runId id = true →
        ∃ node ∈ graph.database.tables.nodes.map nodeView, node.runId = row.runId ∧
          node.claimId = id := by
      intro id hid
      obtain ⟨node, hnode, hkey⟩ := hasNode_iff.mp hid
      obtain ⟨hrun, hclaim⟩ := Prod.mk.inj hkey
      exact ⟨nodeView node, List.mem_map_of_mem hnode, hrun, hclaim⟩
    exact ⟨hend _ (graph.sound.joined row hrow).1, hend _ (graph.sound.joined row hrow).2⟩

/-- Bring the index of a run to a fence. -/
def IndexedGraph.catchUp (P : Platform) (runId : Id) (cursor revision : ℤ) (now : Stamp)
    (graph : IndexedGraph) : Except QueryError IndexedGraph :=
  match h : Indexing.catchUp P runId cursor revision now graph.database with
  | .error error => .error (.index error)
  | .ok database =>
    .ok { database := database
          sound := (writesRun_activities stable_sound runId P revision _).keeps
            (catchUp_eq_ok.mp h).applied graph.sound
          named := (writesRun_activities stable_named runId P revision _).keeps
            (catchUp_eq_ok.mp h).applied graph.named }

/-! ## Cursors -/

/-- The kinds of queries. -/
inductive QueryKind where
  | slice | search

/-- Text of a kind. -/
def QueryKind.wire : QueryKind → String
  | .slice => "GRAPH_SLICE"
  | .search => "GRAPH_SEARCH"

/-- Where a page has ended: how many claims were given, and the last of them. -/
structure BoundaryState where
  offset : ℕ
  lastClaimId : Option Id

/-- What a cursor is bound to. -/
structure CursorBinding where
  kind : QueryKind
  runId : Id
  revision : ℤ
  activityCursor : ℤ
  queryDigest : Digest

/-- The members of a cursor that bind it. -/
def CursorBinding.expected (binding : CursorBinding) : JsonObject :=
  [("v", .int 1), ("kind", .str binding.kind.wire), ("run_id", .str binding.runId),
    ("revision", .int binding.revision), ("activity_cursor", .int binding.activityCursor),
    ("query_digest", .str binding.queryDigest)]

def BoundaryState.json (boundary : BoundaryState) : JsonObject :=
  [("offset", .int boundary.offset), ("last_claim_id", Json.ofText? boundary.lastClaimId)]

/-- The bytes of a text. -/
def utf8 (text : List Char) : List UInt8 := (String.ofList text).toUTF8.data.toList

/-- The text of bytes. -/
def ofUtf8 (bytes : List UInt8) : Option String := String.fromUTF8? ⟨bytes.toArray⟩

def cursorBody (binding : CursorBinding) (boundary : BoundaryState) : List UInt8 :=
  utf8 (dumps (.obj (binding.expected ++ [("boundary", .obj boundary.json)])))

/-- What every cursor begins with. -/
def cursorPrefix : List Char := "rkq1.".toList

/-- Read the body of a cursor. A number that is no integer is in no body that is signed. -/
def jsonMapping (body : List UInt8) : Except QueryError JsonObject := do
  let text ← orReject (ofUtf8 body) (.invalidCursor "query cursor payload is invalid")
  let value ← orReject (loads text.toList) (.invalidCursor "query cursor payload is invalid")
  orReject value.mapping? (.invalidCursor "query cursor payload is not an object")

section Codec

variable {R : Type} (Q : QueryRuntime R) (codec : CursorCodec)

/-- Write a cursor. -/
def encode (binding : CursorBinding) (boundary : BoundaryState) : String :=
  let body := cursorBody binding boundary
  String.ofList (cursorPrefix ++ urlsafeB64encode (body ++ Q.hmacDigest codec.secret body))

/-- The body of a cursor that is signed. -/
def signedBody (token : String) : Except QueryError (List UInt8) := do
  rejectIf (!cursorPrefix.isPrefixOf token.toList)
    (.invalidCursor "query cursor has an unknown format")
  let encoded := token.toList.drop 5
  let raw ← orReject (urlsafeB64decode (encoded ++ padding encoded.length))
    (.invalidCursor "query cursor is not valid base64url")
  rejectIf (decide (raw.length ≤ 32)) (.invalidCursor "query cursor is truncated")
  let body := raw.take (raw.length - 32)
  rejectIf (raw.drop (raw.length - 32) != Q.hmacDigest codec.secret body)
    (.invalidCursor "query cursor signature is invalid")
  return body

/-- Read a cursor that is presented for a query at a fence. -/
def decode (token : String) (binding : CursorBinding) : Except QueryError BoundaryState := do
  let body ← signedBody Q codec token
  let value ← jsonMapping body
  rejectIf (binding.expected.any fun member => !(value.get member.1).eqv member.2)
    (.stale "query cursor no longer matches run, revision, query, or activity fence")
  let boundary ← orReject (value.get "boundary").mapping?
    (.invalidCursor "query cursor boundary is invalid")
  rejectIf (!boundary.hasExactly ["offset", "last_claim_id"])
    (.invalidCursor "query cursor boundary is invalid")
  let offset ← orReject (boundary.get "offset").int?
    (.invalidCursor "query cursor offset is invalid")
  rejectIf (decide (offset < 1)) (.invalidCursor "query cursor offset is invalid")
  let lastClaimId ← orReject (boundary.get "last_claim_id").text?
    (.invalidCursor "query cursor boundary claim is invalid")
  rejectIf (lastClaimId == "") (.invalidCursor "query cursor boundary claim is invalid")
  return ⟨offset.toNat, some lastClaimId⟩

/-- Where a page begins: at the boundary of a cursor, at the start without one. -/
def decodeBoundary (token : Option String) (binding : CursorBinding) :
    Except QueryError BoundaryState :=
  match token with
  | none => .ok ⟨0, none⟩
  | some token => decode Q codec token binding

end Codec

/-! ## Reading at a fence -/

/-- What to do when the index lags behind the fence. -/
inductive LagPolicy where
  | reject | catchUp
deriving DecidableEq

section Reading

variable {R : Type} (Q : QueryRuntime R)

/-- Whether the watermark of a run is at a fence. -/
def IndexedGraph.alignedAt (graph : IndexedGraph) (runId : Id) (cursor revision : ℤ) : Bool :=
  decide (((graph.database.watermark runId).processedCursor : ℤ) = cursor) &&
    decide (((graph.database.watermark runId).researchRevision : ℤ) = revision)

/-- Whether the watermark of a run has left a fence behind. -/
def IndexedGraph.aheadOf (graph : IndexedGraph) (runId : Id) (cursor revision : ℤ) : Bool :=
  decide (cursor < (graph.database.watermark runId).processedCursor) ||
    decide (((graph.database.watermark runId).processedCursor : ℤ) = cursor) &&
      decide (((graph.database.watermark runId).researchRevision : ℤ) ≠ revision)

/-- The index at a fence, which is caught up with once when it lags behind. -/
def align (graph : IndexedGraph) (runId : Id) (cursor revision : ℤ) (lagPolicy : LagPolicy)
    (now : Stamp) : Except QueryError IndexedGraph :=
  if graph.alignedAt runId cursor revision then .ok graph
  else do
    rejectIf (graph.aheadOf runId cursor revision)
      (.stale "requested graph revision is no longer present in the current index")
    rejectIf (lagPolicy == .reject) (.graph .lag)
    let graph ← graph.catchUp Q.toPlatform runId cursor revision now
    -- a catch-up leaves the watermark at the fence
    if graph.alignedAt runId cursor revision then .ok graph
    else do
      rejectIf (graph.aheadOf runId cursor revision)
        (.stale "requested graph revision is no longer present in the current index")
      .error (.graph .lag)

/-- Read at a fence. The index that was caught up with stays so. -/
def alignedRead {α : Type} (graph : IndexedGraph) (runId : Id) (cursor revision : ℤ)
    (lagPolicy : LagPolicy) (now : Stamp) (reader : IndexedGraph → Except QueryError α) :
    Except QueryError α × IndexedGraph :=
  match align Q graph runId cursor revision lagPolicy now with
  | .error error => (.error error, graph)
  | .ok graph => (reader graph, graph)

end Reading

/-! ## Slices -/

/-- Text of a mode. -/
def modeWire : GraphMode → String
  | .verified => "VERIFIED"
  | .researchHistory => "RESEARCH_HISTORY"

/-- Text of a direction of a slice. -/
def directionWire : SliceDirection → String
  | .predecessors => "PREDECESSORS"
  | .successors => "SUCCESSORS"
  | .both => "BOTH"

/-- Texts in order. -/
def sortedTexts (texts : List String) : Json := Json.ofTexts (texts.insertionSort (· ≤ ·))

/-- The filters of a query. -/
def filtersValue (filters : GraphFilters) : Json :=
  .obj [("claim_types", sortedTexts filters.claimTypes), ("route_ids", sortedTexts filters.routeIds),
    ("verification_methods", sortedTexts filters.verificationMethods),
    ("lifecycles", sortedTexts filters.lifecycles)]

/-- What identifies a slice. -/
def sliceQuery (request : GraphSliceRequest) : Json :=
  .obj [("kind", .str "GRAPH_SLICE"), ("mode", .str (modeWire request.mode)),
    ("seed_ids", sortedTexts request.seedIds),
    ("direction", .str (directionWire request.direction)), ("depth", .int request.depth),
    ("filters", filtersValue request.filters), ("node_limit", .int request.nodeLimit)]

/-- The claims of a page that have a route. -/
structure GraphGroup where
  groupId : String
  routeId : Id
  total : ℕ
  statusCounts : List (String × ℕ)

/-- The groups of the claims of a page, one for each route. -/
def groups (nodes : List Product.IndexedGraphNode) : List GraphGroup :=
  (sortedSet (nodes.map (·.routeId))).map fun routeId =>
    let routeNodes := nodes.filter (·.routeId == routeId)
    { groupId := "route:" ++ routeId
      routeId := routeId
      total := routeNodes.length
      statusCounts := (sortedSet (routeNodes.map (·.lifecycle))).map fun lifecycle =>
        (lifecycle, routeNodes.countP (·.lifecycle == lifecycle)) }

/-- A page of a slice. -/
structure GraphSlice where
  runId : Id
  atRevision : ℤ
  contractVersion : ℤ
  mode : GraphMode
  nodes : List Product.IndexedGraphNode
  edges : List IndexedGraphEdge
  groups : List GraphGroup
  crossRouteBoundary : List CrossRouteBoundary
  totalMatches : ℕ
  returnedNodes : ℕ
  returnedEdges : ℕ
  truncated : Bool
  continuationCursor : Option String
  queryDigest : Digest
  boundaryDigest : Digest

/-- The checks of a boundary against the claims in order. -/
def verifyBoundary (ordered : List Id) (boundary : BoundaryState) : Except QueryError Unit := do
  rejectIf (decide (ordered.length < boundary.offset))
    (.stale "query cursor boundary no longer exists")
  if boundary.offset = 0 then
    rejectIf boundary.lastClaimId.isSome
      (.invalidCursor "initial query boundary cannot have a claim")
  else
    rejectIf (decide (ordered[boundary.offset - 1]? ≠ boundary.lastClaimId))
      (.stale "query cursor boundary changed")

/-- The edges of a run both of whose ends are among the claims. -/
def pageEdges (tables : GraphTables) (runId : Id) (claimIds : List Id) : List IndexedGraphEdge :=
  ((tables.edges.filter fun edge => edge.runId == runId && (claimIds.contains edge.fromClaimId &&
    claimIds.contains edge.toClaimId)).insertionSort fun a b => a.edgeId ≤ b.edgeId).map fun edge =>
      { edgeId := edge.edgeId
        fromClaimId := edge.fromClaimId
        toClaimId := edge.toClaimId
        logicalDirection := edge.logicalDirection
        obligationStatus := edge.obligationStatus
        bridgeSpecId := edge.bridgeSpecId }

section Slices

variable {R : Type} (Q : QueryRuntime R) (codec : CursorCodec)

def boundaryDigest (boundary : BoundaryState) : Digest := Q.sha256 (dumps (.obj boundary.json))

/-- What the cursors of a slice are bound to. -/
def sliceBinding (request : GraphSliceRequest) : CursorBinding where
  kind := .slice
  runId := request.runId
  revision := request.atRevision
  activityCursor := request.atCursor
  queryDigest := Q.sha256 (dumps (sliceQuery request))

/-- The claims of a traversal with the given identifiers. -/
def traversalNodes (traversal : Traversal) (claimIds : List Id) : List Product.IndexedGraphNode :=
  claimIds.filterMap fun claimId => traversal.nodes.find? (·.claimId == claimId)

/-- The page of a slice that begins at a boundary. -/
def sliceAt (graph : IndexedGraph) (request : GraphSliceRequest) (boundary : BoundaryState) :
    Except QueryError GraphSlice := do
  let traversal ← liftGraph (traverse Q.toPlatform request graph.view)
  verifyBoundary traversal.orderedIds boundary
  let start := boundary.offset
  let stop := min (start + request.nodeLimit) traversal.orderedIds.length
  let selectedIds := (traversal.orderedIds.drop start).take (stop - start)
  let nodes := traversalNodes traversal selectedIds
  let edges := pageEdges graph.database.tables request.runId selectedIds
  let boundaries := traversal.boundaries.insertionSort fun a b =>
    a.1.2 == .predecessor && b.1.2 == .successor || a.1.2 == b.1.2 && decide (a.1.1 ≤ b.1.1)
  let pageBoundary : BoundaryState := ⟨stop, selectedIds.getLast?⟩
  let truncated := decide (stop < traversal.orderedIds.length)
  return { runId := request.runId
           atRevision := request.atRevision
           contractVersion := request.contractVersion
           mode := request.mode
           nodes := nodes
           edges := edges
           groups := groups nodes
           crossRouteBoundary := ((boundaries.filter fun hit => selectedIds.contains hit.2.1).map
             fun hit => hit.2.2).take 200
           totalMatches := traversal.orderedIds.length
           returnedNodes := nodes.length
           returnedEdges := edges.length
           truncated := truncated
           continuationCursor :=
             if truncated then some (encode Q codec (sliceBinding Q request) pageBoundary) else none
           queryDigest := (sliceBinding Q request).queryDigest
           boundaryDigest := boundaryDigest Q pageBoundary }

/-- Serve a page of a slice. -/
def slice (graph : IndexedGraph) (request : GraphSliceRequest) (lagPolicy : LagPolicy) (now : Stamp)
    (continuationCursor : Option String) : Except QueryError GraphSlice × IndexedGraph :=
  match liftGraph request.validate with
  | .error error => (.error error, graph)
  | .ok _ =>
    match decodeBoundary Q codec continuationCursor (sliceBinding Q request) with
    | .error error => (.error error, graph)
    | .ok boundary =>
      alignedRead Q graph request.runId request.atCursor request.atRevision lagPolicy now
        fun graph => sliceAt Q codec graph request boundary

end Slices

/-! ## Searches -/

/-- A request for a search. -/
structure GraphSearchRequest where
  runId : Id
  atCursor : ℤ
  atRevision : ℤ
  contractVersion : ℤ
  mode : GraphMode
  text : String
  pageLimit : ℕ

/-- The checks of a request for a search. -/
def GraphSearchRequest.validate (request : GraphSearchRequest) : Except PreviewError Unit := do
  rejectIf (request.runId == "" || !isTrimmed request.runId)
    (.value "run_id must be a non-empty trimmed string")
  rejectIf (decide (request.atCursor < 0)) (.value "at_cursor must be non-negative")
  rejectIf (decide (request.atRevision < 0)) (.value "at_revision must be non-negative")
  rejectIf (decide (request.contractVersion < 1)) (.value "contract_version must be positive")
  rejectIf (request.text == "" || !isTrimmed request.text)
    (.value "text must be a non-empty trimmed string")
  rejectIf (!(decide (1 ≤ request.pageLimit) && decide (request.pageLimit ≤ 200)))
    (.value "page_limit must be between 1 and 200")

/-- What identifies a search. -/
def searchQuery (request : GraphSearchRequest) : Json :=
  .obj [("kind", .str "GRAPH_SEARCH"), ("mode", .str (modeWire request.mode)),
    ("text", .str request.text), ("page_limit", .int request.pageLimit)]

/-- A claim that a search has found. -/
structure GraphSearchHit where
  claimId : Id
  stableLabel : String
  statement : String
  lifecycle : String
  dependable : Bool
  routeId : Id

/-- A page of a search. -/
structure GraphSearchPage where
  runId : Id
  atRevision : ℤ
  contractVersion : ℤ
  mode : GraphMode
  items : List GraphSearchHit
  returned : ℕ
  total : ℕ
  truncated : Bool
  nextCursor : Option String
  queryDigest : Digest
  boundaryDigest : Digest

/-- Read a claim that was found. -/
def searchHit (row : NodeRow) : Except QueryError GraphSearchHit := do
  let routeId ← orReject row.routeId (.graph (.query "graph search node has no route_id"))
  return { claimId := row.claimId
           stableLabel := row.stableLabel
           statement := row.statement
           lifecycle := row.lifecycle
           dependable := row.dependable
           routeId := routeId }

section Searches

variable {R : Type} [LinearOrder R] (Q : QueryRuntime R) (codec : CursorCodec)

/-- The terms of a text: its longest runs of letters and digits. -/
def searchTerms (text : String) : List String :=
  ((text.toList.splitOnP fun c => !Q.isWordChar c).filter (!·.isEmpty)).map String.ofList

/-- The full-text query of a text: all of its terms, each as a prefix. -/
def ftsMatch (text : String) : Except QueryError String := do
  let terms := searchTerms Q text
  rejectIf terms.isEmpty (.graph (.value "text must contain searchable Unicode terms"))
  return " AND ".intercalate (terms.map fun term => "\"" ++ term ++ "\"*")

/-- The order of ranks, and of identifiers where ranks are equal. -/
def ranksBefore (tables : GraphTables) (query : String) (a b : FtsRow × NodeRow) : Prop :=
  Q.bm25 tables.fts query a.1 < Q.bm25 tables.fts query b.1 ∨
    Q.bm25 tables.fts query a.1 = Q.bm25 tables.fts query b.1 ∧ a.1.claimId ≤ b.1.claimId

instance (tables : GraphTables) (query : String) : DecidableRel (ranksBefore Q tables query) :=
  fun a b => inferInstanceAs (Decidable (Q.bm25 tables.fts query a.1 < Q.bm25 tables.fts query b.1 ∨
    Q.bm25 tables.fts query a.1 = Q.bm25 tables.fts query b.1 ∧ a.1.claimId ≤ b.1.claimId))

/-- The claims of a run that match a query, in order. -/
def searchRows (tables : GraphTables) (runId : Id) (mode : GraphMode) (query : String) :
    List (FtsRow × NodeRow) :=
  (((tables.fts.filter fun row => Q.ftsMatches tables.fts query row && row.runId == runId).flatMap
    fun row => (tables.nodes.filter fun node => node.runId == row.runId &&
      node.claimId == row.claimId && node.dependable == (mode == .verified)).map fun node =>
        (row, node))).insertionSort (ranksBefore Q tables query)

/-- What the cursors of a search are bound to. -/
def searchBinding (request : GraphSearchRequest) : CursorBinding where
  kind := .search
  runId := request.runId
  revision := request.atRevision
  activityCursor := request.atCursor
  queryDigest := Q.sha256 (dumps (searchQuery request))

/-- The page of a search that begins at a boundary. -/
def searchAt (graph : IndexedGraph) (request : GraphSearchRequest) (boundary : BoundaryState) :
    Except QueryError GraphSearchPage := do
  let query ← ftsMatch Q request.text
  let rows := searchRows Q graph.database.tables request.runId request.mode query
  let total := rows.length
  rejectIf (decide (total < boundary.offset)) (.stale "query cursor boundary no longer exists")
  rejectIf (decide (boundary.offset ≠ 0) &&
      decide (rows[boundary.offset - 1]?.map (·.1.claimId) ≠ boundary.lastClaimId))
    (.stale "query cursor boundary changed")
  let items ← ((rows.drop boundary.offset).take request.pageLimit).mapM fun row => searchHit row.2
  let stop := boundary.offset + items.length
  let pageBoundary : BoundaryState := ⟨stop, items.getLast?.map (·.claimId)⟩
  let truncated := decide (stop < total)
  return { runId := request.runId
           atRevision := request.atRevision
           contractVersion := request.contractVersion
           mode := request.mode
           items := items
           returned := items.length
           total := total
           truncated := truncated
           nextCursor :=
             if truncated then some (encode Q codec (searchBinding Q request) pageBoundary) else none
           queryDigest := (searchBinding Q request).queryDigest
           boundaryDigest := boundaryDigest Q pageBoundary }

/-- Serve a page of a search. -/
def search (graph : IndexedGraph) (request : GraphSearchRequest) (lagPolicy : LagPolicy)
    (now : Stamp) (continuationCursor : Option String) :
    Except QueryError GraphSearchPage × IndexedGraph :=
  match liftGraph request.validate with
  | .error error => (.error error, graph)
  | .ok _ =>
    match decodeBoundary Q codec continuationCursor (searchBinding Q request) with
    | .error error => (.error error, graph)
    | .ok boundary =>
      alignedRead Q graph request.runId request.atCursor request.atRevision lagPolicy now
        fun graph => searchAt Q codec graph request boundary

end Searches

end ResearchKernel.Product.Pages
