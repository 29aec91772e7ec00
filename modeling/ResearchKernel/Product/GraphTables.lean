import Mathlib.Algebra.Ring.Int.Defs
import ResearchKernel.Foundation.Runs
import ResearchKernel.Product.GraphQuery

/-!
# The tables of the graph index

The index is a projection of the activities of a run. The kernel says in deltas which claims
and edges were deleted and which were written; the index applies the deltas between its
watermark and a target, in one transaction, or is rebuilt from a snapshot. The claims are kept
twice: as rows, and as documents of a full-text table.
-/

namespace ResearchKernel.Product.Indexing

open Foundation

/-! ## Tables -/

/-- A row of `product_activity_events`, as the index reads it. -/
structure ActivityEventRow where
  cursor : ℕ
  runId : Option Id
  source : String
  researchRevision : Option ℕ
  kernelEventId : Option Id
  payload : Json

/-- A row of `product_graph_nodes`. The axes are kept as a JSON text. -/
structure NodeRow where
  runId : Id
  claimId : Id
  stableLabel : String
  statement : String
  lifecycle : String
  dependable : Bool
  claimType : String
  authorityAxesJson : List Char
  contractVersion : ℤ
  verificationMethod : String
  sourceWorkerRunId : Option Id
  routeId : Option Id
  sourceActivityCursor : ℕ
  sourceKernelEventId : Id

/-- A row of `product_graph_edges`. -/
structure EdgeRow where
  runId : Id
  edgeId : Id
  fromClaimId : Id
  toClaimId : Id
  logicalDirection : Direction
  bridgeSpecId : Option Id
  obligationStatus : String
  sourceActivityCursor : ℕ
  sourceKernelEventId : Id

/-- A document of `product_graph_fts`. -/
structure FtsRow where
  runId : Id
  claimId : Id
  stableLabel : String
  statement : String

/-- A row of `product_graph_index_watermarks`. -/
structure WatermarkRow where
  runId : Id
  processedCursor : ℕ
  researchRevision : ℕ
  rebuiltAt : Stamp

/-- The primary key of a claim. -/
def NodeRow.key (row : NodeRow) : Id × Id := (row.runId, row.claimId)

/-- The primary key of an edge. -/
def EdgeRow.key (row : EdgeRow) : Id × Id := (row.runId, row.edgeId)

/-- The claims, the edges and the documents of the index. -/
structure GraphTables where
  nodes : List NodeRow := []
  edges : List EdgeRow := []
  fts : List FtsRow := []

/-- The database of the index, with the activities that it is projected from. -/
structure GraphDatabase where
  activities : List ActivityEventRow := []
  tables : GraphTables := {}
  watermarks : List WatermarkRow := []

/-- What the functions below raise. -/
inductive IndexError where
  /-- `ValueError`. -/
  | value (message : String)
  /-- `GraphIndexEventError`. -/
  | event (message : String)
  /-- `GraphIndexFenceError`. -/
  | fence (message : String)
  /-- `sqlite3.IntegrityError`. -/
  | integrity
  /-- `OverflowError`: an integer does not fit into a column. -/
  | overflow

/-! ## Claims and edges of a delta -/

/-- A claim as a delta or a snapshot gives it. -/
structure IndexedGraphNode where
  claimId : Id
  stableLabel : String
  statement : String
  lifecycle : String
  dependable : Bool
  claimType : String
  authorityAxes : JsonObject
  contractVersion : ℤ
  verificationMethod : String
  sourceWorkerRunId : Option Id := none
  routeId : Option Id := none

/-- An edge as a delta or a snapshot gives it. -/
structure IndexedGraphEdge where
  edgeId : Id
  fromClaimId : Id
  toClaimId : Id
  logicalDirection : Direction
  obligationStatus : String
  bridgeSpecId : Option Id := none

/-- A text that is not empty and begins and ends with no white space. -/
def stringOf (label : String) (value : Json) : Except IndexError String := do
  let text ← orReject value.text? (.event (label ++ " must be a non-empty trimmed string"))
  rejectIf (text == "" || !isTrimmed text) (.event (label ++ " must be a non-empty trimmed string"))
  return text

/-- A text, or none for `null`. -/
def optionalStringOf (label : String) (value : Json) : Except IndexError (Option String) :=
  if value.isNull then .ok none else some <$> stringOf label value

/-- An array of texts. -/
def stringList (label : String) (value : Json) : Except IndexError (List String) := do
  let items ← orReject value.sequence? (.event (label ++ " must be an array"))
  items.mapM (stringOf label)

def mappingList (label : String) (value : Json) : Except IndexError (List JsonObject) := do
  let items ← orReject value.sequence? (.event (label ++ " must be an array of objects"))
  orReject (items.mapM Json.mapping?) (.event (label ++ " must be an array of objects"))

/-- The keys of an object are the required ones and perhaps some of the optional ones. -/
def exactKeys (P : Platform) (value : JsonObject) (required optional : List String)
    (label : String) : Except IndexError Unit :=
  let missing := sortedSet (required.filter fun key => !value.has key)
  let unknown := sortedSet ((value.map Prod.fst).filter fun key =>
    !required.contains key && !optional.contains key)
  rejectIf (!missing.isEmpty || !unknown.isEmpty)
    (.event (label ++ " keys mismatch; missing=" ++ P.repr (Json.ofTexts missing) ++
      ", unknown=" ++ P.repr (Json.ofTexts unknown)))

def truthOf : Json → Option Bool
  | .bool value => some value
  | _ => none

/-- Read a claim of a delta. -/
def nodeOf (P : Platform) (value : JsonObject) : Except IndexError IndexedGraphNode := do
  exactKeys P value ["claim_id", "stable_label", "statement", "lifecycle", "dependable",
    "claim_type", "authority_axes", "contract_version", "verification_method"]
    ["source_worker_run_id", "route_id"] "graph node"
  let axes ← orReject (value.get "authority_axes").mapping?
    (.event "authority_axes must be a non-empty object")
  rejectIf axes.isEmpty (.event "authority_axes must be a non-empty object")
  let dependable ← orReject (truthOf (value.get "dependable")) (.event "dependable must be boolean")
  let version ← orReject (value.get "contract_version").int?
    (.event "contract_version must be a positive integer")
  rejectIf (decide (version < 1)) (.event "contract_version must be a positive integer")
  return { claimId := ← stringOf "claim_id" (value.get "claim_id")
           stableLabel := ← stringOf "stable_label" (value.get "stable_label")
           statement := ← stringOf "statement" (value.get "statement")
           lifecycle := ← stringOf "lifecycle" (value.get "lifecycle")
           dependable := dependable
           claimType := ← stringOf "claim_type" (value.get "claim_type")
           authorityAxes := axes
           contractVersion := version
           verificationMethod := ← stringOf "verification_method" (value.get "verification_method")
           sourceWorkerRunId :=
             ← optionalStringOf "source_worker_run_id" (value.get "source_worker_run_id")
           routeId := ← optionalStringOf "route_id" (value.get "route_id") }

/-- Read a direction. -/
def directionOf (value : Json) : Option Direction :=
  if value.isText "FORWARD" then some .forward
  else if value.isText "REVERSE" then some .reverse
  else if value.isText "BIDIRECTIONAL" then some .bidirectional
  else none

/-- Read an edge of a delta. -/
def edgeOf (P : Platform) (value : JsonObject) : Except IndexError IndexedGraphEdge := do
  exactKeys P value ["edge_id", "from_claim_id", "to_claim_id", "logical_direction",
    "obligation_status"] ["bridge_spec_id"] "graph edge"
  let direction ← orReject (directionOf (value.get "logical_direction"))
    (.event "unknown logical_direction")
  return { edgeId := ← stringOf "edge_id" (value.get "edge_id")
           fromClaimId := ← stringOf "from_claim_id" (value.get "from_claim_id")
           toClaimId := ← stringOf "to_claim_id" (value.get "to_claim_id")
           logicalDirection := direction
           obligationStatus := ← stringOf "obligation_status" (value.get "obligation_status")
           bridgeSpecId := ← optionalStringOf "bridge_spec_id" (value.get "bridge_spec_id") }

/-! ## Writes -/

/-- The length of a text as SQLite counts it: up to the first character with code zero. -/
def sqlLength (text : String) : ℕ := (text.toList.takeWhile (·.toNat != 0)).length

/-- The largest integer of a column. -/
def maxColumn : ℤ := 2 ^ 63 - 1

/-- Write a claim and its document. -/
def upsertNode (runId : Id) (node : IndexedGraphNode) (cursor : ℕ) (kernelEventId : Id)
    (tables : GraphTables) : Except IndexError GraphTables := do
  rejectIf (decide (maxColumn < node.contractVersion)) .overflow
  -- the checks of the columns
  rejectIf ([node.stableLabel, node.statement, node.lifecycle, node.claimType,
    node.verificationMethod, kernelEventId].any (sqlLength · == 0) ||
      decide (node.contractVersion < 1)) .integrity
  return { tables with
    nodes := upsertRow NodeRow.key
      { runId := runId
        claimId := node.claimId
        stableLabel := node.stableLabel
        statement := node.statement
        lifecycle := node.lifecycle
        dependable := node.dependable
        claimType := node.claimType
        authorityAxesJson := dumps (.obj node.authorityAxes)
        contractVersion := node.contractVersion
        verificationMethod := node.verificationMethod
        sourceWorkerRunId := node.sourceWorkerRunId
        routeId := node.routeId
        sourceActivityCursor := cursor
        sourceKernelEventId := kernelEventId } tables.nodes
    fts := tables.fts.filter (fun row => !(row.runId == runId && row.claimId == node.claimId)) ++
      [{ runId := runId
         claimId := node.claimId
         stableLabel := node.stableLabel
         statement := node.statement }] }

/-- Whether a claim is indexed in a run. -/
def GraphTables.hasNode (tables : GraphTables) (runId claimId : Id) : Bool :=
  tables.nodes.any fun row => row.runId == runId && row.claimId == claimId

/-- Write an edge. Its ends are foreign keys. -/
def upsertEdge (runId : Id) (edge : IndexedGraphEdge) (cursor : ℕ) (kernelEventId : Id)
    (tables : GraphTables) : Except IndexError GraphTables := do
  rejectIf ([edge.obligationStatus, kernelEventId].any (sqlLength · == 0)) .integrity
  rejectIf (!(tables.hasNode runId edge.fromClaimId && tables.hasNode runId edge.toClaimId))
    .integrity
  return { tables with
    edges := upsertRow EdgeRow.key
      { runId := runId
        edgeId := edge.edgeId
        fromClaimId := edge.fromClaimId
        toClaimId := edge.toClaimId
        logicalDirection := edge.logicalDirection
        bridgeSpecId := edge.bridgeSpecId
        obligationStatus := edge.obligationStatus
        sourceActivityCursor := cursor
        sourceKernelEventId := kernelEventId } tables.edges }

def deleteEdge (runId : Id) (tables : GraphTables) (edgeId : Id) : GraphTables :=
  { tables with
    edges := tables.edges.filter fun row => !(row.runId == runId && row.edgeId == edgeId) }

/-- Delete a claim with its document. The edges at the claim are deleted with it. -/
def deleteNode (runId : Id) (tables : GraphTables) (claimId : Id) : GraphTables where
  nodes := tables.nodes.filter fun row => !(row.runId == runId && row.claimId == claimId)
  edges := tables.edges.filter fun row =>
    !(row.runId == runId && (row.fromClaimId == claimId || row.toClaimId == claimId))
  fts := tables.fts.filter fun row => !(row.runId == runId && row.claimId == claimId)

/-! ## Activities -/

def deltaSchema : String := "rk.product.graph_projection_delta.v1"

/-- Write the claims and the edges of a delta. -/
def applyUpserts (P : Platform) (runId : Id) (cursor : ℕ) (kernelEventId : Id)
    (payload : JsonObject) (tables : GraphTables) : Except IndexError GraphTables := do
  let nodes ← mappingList "upsert_nodes" (payload.get "upsert_nodes")
  let tables ← nodes.foldlM (fun tables value => do
    upsertNode runId (← nodeOf P value) cursor kernelEventId tables) tables
  let edges ← mappingList "upsert_edges" (payload.get "upsert_edges")
  edges.foldlM (fun tables value => do
    upsertEdge runId (← edgeOf P value) cursor kernelEventId tables) tables

/-- Delete the claims of a delta, and go on with what it writes. -/
def applyNodes (P : Platform) (runId : Id) (cursor : ℕ) (kernelEventId : Id)
    (payload : JsonObject) (tables : GraphTables) : Except IndexError GraphTables := do
  let nodeIds ← stringList "delete_node_ids" (payload.get "delete_node_ids")
  applyUpserts P runId cursor kernelEventId payload (nodeIds.foldl (deleteNode runId) tables)

/-- Apply a delta that was found to come from the kernel. -/
def applyDelta (P : Platform) (runId : Id) (cursor : ℕ) (kernelEventId : Id) (payload : JsonObject)
    (tables : GraphTables) : Except IndexError GraphTables := do
  exactKeys P payload ["type", "schema_version", "authority_effect", "upsert_nodes",
    "delete_node_ids", "upsert_edges", "delete_edge_ids"] [] "graph projection delta"
  rejectIf (!(payload.get "schema_version").isText deltaSchema)
    (.event "unknown graph projection delta schema")
  rejectIf (!(payload.get "authority_effect").isText "NO_FACT_GRAPH_WRITE")
    (.event "graph projection delta must forbid fact graph writes")
  let edgeIds ← stringList "delete_edge_ids" (payload.get "delete_edge_ids")
  applyNodes P runId cursor kernelEventId payload (edgeIds.foldl (deleteEdge runId) tables)

/-- Apply an activity; one that is no delta is passed over. -/
def applyActivity (P : Platform) (runId : Id) (targetRevision : ℤ) (tables : GraphTables)
    (row : ActivityEventRow) : Except IndexError GraphTables := do
  let payload ← orReject row.payload.mapping? (.event "activity payload must be an object")
  if (payload.get "type").isText "GRAPH_PROJECTION_DELTA" then
    let kernelEventId ← orReject
      (if row.source == "KERNEL" then row.kernelEventId.filter (· != "") else none)
      (.event "graph projection delta must be kernel-sourced")
    let revision ← orReject row.researchRevision
      (.event "graph projection delta requires research_revision")
    rejectIf (decide (targetRevision < revision))
      (.fence "graph projection delta exceeds the requested authority revision")
    applyDelta P runId row.cursor kernelEventId payload tables
  else .ok tables

/-! ## Watermarks -/

/-- How far a run is indexed. -/
structure GraphIndexWatermark where
  runId : Id
  processedCursor : ℕ
  researchRevision : ℕ
  rebuiltAt : Option Stamp

/-- The watermark of a run; the start when there is none. -/
def GraphDatabase.watermark (db : GraphDatabase) (runId : Id) : GraphIndexWatermark :=
  match db.watermarks.find? (·.runId == runId) with
  | none => ⟨runId, 0, 0, none⟩
  | some row => ⟨runId, row.processedCursor, row.researchRevision, some row.rebuiltAt⟩

def writeWatermark (runId : Id) (cursor revision : ℕ) (rebuiltAt : Stamp) (db : GraphDatabase) :
    Except IndexError GraphDatabase := do
  rejectIf (decide (maxColumn < revision)) .overflow
  return { db with
    watermarks := upsertRow WatermarkRow.runId ⟨runId, cursor, revision, rebuiltAt⟩ db.watermarks }

/-- A run identifier is not empty and begins and ends with no white space. -/
def nonempty (label text : String) : Except IndexError Unit :=
  rejectIf (text == "" || !isTrimmed text) (.value (label ++ " must be a non-empty trimmed string"))

/-- A fence has no negative part. -/
def checkFence (cursor revision : ℤ) : Except IndexError Unit := do
  rejectIf (decide (cursor < 0)) (.value "cursor must be a non-negative integer")
  rejectIf (decide (revision < 0)) (.value "revision must be a non-negative integer")

/-- A fence lies ahead of the watermark, or at it. -/
def requireForward (current : GraphIndexWatermark) (cursor revision : ℤ) :
    Except IndexError Unit := do
  rejectIf (decide (cursor < current.processedCursor))
    (.fence "target cursor precedes the processed cursor")
  if cursor = current.processedCursor then
    rejectIf (decide (revision ≠ current.researchRevision))
      (.fence "one cursor cannot be rebound to another revision")
  else
    rejectIf (decide (revision < current.researchRevision))
      (.fence "target revision precedes the indexed authority revision")

def GraphDatabase.lastCursor (db : GraphDatabase) : ℕ :=
  (db.activities.map (·.cursor)).foldl max 0

/-- Activities are recorded up to the cursor. -/
def requireReachable (db : GraphDatabase) (cursor : ℤ) : Except IndexError Unit :=
  rejectIf (decide ((db.lastCursor : ℤ) < cursor))
    (.fence "target cursor is beyond durable product activity")

/-! ## Transactions -/

/-- The activities of a run after one cursor and up to another, in order. -/
def activitiesBetween (activities : List ActivityEventRow) (runId : Id) (first last : ℤ) :
    List ActivityEventRow :=
  (activities.filter fun row => row.runId == some runId &&
    (decide (first < row.cursor) && decide ((row.cursor : ℤ) ≤ last))).insertionSort
      fun a b => a.cursor ≤ b.cursor

/-- Bring the index of a run to a fence. -/
def catchUp (P : Platform) (runId : Id) (targetCursor targetRevision : ℤ) (now : Stamp)
    (db : GraphDatabase) : Except IndexError GraphDatabase := do
  nonempty "run_id" runId
  checkFence targetCursor targetRevision
  let current := db.watermark runId
  requireForward current targetCursor targetRevision
  requireReachable db targetCursor
  let rows := activitiesBetween db.activities runId current.processedCursor targetCursor
  let tables ← rows.foldlM (applyActivity P runId targetRevision) db.tables
  writeWatermark runId targetCursor.toNat targetRevision.toNat now { db with tables := tables }

/-- What the kernel says of the graph of a run at a fence. -/
structure GraphAuthoritySnapshot where
  runId : Id
  processedCursor : ℤ
  researchRevision : ℤ
  sourceKernelEventId : Id
  capturedAt : Stamp
  nodes : List IndexedGraphNode
  edges : List IndexedGraphEdge

/-- The checks of a snapshot. -/
def GraphAuthoritySnapshot.validate (snapshot : GraphAuthoritySnapshot) :
    Except IndexError Unit := do
  rejectIf (!decide (snapshot.nodes.map (·.claimId)).Nodup)
    (.value "authority snapshot contains duplicate claim_id")
  rejectIf (!decide (snapshot.edges.map (·.edgeId)).Nodup)
    (.value "authority snapshot contains duplicate edge_id")
  rejectIf (snapshot.edges.any fun edge =>
      !((snapshot.nodes.map (·.claimId)).contains edge.fromClaimId &&
        (snapshot.nodes.map (·.claimId)).contains edge.toClaimId))
    (.value "authority snapshot edge endpoint is absent")

/-- Delete what is indexed of a run. -/
def GraphTables.withoutRun (tables : GraphTables) (runId : Id) : GraphTables where
  nodes := tables.nodes.filter (·.runId != runId)
  edges := tables.edges.filter (·.runId != runId)
  fts := tables.fts.filter (·.runId != runId)

/-- Replace the index of a run by a snapshot. -/
def rebuild (snapshot : GraphAuthoritySnapshot) (db : GraphDatabase) :
    Except IndexError GraphDatabase := do
  checkFence snapshot.processedCursor snapshot.researchRevision
  nonempty "run_id" snapshot.runId
  nonempty "source_kernel_event_id" snapshot.sourceKernelEventId
  nonempty "captured_at" snapshot.capturedAt
  snapshot.validate
  requireReachable db snapshot.processedCursor
  let cursor := snapshot.processedCursor.toNat
  let tables ← snapshot.nodes.foldlM (fun tables node =>
    upsertNode snapshot.runId node cursor snapshot.sourceKernelEventId tables)
      (db.tables.withoutRun snapshot.runId)
  let tables ← snapshot.edges.foldlM (fun tables edge =>
    upsertEdge snapshot.runId edge cursor snapshot.sourceKernelEventId tables) tables
  writeWatermark snapshot.runId cursor snapshot.researchRevision.toNat snapshot.capturedAt
    { db with tables := tables }

/-- A transaction either commits or, when it raises, is rolled back. -/
def transaction (body : GraphDatabase → Except IndexError GraphDatabase) (db : GraphDatabase) :
    Except IndexError Unit × GraphDatabase :=
  match body db with
  | .ok db' => (.ok (), db')
  | .error error => (.error error, db)

/-! ## Runs -/

/-- What happens to the database of the index. -/
inductive IndexOp where
  /-- An activity is recorded, of whatever source. -/
  | recorded (row : ActivityEventRow)
  /-- A run is brought to a fence. -/
  | catchUp (runId : Id) (targetCursor targetRevision : ℤ) (now : Stamp)
  /-- A run is rebuilt. -/
  | rebuild (snapshot : GraphAuthoritySnapshot)

/-- One operation. A new activity has a cursor above all that were given. -/
def step (P : Platform) (db : GraphDatabase) : IndexOp → GraphDatabase
  | .recorded row =>
    if db.lastCursor < row.cursor then { db with activities := db.activities ++ [row] } else db
  | .catchUp runId cursor revision now => (transaction (catchUp P runId cursor revision now) db).2
  | .rebuild snapshot => (transaction (rebuild snapshot) db).2

def reached (P : Platform) (history : List IndexOp) : GraphDatabase :=
  runFrom (step P) {} history

end ResearchKernel.Product.Indexing
