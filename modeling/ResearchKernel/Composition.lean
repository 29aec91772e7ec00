import ResearchKernel.Foundation.Kahn
import ResearchKernel.Canonical
import ResearchKernel.Decision
import ResearchKernel.MachineTrust

/-!
# Closure witnesses

A closure witness selects a part of the claim graph and says how the obligations of a
parent claim are discharged in it. The validator compares the selected part with the
registered rows, checks its shape as a graph, and then applies the rules of the mode in
which the witness composes.
-/

namespace ResearchKernel

open Foundation

/-! ## The selected subgraph -/

/-- The fields that a selected subgraph must have, in alphabetical order. -/
def subgraphFields : List String :=
  ["bridges", "claims", "contract_version", "cuts", "edges", "obligations", "parent", "run_id",
    "schema"]

/-- The shape of a selected subgraph, or the text of the error. -/
def validateSubgraphShape (subgraph : JsonObject) : Except String Unit := do
  let missing := subgraphFields.filter fun name => !subgraph.has name
  rejectIf (!missing.isEmpty) ("selected subgraph missing fields: " ++ ",".intercalate missing)
  rejectIf (!(subgraph.get "schema").isText "rk.cgraph.v1")
    "selected subgraph schema must be rk.cgraph.v1"
  rejectIf (subgraph.get "contract_version").int?.isNone "contract_version must be an integer"
  rejectIf (subgraph.get "parent").mapping?.isNone "parent must be an object"
  checkAll (fun key => rejectIf (subgraph.get key.1).sequence?.isNone (key.1 ++ " must be an array"))
    collectionKeys

/-- The digest of a selected subgraph: the hash of its canonical text after a version line. -/
def selectedSubgraphDigest (P : Platform) (subgraph : JsonObject) : Except String Digest := do
  validateSubgraphShape subgraph
  let text ← canonicalJsonBytes P (.obj subgraph)
  return P.sha256 ("rk.cgraph.v1\n".toList ++ text)

/-- The entries of a JSON collection that are objects with a text as identifier. -/
def jsonRecords (idKey : String) (items : List Json) : List (Id × JsonObject) :=
  dictOf (items.filterMap fun item => do
    let fields ← item.mapping?
    let id ← (fields.get idKey).text?
    return (id, fields))

/-- What a witness selects, as the validator reads it. -/
structure Selected where
  parent : JsonObject
  claims : List (Id × JsonObject)
  edges : List (Id × JsonObject)
  obligations : List (Id × JsonObject)
  bridges : List (Id × JsonObject)
  cuts : List Json

/-- The array held under a key. -/
def JsonObject.items (o : JsonObject) (key : String) : List Json :=
  ((o.get key).sequence?).getD []

/-- Read a selected subgraph. -/
def Selected.ofSubgraph (subgraph : JsonObject) : Selected where
  parent := ((subgraph.get "parent").mapping?).getD []
  claims := jsonRecords "claim_id" (subgraph.items "claims")
  edges := jsonRecords "edge_id" (subgraph.items "edges")
  obligations := jsonRecords "obligation_id" (subgraph.items "obligations")
  bridges := jsonRecords "bridge_id" (subgraph.items "bridges")
  cuts := subgraph.items "cuts"

/-- The identifiers of the selected claims. -/
def Selected.claimIds (selected : Selected) : List Id := selected.claims.map Prod.fst

/-! ## Arcs -/

/-- The arcs of an edge, by its direction; none when it is not well formed. -/
def directedArcs (source target direction : Json) : List (Id × Id) :=
  match source, target with
  | .str source, .str target =>
    if direction.isText "FORWARD" then [(source, target)]
    else if direction.isText "REVERSE" then [(target, source)]
    else if direction.isText "BIDIRECTIONAL" then [(source, target), (target, source)]
    else []
  | _, _ => []

def selectedArcs (edge : JsonObject) : List (Id × Id) :=
  directedArcs (edge.getOr "from" (edge.get "from_claim_id"))
    (edge.getOr "to" (edge.get "to_claim_id")) (edge.get "direction")

/-- The arcs of a registered edge. -/
def ClaimEdge.arcs (edge : ClaimEdge) : List (Id × Id) :=
  directedArcs (.str edge.fromClaimId) (.str edge.toClaimId) (.str edge.direction.wire)

/-- The texts of the logical edge kinds. -/
def logicalEdgeKinds : List String := ["IMPLIES", "DEPENDS_ON", "SPECIALIZES", "GENERALIZES"]

/-- Whether a selected edge is logical. -/
def selectedIsLogical (edge : JsonObject) : Bool :=
  logicalEdgeKinds.any fun kind => (edge.get "edge_kind").isText kind

def Selected.logicalArcs (selected : Selected) : List (Id × Id) :=
  selected.edges.flatMap fun entry =>
    if selectedIsLogical entry.2 then selectedArcs entry.2 else []

/-- The arcs between nodes of a set. -/
def arcsWithin (nodes : List Id) (arcs : List (Id × Id)) : List (Id × Id) :=
  arcs.filter fun arc => nodes.contains arc.1 && nodes.contains arc.2

/-- Sorted identifiers. -/
def sorted (ids : List Id) : List Id := ids.insertionSort (· ≤ ·)

theorem perm_sorted (ids : List Id) : (sorted ids).Perm ids := List.perm_insertionSort _ _

/-- Ready nodes are kept in order, and so are the targets of a node. -/
def sortedDiscipline : Discipline Id where
  queue ready node := sorted (ready ++ [node])
  order := sorted
  queue_perm ready node := (perm_sorted _).trans (List.perm_append_singleton node ready)
  order_perm := perm_sorted

/-- Whether the arcs between the nodes have a cycle. -/
def hasCycle (nodes : List Id) (arcs : List (Id × Id)) : Bool :=
  (kahn sortedDiscipline (sorted nodes) (arcsWithin nodes arcs)).length != nodes.length

/-- The nodes that can reach the parent along the arcs between the nodes. -/
def canReachParent (nodes : List Id) (arcs : List (Id × Id)) (parentId : Id) : List Id :=
  reachableFrom ((arcsWithin nodes arcs).map Prod.swap) [parentId]

/-! ## Comparison with the registered rows -/

/-- Whether a selected claim is registered, active and current with the selected statement. -/
def claimMatches (snapshot : Snapshot) (version : ℕ) (id : Id) (selected : JsonObject) : Bool :=
  match snapshot.claim? id with
  | none => false
  | some registered =>
    registered.lifecycleStatus == .active && registered.contractVersion == version &&
      (selected.get "contract_version").eqv (.int version) &&
      (selected.get "statement_hash").isText registered.statementHash &&
      (selected.getOr "statement_revision" (.int 1)).eqv (.int registered.statementRevision)

/-- Check the scope of a witness and find its parent claim. -/
def checkParent (snapshot : Snapshot) (payload : SubmitClosureWitness) (selected : Selected) :
    Checked Claim := do
  let version := payload.contractVersion
  rejectIf
    (version != snapshot.currentContractVersion ||
      !(payload.selectedSubgraph.get "contract_version").eqv (.int version) ||
      !(selected.parent.get "claim_id").isText payload.parentClaimId ||
      !(payload.selectedSubgraph.get "run_id").isText snapshot.runId)
    (refuse .evidenceScopeMismatch "CONTRACT_VERSION" "/command/payload/contract_version")
  let notFound := refuse .evidenceScopeMismatch "OBJECT_NOT_FOUND"
    "/command/payload/parent_claim_id" [("claim_id", .str payload.parentClaimId)]
  rejectIf (!selected.claimIds.contains payload.parentClaimId) notFound
  let parent ← orReject (snapshot.claim? payload.parentClaimId) notFound
  rejectIf
    (parent.lifecycleStatus != .active || parent.contractVersion != version ||
      !(selected.parent.get "statement_hash").isText parent.statementHash ||
      !(selected.parent.getOr "statement_revision" (.int 1)).eqv (.int parent.statementRevision))
    (refuse .evidenceScopeMismatch "EVIDENCE_SCOPE" "/command/payload/selected_subgraph/parent")
  return parent

/-- Check every selected claim against its row. -/
def checkClaims (snapshot : Snapshot) (version : ℕ) (selected : Selected) : Checked Unit :=
  checkAll (fun entry =>
    rejectIf (!claimMatches snapshot version entry.1 entry.2)
      (refuse .evidenceScopeMismatch "OBJECT_SCOPE" "/command/payload/selected_subgraph/claims"
        [("claim_id", .str entry.1)])) selected.claims

/-- Check one selected edge against its row, and a logical one for its justification. -/
def checkEdge (snapshot : Snapshot) (payload : SubmitClosureWitness) (id : Id)
    (selected : JsonObject) : Checked Unit := do
  let path := "/command/payload/selected_subgraph/edges"
  let registered ← orReject
    ((snapshot.edge? id).filter fun edge =>
      edge.status == .active && edge.contractVersion == payload.contractVersion)
    (refuse .evidenceScopeMismatch "OBJECT_SCOPE" path [("edge_id", .str id)])
  rejectIf
    (selectedArcs selected != registered.arcs ||
      !(selected.get "edge_kind").isText registered.edgeKind.wire)
    (refuse .evidenceScopeMismatch "EVIDENCE_SCOPE" path [("edge_id", .str id)])
  if selectedIsLogical selected then
    let justifications := jsonRecords "edge_id" (payload.edgeJustifications.map .obj)
    let justified := match justifications.lookup id with
      | none => false
      | some justification =>
        (selected.get "justification_kind").truthy && (selected.get "justification_ref").truthy &&
          (justification.get "justification_ref").eqv (selected.get "justification_ref")
    rejectIf (!justified)
      (refuse .compositionOpen "EDGE_JUSTIFICATION" "/command/payload/edge_justifications"
        [("edge_id", .str id)])

def checkEdges (snapshot : Snapshot) (payload : SubmitClosureWitness) (selected : Selected) :
    Checked Unit :=
  checkAll (fun entry => checkEdge snapshot payload entry.1 entry.2) selected.edges

/-- Check that the selected graph has no cycle and that every claim leads to the parent. -/
def checkGraph (parentId : Id) (selected : Selected) : Checked Unit := do
  rejectIf (hasCycle selected.claimIds selected.logicalArcs)
    (refuse .compositionOpen "SOURCE_GRAPH" "/command/payload/selected_subgraph/edges"
      [("reason", .str "cycle")])
  let reached := canReachParent selected.claimIds selected.logicalArcs parentId
  let unreachable := sorted (selected.claimIds.filter fun id => !reached.contains id)
  rejectIf (!unreachable.isEmpty)
    (refuse .compositionOpen "SOURCE_GRAPH" "/command/payload/selected_subgraph/claims"
      [("unreachable", Json.ofTexts unreachable)])

/-- The claims from which a cut says it comes. -/
def cutSources (cut : JsonObject) : Checked (List Json) := do
  let sources ← iterate (cut.getOr "from_claim_ids" (.arr []))
  rejectIf (sources.any Json.unhashable) .raised
  return sources

/-- Whether a cut declares a registered edge, by its identifier or by one of its arcs. -/
def cutCoversEdge (cut : JsonObject) (edgeId : Id) (edge : ClaimEdge) : Checked Bool := do
  if (cut.getOr "edge_id" (cut.get "boundary_edge_id")).isText edgeId then
    return true
  else
    let sources ← cutSources cut
    return edge.arcs.any fun arc =>
      sources.any (·.isText arc.1) && (cut.get "to_claim_id").isText arc.2

/-- The registered active logical edges that cross the border of the selected claims. -/
def boundaryEdges (snapshot : Snapshot) (version : ℕ) (claimIds : List Id) :
    List (Id × ClaimEdge) :=
  (records (·.edgeId) snapshot.edges).filter fun entry =>
    entry.2.status == .active && entry.2.contractVersion == version &&
      entry.2.edgeKind.isLogical &&
      entry.2.arcs.any fun arc => claimIds.contains arc.1 != claimIds.contains arc.2

/-- Check that every edge across the border is declared by a cut. -/
def checkBoundary (snapshot : Snapshot) (version : ℕ) (selected : Selected) : Checked Unit := do
  let cuts := selected.cuts.filterMap Json.mapping?
  let undeclared ← failing
    (fun entry => anyPasses (fun cut => cutCoversEdge cut entry.1 entry.2) cuts)
    (boundaryEdges snapshot version selected.claimIds)
  rejectIf (!undeclared.isEmpty)
    (refuse .compositionOpen "OPEN_OBLIGATION" "/command/payload/selected_subgraph/cuts"
      [("undeclared_boundary_edges", Json.ofTexts (sorted (undeclared.map Prod.fst)))])

/-- Whether a bridge may be crossed along an arc. -/
def bridgeDirectionValid (bridge : Bridge) (arc : Id × Id) : Bool :=
  match bridge.directionality with
  | .equivalentValid =>
    arc == (bridge.sourceClaimId, bridge.targetClaimId) ||
      arc == (bridge.targetClaimId, bridge.sourceClaimId)
  | .oneWayValid => arc == (bridge.sourceClaimId, bridge.targetClaimId)
  | _ => false

/-- The arcs of the selected edges that say they rest on a bridge. -/
def bridgeTraversals (selected : Selected) (bridgeId : Id) : List (Id × Id) :=
  selected.edges.flatMap fun entry =>
    if (entry.2.get "justification_kind").isText "BRIDGE" &&
        (entry.2.get "justification_ref").isText bridgeId then selectedArcs entry.2 else []

/-- Check one selected bridge against its row and its use. -/
def checkBridge (snapshot : Snapshot) (version : ℕ) (selected : Selected) (id : Id)
    (fields : JsonObject) : Checked Unit := do
  let path := "/command/payload/selected_subgraph/bridges"
  let registered ← orReject
    ((snapshot.bridge? id).filter fun bridge =>
      bridge.contractVersion == version &&
        (fields.get "directionality").isText bridge.directionality.wire)
    (refuse .evidenceScopeMismatch "OBJECT_SCOPE" path [("bridge_id", .str id)])
  let traversals := bridgeTraversals selected id
  rejectIf (traversals.isEmpty || !traversals.all (bridgeDirectionValid registered))
    (refuse .compositionOpen "BRIDGE_DIRECTION" path [("bridge_id", .str id)])

/-- Check that exactly the selected bridges are declared, and each of them. -/
def checkBridges (snapshot : Snapshot) (payload : SubmitClosureWitness) (selected : Selected) :
    Checked Unit := do
  rejectIf (!sameSet payload.bridgeDependencyIds (selected.bridges.map Prod.fst))
    (refuse .compositionOpen "BRIDGE_DIRECTION" "/command/payload/bridge_dependency_ids")
  checkAll (fun entry =>
    checkBridge snapshot payload.contractVersion selected entry.1 entry.2) selected.bridges

/-! ## Obligations -/

/-- The obligations of the parent that a witness has to discharge. -/
def requiredObligationIds (snapshot : Snapshot) (parentId : Id) (version : ℕ) : List Id :=
  ((records (·.obligationId) snapshot.obligations).filter fun entry =>
    entry.2.parentClaimId == parentId && entry.2.contractVersion == version &&
      entry.2.status != .invalidated).map Prod.fst

/-- Check that the required obligations are selected and that all are discharged. -/
def checkObligationIds (snapshot : Snapshot) (payload : SubmitClosureWitness)
    (selected : Selected) : Checked Unit := do
  let required := requiredObligationIds snapshot payload.parentClaimId payload.contractVersion
  let selectedIds := selected.obligations.map Prod.fst
  rejectIf (!sameSet selectedIds required)
    (refuse .compositionOpen "OPEN_OBLIGATION" "/command/payload/selected_subgraph/obligations"
      [("missing", Json.ofTexts (sorted (required.filter fun id => !selectedIds.contains id))),
        ("extra", Json.ofTexts (sorted (selectedIds.filter fun id => !required.contains id)))])
  let path := "/command/payload/open_obligation_ids"
  rejectIf
    (payload.dischargedObligationIds.any payload.openObligationIds.contains ||
      !sameSet (payload.dischargedObligationIds ++ payload.openObligationIds) required)
    (refuse .compositionOpen "OPEN_OBLIGATION" path)
  rejectIf (!payload.openObligationIds.isEmpty)
    (refuse .compositionOpen "OPEN_OBLIGATION" path
      [("ids", Json.ofTexts (sorted payload.openObligationIds))])

/-- A part of an obligation: as selected where the selection gives it, else as registered.
A registered obligation has all six parts, so none is ever missing. -/
def obligationPart (selected : JsonObject) (name : String) (registered : Part) : JsonObject :=
  let nested := ((selected.getOr "parts" (.obj [])).mapping?).bind fun parts =>
    (parts.get name).mapping?
  match nested.or (selected.get name).mapping? with
  | some part => part
  | none => [("ref", .str registered.ref), ("status", .str registered.status.wire)]

/-- The six parts of a selected obligation. -/
def obligationParts (selected : JsonObject) (registered : Obligation) :
    List (String × JsonObject) :=
  registered.parts.named.map fun part => (part.1, obligationPart selected part.1 part.2)

/-- The texts of the part statuses. -/
def partStatusTexts : List String := ["MACHINE_CHECKED", "HUMAN_ATTESTED", "OPEN", "NOT_APPLICABLE"]

/-- Check one part of a selected obligation and give its status. -/
def checkPart (obligationId : Id) (part : String × JsonObject) : Checked (List Json) := do
  let refusal := refuse .compositionOpen "OPEN_OBLIGATION"
    ("/command/payload/selected_subgraph/obligations/" ++ obligationId ++ "/" ++ part.1)
  rejectIf (!(part.2.get "ref").truthy) refusal
  let known ← isOneOf (part.2.get "status") partStatusTexts
  rejectIf (!known) refusal
  return [part.2.get "status"]

/-- Check one selected obligation against its row and give the statuses of its parts. -/
def checkObligation (snapshot : Snapshot) (entry : Id × JsonObject) : Checked (List Json) := do
  let path := "/command/payload/selected_subgraph/obligations"
  let registered ← orReject (snapshot.obligation? entry.1) .raised
  rejectIf (!(entry.2.get "composition_rule").isText registered.compositionRule.wire)
    (refuse .evidenceScopeMismatch "EVIDENCE_SCOPE" path [("obligation_id", .str entry.1)])
  let statuses ← collect (checkPart entry.1) (obligationParts entry.2 registered)
  rejectIf (!(entry.2.get "closure_theorem_ref").truthy)
    (refuse .compositionOpen "CLOSURE_WITNESS" path [("obligation_id", .str entry.1)])
  return statuses

/-- Check the selected obligations, none of whose parts may be open. -/
def checkObligations (snapshot : Snapshot) (selected : Selected) : Checked (List Json) := do
  let statuses ← collect (checkObligation snapshot) selected.obligations
  rejectIf (statuses.any (·.isText "OPEN"))
    (refuse .compositionOpen "OPEN_OBLIGATION" "/command/payload/selected_subgraph/obligations")
  return statuses

/-! ## Machine references and reviews -/

/-- What the machine references of a witness have to cover. -/
def machineCoverage (selected : Selected) : List String :=
  selected.claims.map (fun entry => "claim:" ++ entry.1) ++
    selected.edges.map (fun entry => "edge:" ++ entry.1) ++
    selected.obligations.map (fun entry => "obligation:" ++ entry.1) ++
    selected.obligations.flatMap (fun entry =>
      partNames.map fun name => "obligation:" ++ entry.1 ++ ":" ++ name) ++
    selected.obligations.map (fun entry => "closure:" ++ entry.1)

/-- The texts that a machine reference declares to cover; none when they are not all texts. -/
def declaredCoverage (manifest : JsonObject) : Option (List String) := do
  let tokens ← (manifest.get "covers").sequence?
  let texts ← tokens.mapM Json.text?
  require (texts.all (· != ""))
  return texts

/-- The claim and the coverage of one machine reference; none when it is not trusted. -/
def manifestCoverage (P : Platform) (snapshot : Snapshot) (version : ℕ) (selected : Selected)
    (manifest : JsonObject) : Option (Id × List String) := do
  let claimId := (manifest.get "claim_id").toText P
  let item ← snapshot.evidence? ((manifest.get "evidence_id").toText P)
  let claim ← snapshot.claim? claimId
  require (selected.claimIds.contains claimId)
  let declared ← declaredCoverage manifest
  require (machineEvidenceIsTrusted snapshot item claim version .leanReplay)
  return (claimId, declared)

/-- Whether every machine reference is trusted and together they cover what they have to. -/
def allMachineRefsValid (P : Platform) (snapshot : Snapshot) (version : ℕ) (selected : Selected)
    (manifests : List JsonObject) : Bool :=
  !manifests.isEmpty &&
    match manifests.mapM (manifestCoverage P snapshot version selected) with
    | none => false
    | some covered =>
      sameSet (covered.map Prod.fst) selected.claimIds &&
        (machineCoverage selected).all (covered.flatMap Prod.snd).contains

/-- Whether a review may support the closure of the parent. -/
def reviewIsAcceptable (P : Platform) (parentId : Id) (version : ℕ) (digest : Digest)
    (review : PeerReview) : Bool :=
  review.promotionEligible && review.claimId == parentId && review.contractVersion == version &&
    review.selectedSubgraphDigest == some digest &&
    signedHumanCheck P (review.checklist.get "proof_checked") &&
    signedHumanCheck P (review.checklist.get "scope_checked")

/-- The number of reviewers that a closure by review needs. -/
def closureThreshold (policy : Policy) (parent : Claim) : ℤ :=
  policy.peerClosureReviewers.getD
    (policy.peerReviewThreshold.getD (if parent.claimKind == .root then 2 else 1))

/-- The acceptable reviews among those a witness names. -/
def acceptedReviews (P : Platform) (snapshot : Snapshot) (payload : SubmitClosureWitness)
    (digest : Digest) : List PeerReview :=
  (payload.humanAttestationReviewIds.filterMap snapshot.review?).filter
    (reviewIsAcceptable P payload.parentClaimId payload.contractVersion digest)

/-- The number of distinct reviewers of some reviews. -/
def reviewerCount (reviews : List PeerReview) : ℕ :=
  (reviews.map (·.reviewerCapabilityId)).dedup.length

/-- Whether enough reviews by enough reviewers support the closure. -/
def reviewsSatisfy (threshold : ℤ) (reviews : List PeerReview) : Bool :=
  threshold ≤ reviews.length && threshold ≤ reviewerCount reviews

/-- Whether the signed checks of a review cover the six parts of every selected obligation. -/
def signedReviewCoversAllHumanParts (P : Platform) (snapshot : Snapshot) (selected : Selected)
    (review : PeerReview) : Bool :=
  match (review.checklist.get "six_parts").mapping? with
  | none => false
  | some signed =>
    signed.hasExactly partNames && partNames.all (fun name => signedHumanCheck P (signed.get name)) &&
      selected.obligations.all fun entry =>
        match snapshot.obligation? entry.1 with
        | none => false
        | some registered => (obligationParts entry.2 registered).all fun part =>
          !(part.2.get "status").isText "HUMAN_ATTESTED" || (part.2.get "ref").truthy

/-! ## The three modes -/

/-- The texts of the justifications and rules that a machine can check. -/
def machineRules : List String := ["LEAN_DECLARATION", "CHECKER_PROFILE"]

/-- The rules of the registered obligations that are selected. -/
def selectedRules (snapshot : Snapshot) (selected : Selected) : List CompositionRule :=
  selected.obligations.filterMap fun entry => (snapshot.obligation? entry.1).map (·.compositionRule)

/-- Whether the selected logical edges all carry a machine justification. -/
def directEdgesAreMachine (selected : Selected) : Checked Bool :=
  allPass (fun entry => isOneOf (entry.2.get "justification_kind") machineRules)
    (selected.edges.filter fun entry => selectedIsLogical entry.2)

/-- Whether the selected logical edges all carry a human justification. -/
def directEdgesAreHuman (selected : Selected) : Bool :=
  (selected.edges.filter fun entry => selectedIsLogical entry.2).all fun entry =>
    (entry.2.get "justification_kind").isText "HUMAN_ARGUMENT"

/-- Closure by machine checks alone. -/
def closeByMachine (P : Platform) (snapshot : Snapshot) (payload : SubmitClosureWitness)
    (selected : Selected) (statuses : List Json) : Checked ClosureState := do
  let direct ← directEdgesAreMachine selected
  rejectIf
    (statuses.any (·.isText "HUMAN_ATTESTED") ||
      (selectedRules snapshot selected).any fun rule =>
        !machineRules.contains rule.wire && !(rule == .directEdge && direct))
    (refuse .evidenceInsufficient "MACHINE_REPLAY" "/command/payload/composition_mode")
  rejectIf
    (!payload.humanAttestationReviewIds.isEmpty ||
      !allMachineRefsValid P snapshot payload.contractVersion selected payload.verificationRefs)
    (refuse .replayFailed "MACHINE_REPLAY" "/command/payload/verification_refs")
  return .closedMachine

/-- Closure by signed reviews alone. -/
def closeByPeer (P : Platform) (snapshot : Snapshot) (payload : SubmitClosureWitness)
    (selected : Selected) (statuses : List Json) (threshold : ℤ) (reviews : List PeerReview) :
    Checked ClosureState := do
  rejectIf
    (statuses.any (·.isText "MACHINE_CHECKED") ||
      (selectedRules snapshot selected).any fun rule =>
        rule != .humanArgument && !(rule == .directEdge && directEdgesAreHuman selected))
    (refuse .evidenceInsufficient "PEER_APPROVAL" "/command/payload/composition_mode")
  rejectIf
    (!payload.verificationRefs.isEmpty || !reviewsSatisfy threshold reviews || reviews.isEmpty ||
      !reviews.all (signedReviewCoversAllHumanParts P snapshot selected))
    (refuse .independenceUnknown "INDEPENDENT_REVIEW"
      "/command/payload/human_attestation_review_ids" [("required", .int threshold)])
  return .closedHuman

def cutPath (index : ℕ) : String :=
  "/command/payload/selected_subgraph/cuts/" ++ toString index

/-- The acceptable reviews that a cut names. -/
def cutReviews (P : Platform) (snapshot : Snapshot) (payload : SubmitClosureWitness)
    (digest : Digest) (cut : JsonObject) : Checked (List PeerReview) := do
  let ids ← iterate (cut.getOr "human_review_ids" (.arr []))
  rejectIf (ids.any Json.unhashable) .raised
  return ((ids.filterMap Json.text?).filterMap snapshot.review?).filter
    (reviewIsAcceptable P payload.parentClaimId payload.contractVersion digest)

/-- Check one cut of a hybrid closure. -/
def checkCut (P : Platform) (snapshot : Snapshot) (payload : SubmitClosureWitness)
    (selected : Selected) (digest : Digest) (threshold : ℤ) (entry : Json × ℕ) :
    Checked Unit := do
  let path := cutPath entry.2
  let cut ← orReject entry.1.mapping? (refuse .compositionOpen "CLOSURE_WITNESS" path)
  let kind := cut.get "kind"
  rejectIf (kind.isText "OPEN") (refuse .compositionOpen "OPEN_OBLIGATION" path)
  if kind.isText "MACHINE_CHECKED" then
    let refusal := refuse .replayFailed "MACHINE_REPLAY" path
    let machine ← isOneOf (cut.get "rule") machineRules
    rejectIf (!machine) refusal
    let refs ← iterate (cut.getOr "verification_refs" (.arr []))
    rejectIf
      (!allMachineRefsValid P snapshot payload.contractVersion selected
        (refs.filterMap Json.mapping?)) refusal
  else if kind.isText "HUMAN_ATTESTED" then
    let reviews ← cutReviews P snapshot payload digest cut
    rejectIf (decide ((reviewerCount reviews : ℤ) < threshold))
      (refuse .independenceUnknown "INDEPENDENT_REVIEW" path [("required", .int threshold)])
  else
    rejectIf true (refuse .compositionOpen "CLOSURE_WITNESS" (path ++ "/kind"))

/-- Closure by machine checks and reviews together, cut by cut. -/
def closeByHybrid (P : Platform) (snapshot : Snapshot) (payload : SubmitClosureWitness)
    (selected : Selected) (digest : Digest) (threshold : ℤ) (reviews : List PeerReview) :
    Checked ClosureState := do
  rejectIf selected.cuts.isEmpty
    (refuse .compositionOpen "CLOSURE_WITNESS" "/command/payload/selected_subgraph/cuts")
  checkAll (checkCut P snapshot payload selected digest threshold) selected.cuts.zipIdx
  rejectIf
    (!allMachineRefsValid P snapshot payload.contractVersion selected payload.verificationRefs ||
      !reviewsSatisfy threshold reviews)
    (.reject .evidenceInsufficient
      [{ code := "MACHINE_REPLAY", path := "/command/payload/verification_refs" },
        { code := "INDEPENDENT_REVIEW", path := "/command/payload/human_attestation_review_ids",
          params := [("required", .int threshold)] }])
  return .closedHybrid

/-- The digest of the selected subgraph, or a rejection that gives the reason. -/
def checkedDigest (P : Platform) (payload : SubmitClosureWitness) : Checked Digest :=
  match selectedSubgraphDigest P payload.selectedSubgraph with
  | .ok digest => .ok digest
  | .error reason => .error (refuse .evidenceScopeMismatch "SOURCE_GRAPH"
      "/command/payload/selected_subgraph" [("reason", .str reason)])

/-- Validate a closure witness; the result is the closure it gives to the parent. -/
def validateClosureWitness (P : Platform) (snapshot : Snapshot) (payload : SubmitClosureWitness)
    (policy : Policy) : Checked ClosureState := do
  let digest ← checkedDigest P payload
  rejectIf (payload.selectedSubgraphDigest != digest)
    (refuse .evidenceScopeMismatch "SUBGRAPH_DIGEST_MISMATCH"
      "/command/payload/selected_subgraph_digest" [("expected", .str digest)])
  let selected := Selected.ofSubgraph payload.selectedSubgraph
  let parent ← checkParent snapshot payload selected
  checkClaims snapshot payload.contractVersion selected
  checkEdges snapshot payload selected
  checkGraph payload.parentClaimId selected
  checkBoundary snapshot payload.contractVersion selected
  checkBridges snapshot payload selected
  checkObligationIds snapshot payload selected
  let statuses ← checkObligations snapshot selected
  let threshold := closureThreshold policy parent
  let reviews := acceptedReviews P snapshot payload digest
  match payload.compositionMode with
  | .machine => closeByMachine P snapshot payload selected statuses
  | .peer => closeByPeer P snapshot payload selected statuses threshold reviews
  | .hybrid => closeByHybrid P snapshot payload selected digest threshold reviews

end ResearchKernel
