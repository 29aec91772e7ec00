import ResearchKernel.Composition
import ResearchKernel.Guard.Contract

/-!
# Decisions about the claim graph

Claims, edges, bridges, routes, obligations and closure witnesses are registered, facts
are revoked, and claims are promoted along their axes.
-/

namespace ResearchKernel

open Foundation

namespace Guard

variable (context : GuardContext)

/-! ## Bridges -/

/-- The fields that the specification of a bridge must have. -/
def bridgeSpecFields : List String :=
  ["source_domain", "target_domain", "source_objects", "target_objects", "forward_map",
    "backward_map", "preserved_invariants", "imported_assumptions", "lost_assumptions",
    "gained_assumptions", "target_domain_tools", "fastest_countertests", "roundtrip_tests",
    "source_to_target_dictionary", "target_to_source_dictionary", "source_domain_auditor",
    "target_domain_auditor"]

/-- Whether the obligations of one direction of a bridge are all checked. -/
def allChecked (obligations : List JsonObject) : Bool :=
  obligations.all fun item => (item.get "status").isText "CHECKED"

/-- Whether an independent review of the target accepts a bridge. -/
def bridgeAuditValid (p : RegisterBridge) (target : Claim) : Bool :=
  (context.snapshot.review? (idText p.targetAuditReviewId)).any fun audit =>
    audit.claimId == target.claimId && audit.contractVersion == context.version &&
      audit.verdict == .accept && independenceProfileIsIndependent audit.independenceProfile

/-- `RegisterBridge`: a bridge between two claims, valid as far as it is audited. -/
def handleRegisterBridge (p : RegisterBridge) : Decision := do
  let scope := refuse .evidenceScopeMismatch "OBJECT_SCOPE" "/command/payload/source_claim_id"
  rejectIf ((context.currentClaim? p.sourceClaimId).isNone || p.sourceClaimId == p.targetClaimId)
    scope
  let target ← orReject (context.currentClaim? p.targetClaimId) scope
  rejectIf (!bridgeSpecFields.all (p.bridgeSpec.has ·) || p.forwardObligations.isEmpty)
    (refuse .evidenceInsufficient "BRIDGE_DIRECTION" "/command/payload")
  let forwardChecked := allChecked p.forwardObligations
  let reverseChecked := !p.reverseObligations.isEmpty && allChecked p.reverseObligations
  rejectIf (p.directionality.isValid && !bridgeAuditValid context p target)
    (refuse .independenceUnknown "PEER_APPROVAL" "/command/payload/target_audit_review_id")
  rejectIf
    (p.directionality.isValid &&
      !context.snapshot.artifactCommitted (idText p.backtranslationArtifactId))
    (refuse .artifactMissing "BACKTRANSLATION" "/command/payload/backtranslation_artifact_id")
  rejectIf (p.directionality == .oneWayValid && !forwardChecked)
    (refuse .compositionOpen "BRIDGE_DIRECTION" "/command/payload/forward_obligations")
  rejectIf (p.directionality == .equivalentValid && !(forwardChecked && reverseChecked))
    (refuse .compositionOpen "BRIDGE_DIRECTION" "/command/payload/reverse_obligations")
  let forwardStatus : BridgeStatus :=
    if p.directionality == .refuted then .refuted
    else if forwardChecked then .checked else .candidate
  let reverseStatus : BridgeStatus :=
    if reverseChecked then .checked
    else if p.reverseObligations.isEmpty then .unstated else .candidate
  return [.registerBridge p forwardStatus reverseStatus]

/-! ## Claims and edges -/

/-- The digest of a statement under the composition rules; empty when it has none. -/
def statementDigest (statement : JsonObject) : Digest :=
  match canonicalJsonBytes context.platform (.obj statement) with
  | .ok text => context.platform.sha256 text
  | .error _ => ""

/-- Whether an active claim already states the current contract. -/
def rootExists (contract : ContractVersion) : Bool :=
  context.snapshot.claims.any fun item =>
    item.claimKind == .root && item.lifecycleStatus == .active &&
      item.statementHash == contract.statementHash &&
      item.statementArtifactId == contract.contractArtifactId

/-- Whether a root states the current contract, which no other active root does. -/
def rootMatchesContract (p : RegisterClaim) (contract : ContractVersion) : Bool :=
  !rootExists context contract && (Json.obj p.normalizedStatement).eqv (.obj contract.contract) &&
    p.statementHash == contract.statementHash &&
    p.statementArtifactId == contract.contractArtifactId

/-- `RegisterClaim`: a claim whose statement is that of its artifact. The root may already
be registered on a draft. -/
def handleRegisterClaim (p : RegisterClaim) : Decision := do
  rejectIf (!context.listed context.policy.candidateWriterCapabilityIds) (roleRefusal "WORKER")
  let isFirstRoot := p.claimKind == .root &&
    !context.snapshot.claims.any fun item => item.claimKind == .root
  let contract ← orReject
    (context.snapshot.contract?.filter fun contract =>
      contract.status == .frozen || contract.status == .draft && isFirstRoot)
    (refuse .contractNotFrozen "CONTRACT_STATE" "/contract" [("required", .str "FROZEN")])
  rejectIf (!context.snapshot.artifactCommitted p.statementArtifactId)
    (refuse .artifactMissing "ARTIFACT_STATE" "/command/payload/statement_artifact_id")
  let labelConflict := context.snapshot.claims.any fun item =>
    item.stableLabel == p.stableLabel && item.lifecycleStatus == .active
  rejectIf
    (statementDigest context p.normalizedStatement != p.statementHash ||
      !(context.snapshot.artifact? p.statementArtifactId).any (·.sha256 == p.statementHash) ||
      p.claimKind == .root && !rootMatchesContract context p contract || labelConflict)
    (refuse .ingestSchemaInvalid "EVIDENCE_SCOPE" "/command/payload/normalized_statement")
  let closure : ClosureState :=
    if (p.normalizedStatement.get "atomic").isTrue then .notRequired else .isOpen
  return [.registerClaim p closure]

/-- The ends of an edge as the search for cycles reads them: an edge in reverse is turned
around, and an edge in both directions is read forward. -/
def searchArc (fromId toId : Id) (direction : Direction) : Id × Id :=
  if direction == .reverse then (toId, fromId) else (fromId, toId)

/-- The arcs that the search for cycles follows, with that of the new edge. -/
def searchArcs (p : RegisterClaimEdge) : List (Id × Id) :=
  ((distinctRows (·.edgeId) context.snapshot.edges).filter fun edge =>
    edge.edgeKind.isLogical && edge.status == .active).map
      (fun edge => searchArc edge.fromClaimId edge.toClaimId edge.direction) ++
    if p.edgeKind.isLogical then [searchArc p.fromClaimId p.toClaimId p.direction] else []

/-- Whether a new edge would close a cycle. -/
def edgeWouldCycle (p : RegisterClaimEdge) : Bool :=
  let arc := searchArc p.fromClaimId p.toClaimId p.direction
  let arcs := searchArcs context p
  reaches arcs arc.1 (arcs.length + 2) [arc.2] []

/-- Whether a bridge carries an edge in the direction in which it is read. -/
def bridgeCarries (p : RegisterClaimEdge) (bridge : Bridge) : Bool :=
  let arc := searchArc p.fromClaimId p.toClaimId p.direction
  bridge.directionality.isValid &&
    (arc == (bridge.sourceClaimId, bridge.targetClaimId) ||
      arc == (bridge.targetClaimId, bridge.sourceClaimId) &&
        bridge.directionality == .equivalentValid)

/-- Whether trusted machine evidence about the target justifies an edge. -/
def machineJustifies (p : RegisterClaimEdge) (type : EvidenceType) : Bool :=
  match context.snapshot.evidence? p.justificationRef, context.snapshot.claim? p.toClaimId with
  | some evidence, some target =>
    machineEvidenceIsTrusted context.snapshot evidence target context.version type
  | _, _ => false

/-- Whether the justification of an edge exists. -/
def justificationExists (p : RegisterClaimEdge) : Bool :=
  match p.justificationKind with
  | .bridge => (context.snapshot.bridge? p.justificationRef).any (bridgeCarries p)
  | .leanDeclaration => machineJustifies context p .leanReplay
  | .checkerProfile => machineJustifies context p .checkerCertificate
  | .humanArgument => false
  | .definitional => (context.snapshot.artifact? p.justificationRef).isSome

/-- `RegisterClaimEdge`: an edge between active claims with an existing justification. -/
def handleRegisterClaimEdge (p : RegisterClaimEdge) : Decision := do
  rejectIf
    ((context.currentClaim? p.fromClaimId).isNone || (context.currentClaim? p.toClaimId).isNone ||
      p.fromClaimId == p.toClaimId)
    (refuse .evidenceScopeMismatch "OBJECT_SCOPE" "/command/payload/from_claim_id")
  rejectIf (p.justificationRef == "" || !justificationExists context p)
    (refuse .compositionOpen "EDGE_JUSTIFICATION" "/command/payload/justification_ref")
  rejectIf (p.edgeKind.isLogical && edgeWouldCycle context p)
    (refuse .invalidTransition "SOURCE_GRAPH" "/command/payload" [("reason", .str "cycle")])
  return [.registerClaimEdge p, .invalidateParentClosure p.toClaimId]

/-- `RevokeFact`: an active claim and everything that depends on it are withdrawn. -/
def handleRevokeFact (p : RevokeFact) : Decision := do
  rejectIf (!context.listed context.policy.mainCapabilityIds) (roleRefusal "MAIN")
  rejectIf (context.currentClaim? p.factId).isNone
    (refuse .evidenceScopeMismatch "VERIFIED_FACT" "/command/payload/fact_id"
      [("fact_id", .str p.factId)])
  rejectIf (p.reason == "")
    (refuse .ingestSchemaInvalid "REVOCATION_REASON" "/command/payload/reason")
  return [.revokeFactClosure p.factId]

/-! ## Routes and obligations -/

/-- `RegisterRoute`: a route to an active claim, with a label of its own. -/
def handleRegisterRoute (p : RegisterRoute) : Decision := do
  rejectIf
    (context.snapshot.contractStatus? != some .frozen ||
      (context.currentClaim? p.targetClaimId).isNone)
    (refuse .evidenceScopeMismatch "OBJECT_SCOPE" "/command/payload/target_claim_id")
  rejectIf
    (p.label == "" || p.representation == "" || p.toolFamily == "" || p.approachRoot.isEmpty ||
      p.budgetPolicy.isEmpty)
    (refuse .budgetDenied "BUDGET_POLICY" "/command/payload")
  rejectIf (context.snapshot.routes.any fun route => route.label == p.label)
    (refuse .ingestSchemaInvalid "OBJECT_SCOPE" "/command/payload/label")
  return [.registerRoute p]

/-- `RegisterCompositionObligation`: what is left to show so that the children give the parent. -/
def handleRegisterCompositionObligation (p : RegisterCompositionObligation) : Decision := do
  rejectIf ((p.parentClaimId :: p.childClaimIds).any fun id => (context.currentClaim? id).isNone)
    (refuse .evidenceScopeMismatch "OBJECT_SCOPE" "/command/payload/child_claim_ids")
  let invalid := (p.parts.named.filter fun part => part.2.ref == "").map Prod.fst
  rejectIf (!invalid.isEmpty || p.closureTheoremRef == "")
    (refuse .ingestSchemaInvalid "OPEN_OBLIGATION" "/command/payload"
      [("parts", Json.ofTexts invalid)])
  return [.registerCompositionObligation p, .setClosure p.parentClaimId .isOpen]

/-- `SubmitClosureWitness`: a valid witness closes its parent. -/
def handleSubmitClosureWitness (p : SubmitClosureWitness) : Decision := do
  let closure ← validateClosureWitness context.platform context.snapshot p context.policy
  return [.acceptClosureWitness p closure]

/-! ## Promotion -/

/-- Whether enough reviewers with eligible reviews are behind a promotion. The reviews may
be about any claim of the run. -/
def peerPromotion (reviews : List PeerReview) : Bool :=
  decide (context.policy.peerReviewThreshold.getD 1 ≤
    (reviewerCount (reviews.filter (·.promotionEligible)) : ℤ))

/-- Whether trusted machine evidence of unforbidden submitters is behind a promotion. -/
def machinePromotion (value : MachineVerdict) (evidence : List EvidenceView) (target : Claim) :
    Bool :=
  let trusted (type : EvidenceType) : Bool := evidence.all fun item =>
    machineEvidenceIsTrusted context.snapshot item target context.version type &&
      !((item.verifierProfileId.bind fun id => context.policy.verifierProfiles.lookup id).any
        fun profile => profile.forbiddenSubmitterSubjectIds.contains item.submitterSubjectId)
  match value with
  | .kernelVerified => trusted .leanReplay
  | .certificateVerified => trusted .checkerCertificate
  | _ => false

/-- The semantic checks that pieces of evidence report, a later report replacing an earlier. -/
def semanticChecks (evidence : List EvidenceView) : List (String × Bool) :=
  dictOf (evidence.flatMap fun item =>
    (((item.provenance.get "semantic_checks").mapping?).getD []).map fun check =>
      (check.1, check.2.isTrue))

/-- Whether the four semantic tests are reported as passed. -/
def semanticPromotion (value : SemanticVerdict) (evidence : List EvidenceView) : Bool :=
  value == .tested &&
    ["satisfying_witness", "negation_test", "mutation_test", "backtranslation"].all fun name =>
      (semanticChecks evidence).lookup name == some true

/-- The mode in which a witness must compose to justify a closure. -/
def modeOfClosure : ClosureState → Option CompositionMode
  | .closedMachine => some .machine
  | .closedHuman => some .peer
  | .closedHybrid => some .hybrid
  | _ => none

/-- The verdict of the quality reviews behind a promotion. -/
def verdictOfQuality : QualityVerdict → Option ReviewVerdict
  | .accepted => some .accept
  | .rejected => some .reject
  | .needsRevision => some .needsRevision
  | .unreviewed => none

/-- Whether an exact statement of the claim is in the literature. -/
def isExactHit (claim : Claim) (item : LiteratureRecord) : Bool :=
  item.claimId == some claim.claimId && item.contractVersion == context.version &&
    item.status == .literatureHit && item.relation == some .equivalent &&
    (item.scope.get "assumptions_exact").isTrue

/-- The reviews that a promotion cites, all of which must exist. -/
def citedReviews (ids : List Id) : Checked (List PeerReview) := do
  let reviews ← orReject (ids.mapM context.snapshot.review?)
    (refuse .evidenceInsufficient "INDEPENDENT_REVIEW" "/command/payload/evidence_ids")
  rejectIf reviews.isEmpty
    (refuse .evidenceInsufficient "INDEPENDENT_REVIEW" "/command/payload/evidence_ids")
  return reviews

def checkPeerReviews (ids : List Id) : Checked Unit := do
  let reviews ← citedReviews context ids
  rejectIf (!peerPromotion context reviews)
    (refuse .independenceUnknown "INDEPENDENT_REVIEW" "/command/payload/evidence_ids")

/-- The evidence that a promotion cites: accepted, and about the exact statement of the claim. -/
def citedEvidence (claim : Claim) (ids : List Id) : Checked (List EvidenceView) := do
  let path := "/command/payload/evidence_ids"
  let evidence ← orReject (ids.mapM context.snapshot.evidence?)
    (refuse .evidenceInsufficient "EVIDENCE_TYPE" path)
  rejectIf (evidence.isEmpty || evidence.any fun item => item.ingestStatus != .accepted)
    (refuse .evidenceInsufficient "EVIDENCE_TYPE" path)
  rejectIf
    (evidence.any fun item =>
      item.claimId != claim.claimId || item.contractVersion != context.version ||
        item.statementHash != claim.statementHash)
    (refuse .evidenceScopeMismatch "EVIDENCE_SCOPE" path)
  return evidence

/-- What the value of an axis requires of a promotion. -/
def checkPromotion (p : PromoteClaim) (claim : Claim) : AxisValue → Checked Unit
  | .peer _ => checkPeerReviews context p.evidenceIds
  | .semantic .humanAttested => checkPeerReviews context p.evidenceIds
  | .semantic value => do
    let evidence ← citedEvidence context claim p.evidenceIds
    rejectIf (!semanticPromotion value evidence)
      (refuse .evidenceInsufficient "SEMANTIC_REVIEW" "/command/payload/evidence_ids")
  | .machine value => do
    let evidence ← citedEvidence context claim p.evidenceIds
    rejectIf (!machinePromotion context value evidence claim)
      (refuse .replayFailed "MACHINE_REPLAY" "/command/payload/evidence_ids")
  | .closure value =>
    rejectIf
      (!(context.snapshot.witness? (idText p.closureWitnessId)).any fun witness =>
        witness.status == .accepted && some witness.compositionMode == modeOfClosure value &&
          witness.parentClaimId == p.claimId)
      (refuse .compositionOpen "CLOSURE_WITNESS" "/command/payload/closure_witness_id")
  | .quality value => do
    let _ ← citedEvidence context claim p.evidenceIds
    rejectIf
      (p.evidenceIds.isEmpty || p.evidenceIds.any fun id =>
        !(context.snapshot.qualityReview? id).any fun review =>
          review.claimId == claim.claimId && review.contractVersion == context.version &&
            some review.verdict == verdictOfQuality value)
      (refuse .evidenceInsufficient "INDEPENDENT_REVIEW" "/command/payload/evidence_ids")
  | .route .routeProved => return ()
  | .route .previouslyKnown =>
    rejectIf
      (p.evidenceIds.isEmpty || p.evidenceIds.any fun id =>
        !(context.snapshot.literature? id).any (isExactHit context claim))
      (refuse .evidenceInsufficient "LITERATURE_PLAN" "/command/payload/evidence_ids")
  | .route _ => do
    let _ ← citedEvidence context claim p.evidenceIds
    return ()

/-- Whether a value of the route axis needs the truth of the claim to be accepted. -/
def needsTruth : AxisValue → Bool
  | .route .localLemmasVerified | .route .routeLocal | .route .routeProved => true
  | _ => false

/-- `PromoteClaim`: the value of one axis of an active claim. -/
def handlePromoteClaim (p : PromoteClaim) : Decision := do
  let claim ← orReject (context.snapshot.claim? p.claimId)
    (refuse .evidenceScopeMismatch "OBJECT_NOT_FOUND" "/command/payload/claim_id")
  rejectIf
    (claim.lifecycleStatus != .active || context.snapshot.contractStatus? != some .frozen)
    (refuse .contractNotFrozen "CONTRACT_STATE" "/contract")
  let value ← orReject (axisValue p.targetAxis p.targetValue)
    (refuse .ingestSchemaInvalid "OBJECT_SCOPE" "/command/payload/target_value"
      [("axis", .str p.targetAxis.wire)])
  rejectIf (needsTruth value && !claimTruthAccepted claim)
    (refuse .compositionOpen "TERMINAL_SUPPORT" "/command/payload/target_value")
  checkPromotion context p claim value
  return [.setClaimAxis p value]

end Guard

end ResearchKernel
