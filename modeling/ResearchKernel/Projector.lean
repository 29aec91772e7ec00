import Mathlib.Algebra.Ring.Int.Defs
import ResearchKernel.Composition
import ResearchKernel.Guard.Context

/-!
# The projection of accepted decisions

Each mutation of an accepted decision is one function on the database. It is none where
the statement fails in the database or where the Python code raises: the transaction is
then rolled back as a whole.
-/

namespace ResearchKernel

open Foundation

/-- What the projection knows about the command that it projects. -/
structure ProjectionContext where
  platform : Platform
  runId : Id
  commandId : Id
  revision : ℕ
  /-- The contract version at the time of the decision. -/
  contractVersion : ℕ
  capabilityId : Id
  recordedAt : Instant
  /-- The artifacts of the files that came with the request, by name. -/
  artifactsByName : List (String × Id)
  /-- The artifact that the kernel itself has written for the command. -/
  generatedArtifactId : Option Id
  /-- The identifiers that the generator gives to new rows. -/
  newId : ℕ → Id

/-- A JSON value as a text column holds it: none when it cannot be bound, and inside,
none for NULL. -/
def sqlText : Json → Option (Option String)
  | .null => some none
  | .bool value => some (some (toString value.toNat))
  | .int value =>
    if -(2 ^ 63) ≤ value ∧ value < 2 ^ 63 then some (some (toString value)) else none
  | .str text => some (some text)
  | .arr _ => none
  | .obj _ => none

/-- The value of the axis of the given value. -/
def Claim.onAxis (claim : Claim) : AxisValue → AxisValue
  | .route _ => .route claim.routeResult
  | .machine _ => .machine claim.machineVerdict
  | .semantic _ => .semantic claim.semanticVerdict
  | .peer _ => .peer claim.peerVerdict
  | .quality _ => .quality claim.qualityVerdict
  | .closure _ => .closure claim.closureState

/-- Write a value to its axis. -/
def Claim.setAxis (claim : Claim) : AxisValue → Claim
  | .route value => { claim with routeResult := value }
  | .machine value => { claim with machineVerdict := value }
  | .semantic value => { claim with semanticVerdict := value }
  | .peer value => { claim with peerVerdict := value }
  | .quality value => { claim with qualityVerdict := value }
  | .closure value => { claim with closureState := value }

/-- Write the given values to their axes, leaving the others. -/
def Claim.update (claim : Claim) (update : AxisUpdate) : Claim :=
  { claim with
    machineVerdict := update.machine.getD claim.machineVerdict
    semanticVerdict := update.semantic.getD claim.semanticVerdict
    peerVerdict := update.peer.getD claim.peerVerdict }

/-- The peer verdict that a review gives. -/
def ReviewVerdict.toPeer : ReviewVerdict → PeerVerdict
  | .accept => .accepted
  | .reject => .rejected
  | .needsRevision => .needsRevision

/-- The quality verdict that a review gives. -/
def ReviewVerdict.toQuality : ReviewVerdict → QualityVerdict
  | .accept => .accepted
  | .reject => .rejected
  | .needsRevision => .needsRevision

/-- The status of the obligations that a witness discharges. -/
def CompositionMode.discharged : CompositionMode → ObligationStatus
  | .machine => .dischargedMachine
  | .peer => .dischargedHuman
  | .hybrid => .dischargedHybrid

namespace Db

/-- Change the claim with the given identifier. -/
def updateClaim (db : Db) (id : Id) (change : Claim → Claim) : Db :=
  { db with claims := updateWhere (·.claimId == id) change db.claims }

def activeArcs (db : Db) (runId : Id) (version : ℕ) : List (Id × Id) :=
  (db.claimEdges.filter fun edge =>
    edge.runId == runId && edge.contractVersion == version && edge.status == .active &&
      edge.edgeKind.isLogical).flatMap ClaimEdge.arcs

/-- The ends of the active logical edges of a run, whatever their direction. -/
def storedArcs (db : Db) (runId : Id) : List (Id × Id) :=
  (db.claimEdges.filter fun edge =>
    edge.runId == runId && edge.status == .active && edge.edgeKind.isLogical).map
      fun edge => (edge.fromClaimId, edge.toClaimId)

/-- Withdraw the evidence, the witnesses and the obligations of some claims. -/
def withdrawRecords (db : Db) (ids : List Id) : Db :=
  { db with
    evidence := updateWhere
      (fun row => row.ingestStatus == .accepted && ids.contains row.claimId)
      (fun row => { row with ingestStatus := .invalidated }) db.evidence
    closureWitnesses := updateWhere
      (fun row => row.status == .accepted && ids.contains row.parentClaimId)
      (fun row => { row with status := .invalidated }) db.closureWitnesses
    obligations := updateWhere
      (fun row => row.status != .invalidated && ids.contains row.parentClaimId)
      (fun row => { row with status := .invalidated }) db.obligations }

/-- The attempt whose status changes. -/
def attemptOf? (db : Db) : AttemptRef → Option Id
  | .attempt id => some id
  | .leased leaseId => (db.leases.find? (·.leaseId == leaseId)).map (·.attemptId)

end Db

/-- Whether an edge touches one of some claims. -/
def ClaimEdge.touches (edge : ClaimEdge) (ids : List Id) : Bool :=
  ids.contains edge.fromClaimId || ids.contains edge.toClaimId

namespace Projection

variable (ctx : ProjectionContext) (db : Db)

/-! ## Runs and contracts -/

/-- `SET_CONTRACT_STATUS`; a proposed defect is recorded with its evidence. -/
def setContractStatus (version : ℕ) (status : ContractStatus)
    (defect : Option ProposeContractDefect) : Option Db :=
  let contracts := updateWhere (fun row => row.runId == ctx.runId && row.version == version)
    (fun row => { row with status := status }) db.contractVersions
  match defect with
  | none => some { db with contractVersions := contracts }
  | some p => some { db with
    contractVersions :=
      updateWhere (fun row => row.runId == ctx.runId && row.version == ctx.contractVersion)
        (fun row => { row with
          defectType := some p.defectType
          defectEvidence := some {
            evidenceRefs := p.evidenceRefs
            affectedClaimIds := p.affectedClaimIds
            proposedPatchArtifactId := p.proposedPatchArtifactId } }) contracts }

/-- `SET_RUN_STATUS`; a run is closed with its outcome. -/
def setRunStatus (status : RunStatus) (outcome : Option Outcome) : Option Db :=
  some { db with
    runs := updateWhere (·.runId == ctx.runId)
      (fun run =>
        if status == .closed then { run with status := .closed, finalOutcome := outcome }
        else { run with status := status }) db.runs }

/-- `EXPIRE_ACTIVE_LEASES`. -/
def expireActiveLeases : Option Db :=
  some { db with
    leases := updateWhere
      (fun lease => lease.status == .active && db.attempts.any fun attempt =>
        attempt.attemptId == lease.attemptId && attempt.runId == ctx.runId)
      (fun lease => { lease with status := .expired, releasedAt := some ctx.recordedAt })
      db.leases }

/-- `PAUSE_ACTIVE_ATTEMPTS`. -/
def pauseActiveAttempts : Option Db :=
  some { db with
    attempts := updateWhere
      (fun attempt => attempt.runId == ctx.runId && attempt.status == .running)
      (fun attempt => { attempt with status := .paused }) db.attempts }

/-- `SUPERSEDE_CONTRACT`. -/
def supersedeContract (version : ℕ) : Option Db :=
  some { db with
    contractVersions :=
      updateWhere (fun row => row.runId == ctx.runId && row.version == version)
        (fun row => { row with status := .superseded }) db.contractVersions }

/-- `CREATE_CONTRACT_VERSION`: the replacement is frozen, the run has no root any more and
the routes of the old version are retired. -/
def createContractVersion (version : ℕ) (replacement : JsonObject) : Option Db := do
  let artifactId ← ctx.generatedArtifactId
  let text ← Wire.canonicalJsonBytes ctx.platform (.obj replacement)
  let contracts ← insertRow ContractVersion.clash
    { runId := ctx.runId
      version := version
      status := .frozen
      contractArtifactId := artifactId
      contract := replacement
      statementHash := ctx.platform.sha256 text
      defectType := none
      defectEvidence := none } db.contractVersions
  return { db with
    contractVersions := contracts
    runs := updateWhere (·.runId == ctx.runId)
      (fun run => { run with currentContractVersion := version, rootClaimId := none }) db.runs
    routes := updateWhere
      (fun route => route.runId == ctx.runId && route.contractVersion == ctx.contractVersion &&
        route.status != .retired)
      (fun route => { route with status := .retired }) db.routes }

/-- The claims that a defect withdraws: the seeds of the version and what depends on them. -/
def defectClosure (affected : List Id) : List Id :=
  let seeds := (db.claims.filter fun claim =>
    affected.contains claim.claimId && claim.runId == ctx.runId &&
      claim.contractVersion == ctx.contractVersion).map (·.claimId)
  reachableFrom (db.activeArcs ctx.runId ctx.contractVersion) seeds

/-- Withdraw the claims that a defect affects. -/
def supersedeClosure (invalid : List Id) : Db :=
  { db.withdrawRecords invalid with
    claims := updateWhere (fun claim => invalid.contains claim.claimId)
      (fun claim => { claim with
        lifecycleStatus := .superseded
        closureState := if claim.closureState == .notRequired then .notRequired
          else .invalidated }) db.claims
    claimEdges := updateWhere
      (fun edge => edge.runId == ctx.runId && edge.contractVersion == ctx.contractVersion &&
        edge.status == .active && edge.touches invalid)
      (fun edge => { edge with status := .invalidated }) db.claimEdges }

/-- The claims that are carried over to the new version. -/
def carriedClaims (invalid : List Id) : List Id :=
  (db.claims.filter fun claim =>
    claim.runId == ctx.runId && claim.contractVersion == ctx.contractVersion &&
      claim.lifecycleStatus == .active && !invalid.contains claim.claimId).map (·.claimId)

/-- Whether a row of the old version is about carried claims. -/
def isCarried (carried : List Id) (runId : Id) (version : ℕ) (about : List Id) : Bool :=
  runId == ctx.runId && version == ctx.contractVersion && about.all carried.contains

/-- Carry claims and the records about them over to a new version. -/
def carryClosure (version : ℕ) (carried : List Id) : Db :=
  { db with
    evidence := updateWhere
      (fun row => isCarried ctx carried row.runId row.contractVersion [row.claimId])
      (fun row => { row with contractVersion := version }) db.evidence
    peerReviews := updateWhere
      (fun row => isCarried ctx carried row.runId row.contractVersion [row.claimId])
      (fun row => { row with contractVersion := version }) db.peerReviews
    qualityReviews := updateWhere
      (fun row => isCarried ctx carried row.runId row.contractVersion [row.claimId])
      (fun row => { row with contractVersion := version }) db.qualityReviews
    atomicVerifications := updateWhere
      (fun row => isCarried ctx carried row.runId row.contractVersion [row.claimId])
      (fun row => { row with contractVersion := version }) db.atomicVerifications
    leanFeedback := updateWhere
      (fun row => isCarried ctx carried row.runId row.contractVersion [row.claimId])
      (fun row => { row with contractVersion := version }) db.leanFeedback
    researchHints := updateWhere
      (fun row => row.targetClaimId.any fun id =>
        isCarried ctx carried row.runId row.contractVersion [id])
      (fun row => { row with contractVersion := version }) db.researchHints
    literatureRecords := updateWhere
      (fun row => row.claimId.any fun id =>
        isCarried ctx carried row.runId row.contractVersion [id])
      (fun row => { row with contractVersion := version }) db.literatureRecords
    claimEdges := updateWhere
      (fun edge => edge.status == .active &&
        isCarried ctx carried edge.runId edge.contractVersion [edge.fromClaimId, edge.toClaimId])
      (fun edge => { edge with contractVersion := version }) db.claimEdges
    bridges := updateWhere
      (fun row =>
        isCarried ctx carried row.runId row.contractVersion [row.sourceClaimId, row.targetClaimId])
      (fun row => { row with contractVersion := version }) db.bridges
    claims := updateWhere (fun claim => carried.contains claim.claimId)
      (fun claim => { claim with contractVersion := version }) db.claims }

/-- `MIGRATE_CONTRACT_CLOSURE`: the closure of the defect stays behind, and independent
claims move to the new version. -/
def migrateContractClosure (version : ℕ) (affected : List Id) : Option Db := do
  let invalid := defectClosure ctx db affected
  require (!invalid.isEmpty)
  let superseded := supersedeClosure ctx db invalid
  return carryClosure ctx superseded version (carriedClaims ctx superseded invalid)

/-- `CREATE_DOSSIER`. -/
def createDossier : Option Db := do
  let artifactId ← ctx.generatedArtifactId
  return { db with
    runs := updateWhere (·.runId == ctx.runId)
      (fun run => { run with parentDossierArtifactId := some artifactId }) db.runs }

/-! ## Closures -/

/-- `INVALIDATE_DEPENDENCY_CLOSURE`: of the parent of a named obligation, or of all the
claims of the version. -/
def invalidateDependencyClosure (firstFailedObligationId : Option Id) : Option Db :=
  if hasText firstFailedObligationId then
    match db.obligations.find? (·.obligationId == idText firstFailedObligationId) with
    | none => some db
    | some obligation => some (db.updateClaim obligation.parentClaimId
        fun claim => { claim with closureState := .invalidated })
  else
    some { db with
      claims := updateWhere
        (fun claim => claim.runId == ctx.runId && claim.contractVersion == ctx.contractVersion &&
          claim.closureState != .notRequired)
        (fun claim => { claim with closureState := .invalidated }) db.claims }

/-- `INVALIDATE_FROM_FIRST_FAILURE`: only for a named obligation. -/
def invalidateFromFirstFailure (obligationId : Option Id) : Option Db :=
  if hasText obligationId then invalidateDependencyClosure ctx db obligationId else some db

/-- `INVALIDATE_PARENT_CLOSURE`, unless the claim needs no closure. -/
def invalidateParentClosure (claimId : Id) : Option Db :=
  some { db with
    claims := updateWhere
      (fun claim => claim.claimId == claimId && claim.closureState != .notRequired)
      (fun claim => { claim with closureState := .invalidated }) db.claims }

/-- `SET_CLOSURE`. -/
def setClosure (claimId : Id) (value : ClosureState) : Option Db :=
  some (db.updateClaim claimId fun claim => { claim with closureState := value })

/-- `REVOKE_FACT_CLOSURE`: a fact and everything that depends on it are invalidated. -/
def revokeFactClosure (factId : Id) : Option Db :=
  let affected := reachableFrom (db.activeArcs ctx.runId ctx.contractVersion) [factId]
  some { db.withdrawRecords affected with
    claims := updateWhere (fun claim => affected.contains claim.claimId)
      (fun claim => { claim with
        lifecycleStatus := .invalidated
        closureState := .invalidated }) db.claims
    claimEdges := updateWhere (fun edge => edge.status == .active && edge.touches affected)
      (fun edge => { edge with status := .invalidated }) db.claimEdges }

/-! ## Evidence and reviews -/

/-- The artifact at the origin of submitted evidence. -/
def originArtifact (root : EvidenceRootInput) : Option Id :=
  ((root.originArtifactInputName.filter (· != "")).bind fun name =>
    ctx.artifactsByName.lookup name).or root.originArtifactId

/-- `APPEND_EVIDENCE`: one root, and one row for each file. -/
def appendEvidence (p : SubmitEvidence) : Option Db := do
  let origin := originArtifact ctx p.evidenceRoot
  require (Db.optional db.hasArtifact origin)
  let roots ← insertRow EvidenceRoot.clash
    { evidenceRootId := ctx.newId 0
      runId := ctx.runId
      rootKind := p.evidenceRoot.rootKind
      originArtifactId := origin
      verifierProfileId := p.evidenceRoot.verifierProfileId } db.evidenceRoots
  let artifacts ← p.artifactInputNames.mapM fun name => ctx.artifactsByName.lookup name
  let row (artifact : Id × ℕ) : Evidence :=
    { evidenceId := ctx.newId (artifact.2 + 1)
      runId := ctx.runId
      claimId := p.claimId
      contractVersion := p.contractVersion
      statementHash := p.statementHash
      artifactId := artifact.1
      evidenceType := p.evidenceType
      evidenceStrength := p.evidenceStrength
      evidenceRootId := ctx.newId 0
      scope := p.scope
      provenance := p.provenance
      ingestStatus := .accepted
      submittedByCommandId := ctx.commandId }
  let evidence ← insertRows Evidence.clash (artifacts.zipIdx.map row) db.evidence
  return { db with evidenceRoots := roots, evidence := evidence }

/-- `APPEND_FAILURE`. -/
def appendFailure (p : RecordFailure) : Option Db := do
  require (Db.optional db.hasArtifact p.evidenceArtifactId)
  let failures ← insertRow FailureRecord.clash
    { failureRecordId := ctx.newId 0
      runId := ctx.runId
      contractVersion := ctx.contractVersion
      routeId := p.routeId
      claimId := p.claimId
      failureKind := p.failureKind
      normalizedFingerprint := p.normalizedFingerprint
      firstFailedObligationId := p.firstFailedObligationId
      evidenceArtifactId := p.evidenceArtifactId } db.failureRecords
  return { db with failureRecords := failures }

/-- One row of a reservation. -/
def reservationRow (routeId : Id) (entry : (String × Json) × ℕ) : Option BudgetEvent := do
  let (amount, unit) := match entry.1.2.mapping? with
    | some fields => (fields.get "amount_microunits", fields.getOr "unit" (.str "microunit"))
    | none => (entry.1.2, .str "microunit")
  let kind ← ResourceKind.ofWire entry.1.1
  let amount ← amount.asInt
  require (decide (0 ≤ amount) && decide (amount < 2 ^ 63))
  let unit ← (sqlText unit).bind id
  return {
    budgetEventId := ctx.newId entry.2
    runId := ctx.runId
    routeId := some routeId
    attemptId := none
    commandId := ctx.commandId
    revision := ctx.revision
    eventKind := .reservation
    resourceKind := kind
    amountMicrounits := some amount.toNat
    unit := unit
    providerUsage := [] }

/-- `APPEND_BUDGET_RESERVATION`: one event for each resource, in the order of their names. -/
def appendBudgetReservation (p : RequestExpansion) : Option Db := do
  let entries := p.reservation.insertionSort fun a b => a.1 ≤ b.1
  let rows ← entries.zipIdx.mapM (reservationRow ctx p.routeId)
  let events ← insertRows BudgetEvent.clash rows db.budgetEvents
  return { db with budgetEvents := events }

/-- What a review writes to the axes of its claim: the peer verdict only when it is
managed, the attestation whenever an accepting review declares it. -/
def reviewUpdate (p : RecordPeerReview) (profile : JsonObject) : AxisUpdate where
  peer := if (profile.get "managed_human").isTrue then some p.verdict.toPeer else none
  semantic :=
    if p.verdict == .accept && (p.checklist.get "semantic_attestation").isTrue then
      some .humanAttested
    else none

/-- `APPEND_PEER_REVIEW`. -/
def appendPeerReview (p : RecordPeerReview) (profile : JsonObject) : Option Db := do
  let reviews ← insertRow PeerReview.clash
    { reviewId := ctx.newId 0
      runId := ctx.runId
      claimId := p.claimId
      contractVersion := p.contractVersion
      statementHash := p.statementHash
      selectedSubgraphDigest := p.selectedSubgraphDigest
      reviewerCapabilityId := ctx.capabilityId
      independenceProfile := profile
      verdict := p.verdict
      checklist := p.checklist
      reviewArtifactId := p.reviewArtifactId
      sourceGraph := p.sourceGraph } db.peerReviews
  return { db with peerReviews := reviews }.updateClaim p.claimId
    fun claim => claim.update (reviewUpdate p profile)

/-- `APPEND_QUALITY_REVIEW`. -/
def appendQualityReview (p : RecordQualityReview) : Option Db := do
  let reviews ← insertRow QualityReview.clash
    { qualityReviewId := ctx.newId 0
      runId := ctx.runId
      claimId := p.claimId
      contractVersion := p.contractVersion
      reviewerCapabilityId := ctx.capabilityId
      verdict := p.verdict
      reviewArtifactId := p.reviewArtifactId
      trainingPool := p.trainingPool } db.qualityReviews
  return { db with qualityReviews := reviews }.updateClaim p.claimId
    fun claim => { claim with qualityVerdict := p.verdict.toQuality }

/-- `APPEND_LITERATURE_RECORD`. -/
def appendLiteratureRecord (p : RecordLiterature) : Option Db := do
  require (Db.optional db.hasArtifact p.referenceArtifactId)
  let records ← insertRow LiteratureRecord.clash
    { literatureRecordId := ctx.newId 0
      runId := ctx.runId
      contractVersion := p.contractVersion
      claimId := p.claimId
      status := p.status
      relation := p.relation
      scope := p.scope
      referenceArtifactId := p.referenceArtifactId } db.literatureRecords
  return { db with literatureRecords := records }

/-- `APPEND_LEAN_FEEDBACK`; the nonce of a receipt may be used once. -/
def appendLeanFeedback (p : RecordLeanFeedback) : Option Db := do
  require (Db.optional db.hasAttempt p.attemptId)
  let receipt ← (p.diagnostic.getOr "host_receipt" (.obj [])).mapping?
  let payload ← (receipt.getOr "payload" (.obj [])).mapping?
  let nonce ← sqlText (payload.get "invocation_nonce")
  let feedback ← insertRow LeanFeedback.clash
    { leanFeedbackId := ctx.newId 0
      runId := ctx.runId
      claimId := p.claimId
      attemptId := p.attemptId
      contractVersion := p.contractVersion
      environmentProfileId := p.environmentProfileId
      toolchain := p.toolchain
      mathlibCommit := p.mathlibCommit
      sourceArtifactId := p.sourceArtifactId
      outputArtifactId := p.outputArtifactId
      feedbackKind := p.feedbackKind
      firstFailedObligationId := p.firstFailedObligationId
      diagnostic := p.diagnostic
      receiptNonce := nonce } db.leanFeedback
  return { db with leanFeedback := feedback }

/-- `RECORD_RESEARCH_HINT`. -/
def recordResearchHint (p : RecordResearchHint) : Option Db := do
  require (Db.optional db.hasRoute p.targetRouteId && Db.optional db.hasClaim p.targetClaimId)
  let hints ← insertRow ResearchHint.clash
    { hintId := ctx.newId 0
      runId := ctx.runId
      contractVersion := ctx.contractVersion
      hintKind := p.hintKind
      hintText := p.hint
      targetRouteId := p.targetRouteId
      targetClaimId := p.targetClaimId
      checkpointLabel := p.checkpointLabel } db.researchHints
  return { db with researchHints := hints }

/-- `RECORD_PAPER_REVIEW`. -/
def recordPaperReview (p : RecordPaperReview) : Option Db := do
  let reviews ← insertRow PaperReview.clash
    { paperReviewId := ctx.newId 0
      runId := ctx.runId
      contractVersion := ctx.contractVersion
      finalFactId := p.finalFactId
      paperSha256 := p.paperSha256
      status := p.status
      reviewArtifactId := p.reviewArtifactId
      reviewerCapabilityId := ctx.capabilityId } db.paperReviews
  return { db with paperReviews := reviews }

/-- `RECORD_ATOMIC_VERIFICATION`; a rejected verification writes to no axis. -/
def recordAtomicVerification (p : VerifyAtomicClaim) (update : AxisUpdate) : Option Db := do
  let verifications ← insertRow AtomicVerification.clash
    { verificationId := ctx.newId 0
      runId := ctx.runId
      contractVersion := ctx.contractVersion
      claimId := p.claimId
      backend := p.backend
      verdict := p.verdict
      verificationRef := p.verificationRef
      repairFeedback := p.repairFeedback
      verifierCapabilityId := ctx.capabilityId
      createdAt := ctx.recordedAt } db.atomicVerifications
  return { db with atomicVerifications := verifications }.updateClaim p.claimId (·.update update)

/-! ## The claim graph -/

/-- `REGISTER_BRIDGE`, under the identifier of the request where it gives one. -/
def registerBridge (p : RegisterBridge) (forwardStatus reverseStatus : BridgeStatus) :
    Option Db := do
  require (Db.optional db.hasReview p.targetAuditReviewId &&
    Db.optional db.hasArtifact p.backtranslationArtifactId)
  let bridges ← insertRow Bridge.clash
    { bridgeId := (p.bridgeId.filter (· != "")).getD (ctx.newId 0)
      runId := ctx.runId
      contractVersion := p.contractVersion
      sourceClaimId := p.sourceClaimId
      targetClaimId := p.targetClaimId
      directionality := p.directionality
      targetAuditReviewId := p.targetAuditReviewId
      backtranslationArtifactId := p.backtranslationArtifactId
      forwardStatus := forwardStatus
      reverseStatus := reverseStatus } db.bridges
  return { db with bridges := bridges }

/-- The next revision of a statement with the given label. -/
def nextRevision (label : String) : ℕ :=
  ((db.claims.filter fun claim => claim.runId == ctx.runId && claim.stableLabel == label).map
    (·.statementRevision)).foldr max 0 + 1

/-- The row of a registered claim. -/
def newClaim (p : RegisterClaim) (closure : ClosureState) : Claim where
  claimId := ctx.newId 0
  runId := ctx.runId
  contractVersion := p.contractVersion
  claimKind := p.claimKind
  stableLabel := p.stableLabel
  statementRevision := nextRevision ctx db p.stableLabel
  statementArtifactId := p.statementArtifactId
  statementHash := p.statementHash
  normalizedStatement := p.normalizedStatement
  lifecycleStatus := .active
  routeResult := .unassessed
  machineVerdict := .unverified
  semanticVerdict := .unreviewed
  peerVerdict := .unreviewed
  qualityVerdict := .unreviewed
  closureState := closure

/-- `REGISTER_CLAIM`; a root becomes the root of the run. -/
def registerClaim (p : RegisterClaim) (closure : ClosureState) : Option Db := do
  let claims ← insertRow Claim.clash (newClaim ctx db p closure) db.claims
  return { db with
    claims := claims
    runs := if p.claimKind == .root then updateWhere (·.runId == ctx.runId)
        (fun run => { run with rootClaimId := some (ctx.newId 0) }) db.runs
      else db.runs }

/-- The row of a registered edge. -/
def newEdge (p : RegisterClaimEdge) : ClaimEdge where
  edgeId := ctx.newId 0
  runId := ctx.runId
  contractVersion := p.contractVersion
  fromClaimId := p.fromClaimId
  toClaimId := p.toClaimId
  edgeKind := p.edgeKind
  direction := p.direction
  justificationKind := p.justificationKind
  justificationRef := p.justificationRef
  status := .active

/-- `REGISTER_CLAIM_EDGE`; the trigger of the table refuses a cycle of stored ends. -/
def registerClaimEdge (p : RegisterClaimEdge) : Option Db := do
  require (p.fromClaimId != p.toClaimId)
  require (!(p.edgeKind.isLogical &&
    (reachableFrom (db.storedArcs ctx.runId) [p.toClaimId]).contains p.fromClaimId))
  let edges ← insertRow ClaimEdge.clash (newEdge ctx p) db.claimEdges
  return { db with claimEdges := edges }

/-- `REGISTER_COMPOSITION_OBLIGATION`. -/
def registerCompositionObligation (p : RegisterCompositionObligation) : Option Db := do
  let obligations ← insertRow Obligation.clash
    { obligationId := ctx.newId 0
      runId := ctx.runId
      contractVersion := p.contractVersion
      parentClaimId := p.parentClaimId
      childClaimIds := p.childClaimIds
      parts := p.parts
      compositionRule := p.compositionRule
      closureTheoremRef := p.closureTheoremRef
      status := .isOpen } db.obligations
  return { db with obligations := obligations }

/-- What an accepted witness does to its parent claim. -/
def closeClaim (closure : ClosureState) (claim : Claim) : Claim :=
  { claim with
    closureState := closure
    semanticVerdict :=
      if closure == .closedHuman || closure == .closedHybrid then .humanAttested
      else claim.semanticVerdict }

/-- The row of an accepted witness. -/
def newWitness (p : SubmitClosureWitness) (artifactId : Id) : ClosureWitness where
  witnessId := ctx.newId 0
  runId := ctx.runId
  parentClaimId := p.parentClaimId
  contractVersion := p.contractVersion
  selectedSubgraphDigest := p.selectedSubgraphDigest
  selectedSubgraphArtifactId := artifactId
  dischargedObligations := p.dischargedObligationIds
  openObligations := p.openObligationIds
  bridgeDependencies := p.bridgeDependencyIds
  compositionMode := p.compositionMode
  humanAttestationReviewIds := p.humanAttestationReviewIds
  status := .accepted

/-- `ACCEPT_CLOSURE_WITNESS`. -/
def acceptClosureWitness (p : SubmitClosureWitness) (closure : ClosureState) : Option Db := do
  let artifactId ← ctx.generatedArtifactId
  let witnesses ← insertRow ClosureWitness.clash (newWitness ctx p artifactId) db.closureWitnesses
  return { db with
    closureWitnesses := witnesses
    obligations := updateWhere (fun row => p.dischargedObligationIds.contains row.obligationId)
      (fun row => { row with status := p.compositionMode.discharged }) db.obligations }.updateClaim
    p.parentClaimId (closeClaim closure)

/-- `SET_CLAIM_AXIS`: the promotion is recorded, and must change the value. -/
def setClaimAxis (p : PromoteClaim) (value : AxisValue) : Option Db := do
  let claim ← db.claims.find? (·.claimId == p.claimId)
  require (claim.onAxis value != value)
  require (Db.optional db.hasWitness p.closureWitnessId)
  let events ← insertRow VerdictEvent.clash
    { verdictEventId := ctx.newId 0
      runId := ctx.runId
      claimId := p.claimId
      commandId := ctx.commandId
      revision := ctx.revision
      valueBefore := claim.onAxis value
      valueAfter := value
      evidenceIds := p.evidenceIds
      closureWitnessId := p.closureWitnessId
      capabilityId := ctx.capabilityId
      reasonCode := "PROMOTE_CLAIM" } db.verdictEvents
  return { db with verdictEvents := events }.updateClaim p.claimId (·.setAxis value)

/-! ## Routes, attempts, leases and budgets -/

/-- The integer that `int` gives for a JSON value. -/
def toInteger (P : Platform) : Json → Option ℤ
  | .int value => some value
  | .bool value => some value.toNat
  | .str text => P.parseInt text
  | _ => none

/-- `REGISTER_ROUTE`, with the root of its approach. -/
def registerRoute (p : RegisterRoute) : Option Db := do
  let label ← (sqlText (p.approachRoot.getOr "label" (.str p.label))).bind id
  let origin ← sqlText (p.approachRoot.get "origin_artifact_id")
  require (Db.optional db.hasArtifact origin)
  let epoch ← toInteger ctx.platform (p.approachRoot.getOr "contact_epoch" (.int 0))
  require (decide (0 ≤ epoch) && decide (epoch < 2 ^ 63))
  let roots ← insertRow ApproachRoot.clash
    { approachRootId := ctx.newId 0
      runId := ctx.runId
      label := label
      originArtifactId := origin
      contactEpoch := epoch.toNat } db.approachRoots
  let routes ← insertRow Route.clash
    { routeId := ctx.newId 1
      runId := ctx.runId
      contractVersion := p.contractVersion
      targetClaimId := p.targetClaimId
      label := p.label
      status := .active
      representation := p.representation
      toolFamily := p.toolFamily
      approachRootId := ctx.newId 0
      budgetPolicy := p.budgetPolicy
      noveltyZeroStreak := 0 } db.routes
  return { db with approachRoots := roots, routes := routes }

/-- `REGISTER_ATTEMPT`. -/
def registerAttempt (p : RegisterAttempt) : Option Db := do
  let attempts ← insertRow Attempt.clash
    { attemptId := ctx.newId 0
      routeId := p.routeId
      runId := ctx.runId
      ordinal := p.ordinal
      status := .queued
      isolationEpoch := p.isolationEpoch
      workRelpath := p.workRelpath
      allowedWriteSet := p.allowedWriteSet
      inputSnapshotDigest := p.inputSnapshotDigest
      startedAt := none
      endedAt := none } db.attempts
  return { db with attempts := attempts }

/-- `EXPIRE_STALE_LEASES`. -/
def expireStaleLeases (attemptId : Id) : Option Db :=
  some { db with
    leases := updateWhere
      (fun lease => lease.attemptId == attemptId && lease.status == .active &&
        decide (lease.expiresAt ≤ ctx.recordedAt))
      (fun lease => { lease with status := .expired, releasedAt := some ctx.recordedAt })
      db.leases }

/-- The time that lies the given number of seconds after the recorded one. -/
def after (seconds : ℕ) : Instant := ctx.recordedAt + seconds * 1000000

/-- `ACQUIRE_LEASE`. -/
def acquireLease (p : AcquireLease) : Option Db := do
  let leases ← insertRow Lease.clash
    { leaseId := ctx.newId 0
      attemptId := p.attemptId
      holderId := p.holderId
      status := .active
      acquiredAt := ctx.recordedAt
      heartbeatAt := ctx.recordedAt
      expiresAt := after ctx p.ttlSeconds
      releasedAt := none } db.leases
  return { db with leases := leases }

/-- Whether an attempt with the given status has started. -/
def hasStarted (status : AttemptStatus) : Bool := status != .queued

/-- Whether an attempt with the given status has ended. -/
def hasEnded (status : AttemptStatus) : Bool :=
  status != .queued && status != .running && status != .paused

/-- `SET_ATTEMPT_STATUS`. -/
def setAttemptStatus (attempt : AttemptRef) (status : AttemptStatus) : Option Db :=
  some { db with
    attempts := updateWhere
      (fun row => db.attemptOf? attempt == some row.attemptId)
      (fun row => { row with
        status := status
        startedAt := row.startedAt.or (if hasStarted status then some ctx.recordedAt else none)
        endedAt := if hasEnded status then some ctx.recordedAt else row.endedAt }) db.attempts }

/-- `EXTEND_LEASE`. -/
def extendLease (leaseId : Id) (seconds : ℕ) : Option Db :=
  some { db with
    leases := updateWhere (·.leaseId == leaseId)
      (fun lease => { lease with
        heartbeatAt := ctx.recordedAt
        expiresAt := after ctx seconds }) db.leases }

/-- `RELEASE_LEASE`. -/
def releaseLease (leaseId : Id) : Option Db :=
  some { db with
    leases := updateWhere (·.leaseId == leaseId)
      (fun lease => { lease with status := .released, releasedAt := some ctx.recordedAt })
      db.leases }

/-- `APPEND_BUDGET_EVENT`; an amount may be missing only where the cost is unknown. -/
def appendBudgetEvent (p : RecordBudget) : Option Db := do
  require (p.eventKind == .unknownCost || p.amountMicrounits.isSome)
  let events ← insertRow BudgetEvent.clash
    { budgetEventId := ctx.newId 0
      runId := ctx.runId
      routeId := p.routeId
      attemptId := p.attemptId
      commandId := ctx.commandId
      revision := ctx.revision
      eventKind := p.eventKind
      resourceKind := p.resourceKind
      amountMicrounits := p.amountMicrounits
      unit := p.unit
      providerUsage := p.providerUsage } db.budgetEvents
  return { db with budgetEvents := events }

/-- `BLOCK_ROUTE`. -/
def blockRoute (routeId : Option Id) : Option Db :=
  some { db with
    routes := updateWhere (fun route => routeId == some route.routeId)
      (fun route => { route with status := .blocked }) db.routes }

/-- `BIND_EXECUTION`; the external identifiers are stored as texts. -/
def bindExecution (p : BindExecution) : Option Db := do
  let _ ← sqlText (p.externalIds.get "run_id")
  let _ ← sqlText (p.externalIds.get "task_id")
  let _ ← sqlText (p.externalIds.get "workspace_commit")
  let bindings ← insertRow ExecutionBinding.clash
    { bindingId := ctx.newId 0
      runId := ctx.runId
      routeId := p.routeId
      attemptId := p.attemptId
      adapterName := p.adapterName
      adapterVersion := p.adapterVersion
      sourceCommit := p.sourceCommit
      environmentProfileId := p.environmentProfileId
      invocationArtifactId := p.invocationArtifactId
      invocationNonce := ctx.newId 1 } db.bindings
  return { db with bindings := bindings }

/-- The projection of one mutation. -/
def applyMutation : Mutation → Option Db
  | .setContractStatus version status defect => setContractStatus ctx db version status defect
  | .setRunStatus status outcome => setRunStatus ctx db status outcome
  | .expireActiveLeases => expireActiveLeases ctx db
  | .pauseActiveAttempts => pauseActiveAttempts ctx db
  | .supersedeContract version => supersedeContract ctx db version
  | .createContractVersion version replacement => createContractVersion ctx db version replacement
  | .migrateContractClosure version affected => migrateContractClosure ctx db version affected
  | .invalidateDependencyClosure id => invalidateDependencyClosure ctx db id
  | .createDossier => createDossier ctx db
  | .appendEvidence p => appendEvidence ctx db p
  | .appendFailure p => appendFailure ctx db p
  | .appendBudgetReservation p => appendBudgetReservation ctx db p
  | .approveExpansionBatch => some db
  | .appendPeerReview p profile => appendPeerReview ctx db p profile
  | .appendQualityReview p => appendQualityReview ctx db p
  | .appendLiteratureRecord p => appendLiteratureRecord ctx db p
  | .registerBridge p forward reverse => registerBridge ctx db p forward reverse
  | .appendLeanFeedback p => appendLeanFeedback ctx db p
  | .invalidateFromFirstFailure id => invalidateFromFirstFailure ctx db id
  | .registerClaim p closure => registerClaim ctx db p closure
  | .registerClaimEdge p => registerClaimEdge ctx db p
  | .invalidateParentClosure id => invalidateParentClosure db id
  | .revokeFactClosure id => revokeFactClosure ctx db id
  | .recordResearchHint p => recordResearchHint ctx db p
  | .recordPaperReview p => recordPaperReview ctx db p
  | .recordAtomicVerification p update => recordAtomicVerification ctx db p update
  | .registerRoute p => registerRoute ctx db p
  | .registerCompositionObligation p => registerCompositionObligation ctx db p
  | .setClosure id value => setClosure db id value
  | .acceptClosureWitness p closure => acceptClosureWitness ctx db p closure
  | .setClaimAxis p value => setClaimAxis ctx db p value
  | .registerAttempt p => registerAttempt ctx db p
  | .expireStaleLeases id => expireStaleLeases ctx db id
  | .acquireLease p => acquireLease ctx db p
  | .setAttemptStatus attempt status => setAttemptStatus ctx db attempt status
  | .extendLease id seconds => extendLease ctx db id seconds
  | .releaseLease id => releaseLease ctx db id
  | .appendBudgetEvent p => appendBudgetEvent ctx db p
  | .blockRoute id => blockRoute db id
  | .bindExecution p => bindExecution ctx db p

/-- The projection of the mutations of a decision, in order. -/
def apply : List Mutation → Db → Option Db
  | [], db => some db
  | mutation :: mutations, db => do
    let db ← applyMutation ctx db mutation
    apply mutations db

end Projection

end ResearchKernel
