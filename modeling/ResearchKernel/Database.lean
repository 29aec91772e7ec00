import ResearchKernel.Foundation.Table
import ResearchKernel.Commands

/-!
# The database

The state of the kernel is a database of tables. A failed constraint of the schema ends
the transaction, so an insertion is an option: none when the new row clashes with the
primary key or a unique index of its table. Foreign keys are checked by `has...` tests
where a writer may name a row that its guard has not looked up.
-/

namespace ResearchKernel

open Foundation

/-- Table `commands`. -/
structure CommandRow where
  commandId : Id
  runId : Id
  requestId : String
  requestDigest : Digest
  expectedRevision : ℕ
  capabilityId : Id
  accepted : Bool
  revisionBefore : ℕ
  revisionAfter : ℕ
  rejectionCode : Option RejectionCode
  missingConditions : List MissingCondition
  receipt : CommandReceipt
  decidedAt : Instant

/-- Table `events`, in the order in which events are recorded. The payload of an accepted
command is the command itself. -/
structure Event where
  eventId : Id
  runId : Id
  commandId : Id
  revision : ℕ
  command : Option Command
  contractVersion : Option ℕ

/-- The database. -/
structure Db where
  capabilities : List CapabilityRow := []
  runs : List Run := []
  contractVersions : List ContractVersion := []
  artifacts : List Artifact := []
  runArtifacts : List RunArtifact := []
  commands : List CommandRow := []
  events : List Event := []
  claims : List Claim := []
  claimEdges : List ClaimEdge := []
  obligations : List Obligation := []
  closureWitnesses : List ClosureWitness := []
  bridges : List Bridge := []
  evidenceRoots : List EvidenceRoot := []
  evidence : List Evidence := []
  verdictEvents : List VerdictEvent := []
  peerReviews : List PeerReview := []
  qualityReviews : List QualityReview := []
  literatureRecords : List LiteratureRecord := []
  leanFeedback : List LeanFeedback := []
  failureRecords : List FailureRecord := []
  researchHints : List ResearchHint := []
  paperReviews : List PaperReview := []
  atomicVerifications : List AtomicVerification := []
  approachRoots : List ApproachRoot := []
  routes : List Route := []
  attempts : List Attempt := []
  leases : List Lease := []
  bindings : List ExecutionBinding := []
  budgetEvents : List BudgetEvent := []
  hostReceipts : List HostReceipt := []
  hostClaims : List HostClaim := []

/-- The database after the migrations and before the first request. -/
def Db.empty : Db := {}

namespace Db

/-! ## Foreign keys -/

/-- Whether a claim with the given identifier exists. -/
def hasClaim (db : Db) (id : Id) : Bool := db.claims.any (·.claimId == id)

/-- Whether a route with the given identifier exists. -/
def hasRoute (db : Db) (id : Id) : Bool := db.routes.any (·.routeId == id)

/-- Whether an attempt with the given identifier exists. -/
def hasAttempt (db : Db) (id : Id) : Bool := db.attempts.any (·.attemptId == id)

/-- Whether an artifact with the given identifier exists. -/
def hasArtifact (db : Db) (id : Id) : Bool := db.artifacts.any (·.artifactId == id)

/-- Whether a peer review with the given identifier exists. -/
def hasReview (db : Db) (id : Id) : Bool := db.peerReviews.any (·.reviewId == id)

/-- Whether a closure witness with the given identifier exists. -/
def hasWitness (db : Db) (id : Id) : Bool := db.closureWitnesses.any (·.witnessId == id)

/-- A reference that may be absent is satisfied by absence. -/
def optional (test : Id → Bool) : Option Id → Bool
  | none => true
  | some id => test id

end Db

/-! ## Clashes with keys and unique indices -/

/-- Unique columns of `runs`. -/
def Run.clash (a b : Run) : Bool :=
  a.runId == b.runId || a.createIssuer == b.createIssuer && a.createRequestId == b.createRequestId

/-- Unique columns of `contract_versions`. -/
def ContractVersion.clash (a b : ContractVersion) : Bool :=
  a.runId == b.runId && a.version == b.version

/-- Unique columns of `artifacts`. -/
def Artifact.clash (a b : Artifact) : Bool :=
  a.artifactId == b.artifactId || a.sha256 == b.sha256 || a.casRelpath == b.casRelpath

/-- Unique columns of `commands`. -/
def CommandRow.clash (a b : CommandRow) : Bool :=
  a.commandId == b.commandId || a.runId == b.runId && a.requestId == b.requestId

/-- Unique columns of `events`. -/
def Event.clash (a b : Event) : Bool := a.eventId == b.eventId

/-- Unique columns of `claims`. -/
def Claim.clash (a b : Claim) : Bool :=
  a.claimId == b.claimId || a.runId == b.runId && a.stableLabel == b.stableLabel &&
    a.statementRevision == b.statementRevision

/-- Unique columns of `claim_edges`. -/
def ClaimEdge.clash (a b : ClaimEdge) : Bool :=
  a.edgeId == b.edgeId || a.runId == b.runId && a.contractVersion == b.contractVersion &&
    a.fromClaimId == b.fromClaimId && a.toClaimId == b.toClaimId && a.edgeKind == b.edgeKind &&
    a.direction == b.direction

/-- Unique columns of `composition_obligations`. -/
def Obligation.clash (a b : Obligation) : Bool := a.obligationId == b.obligationId

/-- Unique columns of `closure_witnesses`. -/
def ClosureWitness.clash (a b : ClosureWitness) : Bool :=
  a.witnessId == b.witnessId || a.parentClaimId == b.parentClaimId &&
    a.contractVersion == b.contractVersion && a.selectedSubgraphDigest == b.selectedSubgraphDigest

/-- Unique columns of `bridges`. -/
def Bridge.clash (a b : Bridge) : Bool := a.bridgeId == b.bridgeId

/-- Unique columns of `evidence_roots`. -/
def EvidenceRoot.clash (a b : EvidenceRoot) : Bool := a.evidenceRootId == b.evidenceRootId

/-- Unique columns of `evidence`. -/
def Evidence.clash (a b : Evidence) : Bool :=
  a.evidenceId == b.evidenceId || a.runId == b.runId && a.claimId == b.claimId &&
    a.contractVersion == b.contractVersion && a.statementHash == b.statementHash &&
    a.artifactId == b.artifactId && a.evidenceType == b.evidenceType &&
    a.evidenceRootId == b.evidenceRootId

/-- Unique columns of `verdict_events`. -/
def VerdictEvent.clash (a b : VerdictEvent) : Bool := a.verdictEventId == b.verdictEventId

/-- Unique columns of `peer_reviews`. -/
def PeerReview.clash (a b : PeerReview) : Bool :=
  a.reviewId == b.reviewId || a.claimId == b.claimId && a.contractVersion == b.contractVersion &&
    a.statementHash == b.statementHash && a.reviewerCapabilityId == b.reviewerCapabilityId &&
    a.reviewArtifactId == b.reviewArtifactId

/-- Unique columns of `quality_reviews`. -/
def QualityReview.clash (a b : QualityReview) : Bool := a.qualityReviewId == b.qualityReviewId

/-- Unique columns of `literature_records`. -/
def LiteratureRecord.clash (a b : LiteratureRecord) : Bool :=
  a.literatureRecordId == b.literatureRecordId

/-- Unique columns of `lean_feedback_events`. -/
def LeanFeedback.clash (a b : LeanFeedback) : Bool :=
  a.leanFeedbackId == b.leanFeedbackId || a.receiptNonce.isSome && a.receiptNonce == b.receiptNonce

/-- Unique columns of `failure_records`. -/
def FailureRecord.clash (a b : FailureRecord) : Bool :=
  a.failureRecordId == b.failureRecordId || a.runId == b.runId &&
    a.contractVersion == b.contractVersion && a.normalizedFingerprint == b.normalizedFingerprint

/-- Unique columns of `research_hints`. -/
def ResearchHint.clash (a b : ResearchHint) : Bool := a.hintId == b.hintId

/-- Unique columns of `paper_reviews`. -/
def PaperReview.clash (a b : PaperReview) : Bool := a.paperReviewId == b.paperReviewId

/-- Unique columns of `atomic_verifications`. -/
def AtomicVerification.clash (a b : AtomicVerification) : Bool :=
  a.verificationId == b.verificationId

/-- Unique columns of `approach_roots`. -/
def ApproachRoot.clash (a b : ApproachRoot) : Bool :=
  a.approachRootId == b.approachRootId || a.runId == b.runId && a.label == b.label &&
    a.contactEpoch == b.contactEpoch

/-- Unique columns of `routes`. -/
def Route.clash (a b : Route) : Bool :=
  a.routeId == b.routeId || a.runId == b.runId && a.label == b.label

/-- Unique columns of `attempts`. -/
def Attempt.clash (a b : Attempt) : Bool :=
  a.attemptId == b.attemptId || a.workRelpath == b.workRelpath ||
    a.routeId == b.routeId && a.ordinal == b.ordinal

/-- Unique columns of `leases`; an attempt has at most one active lease. -/
def Lease.clash (a b : Lease) : Bool :=
  a.leaseId == b.leaseId ||
    a.attemptId == b.attemptId && a.status == .active && b.status == .active

/-- Unique columns of `execution_bindings`. -/
def ExecutionBinding.clash (a b : ExecutionBinding) : Bool :=
  a.bindingId == b.bindingId || a.attemptId == b.attemptId ||
    a.invocationNonce == b.invocationNonce

/-- Unique columns of `budget_events`. -/
def BudgetEvent.clash (a b : BudgetEvent) : Bool := a.budgetEventId == b.budgetEventId

/-- Unique columns of `host_execution_receipts`. -/
def HostReceipt.clash (a b : HostReceipt) : Bool :=
  a.receiptId == b.receiptId || a.receiptNonce == b.receiptNonce || a.attemptId == b.attemptId ||
    a.bindingId == b.bindingId

/-- Unique columns of `host_execution_claims`. -/
def HostClaim.clash (a b : HostClaim) : Bool :=
  a.attemptId == b.attemptId || a.bindingId == b.bindingId || a.claimToken == b.claimToken

end ResearchKernel
