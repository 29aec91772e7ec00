import ResearchKernel.Json
import ResearchKernel.Schema

/-!
# The rows of the database

One structure for each table, with the columns that the kernel reads. Bookkeeping
columns that nothing reads (time stamps of rows, identifiers of the creating event) are
left out. Columns that hold JSON texts are JSON values here.
-/

namespace ResearchKernel

/-! ## Decisions -/

/-- Codes of rejected commands. -/
inductive RejectionCode where
  | revisionConflict | capabilityDenied | runClosed | contractNotFrozen | contractDefective
  | invalidTransition | evidenceInsufficient | evidenceScopeMismatch | artifactMissing
  | ingestSchemaInvalid | secretQuarantined | compositionOpen | independenceUnknown
  | budgetDenied | leaseConflict | replayFailed | environmentDrift | terminalClaimUnsupported
  | temporarilyUnavailable

/-- A condition that a rejected command misses. -/
structure MissingCondition where
  /-- What is missing. -/
  code : String
  /-- The field of the request that misses it. -/
  path : String
  /-- Further facts for the caller. -/
  params : JsonObject := []

/-- What the caller is told about a decided command. -/
structure CommandReceipt where
  requestId : Id
  commandId : Id
  runId : Id
  accepted : Bool
  revisionBefore : ℕ
  revisionAfter : ℕ
  eventIds : List Id
  artifactIds : List Id
  rejectionCode : Option RejectionCode
  missingConditions : List MissingCondition
  decidedAt : Instant

/-- A capability whose credential has been verified. -/
structure VerifiedCapability where
  capabilityId : Id
  subjectId : Id
  issuer : String
  allowedActions : List String
  runScope : List Id
  /-- Start of validity; none when the text is not a time with a zone. -/
  issuedAt : Option Instant
  /-- End of validity; none when the text is not a time with a zone. -/
  expiresAt : Option Instant
  subjectRole : Option String := none

/-- Whether the capability allows an action in a run. -/
def VerifiedCapability.allows (capability : VerifiedCapability) (action : String)
    (runId : Option Id) : Bool :=
  (capability.allowedActions.contains action || capability.allowedActions.contains "*") &&
    match runId with
    | none => true
    | some runId => capability.runScope.contains "*" || capability.runScope.contains runId

/-- Table `capabilities`. -/
structure CapabilityRow where
  capabilityId : Id
  subjectId : Id
  issuer : String
  allowedActions : List String
  runScope : List Id
  issuedAt : Option Instant
  expiresAt : Option Instant
deriving DecidableEq

/-! ## Runs, contracts and artifacts -/

/-- Table `runs`. -/
structure Run where
  runId : Id
  stableProjectId : String
  createIssuer : String
  createRequestId : Id
  createRequestDigest : Digest
  status : RunStatus
  revision : ℕ
  currentContractVersion : ℕ
  rootClaimId : Option Id
  parentDossierArtifactId : Option Id
  finalOutcome : Option Outcome
  createdAt : Instant

/-- The evidence of a proposed contract defect. -/
structure DefectEvidence where
  evidenceRefs : List Id
  affectedClaimIds : List Id
  proposedPatchArtifactId : Id

/-- Table `contract_versions`. -/
structure ContractVersion where
  runId : Id
  version : ℕ
  status : ContractStatus
  contractArtifactId : Id
  contract : JsonObject
  statementHash : Digest
  defectType : Option String
  defectEvidence : Option DefectEvidence

/-- Table `artifacts`. -/
structure Artifact where
  artifactId : Id
  sha256 : Digest
  byteCount : ℕ
  mediaType : String
  casRelpath : String
  ingestState : ArtifactState
deriving DecidableEq

/-- Table `run_artifacts`. -/
structure RunArtifact where
  runId : Id
  artifactId : Id
  logicalName : String
  role : ArtifactRole

/-! ## The claim graph -/

/-- Table `claims`. -/
structure Claim where
  claimId : Id
  runId : Id
  contractVersion : ℕ
  claimKind : ClaimKind
  stableLabel : String
  statementRevision : ℕ
  statementArtifactId : Id
  statementHash : Digest
  normalizedStatement : JsonObject
  lifecycleStatus : LifecycleStatus
  routeResult : RouteResult
  machineVerdict : MachineVerdict
  semanticVerdict : SemanticVerdict
  peerVerdict : PeerVerdict
  qualityVerdict : QualityVerdict
  closureState : ClosureState

/-- Table `claim_edges`. -/
structure ClaimEdge where
  edgeId : Id
  runId : Id
  contractVersion : ℕ
  fromClaimId : Id
  toClaimId : Id
  edgeKind : EdgeKind
  direction : Direction
  justificationKind : JustificationKind
  justificationRef : String
  status : EdgeStatus

/-- One of the six parts of a composition obligation. -/
structure Part where
  ref : String
  status : PartStatus

/-- The six parts of a composition obligation. -/
structure SixParts where
  coverage : Part
  compatibility : Part
  invariant : Part
  progress : Part
  boundary : Part
  simultaneousChoice : Part

/-- The names of the six parts, in the order in which they are checked. -/
def partNames : List String :=
  ["coverage", "compatibility", "invariant", "progress", "boundary", "simultaneous_choice"]

def SixParts.named (parts : SixParts) : List (String × Part) :=
  [("coverage", parts.coverage), ("compatibility", parts.compatibility),
    ("invariant", parts.invariant), ("progress", parts.progress), ("boundary", parts.boundary),
    ("simultaneous_choice", parts.simultaneousChoice)]

/-- Table `composition_obligations`. -/
structure Obligation where
  obligationId : Id
  runId : Id
  contractVersion : ℕ
  parentClaimId : Id
  childClaimIds : List Id
  parts : SixParts
  compositionRule : CompositionRule
  closureTheoremRef : String
  status : ObligationStatus

/-- Table `closure_witnesses`. -/
structure ClosureWitness where
  witnessId : Id
  runId : Id
  parentClaimId : Id
  contractVersion : ℕ
  selectedSubgraphDigest : Digest
  selectedSubgraphArtifactId : Id
  dischargedObligations : List Id
  openObligations : List Id
  bridgeDependencies : List Id
  compositionMode : CompositionMode
  humanAttestationReviewIds : List Id
  status : WitnessStatus

/-- Table `bridges`. -/
structure Bridge where
  bridgeId : Id
  runId : Id
  contractVersion : ℕ
  sourceClaimId : Id
  targetClaimId : Id
  directionality : Directionality
  targetAuditReviewId : Option Id
  backtranslationArtifactId : Option Id
  forwardStatus : BridgeStatus
  reverseStatus : BridgeStatus

/-! ## Evidence and reviews -/

/-- Table `evidence_roots`. -/
structure EvidenceRoot where
  evidenceRootId : Id
  runId : Id
  rootKind : RootKind
  originArtifactId : Option Id
  verifierProfileId : Option String

/-- Table `evidence`. -/
structure Evidence where
  evidenceId : Id
  runId : Id
  claimId : Id
  contractVersion : ℕ
  statementHash : Digest
  artifactId : Id
  evidenceType : EvidenceType
  evidenceStrength : EvidenceStrength
  evidenceRootId : Id
  scope : JsonObject
  provenance : JsonObject
  ingestStatus : IngestStatus
  submittedByCommandId : Id

/-- Table `verdict_events`. -/
structure VerdictEvent where
  verdictEventId : Id
  runId : Id
  claimId : Id
  commandId : Id
  revision : ℕ
  valueBefore : AxisValue
  valueAfter : AxisValue
  evidenceIds : List Id
  closureWitnessId : Option Id
  capabilityId : Id
  reasonCode : String

/-- Table `peer_reviews`. -/
structure PeerReview where
  reviewId : Id
  runId : Id
  claimId : Id
  contractVersion : ℕ
  statementHash : Digest
  selectedSubgraphDigest : Option Digest
  reviewerCapabilityId : Id
  /-- The profile that the host derives, never the caller. -/
  independenceProfile : JsonObject
  verdict : ReviewVerdict
  checklist : JsonObject
  reviewArtifactId : Id
  sourceGraph : JsonObject

/-- Table `quality_reviews`. -/
structure QualityReview where
  qualityReviewId : Id
  runId : Id
  claimId : Id
  contractVersion : ℕ
  reviewerCapabilityId : Id
  verdict : ReviewVerdict
  reviewArtifactId : Id
  trainingPool : TrainingPool

/-- Table `literature_records`. -/
structure LiteratureRecord where
  literatureRecordId : Id
  runId : Id
  contractVersion : ℕ
  claimId : Option Id
  status : LiteratureStatus
  relation : Option LiteratureRelation
  scope : JsonObject
  referenceArtifactId : Option Id

/-- Table `lean_feedback_events`. -/
structure LeanFeedback where
  leanFeedbackId : Id
  runId : Id
  claimId : Id
  attemptId : Option Id
  contractVersion : ℕ
  environmentProfileId : String
  toolchain : String
  mathlibCommit : Option String
  sourceArtifactId : Id
  outputArtifactId : Id
  feedbackKind : FeedbackKind
  firstFailedObligationId : Option Id
  diagnostic : JsonObject
  receiptNonce : Option String

/-- Table `failure_records`. -/
structure FailureRecord where
  failureRecordId : Id
  runId : Id
  contractVersion : ℕ
  routeId : Option Id
  claimId : Option Id
  failureKind : FailureKind
  normalizedFingerprint : Digest
  firstFailedObligationId : Option Id
  evidenceArtifactId : Option Id

/-- Table `research_hints`. -/
structure ResearchHint where
  hintId : Id
  runId : Id
  contractVersion : ℕ
  hintKind : HintKind
  hintText : String
  targetRouteId : Option Id
  targetClaimId : Option Id
  checkpointLabel : String

/-- Table `paper_reviews`. -/
structure PaperReview where
  paperReviewId : Id
  runId : Id
  contractVersion : ℕ
  finalFactId : Id
  paperSha256 : Digest
  status : PaperStatus
  reviewArtifactId : Id
  reviewerCapabilityId : Id

/-- Table `atomic_verifications`. -/
structure AtomicVerification where
  verificationId : Id
  runId : Id
  contractVersion : ℕ
  claimId : Id
  backend : Backend
  verdict : VerificationVerdict
  verificationRef : Option Id
  repairFeedback : String
  verifierCapabilityId : Id
  createdAt : Instant

/-! ## Routes, attempts and host executions -/

/-- Table `approach_roots`. -/
structure ApproachRoot where
  approachRootId : Id
  runId : Id
  label : String
  originArtifactId : Option String
  contactEpoch : ℕ

/-- Table `routes`. -/
structure Route where
  routeId : Id
  runId : Id
  contractVersion : ℕ
  targetClaimId : Id
  label : String
  status : RouteStatus
  representation : String
  toolFamily : String
  approachRootId : Id
  budgetPolicy : JsonObject
  noveltyZeroStreak : ℕ

/-- Table `attempts`. -/
structure Attempt where
  attemptId : Id
  routeId : Id
  runId : Id
  ordinal : ℕ
  status : AttemptStatus
  isolationEpoch : ℕ
  workRelpath : String
  allowedWriteSet : List String
  inputSnapshotDigest : Digest
  startedAt : Option Instant
  endedAt : Option Instant

/-- Table `leases`. -/
structure Lease where
  leaseId : Id
  attemptId : Id
  holderId : String
  status : LeaseStatus
  acquiredAt : Instant
  heartbeatAt : Instant
  expiresAt : Instant
  releasedAt : Option Instant

/-- Table `execution_bindings`. -/
structure ExecutionBinding where
  bindingId : Id
  runId : Id
  routeId : Id
  attemptId : Id
  adapterName : String
  adapterVersion : String
  sourceCommit : Option String
  environmentProfileId : String
  invocationArtifactId : Id
  invocationNonce : Id

/-- Table `budget_events`. -/
structure BudgetEvent where
  budgetEventId : Id
  runId : Id
  routeId : Option Id
  attemptId : Option Id
  commandId : Id
  revision : ℕ
  eventKind : BudgetEventKind
  resourceKind : ResourceKind
  amountMicrounits : Option ℕ
  unit : String
  providerUsage : JsonObject

/-- Table `host_execution_receipts`. -/
structure HostReceipt where
  receiptId : Id
  receiptNonce : String
  serviceInstanceId : String
  runId : Id
  routeId : Id
  attemptId : Id
  bindingId : Id
  claimId : Id
  contractVersion : ℕ
  statementHash : Digest
  environmentProfileId : String
  adapterName : String
  adapterVersion : String
  sourceCommit : Option String
  toolchain : Option String
  binarySha256 : Option Digest
  requestHash : Digest
  resultHash : Digest
  sourceSha256 : Option Digest
  outputSha256 : Option Digest
  dependencyClosureDigest : Option Digest
  status : String
  exitCode : Option ℤ
  wallTimeMs : ℕ
  providerUsage : JsonObject
  /-- The text of the signed payload. -/
  payloadText : List Char
  signature : String
  authorityEligible : Bool
  blockReasons : List String
  recordedByCommandId : Id
  consumedByFeedbackId : Option Id
  consumedAt : Option Instant
  consumedByVerificationId : Option Id
  checkerConsumedAt : Option Instant

/-- Table `host_execution_claims`. -/
structure HostClaim where
  attemptId : Id
  bindingId : Id
  claimToken : Id
  runId : Id
  routeId : Id
  requestHash : Digest
  component : String
  serviceInstanceId : String
  heartbeatAt : Instant
  recoverAfter : Instant
  completedAt : Option Instant
  recoveryState : RecoveryState

end ResearchKernel
