import ResearchKernel.Tables

/-!
# Requests

The typed commands of the wire schema, each with the fields that the kernel reads, the
requests that carry them and the policy of the host. Optional fields of the schema are
options; fields of free shape are JSON values.
-/

namespace ResearchKernel

/-- Payload of `FreezeContract`. -/
structure FreezeContract where
  contractVersion : ℕ
  completenessCheckArtifactId : Id

/-- Payload of `StartRun`. -/
structure StartRun where
  contractVersion : ℕ
  literaturePlanArtifactId : Id
  budgetPolicy : JsonObject

/-- Payload of `AmendContract`. -/
structure AmendContract where
  baseVersion : ℕ
  replacementContract : JsonObject
  patchArtifactId : Id
  approvals : List Id
  impactAnalysisArtifactId : Id

/-- Payload of `Interrupt`. -/
structure Interrupt where
  checkpointArtifactId : Id

/-- Payload of `Resume`. -/
structure Resume where
  checkpointArtifactId : Id
  leasePreflight : Bool
  budgetPreflight : Bool

/-- Payload of `Finalize`. -/
structure Finalize where
  outcome : Outcome
  terminalClaimIds : List Id
  openObligationIds : List Id
  dossierSpec : JsonObject

/-- The root that a submitter declares for its evidence. -/
structure EvidenceRootInput where
  rootKind : RootKind
  originArtifactInputName : Option String
  originArtifactId : Option Id
  verifierProfileId : Option String

/-- Payload of `SubmitEvidence`. -/
structure SubmitEvidence where
  claimId : Id
  contractVersion : ℕ
  statementHash : Digest
  evidenceType : EvidenceType
  evidenceStrength : EvidenceStrength
  artifactInputNames : List String
  scope : JsonObject
  provenance : JsonObject
  evidenceRoot : EvidenceRootInput

/-- Payload of `RecordFailure`. -/
structure RecordFailure where
  routeId : Option Id
  claimId : Option Id
  failureKind : FailureKind
  normalizedFingerprint : Digest
  firstFailedObligationId : Option Id
  evidenceArtifactId : Option Id

/-- Payload of `RequestExpansion`. -/
structure RequestExpansion where
  routeId : Id
  reservation : JsonObject
  noveltyDelta : JsonObject
  expectedInformationGain : ℕ
  decisionIds : List String

/-- Payload of `ProposeContractDefect`. -/
structure ProposeContractDefect where
  contractVersion : ℕ
  defectType : String
  evidenceRefs : List Id
  affectedClaimIds : List Id
  proposedPatchArtifactId : Id

/-- Payload of `RecordPeerReview`. -/
structure RecordPeerReview where
  claimId : Id
  contractVersion : ℕ
  statementHash : Digest
  selectedSubgraphDigest : Option Digest
  reviewArtifactId : Id
  verdict : ReviewVerdict
  checklist : JsonObject
  sourceGraph : JsonObject
  verifierAttestation : JsonObject

/-- Payload of `RecordQualityReview`. -/
structure RecordQualityReview where
  claimId : Id
  contractVersion : ℕ
  reviewArtifactId : Id
  verdict : ReviewVerdict
  dimensions : JsonObject
  trainingPool : TrainingPool

/-- Payload of `RecordLiterature`. -/
structure RecordLiterature where
  contractVersion : ℕ
  claimId : Option Id
  status : LiteratureStatus
  relation : Option LiteratureRelation
  scope : JsonObject
  queryFamilies : List JsonObject
  queryLogArtifactId : Id
  referenceArtifactId : Option Id
  assessmentArtifactId : Id

/-- Payload of `RegisterBridge`. -/
structure RegisterBridge where
  bridgeId : Option Id
  contractVersion : ℕ
  sourceClaimId : Id
  targetClaimId : Id
  directionality : Directionality
  forwardObligations : List JsonObject
  reverseObligations : List JsonObject
  bridgeSpec : JsonObject
  targetAuditReviewId : Option Id
  backtranslationArtifactId : Option Id

/-- Payload of `RecordLeanFeedback`. -/
structure RecordLeanFeedback where
  claimId : Id
  attemptId : Option Id
  contractVersion : ℕ
  environmentProfileId : String
  toolchain : String
  mathlibCommit : Option String
  sourceArtifactId : Id
  outputArtifactId : Id
  feedbackKind : FeedbackKind
  firstFailedObligationId : Option Id
  diagnostic : JsonObject

/-- Payload of `RegisterClaim`. -/
structure RegisterClaim where
  contractVersion : ℕ
  claimKind : ClaimKind
  stableLabel : String
  statementArtifactId : Id
  statementHash : Digest
  normalizedStatement : JsonObject

/-- Payload of `RegisterClaimEdge`. -/
structure RegisterClaimEdge where
  contractVersion : ℕ
  fromClaimId : Id
  toClaimId : Id
  edgeKind : EdgeKind
  direction : Direction
  justificationKind : JustificationKind
  justificationRef : String

/-- Payload of `RevokeFact`. -/
structure RevokeFact where
  contractVersion : ℕ
  factId : Id
  reason : String

/-- Payload of `RecordResearchHint`. -/
structure RecordResearchHint where
  contractVersion : ℕ
  hintKind : HintKind
  hint : String
  checkpointLabel : String
  targetRouteId : Option Id
  targetClaimId : Option Id

/-- Payload of `RecordPaperReview`. -/
structure RecordPaperReview where
  contractVersion : ℕ
  finalFactId : Id
  paperSha256 : Digest
  status : PaperStatus
  reviewArtifactId : Id
  verifierAttestation : JsonObject

/-- Payload of `VerifyAtomicClaim`. -/
structure VerifyAtomicClaim where
  contractVersion : ℕ
  claimId : Id
  backend : Backend
  verdict : VerificationVerdict
  verificationRef : Option Id
  repairFeedback : String

/-- Payload of `RegisterRoute`. -/
structure RegisterRoute where
  contractVersion : ℕ
  targetClaimId : Id
  label : String
  representation : String
  toolFamily : String
  approachRoot : JsonObject
  budgetPolicy : JsonObject

/-- Payload of `RegisterCompositionObligation`. -/
structure RegisterCompositionObligation where
  contractVersion : ℕ
  parentClaimId : Id
  childClaimIds : List Id
  parts : SixParts
  compositionRule : CompositionRule
  closureTheoremRef : String

/-- Payload of `SubmitClosureWitness`. -/
structure SubmitClosureWitness where
  parentClaimId : Id
  contractVersion : ℕ
  selectedSubgraph : JsonObject
  selectedSubgraphDigest : Digest
  dischargedObligationIds : List Id
  openObligationIds : List Id
  edgeJustifications : List JsonObject
  bridgeDependencyIds : List Id
  compositionMode : CompositionMode
  verificationRefs : List JsonObject
  humanAttestationReviewIds : List Id

/-- The axis that a promotion names. -/
inductive Axis where
  | route | machine | semantic | peer | quality | closure

/-- Text of an axis. -/
def Axis.wire : Axis → String
  | .route => "ROUTE"
  | .machine => "MACHINE"
  | .semantic => "SEMANTIC"
  | .peer => "PEER"
  | .quality => "QUALITY"
  | .closure => "CLOSURE"

/-- The value that a promotion names. One type holds the values of all axes. -/
inductive TargetValue where
  | unassessed | candidate | localLemmasVerified | routeLocal | routeProved | refuted
  | previouslyKnown | unverified | kernelVerified | certificateVerified | replayFailed | unreviewed
  | tested | humanAttested | accepted | rejected | needsRevision | notRequired | isOpen
  | closedMachine | closedHuman | closedHybrid | invalidated

/-- The value of an axis that a promotion names; none when the axis lacks that value. -/
def axisValue : Axis → TargetValue → Option AxisValue
  | .route, .unassessed => some (.route .unassessed)
  | .route, .candidate => some (.route .candidate)
  | .route, .localLemmasVerified => some (.route .localLemmasVerified)
  | .route, .routeLocal => some (.route .routeLocal)
  | .route, .routeProved => some (.route .routeProved)
  | .route, .refuted => some (.route .refuted)
  | .route, .previouslyKnown => some (.route .previouslyKnown)
  | .machine, .unverified => some (.machine .unverified)
  | .machine, .kernelVerified => some (.machine .kernelVerified)
  | .machine, .certificateVerified => some (.machine .certificateVerified)
  | .machine, .replayFailed => some (.machine .replayFailed)
  | .semantic, .unreviewed => some (.semantic .unreviewed)
  | .semantic, .tested => some (.semantic .tested)
  | .semantic, .humanAttested => some (.semantic .humanAttested)
  | .semantic, .refuted => some (.semantic .refuted)
  | .peer, .unreviewed => some (.peer .unreviewed)
  | .peer, .accepted => some (.peer .accepted)
  | .peer, .rejected => some (.peer .rejected)
  | .peer, .needsRevision => some (.peer .needsRevision)
  | .quality, .unreviewed => some (.quality .unreviewed)
  | .quality, .accepted => some (.quality .accepted)
  | .quality, .rejected => some (.quality .rejected)
  | .quality, .needsRevision => some (.quality .needsRevision)
  | .closure, .notRequired => some (.closure .notRequired)
  | .closure, .isOpen => some (.closure .isOpen)
  | .closure, .closedMachine => some (.closure .closedMachine)
  | .closure, .closedHuman => some (.closure .closedHuman)
  | .closure, .closedHybrid => some (.closure .closedHybrid)
  | .closure, .invalidated => some (.closure .invalidated)
  | _, _ => none

/-- Payload of `PromoteClaim`. -/
structure PromoteClaim where
  claimId : Id
  targetAxis : Axis
  targetValue : TargetValue
  evidenceIds : List Id
  closureWitnessId : Option Id

/-- Payload of `RegisterAttempt`. -/
structure RegisterAttempt where
  routeId : Id
  ordinal : ℕ
  isolationEpoch : ℕ
  workRelpath : String
  allowedWriteSet : List String
  inputSnapshotDigest : Digest

/-- Payload of `AcquireLease`. -/
structure AcquireLease where
  attemptId : Id
  holderId : String
  ttlSeconds : ℕ

/-- Payload of `HeartbeatLease`. -/
structure HeartbeatLease where
  leaseId : Id
  holderId : String
  extendSeconds : ℕ

/-- The attempt statuses with which a lease can be released. -/
inductive TerminalAttemptStatus where
  | paused | succeeded | failed | aborted | environmentError
deriving DecidableEq

/-- The status of an attempt released so. -/
def TerminalAttemptStatus.toStatus : TerminalAttemptStatus → AttemptStatus
  | .paused => .paused
  | .succeeded => .succeeded
  | .failed => .failed
  | .aborted => .aborted
  | .environmentError => .environmentError

/-- Payload of `ReleaseLease`. -/
structure ReleaseLease where
  leaseId : Id
  holderId : String
  terminalAttemptStatus : TerminalAttemptStatus

/-- Payload of `RecordBudget`. -/
structure RecordBudget where
  routeId : Option Id
  attemptId : Option Id
  eventKind : BudgetEventKind
  resourceKind : ResourceKind
  amountMicrounits : Option ℕ
  unit : String
  providerUsage : JsonObject

/-- Payload of `BindExecution`. -/
structure BindExecution where
  routeId : Id
  attemptId : Id
  adapterName : String
  adapterVersion : String
  sourceCommit : Option String
  environmentProfileId : String
  invocationArtifactId : Id
  externalIds : JsonObject

/-- The commands of the wire schema. -/
inductive Command where
  | freezeContract (payload : FreezeContract)
  | startRun (payload : StartRun)
  | amendContract (payload : AmendContract)
  | interrupt (payload : Interrupt)
  | resume (payload : Resume)
  | finalize (payload : Finalize)
  | submitEvidence (payload : SubmitEvidence)
  | recordFailure (payload : RecordFailure)
  | requestExpansion (payload : RequestExpansion)
  | proposeContractDefect (payload : ProposeContractDefect)
  | recordPeerReview (payload : RecordPeerReview)
  | recordQualityReview (payload : RecordQualityReview)
  | recordLiterature (payload : RecordLiterature)
  | registerBridge (payload : RegisterBridge)
  | recordLeanFeedback (payload : RecordLeanFeedback)
  | registerClaim (payload : RegisterClaim)
  | registerClaimEdge (payload : RegisterClaimEdge)
  | revokeFact (payload : RevokeFact)
  | recordResearchHint (payload : RecordResearchHint)
  | recordPaperReview (payload : RecordPaperReview)
  | verifyAtomicClaim (payload : VerifyAtomicClaim)
  | registerRoute (payload : RegisterRoute)
  | registerCompositionObligation (payload : RegisterCompositionObligation)
  | submitClosureWitness (payload : SubmitClosureWitness)
  | promoteClaim (payload : PromoteClaim)
  | registerAttempt (payload : RegisterAttempt)
  | acquireLease (payload : AcquireLease)
  | heartbeatLease (payload : HeartbeatLease)
  | releaseLease (payload : ReleaseLease)
  | recordBudget (payload : RecordBudget)
  | bindExecution (payload : BindExecution)

namespace Command

/-- The name of a command on the wire, which is also the action it needs. -/
def type : Command → String
  | freezeContract _ => "FreezeContract"
  | startRun _ => "StartRun"
  | amendContract _ => "AmendContract"
  | interrupt _ => "Interrupt"
  | resume _ => "Resume"
  | finalize _ => "Finalize"
  | submitEvidence _ => "SubmitEvidence"
  | recordFailure _ => "RecordFailure"
  | requestExpansion _ => "RequestExpansion"
  | proposeContractDefect _ => "ProposeContractDefect"
  | recordPeerReview _ => "RecordPeerReview"
  | recordQualityReview _ => "RecordQualityReview"
  | recordLiterature _ => "RecordLiterature"
  | registerBridge _ => "RegisterBridge"
  | recordLeanFeedback _ => "RecordLeanFeedback"
  | registerClaim _ => "RegisterClaim"
  | registerClaimEdge _ => "RegisterClaimEdge"
  | revokeFact _ => "RevokeFact"
  | recordResearchHint _ => "RecordResearchHint"
  | recordPaperReview _ => "RecordPaperReview"
  | verifyAtomicClaim _ => "VerifyAtomicClaim"
  | registerRoute _ => "RegisterRoute"
  | registerCompositionObligation _ => "RegisterCompositionObligation"
  | submitClosureWitness _ => "SubmitClosureWitness"
  | promoteClaim _ => "PromoteClaim"
  | registerAttempt _ => "RegisterAttempt"
  | acquireLease _ => "AcquireLease"
  | heartbeatLease _ => "HeartbeatLease"
  | releaseLease _ => "ReleaseLease"
  | recordBudget _ => "RecordBudget"
  | bindExecution _ => "BindExecution"

/-- The field `contract_version` of the payload, where it has one. -/
def contractVersion? : Command → Option ℕ
  | freezeContract p => some p.contractVersion
  | startRun p => some p.contractVersion
  | submitEvidence p => some p.contractVersion
  | proposeContractDefect p => some p.contractVersion
  | recordPeerReview p => some p.contractVersion
  | recordQualityReview p => some p.contractVersion
  | recordLiterature p => some p.contractVersion
  | registerBridge p => some p.contractVersion
  | recordLeanFeedback p => some p.contractVersion
  | registerClaim p => some p.contractVersion
  | registerClaimEdge p => some p.contractVersion
  | revokeFact p => some p.contractVersion
  | recordResearchHint p => some p.contractVersion
  | recordPaperReview p => some p.contractVersion
  | verifyAtomicClaim p => some p.contractVersion
  | registerRoute p => some p.contractVersion
  | registerCompositionObligation p => some p.contractVersion
  | submitClosureWitness p => some p.contractVersion
  | _ => none

/-- The field `claim_id` of the payload, where it has one. -/
def claimId? : Command → Option Id
  | submitEvidence p => some p.claimId
  | recordFailure p => p.claimId
  | recordPeerReview p => some p.claimId
  | recordQualityReview p => some p.claimId
  | recordLiterature p => p.claimId
  | recordLeanFeedback p => some p.claimId
  | verifyAtomicClaim p => some p.claimId
  | promoteClaim p => some p.claimId
  | _ => none

end Command

/-- A file that a request brings along, as the wire declares it. -/
structure ArtifactInput where
  name : String
  sha256 : Digest
  byteCount : ℕ
  mediaType : String

/-- A request to decide one command of a run. -/
structure ApplyRequest where
  requestId : Id
  runId : Id
  expectedRevision : ℕ
  command : Command
  artifactInputs : List ArtifactInput

/-- A request to create a run. -/
structure CreateRequest where
  requestId : Id
  contract : JsonObject
  artifactInputs : List ArtifactInput

/-- A verifier profile of the host configuration. -/
structure VerifierProfile where
  toolchain : Option String := none
  mathlibCommit : Option String := none
  verifierWriterCapabilityIds : List Id := []
  adapterName : String := "lean-replay"
  /-- The key that signs receipts, as bytes; empty when the configured text is not hexadecimal. -/
  receiptHmacKey : Option (List ℕ) := none
  binarySha256 : Option Digest := none
  forbiddenSubmitterSubjectIds : List Id := []

/-- A version of an execution adapter in the host configuration. -/
structure AdapterVersion where
  environmentProfileIds : List String
  sourceCommits : List String

/-- The policy of the host, fixed while the kernel runs. -/
structure Policy where
  revokedCapabilityIds : List Id := []
  verifierProfiles : List (String × VerifierProfile) := []
  adapterProfiles : List (String × List (String × AdapterVersion)) := []
  candidateWriterCapabilityIds : Option (List Id) := none
  mainCapabilityIds : Option (List Id) := none
  verifierCapabilityIds : Option (List Id) := none
  budgetControllerCapabilityIds : List Id := []
  peerReviewThreshold : Option ℤ := none
  peerClosureReviewers : Option ℤ := none
  globalBudgetLimits : Option (List (String × ℤ)) := none
  routeShareDenominator : Option ℤ := none
  releaseArtifactRequirements : List (TerminalAttemptStatus × List Id) := []

end ResearchKernel
