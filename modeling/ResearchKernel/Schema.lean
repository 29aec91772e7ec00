import Mathlib.Data.Nat.Notation

/-!
# The enumerations of the schema

Every column and every request field with a fixed set of values has its own type. The
names of the values are those of the schema; `isOpen` stands for `OPEN`. A function
`wire` gives the text of a value where that text is compared with free-form JSON.
-/

namespace ResearchKernel

/-- Identifiers of rows, requests and capabilities. -/
abbrev Id := String

/-- Hexadecimal SHA-256 digests. -/
abbrev Digest := String

/-- Points in time, in microseconds. -/
abbrev Instant := ℕ

/-! ## Runs and contracts -/

/-- Status of a run. -/
inductive RunStatus where
  | isOpen | running | paused | closed | contractDefective
deriving DecidableEq

/-- Status of a contract version. -/
inductive ContractStatus where
  | draft | frozen | defectProposed | superseded
deriving DecidableEq

/-- Declared outcome of a finalized run. -/
inductive Outcome where
  | proved | disproved | routeLocal | previouslyKnown | contractDefective | unresolved
deriving DecidableEq

/-- Text of an outcome. -/
def Outcome.wire : Outcome → String
  | .proved => "PROVED"
  | .disproved => "DISPROVED"
  | .routeLocal => "ROUTE_LOCAL"
  | .previouslyKnown => "PREVIOUSLY_KNOWN"
  | .contractDefective => "CONTRACT_DEFECTIVE"
  | .unresolved => "UNRESOLVED"

/-! ## Claims and their axes -/

/-- Kind of a claim. -/
inductive ClaimKind where
  | root | lemmaClaim | auxiliary | counterexample | sideFinding | bridge
deriving DecidableEq

/-- Lifecycle of a claim. -/
inductive LifecycleStatus where
  | active | invalidated | superseded | retired
deriving DecidableEq

/-- Values of the route axis. -/
inductive RouteResult where
  | unassessed | candidate | localLemmasVerified | routeLocal | routeProved | refuted
  | previouslyKnown
deriving DecidableEq

/-- Values of the machine axis. -/
inductive MachineVerdict where
  | unverified | kernelVerified | certificateVerified | replayFailed
deriving DecidableEq

/-- Values of the semantic axis. -/
inductive SemanticVerdict where
  | unreviewed | tested | humanAttested | refuted
deriving DecidableEq

/-- Values of the peer axis. -/
inductive PeerVerdict where
  | unreviewed | accepted | rejected | needsRevision
deriving DecidableEq

/-- Values of the quality axis. -/
inductive QualityVerdict where
  | unreviewed | accepted | rejected | needsRevision
deriving DecidableEq

/-- Values of the closure axis. -/
inductive ClosureState where
  | notRequired | isOpen | closedMachine | closedHuman | closedHybrid | invalidated
deriving DecidableEq

/-- Whether the closure axis says that the claim is closed. -/
def ClosureState.isClosed : ClosureState → Bool
  | .closedMachine | .closedHuman | .closedHybrid => true
  | _ => false

/-- A value of one of the six axes, as a promotion or a verdict event names it. -/
inductive AxisValue where
  | route (value : RouteResult)
  | machine (value : MachineVerdict)
  | semantic (value : SemanticVerdict)
  | peer (value : PeerVerdict)
  | quality (value : QualityVerdict)
  | closure (value : ClosureState)
deriving DecidableEq

/-! ## Edges, obligations, witnesses and bridges -/

/-- Kind of a claim edge. -/
inductive EdgeKind where
  | implies | equivalentTo | dependsOn | specializes | generalizes | contradicts | supersedes
deriving DecidableEq

/-- Text of an edge kind. -/
def EdgeKind.wire : EdgeKind → String
  | .implies => "IMPLIES"
  | .equivalentTo => "EQUIVALENT_TO"
  | .dependsOn => "DEPENDS_ON"
  | .specializes => "SPECIALIZES"
  | .generalizes => "GENERALIZES"
  | .contradicts => "CONTRADICTS"
  | .supersedes => "SUPERSEDES"

/-- The edge kinds that carry a logical dependency. -/
def EdgeKind.isLogical : EdgeKind → Bool
  | .implies | .dependsOn | .specializes | .generalizes => true
  | _ => false

/-- Direction in which an edge is read. -/
inductive Direction where
  | forward | reverse | bidirectional
deriving DecidableEq

/-- Text of a direction. -/
def Direction.wire : Direction → String
  | .forward => "FORWARD"
  | .reverse => "REVERSE"
  | .bidirectional => "BIDIRECTIONAL"

/-- Kind of the justification of an edge. -/
inductive JustificationKind where
  | leanDeclaration | checkerProfile | humanArgument | bridge | definitional
deriving DecidableEq

/-- Text of a justification kind. -/
def JustificationKind.wire : JustificationKind → String
  | .leanDeclaration => "LEAN_DECLARATION"
  | .checkerProfile => "CHECKER_PROFILE"
  | .humanArgument => "HUMAN_ARGUMENT"
  | .bridge => "BRIDGE"
  | .definitional => "DEFINITIONAL"

/-- Status of an edge. -/
inductive EdgeStatus where
  | active | invalidated | rejected
deriving DecidableEq

/-- Status of one part of a composition obligation. -/
inductive PartStatus where
  | machineChecked | humanAttested | isOpen | notApplicable
deriving DecidableEq

/-- Text of a part status. -/
def PartStatus.wire : PartStatus → String
  | .machineChecked => "MACHINE_CHECKED"
  | .humanAttested => "HUMAN_ATTESTED"
  | .isOpen => "OPEN"
  | .notApplicable => "NOT_APPLICABLE"

/-- Rule by which an obligation composes. -/
inductive CompositionRule where
  | leanDeclaration | checkerProfile | humanArgument | hybridCuts | directEdge
deriving DecidableEq

/-- Text of a composition rule. -/
def CompositionRule.wire : CompositionRule → String
  | .leanDeclaration => "LEAN_DECLARATION"
  | .checkerProfile => "CHECKER_PROFILE"
  | .humanArgument => "HUMAN_ARGUMENT"
  | .hybridCuts => "HYBRID_CUTS"
  | .directEdge => "DIRECT_EDGE"

/-- Status of a composition obligation. -/
inductive ObligationStatus where
  | isOpen | dischargedMachine | dischargedHuman | dischargedHybrid | invalidated
deriving DecidableEq

/-- Mode in which a closure witness composes. -/
inductive CompositionMode where
  | machine | peer | hybrid
deriving DecidableEq

/-- Status of a closure witness. -/
inductive WitnessStatus where
  | draft | accepted | rejected | invalidated
deriving DecidableEq

/-- Validity of a bridge. -/
inductive Directionality where
  | candidate | oneWayValid | equivalentValid | refuted
deriving DecidableEq

/-- Text of a bridge validity. -/
def Directionality.wire : Directionality → String
  | .candidate => "CANDIDATE"
  | .oneWayValid => "ONE_WAY_VALID"
  | .equivalentValid => "EQUIVALENT_VALID"
  | .refuted => "REFUTED"

/-- Whether a bridge claims to be valid in at least one direction. -/
def Directionality.isValid : Directionality → Bool
  | .oneWayValid | .equivalentValid => true
  | _ => false

/-- Status of one direction of a bridge. -/
inductive BridgeStatus where
  | unstated | candidate | checked | refuted

/-! ## Evidence, reviews and feedback -/

/-- Type of an evidence item. -/
inductive EvidenceType where
  | leanReplay | checkerCertificate | exactEnumeration | counterexample | naturalLanguageProof
  | modelJudge | peerSignature | semanticAudit | literatureSource | executionLog
deriving DecidableEq

/-- Text of an evidence type. -/
def EvidenceType.wire : EvidenceType → String
  | .leanReplay => "LEAN_REPLAY"
  | .checkerCertificate => "CHECKER_CERTIFICATE"
  | .exactEnumeration => "EXACT_ENUMERATION"
  | .counterexample => "COUNTEREXAMPLE"
  | .naturalLanguageProof => "NATURAL_LANGUAGE_PROOF"
  | .modelJudge => "MODEL_JUDGE"
  | .peerSignature => "PEER_SIGNATURE"
  | .semanticAudit => "SEMANTIC_AUDIT"
  | .literatureSource => "LITERATURE_SOURCE"
  | .executionLog => "EXECUTION_LOG"

/-- Strength of an evidence item. -/
inductive EvidenceStrength where
  | hardMachine | humanAttested | softModel | provenanceOnly
deriving DecidableEq

/-- Ingest status of an evidence item. -/
inductive IngestStatus where
  | accepted | rejected | quarantined | invalidated
deriving DecidableEq

/-- Kind of the root of an evidence item. -/
inductive RootKind where
  | leanKernel | checker | enumeration | human | model | externalSource
deriving DecidableEq

/-- Ingest state of an artifact. -/
inductive ArtifactState where
  | staged | committed | quarantined | orphaned
deriving DecidableEq

/-- Role of an artifact in a run. -/
inductive ArtifactRole where
  | contract | createInput | applyInput | closureGraph | dossier | researchMaterial
  | componentResult | humanReview | claimStatement | peerReview | paperReview
deriving DecidableEq

/-- Verdict of a peer or quality review. -/
inductive ReviewVerdict where
  | accept | reject | needsRevision
deriving DecidableEq

/-- Text of a review verdict. -/
def ReviewVerdict.wire : ReviewVerdict → String
  | .accept => "ACCEPT"
  | .reject => "REJECT"
  | .needsRevision => "NEEDS_REVISION"

/-- Pool a quality review trains. -/
inductive TrainingPool where
  | humanSoftLabels | excluded

/-- Status of a literature record. -/
inductive LiteratureStatus where
  | literatureHit | noHitAfterSearch | searchIncomplete
deriving DecidableEq

/-- Relation of a literature result to the claim. -/
inductive LiteratureRelation where
  | equivalent | strictlyStronger | strictlyWeaker | overlap | contradicts | incomparable
deriving DecidableEq

/-- Kind of Lean feedback. -/
inductive FeedbackKind where
  | missingPremise | typeMismatch | failedGoal | semanticDrift | environmentError | replayPass
  | sorryFound | axiomViolation | nativeDecideViolation
deriving DecidableEq

/-- Kind of a failure. -/
inductive FailureKind where
  | counterexample | falseLemma | bridgeFailure | compositionGap | environmentFailure | budgetStop
  | noNovelty | scopeMismatch

/-- Backend of an atomic verification. -/
inductive Backend where
  | lean | deterministicChecker | managedPeer | softVerifier
deriving DecidableEq

/-- Verdict of an atomic verification. -/
inductive VerificationVerdict where
  | accepted | rejected
deriving DecidableEq

/-- Status of a whole-paper review. -/
inductive PaperStatus where
  | correct | wrong | pending | overridden
deriving DecidableEq

/-- Text of a paper review status. -/
def PaperStatus.wire : PaperStatus → String
  | .correct => "CORRECT"
  | .wrong => "WRONG"
  | .pending => "PENDING"
  | .overridden => "OVERRIDDEN"

/-- Kind of a research hint. -/
inductive HintKind where
  | changeRepresentation | stopRoute | prioritizeLemma | changeStrategy | other

/-! ## Execution and budget -/

/-- Status of a route. -/
inductive RouteStatus where
  | scout | active | blocked | paused | retired | proved | refuted
deriving DecidableEq

/-- Status of an attempt. -/
inductive AttemptStatus where
  | queued | running | paused | succeeded | failed | aborted | environmentError
deriving DecidableEq

/-- Status of a lease. -/
inductive LeaseStatus where
  | active | released | expired | revoked
deriving DecidableEq

/-- Kind of a budget event. -/
inductive BudgetEventKind where
  | reservation | actual | refund | unknownCost | denial | fuseTrip
deriving DecidableEq

/-- Kind of a budgeted resource. -/
inductive ResourceKind where
  | inputToken | outputToken | cpuSecond | gpuSecond | expertMinute | apiMicroCurrency | diskByte
  | wallSecond
deriving DecidableEq

/-- Text of a resource kind. -/
def ResourceKind.wire : ResourceKind → String
  | .inputToken => "INPUT_TOKEN"
  | .outputToken => "OUTPUT_TOKEN"
  | .cpuSecond => "CPU_SECOND"
  | .gpuSecond => "GPU_SECOND"
  | .expertMinute => "EXPERT_MINUTE"
  | .apiMicroCurrency => "API_MICRO_CURRENCY"
  | .diskByte => "DISK_BYTE"
  | .wallSecond => "WALL_SECOND"

/-- The resource kinds of the schema. -/
def ResourceKind.all : List ResourceKind :=
  [.inputToken, .outputToken, .cpuSecond, .gpuSecond, .expertMinute, .apiMicroCurrency, .diskByte,
    .wallSecond]

/-- The resource kind with the given text. -/
def ResourceKind.ofWire (text : String) : Option ResourceKind :=
  ResourceKind.all.find? fun kind => kind.wire == text

/-- How a host execution claim ended. -/
inductive RecoveryState where
  | pending | completed | unknownFused
deriving DecidableEq

end ResearchKernel
