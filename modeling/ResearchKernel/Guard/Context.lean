import ResearchKernel.Decision
import ResearchKernel.Canonical

/-!
# The context of a decision and what it may change

A guard decides a command on a snapshot, the policy of the host and the capability of
the caller. An accepted command is a list of mutations; each mutation carries the part
of the payload that its projection reads.
-/

namespace ResearchKernel

open Foundation

/-- The attempt whose status changes: named directly, or as the one a lease belongs to. -/
inductive AttemptRef where
  | attempt (id : Id)
  | leased (leaseId : Id)

/-- What an accepted verification writes to the axes of its claim. -/
structure AxisUpdate where
  machine : Option MachineVerdict := none
  semantic : Option SemanticVerdict := none
  peer : Option PeerVerdict := none

/-- The mutations of the projection. -/
inductive Mutation where
  | setContractStatus (version : ℕ) (status : ContractStatus)
      (defect : Option ProposeContractDefect)
  | setRunStatus (status : RunStatus) (outcome : Option Outcome)
  | expireActiveLeases
  | pauseActiveAttempts
  | supersedeContract (version : ℕ)
  | createContractVersion (version : ℕ) (replacement : JsonObject)
  | migrateContractClosure (version : ℕ) (affectedClaimIds : List Id)
  | invalidateDependencyClosure (firstFailedObligationId : Option Id)
  | createDossier
  | appendEvidence (payload : SubmitEvidence)
  | appendFailure (payload : RecordFailure)
  | appendBudgetReservation (payload : RequestExpansion)
  | approveExpansionBatch
  | appendPeerReview (payload : RecordPeerReview) (profile : JsonObject)
  | appendQualityReview (payload : RecordQualityReview)
  | appendLiteratureRecord (payload : RecordLiterature)
  | registerBridge (payload : RegisterBridge) (forwardStatus reverseStatus : BridgeStatus)
  | appendLeanFeedback (payload : RecordLeanFeedback)
  | invalidateFromFirstFailure (obligationId : Option Id)
  | registerClaim (payload : RegisterClaim) (closure : ClosureState)
  | registerClaimEdge (payload : RegisterClaimEdge)
  | invalidateParentClosure (claimId : Id)
  | revokeFactClosure (factId : Id)
  | recordResearchHint (payload : RecordResearchHint)
  | recordPaperReview (payload : RecordPaperReview)
  | recordAtomicVerification (payload : VerifyAtomicClaim) (update : AxisUpdate)
  | registerRoute (payload : RegisterRoute)
  | registerCompositionObligation (payload : RegisterCompositionObligation)
  | setClosure (claimId : Id) (value : ClosureState)
  | acceptClosureWitness (payload : SubmitClosureWitness) (closure : ClosureState)
  | setClaimAxis (payload : PromoteClaim) (value : AxisValue)
  | registerAttempt (payload : RegisterAttempt)
  | expireStaleLeases (attemptId : Id)
  | acquireLease (payload : AcquireLease)
  | setAttemptStatus (attempt : AttemptRef) (status : AttemptStatus)
  | extendLease (leaseId : Id) (seconds : ℕ)
  | releaseLease (leaseId : Id)
  | appendBudgetEvent (payload : RecordBudget)
  | blockRoute (routeId : Option Id)
  | bindExecution (payload : BindExecution)

/-- What a guard knows when it decides a command. -/
structure GuardContext where
  platform : Platform
  policy : Policy
  capability : VerifiedCapability
  now : Instant
  snapshot : Snapshot
  /-- The names of the files that come with the request. -/
  inputNames : List String

/-- The decision of a guard. -/
abbrev Decision := Checked (List Mutation)

namespace GuardContext

variable (context : GuardContext)

def version : ℕ := context.snapshot.currentContractVersion

/-- Whether a capability is on a list of writers, where the policy has one. -/
def listed : Option (List Id) → Bool
  | none => true
  | some writers => writers.contains context.capability.capabilityId

/-- Whether files under all the given names come with the request. -/
def artifactNamesAvailable (names : List String) : Bool :=
  !names.isEmpty && names.all context.inputNames.contains

/-- Whether a claim is an active claim of the run and of its current contract version. -/
def isCurrent (claim : Claim) : Bool :=
  claim.runId == context.snapshot.runId && claim.contractVersion == context.version &&
    claim.lifecycleStatus == .active

/-- The active claim of the current contract version with the given identifier. -/
def currentClaim? (id : Id) : Option Claim :=
  (context.snapshot.claim? id).filter context.isCurrent

end GuardContext

/-- The refusal of a capability that lacks a role. -/
def roleRefusal (role : String) : Refusal :=
  refuse .capabilityDenied "REQUIRED_ACTION" "/command/type" [("role", .str role)]

/-- An integer of the Python runtime, where truth values are integers. -/
def Json.asInt : Json → Option ℤ
  | .int value => some value
  | .bool value => some value.toNat
  | _ => none

section Lemmas

variable {context : GuardContext}

theorem GuardContext.isCurrent_iff {claim : Claim} :
    context.isCurrent claim = true ↔ claim.runId = context.snapshot.runId ∧
      claim.contractVersion = context.version ∧ claim.lifecycleStatus = .active := by
  simp only [GuardContext.isCurrent, Bool.and_eq_true, beq_iff_eq, and_assoc]

theorem GuardContext.currentClaim?_eq_some {id : Id} {claim : Claim} :
    context.currentClaim? id = some claim ↔
      context.snapshot.claim? id = some claim ∧ context.isCurrent claim = true := by
  simp only [GuardContext.currentClaim?, Option.filter_eq_some_iff]

end Lemmas

end ResearchKernel
