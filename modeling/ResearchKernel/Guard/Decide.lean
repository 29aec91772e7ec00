import ResearchKernel.Guard.Evidence
import ResearchKernel.Guard.Execution
import ResearchKernel.Guard.Graph

/-!
# The decision on a command

Before a handler is asked, the capability, the revision and the status of the run are
checked, and that the contract version and the claim that the command names are those of
the run.
-/

namespace ResearchKernel

open Foundation

namespace Guard

/-- The handler of a command. -/
def handle (context : GuardContext) : Command → Decision
  | .freezeContract p => handleFreezeContract context p
  | .startRun p => handleStartRun context p
  | .amendContract p => handleAmendContract context p
  | .interrupt p => handleInterrupt context p
  | .resume p => handleResume context p
  | .finalize p => handleFinalize context p
  | .submitEvidence p => handleSubmitEvidence context p
  | .recordFailure p => handleRecordFailure context p
  | .requestExpansion p => handleRequestExpansion context p
  | .proposeContractDefect p => handleProposeContractDefect context p
  | .recordPeerReview p => handleRecordPeerReview context p
  | .recordQualityReview p => handleRecordQualityReview context p
  | .recordLiterature p => handleRecordLiterature context p
  | .registerBridge p => handleRegisterBridge context p
  | .recordLeanFeedback p => handleRecordLeanFeedback context p
  | .registerClaim p => handleRegisterClaim context p
  | .registerClaimEdge p => handleRegisterClaimEdge context p
  | .revokeFact p => handleRevokeFact context p
  | .recordResearchHint p => handleRecordResearchHint p
  | .recordPaperReview p => handleRecordPaperReview context p
  | .verifyAtomicClaim p => handleVerifyAtomicClaim context p
  | .registerRoute p => handleRegisterRoute context p
  | .registerCompositionObligation p => handleRegisterCompositionObligation context p
  | .submitClosureWitness p => handleSubmitClosureWitness context p
  | .promoteClaim p => handlePromoteClaim context p
  | .registerAttempt p => handleRegisterAttempt context p
  | .acquireLease p => handleAcquireLease context p
  | .heartbeatLease p => handleHeartbeatLease context p
  | .releaseLease p => handleReleaseLease context p
  | .recordBudget p => handleRecordBudget context p
  | .bindExecution p => handleBindExecution context p

/-- The contract version that the scope check compares. Literature may be recorded for a
superseded version. -/
def scopedVersion? : Command → Option ℕ
  | .recordLiterature _ => none
  | command => command.contractVersion?

/-- Check that the version and the claim that a command names are those of the run. -/
def scopeCheck (context : GuardContext) (command : Command) : Checked Unit := do
  rejectIf ((scopedVersion? command).any (· != context.version))
    (refuse .evidenceScopeMismatch "CONTRACT_VERSION" "/command/payload/contract_version"
      [("current", .int context.version)])
  rejectIf (command.claimId?.any fun id => (context.snapshot.claim? id).isNone)
    (refuse .evidenceScopeMismatch "OBJECT_SCOPE" "/command/payload/claim_id"
      [("claim_id", Json.ofText? command.claimId?)])

/-- Whether a capability is valid now. -/
def capabilityValid (capability : VerifiedCapability) (now : Instant) : Bool :=
  match capability.issuedAt, capability.expiresAt with
  | some issued, some expires => decide (issued ≤ now) && decide (now < expires)
  | _, _ => false

/-- Decide a command. -/
def decide (context : GuardContext) (command : Command) (expectedRevision : ℕ) : Decision := do
  rejectIf
    (!capabilityValid context.capability context.now ||
      context.policy.revokedCapabilityIds.contains context.capability.capabilityId ||
      !context.capability.allows command.type (some context.snapshot.runId))
    (refuse .capabilityDenied "REQUIRED_ACTION" "/command/type" [("action", .str command.type)])
  rejectIf (expectedRevision != context.snapshot.revision)
    (refuse .revisionConflict "RUN_STATE" "/expected_revision"
      [("expected", .int context.snapshot.revision)])
  rejectIf (context.snapshot.status == .contractDefective || context.snapshot.status == .closed)
    (refuse .runClosed "RUN_STATE" "/run_id" [("required", .str "NOT_CLOSED")])
  scopeCheck context command
  handle context command

end Guard

end ResearchKernel
