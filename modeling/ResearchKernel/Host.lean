import ResearchKernel.Projector
import ResearchKernel.Storage

/-!
# Operations of the host

The host claims the one execution of an attempt, records its result as a receipt with the
usage it has measured, recovers executions that never completed, and consumes receipts:
a receipt of a Lean replay becomes feedback and evidence, a receipt of a checker becomes
an accepted verification. No command of the public interface writes receipts.
-/

namespace ResearchKernel

open Foundation

/-- The scope in which the host executes an attempt. -/
structure HostScope where
  runId : Id
  routeId : Id
  attemptId : Id
  bindingId : Id
  claimId : Id
  contractVersion : ℕ
  statementHash : Digest
  environmentProfileId : String
  adapterName : String
  adapterVersion : String
  sourceCommit : Option String
  invocationNonce : Id
  inputSnapshotDigest : Digest
  invocationArtifactSha256 : Digest
deriving DecidableEq

/-- The signed result of an execution. -/
structure HostResult where
  receiptId : Id
  receiptNonce : String
  serviceInstanceId : String
  toolchain : Option String
  binarySha256 : Option Digest
  requestHash : Digest
  resultHash : Digest
  sourceSha256 : Option Digest
  outputSha256 : Option Digest
  dependencyClosureDigest : Option Digest
  status : String
  exitCode : Option ℤ
  wallTimeMs : ℕ
  providerUsage : JsonObject
  payloadText : List Char
  signature : String

/-- The identifiers and the time with which an operation is recorded. -/
structure LedgerIds where
  commandId : Id
  eventId : Id
  now : Instant

/-- The rows that an attempt of a run joins. -/
structure HostRows where
  run : Run
  route : Route
  claim : Claim
  attempt : Attempt
  binding : ExecutionBinding
  invocation : Artifact

/-- The scope that the rows give now. -/
def HostRows.scope (rows : HostRows) : HostScope where
  runId := rows.run.runId
  routeId := rows.route.routeId
  attemptId := rows.attempt.attemptId
  bindingId := rows.binding.bindingId
  claimId := rows.route.targetClaimId
  contractVersion := rows.run.currentContractVersion
  statementHash := rows.claim.statementHash
  environmentProfileId := rows.binding.environmentProfileId
  adapterName := rows.binding.adapterName
  adapterVersion := rows.binding.adapterVersion
  sourceCommit := rows.binding.sourceCommit
  invocationNonce := rows.binding.invocationNonce
  inputSnapshotDigest := rows.attempt.inputSnapshotDigest
  invocationArtifactSha256 := rows.invocation.sha256

/-- A measured use of a resource. -/
structure UsageRow where
  resource : ResourceKind
  kind : BudgetEventKind
  amount : Option ℕ
  unit : String

/-- The identifier of a budget event of the host. -/
def hostId (P : Platform) (receiptId resource : String) : Id :=
  "host-" ++ String.ofList
    ((P.sha256 (receiptId.toList ++ '\n' :: resource.toList)).toList.take 32)

/-- An identifier derived from a receipt or from the token of an execution. -/
def hostRecoveryUuid (P : Platform) (token purpose : String) : Id :=
  P.uuid5 ("rk:host-recovery:" ++ token ++ ":" ++ purpose)

/-- A counter of a usage report that is a natural number. -/
def counter? (usage : JsonObject) (name : String) : Option ℕ :=
  (usage.get name).int?.bind fun value => if 0 ≤ value then some value.toNat else none

namespace Db

variable (db : Db)

def hostRows? (runId attemptId : Id) : Option HostRows := do
  let run ← db.run? runId
  let attempt ← db.attempts.find? (·.attemptId == attemptId)
  let route ← db.routes.find? fun route =>
    route.routeId == attempt.routeId && route.runId == runId
  let claim ← db.claims.find? (·.claimId == route.targetClaimId)
  let binding ← db.bindings.find? (·.attemptId == attemptId)
  let invocation ← db.artifacts.find? (·.artifactId == binding.invocationArtifactId)
  return { run, route, claim, attempt, binding, invocation }

/-- Whether an attempt has an active lease. -/
def hasLease (attemptId : Id) (now : Instant) : Bool :=
  db.leases.any fun lease =>
    lease.attemptId == attemptId && lease.status == .active && decide (now < lease.expiresAt)

/-- Whether the rows that a scope names exist. -/
def hasScope (scope : HostScope) : Bool :=
  db.hasRoute scope.routeId && db.hasClaim scope.claimId &&
    db.bindings.any (·.bindingId == scope.bindingId) &&
    db.contractVersions.any fun contract =>
      contract.runId == scope.runId && contract.version == scope.contractVersion

/-! ## Budgets -/

def countedEvents (runId : Id) (resource : ResourceKind) : List BudgetEvent :=
  db.budgetEvents.filter fun event =>
    event.runId == runId && event.resourceKind == resource && !legacyBudgetEvent event

/-- The sum of the amounts of the events of some kinds. -/
def sumAmounts (kinds : List BudgetEventKind) (events : List BudgetEvent) : ℤ :=
  ((events.filter fun event => kinds.contains event.eventKind).map fun event =>
    ((event.amountMicrounits.getD 0 : ℕ) : ℤ)).sum

/-- The resources whose limit the given usage exceeds. -/
def hostBudgetOverruns (runId attemptId : Id) (rows : List UsageRow)
    (limits : List (String × ℤ)) : List ResourceKind :=
  (rows.filter fun row =>
    match row.kind, row.amount with
    | .actual, some amount =>
      match (limits.lookup row.resource.wire).filter fun limit => decide (0 < limit) with
      | none => true
      | some limit =>
        let events := db.countedEvents runId row.resource
        let ofAttempt := events.filter fun event => event.attemptId == some attemptId
        let consumed := sumAmounts [.actual, .reservation] events - sumAmounts [.refund] events
        let reserved := sumAmounts [.reservation] ofAttempt - sumAmounts [.refund] ofAttempt
        decide (limit < consumed - reserved + max reserved amount)
    | _, _ => false).map (·.resource)

end Db

/-- The usage of an execution, as the host measures it. -/
def hostBudgetRows (wallTimeMs : ℕ) (usage : JsonObject) : List UsageRow :=
  let tokens (name : String) (resource : ResourceKind) : UsageRow :=
    match counter? usage name with
    | some value => ⟨resource, .actual, some (value * 1000000), "microtoken"⟩
    | none => ⟨resource, .unknownCost, none, "unknown"⟩
  ⟨.wallSecond, .actual, some (wallTimeMs * 1000), "microsecond"⟩ ::
    (if (usage.get "token_meter_applicable").isTrue then
      [tokens "input_tokens" .inputToken, tokens "output_tokens" .outputToken] else []) ++
    if (usage.get "cost_unknown").isTrue || (usage.get "currency_meter_applicable").isTrue then
      [⟨.apiMicroCurrency, .unknownCost, none, "unknown"⟩] else []

/-! ## Claiming and recording an execution -/

/-- A claim to the execution of an attempt. -/
structure HostClaimRequest where
  scope : HostScope
  claimToken : Id
  requestHash : Digest
  component : String
  serviceInstanceId : String
  now : Instant
  recoverAfter : Instant

/-- Claim the one execution of an attempt that is running under a lease. -/
def Db.claimHostExecution (db : Db) (request : HostClaimRequest) : Option Db := do
  let scope := request.scope
  let attempt ← db.attempts.find? (·.attemptId == scope.attemptId)
  let run ← db.run? scope.runId
  let route ← db.routes.find? fun route =>
    route.routeId == attempt.routeId && route.routeId == scope.routeId
  let claim ← db.claims.find? (·.claimId == route.targetClaimId)
  require (attempt.runId == scope.runId && attempt.status == .running &&
    run.status == .running && route.status == .active && claim.lifecycleStatus == .active &&
    db.hasLease attempt.attemptId request.now)
  require (db.bindings.any (·.bindingId == scope.bindingId))
  let claims ← insertRow HostClaim.clash
    { attemptId := scope.attemptId
      bindingId := scope.bindingId
      claimToken := request.claimToken
      runId := scope.runId
      routeId := scope.routeId
      requestHash := request.requestHash
      component := request.component
      serviceInstanceId := request.serviceInstanceId
      heartbeatAt := request.now
      recoverAfter := request.recoverAfter
      completedAt := none
      recoveryState := .pending } db.hostClaims
  return { db with hostClaims := claims }

/-- A result to be recorded. The expected scope is that at the time of the claim. -/
structure HostRecord where
  scope : HostScope
  expectedScope : HostScope
  result : HostResult
  ledger : LedgerIds
  budgetLimits : List (String × ℤ)
  claimToken : Id
  authorityBlockReasons : List String

/-- What keeps a result from carrying authority. -/
def HostRecord.blockReasons (record : HostRecord) (db : Db) (rows : HostRows)
    (overruns : List ResourceKind) : List String :=
  record.authorityBlockReasons ++
    (if record.expectedScope != rows.scope then ["SCOPE_DRIFT"] else []) ++
    (if rows.run.status != .running || rows.route.status != .active ||
        rows.claim.lifecycleStatus != .active || rows.attempt.status != .running ||
        !db.hasLease rows.attempt.attemptId record.ledger.now then
      ["EXECUTION_STATE_DRIFT"] else []) ++
    overruns.map fun resource => "BUDGET_OVERRUN:" ++ resource.wire

/-- The receipt of a recorded result. -/
def HostRecord.receipt (record : HostRecord) (blockReasons : List String) : HostReceipt where
  receiptId := record.result.receiptId
  receiptNonce := record.result.receiptNonce
  serviceInstanceId := record.result.serviceInstanceId
  runId := record.scope.runId
  routeId := record.scope.routeId
  attemptId := record.scope.attemptId
  bindingId := record.scope.bindingId
  claimId := record.scope.claimId
  contractVersion := record.scope.contractVersion
  statementHash := record.scope.statementHash
  environmentProfileId := record.scope.environmentProfileId
  adapterName := record.scope.adapterName
  adapterVersion := record.scope.adapterVersion
  sourceCommit := record.scope.sourceCommit
  toolchain := record.result.toolchain
  binarySha256 := record.result.binarySha256
  requestHash := record.result.requestHash
  resultHash := record.result.resultHash
  sourceSha256 := record.result.sourceSha256
  outputSha256 := record.result.outputSha256
  dependencyClosureDigest := record.result.dependencyClosureDigest
  status := record.result.status
  exitCode := record.result.exitCode
  wallTimeMs := record.result.wallTimeMs
  providerUsage := record.result.providerUsage
  payloadText := record.result.payloadText
  signature := record.result.signature
  authorityEligible := blockReasons.isEmpty
  blockReasons := blockReasons
  recordedByCommandId := record.ledger.commandId
  consumedByFeedbackId := none
  consumedAt := none
  consumedByVerificationId := none
  checkerConsumedAt := none

/-- The budget events of a recorded result: its usage and a tripped fuse for each overrun. -/
def HostRecord.budgetEvents (record : HostRecord) (P : Platform) (revision : ℕ)
    (rows : List UsageRow) (overruns : List ResourceKind) : List BudgetEvent :=
  let usage := (setKey "_rk_receipt_id" (.str record.result.receiptId)
    (setKey "_rk_trust" (.str "HOST_VERIFIED") record.result.providerUsage))
  let event (id : Id) (kind : BudgetEventKind) (resource : ResourceKind) (amount : Option ℕ)
      (unit : String) (usage : JsonObject) : BudgetEvent :=
    { budgetEventId := id
      runId := record.scope.runId
      routeId := some record.scope.routeId
      attemptId := some record.scope.attemptId
      commandId := record.ledger.commandId
      revision := revision
      eventKind := kind
      resourceKind := resource
      amountMicrounits := amount
      unit := unit
      providerUsage := usage }
  rows.map (fun row => event (hostId P record.result.receiptId row.resource.wire) row.kind
    row.resource row.amount row.unit usage) ++
    overruns.map fun resource =>
      event (hostId P record.result.receiptId ("fuse:" ++ resource.wire)) .fuseTrip resource
        (some 0) "microunit" (setKey "authority_blocked" (.bool true)
          (setKey "budget_overrun" (.str resource.wire) usage))

/-- Record a result with its accounting. -/
def Db.recordHostExecution (P : Platform) (db : Db) (capability : VerifiedCapability)
    (record : HostRecord) : Option Db := do
  let scope := record.scope
  let rows ← db.hostRows? scope.runId scope.attemptId
  require (db.hostClaims.any fun claim =>
    claim.attemptId == scope.attemptId && claim.bindingId == scope.bindingId &&
      claim.claimToken == record.claimToken && claim.completedAt.isNone)
  let usage := hostBudgetRows record.result.wallTimeMs record.result.providerUsage
  let overruns := db.hostBudgetOverruns scope.runId scope.attemptId usage record.budgetLimits
  let receipt := record.receipt (record.blockReasons db rows overruns)
  require (db.hasScope scope)
  let receipts ← insertRow HostReceipt.clash receipt db.hostReceipts
  let events ← insertRows BudgetEvent.clash
    (record.budgetEvents P (rows.run.revision + 1) usage overruns) db.budgetEvents
  let db ← db.recordHostCommand
    (hostCommand record.ledger.commandId scope.runId record.ledger.eventId record.result.receiptId
      record.result.receiptId record.result.requestHash capability.capabilityId rows.run.revision
      record.ledger.now) record.ledger.eventId (some scope.contractVersion)
  return { db with
    hostReceipts := receipts
    budgetEvents := events
    hostClaims := updateWhere
      (fun claim => claim.attemptId == scope.attemptId &&
        claim.claimToken == record.claimToken && claim.completedAt.isNone)
      (fun claim => { claim with
        completedAt := some record.ledger.now
        recoveryState := .completed }) db.hostClaims }

/-- Extend a claim to an execution that has not completed. -/
def Db.heartbeatHostExecution (db : Db) (claimToken : Id) (serviceInstanceId : String)
    (now recoverAfter : Instant) : Db :=
  { db with
    hostClaims := updateWhere
      (fun claim => claim.claimToken == claimToken &&
        claim.serviceInstanceId == serviceInstanceId && claim.recoveryState == .pending &&
        claim.completedAt.isNone)
      (fun claim => { claim with heartbeatAt := now, recoverAfter := recoverAfter })
      db.hostClaims }

/-! ## Recovery -/

/-- Append a budget event unless its identifier is taken. -/
def Db.insertOrIgnoreBudget (db : Db) (event : BudgetEvent) : Db :=
  { db with
    budgetEvents := (insertRow BudgetEvent.clash event db.budgetEvents).getD db.budgetEvents }

/-- The budget event of a recovered execution. -/
def recoveryEvent (P : Platform) (claim : HostClaim) (revision : ℕ) (purpose : String)
    (kind : BudgetEventKind) (amount : Option ℕ) : BudgetEvent where
  budgetEventId := hostId P claim.claimToken purpose
  runId := claim.runId
  routeId := some claim.routeId
  attemptId := some claim.attemptId
  commandId := hostRecoveryUuid P claim.claimToken "command"
  revision := revision
  eventKind := kind
  resourceKind := .apiMicroCurrency
  amountMicrounits := amount
  unit := "unknown"
  providerUsage :=
    [("component", .str claim.component), ("_rk_trust", .str "HOST_VERIFIED"),
      ("_rk_receipt_id", .str ("recovery:" ++ claim.claimToken)),
      ("_rk_claim_token", .str claim.claimToken), ("cost_unknown", .bool true),
      ("recovery_reason", .str "HOST_CRASH_WINDOW")]

/-- Recover one execution: its cost is unknown, its attempt failed and its lease revoked. -/
def Db.recoverHostClaim (P : Platform) (db : Db) (capability : VerifiedCapability) (now : Instant)
    (claim : HostClaim) : Option Db := do
  let run ← db.run? claim.runId
  let eventId := hostRecoveryUuid P claim.claimToken "event"
  let requestId := hostRecoveryUuid P claim.claimToken "request"
  let db ← db.recordHostCommand
    (hostCommand (hostRecoveryUuid P claim.claimToken "command") claim.runId eventId requestId
      requestId claim.requestHash capability.capabilityId run.revision now) eventId none
  let db := db.insertOrIgnoreBudget
    (recoveryEvent P claim (run.revision + 1) "recovery:unknown" .unknownCost none)
  let db := db.insertOrIgnoreBudget
    (recoveryEvent P claim (run.revision + 1) "recovery:fuse" .fuseTrip (some 0))
  return { db with
    attempts := updateWhere
      (fun attempt => attempt.attemptId == claim.attemptId &&
        (attempt.status == .queued || attempt.status == .running || attempt.status == .paused))
      (fun attempt => { attempt with status := .environmentError, endedAt := some now })
      db.attempts
    leases := updateWhere
      (fun lease => lease.attemptId == claim.attemptId && lease.status == .active)
      (fun lease => { lease with status := .revoked, releasedAt := some now }) db.leases
    hostClaims := updateWhere (·.attemptId == claim.attemptId)
      (fun row => { row with completedAt := some now, recoveryState := .unknownFused })
      db.hostClaims }

/-- Recover executions one after the other. -/
def Db.recoverHostClaims (P : Platform) (capability : VerifiedCapability) (now : Instant) :
    List HostClaim → Db → Option Db
  | [], db => some db
  | claim :: claims, db => do
    let db ← db.recoverHostClaim P capability now claim
    recoverHostClaims P capability now claims db

/-- Recover the executions that should have completed by now, or all pending ones, as far
as the capability allows. -/
def Db.recoverIncompleteHostClaims (P : Platform) (db : Db) (capability : VerifiedCapability)
    (now : Instant) (claimToken : Option Id) (force : Bool) : Option Db :=
  let due := (db.hostClaims.filter fun claim =>
    claim.recoveryState == .pending && claimToken.all (claim.claimToken == ·) &&
      (force || decide (claim.recoverAfter ≤ now))).insertionSort
        fun a b => a.attemptId ≤ b.attemptId
  Db.recoverHostClaims P capability now
    (due.filter fun claim => capability.allows "HostExecute" (some claim.runId)) db

/-! ## Consumption of receipts -/

/-- The rows that a receipt joins. -/
structure ReceiptRows where
  receipt : HostReceipt
  run : Run
  route : Route
  claim : Claim
  attempt : Attempt

def Db.receiptRows? (db : Db) (receiptId : Id) : Option ReceiptRows := do
  let receipt ← db.hostReceipts.find? (·.receiptId == receiptId)
  let run ← db.run? receipt.runId
  let route ← db.routes.find? (·.routeId == receipt.routeId)
  let claim ← db.claims.find? (·.claimId == receipt.claimId)
  let attempt ← db.attempts.find? (·.attemptId == receipt.attemptId)
  return { receipt, run, route, claim, attempt }

/-- Whether a receipt is eligible, completed and still in its scope. -/
def ReceiptRows.eligible (rows : ReceiptRows) : Bool :=
  rows.receipt.authorityEligible && rows.receipt.status == "COMPLETED" &&
    rows.receipt.exitCode == some 0 && rows.run.status == .running &&
    rows.route.status == .active && rows.claim.lifecycleStatus == .active &&
    rows.receipt.contractVersion == rows.run.currentContractVersion &&
    rows.receipt.statementHash == rows.claim.statementHash &&
    (rows.attempt.status == .running || rows.attempt.status == .succeeded)

/-- The committed artifact of a run with the given digest. -/
def Db.committedArtifact? (db : Db) (runId : Id) (digest : Option Digest) : Option Artifact :=
  (db.linkedArtifacts runId).find? fun artifact =>
    some artifact.sha256 == digest && artifact.ingestState == .committed

/-- What a consumer of a receipt expects of it and how the consumption is recorded. -/
structure ReceiptUse where
  receiptId : Id
  ledger : LedgerIds
  expectedSignature : String
  expectedPayload : List Char

/-- The evidence that comes from a receipt. -/
def receiptEvidence (receipt : HostReceipt) (evidenceId rootId artifactId commandId : Id)
    (type : EvidenceType) (scope provenance : JsonObject) : Evidence where
  evidenceId := evidenceId
  runId := receipt.runId
  claimId := receipt.claimId
  contractVersion := receipt.contractVersion
  statementHash := receipt.statementHash
  artifactId := artifactId
  evidenceType := type
  evidenceStrength := .hardMachine
  evidenceRootId := rootId
  scope := scope
  provenance := provenance
  ingestStatus := .accepted
  submittedByCommandId := commandId

/-- The diagnostic of the feedback that consumes a receipt. -/
def receiptDiagnostic (receipt : HostReceipt) : JsonObject :=
  [("host_receipt_id", .str receipt.receiptId), ("request_hash", .str receipt.requestHash),
    ("result_hash", .str receipt.resultHash), ("source_sha256", Json.ofText? receipt.sourceSha256),
    ("output_sha256", Json.ofText? receipt.outputSha256),
    ("binary_sha256", Json.ofText? receipt.binarySha256),
    ("exit_code", match receipt.exitCode with
      | some code => .int code
      | none => .null)]

/-- The feedback that consumes a receipt. -/
def replayFeedback (receipt : HostReceipt) (feedbackId sourceId outputId : Id)
    (toolchain : String) : LeanFeedback where
  leanFeedbackId := feedbackId
  runId := receipt.runId
  claimId := receipt.claimId
  attemptId := some receipt.attemptId
  contractVersion := receipt.contractVersion
  environmentProfileId := receipt.environmentProfileId
  toolchain := toolchain
  mathlibCommit := receipt.sourceCommit
  sourceArtifactId := sourceId
  outputArtifactId := outputId
  feedbackKind := .replayPass
  firstFailedObligationId := none
  diagnostic := receiptDiagnostic receipt
  receiptNonce := some receipt.receiptNonce

/-- Whether a receipt is one of a Lean replay that may be consumed. -/
def ReceiptRows.leanEligible (rows : ReceiptRows) (use : ReceiptUse) (toolchain : String) : Bool :=
  rows.receipt.signature == use.expectedSignature &&
    rows.receipt.payloadText == use.expectedPayload &&
    rows.receipt.consumedByFeedbackId.isNone && rows.receipt.adapterName == "lean-replay" &&
    rows.eligible && hasText rows.receipt.sourceSha256 && hasText rows.receipt.outputSha256 &&
    toolchain != "" && rows.receipt.toolchain == some toolchain

/-- Record that a claim is verified by the kernel of Lean, unless it is already. -/
def Db.setKernelVerified (P : Platform) (db : Db) (rows : ReceiptRows) (capabilityId : Id)
    (use : ReceiptUse) : Option Db :=
  if rows.claim.machineVerdict == .kernelVerified then some db
  else do
    let events ← insertRow VerdictEvent.clash
      { verdictEventId := hostRecoveryUuid P use.receiptId "lean-verdict"
        runId := rows.receipt.runId
        claimId := rows.receipt.claimId
        commandId := use.ledger.commandId
        revision := rows.run.revision + 1
        valueBefore := .machine rows.claim.machineVerdict
        valueAfter := .machine .kernelVerified
        evidenceIds := [hostRecoveryUuid P use.receiptId "lean-evidence"]
        closureWitnessId := none
        capabilityId := capabilityId
        reasonCode := "HOST_LEAN_RECEIPT_CONSUMED" } db.verdictEvents
    return { db with verdictEvents := events }.updateClaim rows.receipt.claimId
      fun claim => { claim with machineVerdict := .kernelVerified }

/-- Consume the receipt of a Lean replay. -/
def Db.consumeHostLeanReceipt (P : Platform) (db : Db) (capability : VerifiedCapability)
    (use : ReceiptUse) (feedbackId : Id) (toolchain : String) : Option Db := do
  let rows ← db.receiptRows? use.receiptId
  require (rows.leanEligible use toolchain)
  let receipt := rows.receipt
  let source ← db.committedArtifact? receipt.runId receipt.sourceSha256
  let output ← db.committedArtifact? receipt.runId receipt.outputSha256
  let rootId := hostRecoveryUuid P use.receiptId "lean-evidence-root"
  let feedback ← insertRow LeanFeedback.clash
    (replayFeedback receipt feedbackId source.artifactId output.artifactId toolchain)
    db.leanFeedback
  let roots ← insertRow EvidenceRoot.clash
    { evidenceRootId := rootId
      runId := receipt.runId
      rootKind := .leanKernel
      originArtifactId := some source.artifactId
      verifierProfileId := some receipt.environmentProfileId } db.evidenceRoots
  let evidence ← insertRow Evidence.clash
    (receiptEvidence receipt (hostRecoveryUuid P use.receiptId "lean-evidence") rootId
      output.artifactId use.ledger.commandId .leanReplay
      [("claim_id", .str receipt.claimId), ("contract_version", .int receipt.contractVersion),
        ("statement_hash", .str receipt.statementHash)]
      [("actor", .str "host-lean-replay"), ("host_receipt_id", .str use.receiptId),
        ("feedback_id", .str feedbackId)]) db.evidence
  let db ← db.recordHostCommand
    (hostCommand use.ledger.commandId receipt.runId use.ledger.eventId
      ("consume:" ++ use.receiptId) use.receiptId receipt.resultHash capability.capabilityId
      rows.run.revision use.ledger.now) use.ledger.eventId (some receipt.contractVersion)
  let db ← db.setKernelVerified P rows capability.capabilityId use
  return { db with
    leanFeedback := feedback
    evidenceRoots := roots
    evidence := evidence
    hostReceipts := updateWhere
      (fun row => row.receiptId == use.receiptId && row.consumedByFeedbackId.isNone)
      (fun row => { row with
        consumedByFeedbackId := some feedbackId
        consumedAt := some use.ledger.now }) db.hostReceipts }

/-- Whether a receipt is one of a checker that may be consumed. -/
def ReceiptRows.checkerEligible (rows : ReceiptRows) (use : ReceiptUse) : Bool :=
  rows.receipt.signature == use.expectedSignature &&
    rows.receipt.payloadText == use.expectedPayload &&
    rows.receipt.consumedByFeedbackId.isNone && rows.receipt.consumedByVerificationId.isNone &&
    rows.eligible

/-- The accepted verification that consumes the receipt of a checker. -/
def checkerVerification (receipt : HostReceipt) (verificationId evidenceId capabilityId : Id)
    (now : Instant) : AtomicVerification where
  verificationId := verificationId
  runId := receipt.runId
  contractVersion := receipt.contractVersion
  claimId := receipt.claimId
  backend := .deterministicChecker
  verdict := .accepted
  verificationRef := some evidenceId
  repairFeedback := ""
  verifierCapabilityId := capabilityId
  createdAt := now

/-- Consume the receipt of a checker. -/
def Db.consumeHostCheckerReceipt (P : Platform) (db : Db) (capability : VerifiedCapability)
    (use : ReceiptUse) (verificationId : Id) (rootKind : RootKind) : Option Db := do
  let rows ← db.receiptRows? use.receiptId
  require (rows.checkerEligible use)
  let receipt := rows.receipt
  let output ← db.committedArtifact? receipt.runId receipt.outputSha256
  let rootId := hostRecoveryUuid P use.receiptId "checker-evidence-root"
  let evidenceId := hostRecoveryUuid P use.receiptId "checker-evidence"
  let roots ← insertRow EvidenceRoot.clash
    { evidenceRootId := rootId
      runId := receipt.runId
      rootKind := rootKind
      originArtifactId := some output.artifactId
      verifierProfileId := some receipt.environmentProfileId } db.evidenceRoots
  let evidence ← insertRow Evidence.clash
    (receiptEvidence receipt evidenceId rootId output.artifactId use.ledger.commandId
      .checkerCertificate
      [("claim_id", .str receipt.claimId), ("contract_version", .int receipt.contractVersion)]
      [("actor", .str "host-deterministic-checker"), ("host_receipt_id", .str use.receiptId)])
    db.evidence
  let verifications ← insertRow AtomicVerification.clash
    (checkerVerification receipt verificationId evidenceId capability.capabilityId use.ledger.now)
    db.atomicVerifications
  let db ← db.recordHostCommand
    (hostCommand use.ledger.commandId receipt.runId use.ledger.eventId
      ("consume-checker:" ++ use.receiptId) use.receiptId receipt.resultHash
      capability.capabilityId rows.run.revision use.ledger.now) use.ledger.eventId
    (some receipt.contractVersion)
  return { db with
    evidenceRoots := roots
    evidence := evidence
    atomicVerifications := verifications
    hostReceipts := updateWhere
      (fun row => row.receiptId == use.receiptId && row.consumedByFeedbackId.isNone &&
        row.consumedByVerificationId.isNone)
      (fun row => { row with
        consumedByVerificationId := some verificationId
        checkerConsumedAt := some use.ledger.now }) db.hostReceipts }.updateClaim receipt.claimId
    fun claim => { claim with machineVerdict := .certificateVerified, semanticVerdict := .tested }

/-! ## Usage of components -/

/-- A report of the usage of a component. -/
structure ComponentUsage where
  runId : Id
  requestId : Id
  component : String
  usage : JsonObject
  ledger : LedgerIds
  budgetLimits : List (String × ℤ)

/-- The usage rows of a report. -/
def componentRows (usage : JsonObject) : List UsageRow :=
  let meter (name : String) (resource : ResourceKind) (multiplier : ℕ) (unit : String) :
      List UsageRow :=
    match counter? usage name with
    | some value => [⟨resource, .actual, some (value * multiplier), unit⟩]
    | none =>
      if (usage.getOr (name ++ "_applicable") (.bool true)).isTrue then
        [⟨resource, .unknownCost, none, "unknown"⟩] else []
  meter "input_tokens" .inputToken 1000000 "microtoken" ++
    meter "output_tokens" .outputToken 1000000 "microtoken" ++
    meter "wall_time_ms" .wallSecond 1000 "microsecond" ++
    if (usage.get "cost_unknown").isTrue then [⟨.apiMicroCurrency, .unknownCost, none, "unknown"⟩]
    else []

/-- The resources of a report that exceed their limit. -/
def Db.componentOverruns (db : Db) (runId : Id) (rows : List UsageRow)
    (limits : List (String × ℤ)) : List ResourceKind :=
  (rows.filter fun row =>
    match row.kind, row.amount with
    | .actual, some amount =>
      match (limits.lookup row.resource.wire).filter fun limit => decide (0 < limit) with
      | none => true
      | some limit =>
        let events := db.budgetEvents.filter fun event =>
          event.runId == runId && event.resourceKind == row.resource
        decide (limit < Db.sumAmounts [.actual] events + amount)
    | _, _ => false).map (·.resource)

/-- The budget events of a report. -/
def ComponentUsage.budgetEvents (report : ComponentUsage) (P : Platform) (revision : ℕ)
    (rows : List UsageRow) (overruns : List ResourceKind) : List BudgetEvent :=
  let accountingId := "component-usage:" ++ report.requestId
  let usage := setKey "_rk_request_id" (.str report.requestId)
    (setKey "_rk_trust" (.str "ORCHESTRATOR_OBSERVED")
      (setKey "component" (.str report.component) report.usage))
  let event (id : Id) (kind : BudgetEventKind) (resource : ResourceKind) (amount : Option ℕ)
      (unit : String) (usage : JsonObject) : BudgetEvent :=
    { budgetEventId := id
      runId := report.runId
      routeId := none
      attemptId := none
      commandId := report.ledger.commandId
      revision := revision
      eventKind := kind
      resourceKind := resource
      amountMicrounits := amount
      unit := unit
      providerUsage := usage }
  rows.map (fun row => event (hostId P accountingId row.resource.wire) row.kind row.resource
    row.amount row.unit usage) ++
    overruns.map fun resource =>
      event (hostId P accountingId ("fuse:" ++ resource.wire)) .fuseTrip resource (some 0)
        "microunit" (setKey "budget_overrun" (.str resource.wire) usage)

/-- Record the usage of a component once; an overrun pauses the run. -/
def Db.recordComponentUsage (P : Platform) (db : Db) (capability : VerifiedCapability)
    (report : ComponentUsage) : Option Db :=
  let digest := P.sha256 (dumps (.obj
    [("component", .str report.component), ("usage", .obj report.usage)]))
  let accountingId := "component-usage:" ++ report.requestId
  match db.findCommand report.runId accountingId with
  | some previous => do
    require (previous.requestDigest == digest)
    return db
  | none => do
    let run ← db.run? report.runId
    require (run.status == .isOpen || run.status == .running || run.status == .paused)
    let rows := componentRows report.usage
    let overruns := db.componentOverruns report.runId rows report.budgetLimits
    let events ← insertRows BudgetEvent.clash
      (report.budgetEvents P (run.revision + 1) rows overruns) db.budgetEvents
    let db ← db.recordHostCommand
      (hostCommand report.ledger.commandId report.runId report.ledger.eventId accountingId
        accountingId digest capability.capabilityId run.revision report.ledger.now)
      report.ledger.eventId (some run.currentContractVersion)
    return { db with
      budgetEvents := events
      runs := if overruns.isEmpty then db.runs
        else updateWhere (·.runId == report.runId) (fun run => { run with status := .paused })
          db.runs }

end ResearchKernel
