import Mathlib.Data.List.Sort
import ResearchKernel.Foundation.Table
import ResearchKernel.Schema
import ResearchKernel.Json

/-!
# Durable jobs

The product keeps its jobs, their leases, checkpoints and execution receipts in tables of
their own. Every function of the job store is one transaction: it either returns the new
tables or raises and leaves them as they were. Times are texts and are compared as such.
-/

namespace ResearchKernel.Product

open Foundation

/-- Times as the product writes them. -/
abbrev Stamp := String

/-! ## Enumerations -/

/-- State of a job. -/
inductive JobState where
  | queued | running | paused | waiting | cancelRequested | cancelled | succeeded | failed
  | outcomeUnknown | stale | invalidated
deriving DecidableEq

/-- The states in which a job has ended. -/
def JobState.isTerminal : JobState → Bool
  | .cancelled | .succeeded | .failed | .outcomeUnknown | .stale | .invalidated => true
  | _ => false

/-- The states in which a job may be given the result of an execution. -/
def JobState.isExecuting : JobState → Bool
  | .running | .waiting | .cancelRequested => true
  | _ => false

/-- Text of a job state. -/
def JobState.wire : JobState → String
  | .queued => "QUEUED"
  | .running => "RUNNING"
  | .paused => "PAUSED"
  | .waiting => "WAITING"
  | .cancelRequested => "CANCEL_REQUESTED"
  | .cancelled => "CANCELLED"
  | .succeeded => "SUCCEEDED"
  | .failed => "FAILED"
  | .outcomeUnknown => "OUTCOME_UNKNOWN"
  | .stale => "STALE"
  | .invalidated => "INVALIDATED"

/-- Whether and how a job may be repeated. -/
inductive RetrySafety where
  | idempotent | readOnly | idempotencyKey | manualOnly
deriving DecidableEq

/-- The jobs that are repeated without being asked for. -/
def RetrySafety.isAutomatic : RetrySafety → Bool
  | .manualOnly => false
  | _ => true

/-- How the execution of a job has ended. -/
inductive ExecutionOutcome where
  | succeeded | failed | cancelled | outcomeUnknown
deriving DecidableEq

/-- The state in which an outcome leaves the job. -/
def ExecutionOutcome.jobState : ExecutionOutcome → JobState
  | .succeeded => .succeeded
  | .failed => .failed
  | .cancelled => .cancelled
  | .outcomeUnknown => .outcomeUnknown

/-- Text of an outcome. -/
def ExecutionOutcome.wire : ExecutionOutcome → String
  | .succeeded => "SUCCEEDED"
  | .failed => "FAILED"
  | .cancelled => "CANCELLED"
  | .outcomeUnknown => "OUTCOME_UNKNOWN"

/-- What a job is about. -/
inductive ScopeKind where
  | global | run | deployment
deriving DecidableEq

/-- State of the lease of a job. -/
inductive JobLeaseState where
  | active | released | expired
deriving DecidableEq

/-- State of a checkpoint. -/
inductive CheckpointState where
  | active | stale | invalidated
deriving DecidableEq

/-- State of the receipt of a product command. -/
inductive ReceiptState where
  | pending | decided | outcomeUnknown
deriving DecidableEq

/-! ## Tables -/

/-- A row of `product_jobs`. -/
structure Job where
  jobId : Id
  receiptId : Id
  scopeKey : String
  scopeKind : ScopeKind
  runId : Option Id
  deploymentId : Option Id
  kind : String
  requestedBy : String
  requestId : String
  state : JobState
  retrySafety : RetrySafety
  idempotencyKey : Option String
  leaseGeneration : ℕ := 0
  currentCheckpointId : Option Id := none
  workerRunIds : List String
  resultRefs : List JsonObject := []
  failureCode : Option String := none
  createdAt : Stamp
  startedAt : Option Stamp := none
  finishedAt : Option Stamp := none

/-- Unique columns of `product_jobs`. -/
def Job.clash (a b : Job) : Bool :=
  a.jobId == b.jobId || a.receiptId == b.receiptId ||
    a.scopeKey == b.scopeKey && a.requestId == b.requestId

/-- A row of `product_job_leases`. -/
structure LeaseRow where
  leaseId : Id
  jobId : Id
  leaseGeneration : ℕ
  holderId : String
  processToken : String
  state : JobLeaseState
  claimedAt : Stamp
  heartbeatAt : Stamp
  expiresAt : Stamp
  releasedAt : Option Stamp := none

/-- Unique columns of `product_job_leases`; a job has at most one active lease. -/
def LeaseRow.clash (a b : LeaseRow) : Bool :=
  a.leaseId == b.leaseId ||
    a.jobId == b.jobId && (a.leaseGeneration == b.leaseGeneration ||
      a.state == .active && b.state == .active)

/-- A row of `product_job_checkpoints`. -/
structure Checkpoint where
  checkpointId : Id
  jobId : Id
  researchRevision : ℤ
  contractVersion : ℤ
  artifactId : Id
  checkpointDigest : Digest
  state : CheckpointState
  createdAt : Stamp
  invalidatedAt : Option Stamp := none
  invalidationReason : Option String := none

/-- A row of `product_job_execution_receipts`. -/
structure ExecutionRow where
  executionReceiptId : Id
  jobId : Id
  leaseId : Id
  leaseGeneration : ℕ
  outcome : ExecutionOutcome
  exitCode : Option ℤ
  resultRefs : List JsonObject
  failureCode : Option String
  receivedAt : Stamp

/-- Unique columns of `product_job_execution_receipts`. -/
def ExecutionRow.clash (a b : ExecutionRow) : Bool :=
  a.executionReceiptId == b.executionReceiptId || a.leaseId == b.leaseId

/-- A row of `product_job_requests`. -/
structure RequestRow where
  jobId : Id
  receiptId : Id
  request : JsonObject
  requestDigest : Digest
  createdAt : Stamp

/-- Unique columns of `product_job_requests`. -/
def RequestRow.clash (a b : RequestRow) : Bool :=
  a.jobId == b.jobId || a.receiptId == b.receiptId

/-- A row of `product_receipts`. -/
structure ProductReceipt where
  receiptId : Id
  receiptVersion : ℕ
  requestDigest : Digest
  state : ReceiptState
  receipt : Json
  updatedAt : Stamp

/-- A row of `product_durable_resolutions`. -/
structure Resolution where
  jobId : Id
  receiptId : Id
  leaseGeneration : ℕ
  executionDigest : Digest
  outcome : ExecutionOutcome
  decision : Option JsonObject
  resolvedAt : Stamp

/-- Unique columns of `product_durable_resolutions`. -/
def Resolution.clash (a b : Resolution) : Bool :=
  a.jobId == b.jobId || a.receiptId == b.receiptId

/-- The kinds of objects whose authority may be withdrawn. -/
inductive AuthorityObjectKind where
  | checkpoint | queue | toolFeedback | composition | review | witness | publication
deriving DecidableEq

/-- Text of a kind. -/
def AuthorityObjectKind.wire : AuthorityObjectKind → String
  | .checkpoint => "CHECKPOINT"
  | .queue => "QUEUE"
  | .toolFeedback => "TOOL_FEEDBACK"
  | .composition => "COMPOSITION"
  | .review => "REVIEW"
  | .witness => "WITNESS"
  | .publication => "PUBLICATION"

/-- An object whose authority is withdrawn. -/
structure InvalidatedObject where
  objectKind : AuthorityObjectKind
  objectId : Id
  stableLabel : String
  objectDigest : Digest
deriving DecidableEq

/-- What an invalidation is about. -/
structure InvalidationIntent where
  reason : String
  affectedObjects : List InvalidatedObject
  preservedSiblingIds : List Id
  reopenedObligationIds : List Id
deriving DecidableEq

/-- A row of `product_authority_invalidation_ledger`. -/
structure LedgerRow where
  sequence : ℕ
  kernelEventId : Id
  runId : Id
  researchRevision : ℕ
  intentDigest : Digest
  intent : InvalidationIntent

/-- Unique columns of `product_authority_invalidation_ledger`. -/
def LedgerRow.clash (a b : LedgerRow) : Bool :=
  a.sequence == b.sequence || a.kernelEventId == b.kernelEventId ||
    a.runId == b.runId && a.researchRevision == b.researchRevision

/-- A row of `product_authority_invalidation_watermarks`. -/
structure WatermarkRow where
  runId : Id
  recordedSequence : ℕ
  recordedRevision : ℕ
  processedSequence : ℕ
  processedRevision : ℕ
  updatedAt : Stamp

/-- State of an authority binding. -/
inductive BindingState where
  | valid | invalidated
deriving DecidableEq

/-- A row of `product_authority_bindings`. -/
structure BindingRow where
  objectKind : AuthorityObjectKind
  objectId : Id
  runId : Id
  contractVersion : ℕ
  boundRevision : ℕ
  stableLabel : String
  objectDigest : Digest
  state : BindingState
  invalidatedByEventId : Option Id := none
  invalidatedAt : Option Stamp := none
  invalidationReason : Option String := none
deriving DecidableEq

/-- Unique columns of `product_authority_bindings`. -/
def BindingRow.clash (a b : BindingRow) : Bool :=
  a.objectKind == b.objectKind && (a.objectId == b.objectId ||
    a.runId == b.runId && a.stableLabel == b.stableLabel)

/-- A row of `product_authority_invalidation_materializations`. -/
structure Materialization where
  kernelEventId : Id
  objectKind : AuthorityObjectKind
  objectId : Id
  previousState : BindingState
  materializedAt : Stamp

/-- The tables of the product that jobs are kept in. -/
structure Store where
  jobs : List Job := []
  leases : List LeaseRow := []
  checkpoints : List Checkpoint := []
  executions : List ExecutionRow := []
  requests : List RequestRow := []
  receipts : List ProductReceipt := []
  resolutions : List Resolution := []
  bindings : List BindingRow := []
  ledger : List LedgerRow := []
  watermarks : List WatermarkRow := []
  materializations : List Materialization := []

/-! ## Errors and arguments -/

/-- What the functions of the product raise. -/
inductive JobError where
  /-- `ValueError`. -/
  | value (message : String)
  /-- `KeyError`. -/
  | key (key : String)
  /-- `JobStoreError`. -/
  | store (message : String)
  /-- `JobLeaseLost`. -/
  | leaseLost (message : String)
  /-- `InvalidationConflict`. -/
  | conflict (message : String)
  /-- `InvalidationError`. -/
  | invalidation (message : String)
  /-- `AuthorityProjectionLag`. -/
  | projectionLag (requiredRevision : ℤ)
  /-- `AuthorityObjectInvalidated`. -/
  | objectInvalidated (objectId : Id)
  /-- A constraint of the tables. -/
  | integrity

/-- The lease by which a process acts. -/
structure JobLease where
  leaseId : Id
  jobId : Id
  leaseGeneration : ℕ
  holderId : String
  processToken : String

/-- Whether a row is the one that a process acts by. -/
def JobLease.names (lease : JobLease) (row : LeaseRow) : Bool :=
  row.leaseId == lease.leaseId && row.jobId == lease.jobId &&
    row.leaseGeneration == lease.leaseGeneration && row.holderId == lease.holderId &&
    row.processToken == lease.processToken

/-- What a process says about an execution. -/
structure ExecutionReceipt where
  outcome : ExecutionOutcome
  exitCode : Option ℤ
  resultRefs : List JsonObject
  failureCode : Option String := none

/-- The arguments of `enqueue`. -/
structure Enqueue where
  jobId : Id
  receiptId : Id
  scopeKind : ScopeKind
  runId : Option Id
  deploymentId : Option Id
  kind : String
  requestedBy : String
  requestId : String
  retrySafety : RetrySafety
  idempotencyKey : Option String
  now : Stamp
  workerRunIds : List String := []
  requestValue : Option JsonObject := none
  requestDigest : Option Digest := none

/-- Whether a text is a SHA-256 digest in lower case. -/
def isDigest (text : String) : Bool :=
  text.length == 64 && text.toList.all ("0123456789abcdef".toList.contains ·)

/-- The key of a scope, if its fields fit its kind. -/
def scopeKey : ScopeKind → Option Id → Option Id → Option String
  | .global, none, some deployment =>
    if deployment == "" then none else some ("GLOBAL:" ++ deployment)
  | .run, some run, none => if run == "" then none else some ("RUN:" ++ run)
  | .deployment, none, some deployment =>
    if deployment == "" then none else some ("DEPLOYMENT:" ++ deployment)
  | _, _, _ => none

/-! ## The functions of the job store -/

namespace Store

variable (store : Store)

/-- Bind a job to its pending receipt. -/
def enqueue (e : Enqueue) : Except JobError Store := do
  let key ← orReject (scopeKey e.scopeKind e.runId e.deploymentId)
    (.value "job scope fields do not match scope_kind")
  rejectIf ((e.retrySafety == .idempotencyKey) != e.idempotencyKey.isSome)
    (.value "idempotency key must exactly match retry safety")
  match store.jobs.find? fun job => job.scopeKey == key && job.requestId == e.requestId with
  | some existing =>
    rejectIf (!(existing.jobId == e.jobId && existing.receiptId == e.receiptId))
      (.store "request is already bound to another durable job")
    return store
  | none =>
    let receipt ← orReject
      ((store.receipts.find? (·.receiptId == e.receiptId)).filter (·.state == .pending))
      (.store "job requires its persisted PENDING receipt")
    rejectIf (!receipt.receipt.mapping?.any fun value => (value.get "job_id").isText e.jobId)
      (.store "receipt job_id does not match durable job identity")
    let jobs ← orReject (insertRow Job.clash
      { jobId := e.jobId
        receiptId := e.receiptId
        scopeKey := key
        scopeKind := e.scopeKind
        runId := e.runId
        deploymentId := e.deploymentId
        kind := e.kind
        requestedBy := e.requestedBy
        requestId := e.requestId
        state := .queued
        retrySafety := e.retrySafety
        idempotencyKey := e.idempotencyKey
        workerRunIds := e.workerRunIds
        createdAt := e.now } store.jobs) .integrity
    match e.requestValue, e.requestDigest with
    | none, none => return { store with jobs := jobs }
    | some value, some digest =>
      rejectIf (digest.length != 64 || receipt.requestDigest != digest)
        (.store "durable request digest differs from receipt reservation")
      let requests ← orReject (insertRow RequestRow.clash
        { jobId := e.jobId
          receiptId := e.receiptId
          request := value
          requestDigest := digest
          createdAt := e.now } store.requests) .integrity
      return { store with jobs := jobs, requests := requests }
    | _, _ => .error (.store "durable request value and digest must be bound together")

/-- The job that is claimed next: the oldest one in the queue. -/
def nextQueued : Option Job :=
  ((store.jobs.filter (·.state == .queued)).insertionSort fun a b =>
    a.createdAt < b.createdAt ∨ a.createdAt = b.createdAt ∧ a.jobId ≤ b.jobId).head?

/-- Claim the next job of the queue under a new generation of its lease. -/
def claimNext (holderId processToken : String) (now expiresAt : Stamp) (leaseId : Id) :
    Except JobError (Store × Option JobLease) := do
  rejectIf (decide (expiresAt ≤ now)) (.value "lease expiry must be after claim time")
  match store.nextQueued with
  | none => return (store, none)
  | some job =>
    let generation := job.leaseGeneration + 1
    let claimed := fun row : Job => row.jobId == job.jobId && row.state == .queued &&
      row.leaseGeneration == job.leaseGeneration
    rejectIf (store.jobs.countP claimed != 1) (.store "job claim lost the queue race")
    let leases ← orReject (insertRow LeaseRow.clash
      { leaseId := leaseId
        jobId := job.jobId
        leaseGeneration := generation
        holderId := holderId
        processToken := processToken
        state := .active
        claimedAt := now
        heartbeatAt := now
        expiresAt := expiresAt } store.leases) .integrity
    return ({ store with
      jobs := updateWhere claimed
        (fun row => { row with
          state := .running
          leaseGeneration := generation
          startedAt := some (row.startedAt.getD now) }) store.jobs
      leases := leases }, some ⟨leaseId, job.jobId, generation, holderId, processToken⟩)

/-- Extend a lease that has not expired. -/
def heartbeat (lease : JobLease) (now expiresAt : Stamp) : Except JobError Store := do
  rejectIf (decide (expiresAt ≤ now)) (.value "lease expiry must be after heartbeat")
  let held := fun row => lease.names row && row.state == .active && decide (now < row.expiresAt)
  rejectIf (store.leases.countP held != 1)
    (.leaseLost "heartbeat lease is expired or superseded")
  return { store with
    leases := updateWhere held
      (fun row => { row with heartbeatAt := now, expiresAt := expiresAt }) store.leases }

/-- Cancel a job: one in the queue at once, a running one when its process obeys. -/
def requestCancel (jobId : Id) (now : Stamp) : Except JobError Store := do
  let job ← orReject (store.jobs.find? (·.jobId == jobId)) (.key jobId)
  rejectIf job.state.isTerminal (.store ("terminal job cannot be cancelled: " ++ job.state.wire))
  if job.state == .queued then
    return { store with
      jobs := updateWhere (·.jobId == jobId)
        (fun row => { row with state := .cancelled, finishedAt := some now }) store.jobs }
  else
    return { store with
      jobs := updateWhere (·.jobId == jobId)
        (fun row => { row with state := .cancelRequested }) store.jobs }

/-- End a job with the outcome of its execution and release its lease. -/
def finish (lease : JobLease) (receipt : ExecutionReceipt) (now : Stamp) : Store :=
  { store with
    leases := updateWhere (fun row => row.leaseId == lease.leaseId && row.state == .active)
      (fun row => { row with state := .released, releasedAt := some now }) store.leases
    jobs := updateWhere (·.jobId == lease.jobId)
      (fun row => { row with
        state := receipt.outcome.jobState
        resultRefs := receipt.resultRefs
        failureCode := receipt.failureCode
        finishedAt := some now }) store.jobs }

/-- The row of an execution receipt. -/
def executionRow (lease : JobLease) (receipt : ExecutionReceipt) (now : Stamp) (id : Id) :
    ExecutionRow where
  executionReceiptId := id
  jobId := lease.jobId
  leaseId := lease.leaseId
  leaseGeneration := lease.leaseGeneration
  outcome := receipt.outcome
  exitCode := receipt.exitCode
  resultRefs := receipt.resultRefs
  failureCode := receipt.failureCode
  receivedAt := now

/-- Record the result of an execution under its lease. -/
def recordExecution (lease : JobLease) (receipt : ExecutionReceipt) (now : Stamp) (id : Id) :
    Except JobError Store := do
  let lost := JobError.leaseLost "execution receipt lease is expired or superseded"
  let row ← orReject (store.leases.find? (lease.names ·)) lost
  rejectIf (row.state != .active) lost
  let job ← orReject (store.jobs.find? (·.jobId == lease.jobId)) lost
  rejectIf (job.leaseGeneration != lease.leaseGeneration) lost
  rejectIf (receipt.outcome == .cancelled && job.state != .cancelRequested)
    (.store "CANCELLED requires a persisted cancel request")
  rejectIf (!job.state.isExecuting)
    (.store ("job cannot accept an execution receipt from " ++ job.state.wire))
  let executions ← orReject
    (insertRow ExecutionRow.clash (executionRow lease receipt now id) store.executions) .integrity
  return { store.finish lease receipt now with executions := executions }

/-- Save a checkpoint of a job that has not ended. -/
def saveCheckpoint (jobId : Id) (researchRevision contractVersion : ℤ) (artifactId : Id)
    (checkpointDigest : Digest) (now : Stamp) (checkpointId : Id) : Except JobError Store := do
  rejectIf (decide (researchRevision < 0) || decide (contractVersion < 1) ||
    checkpointDigest.length != 64) (.value "invalid checkpoint binding")
  let job ← orReject (store.jobs.find? (·.jobId == jobId)) (.key jobId)
  rejectIf (job.scopeKind != .run || job.state.isTerminal)
    (.store "checkpoint requires a live RUN job")
  let checkpoints ← orReject (insertRow (fun a b => a.checkpointId == b.checkpointId)
    { checkpointId := checkpointId
      jobId := jobId
      researchRevision := researchRevision
      contractVersion := contractVersion
      artifactId := artifactId
      checkpointDigest := checkpointDigest
      state := .active
      createdAt := now } store.checkpoints) .integrity
  return { store with
    checkpoints := checkpoints
    jobs := updateWhere (·.jobId == jobId)
      (fun row => { row with currentCheckpointId := some checkpointId }) store.jobs }

def expireLeases (jobId : Id) (now : Stamp) : Store :=
  { store with
    leases := updateWhere (fun row : LeaseRow => row.jobId == jobId && row.state == .active)
      (fun row => { row with state := .expired, releasedAt := some now }) store.leases }

/-- End a job that has not ended, for the given reason. -/
def endJob (jobId : Id) (state : JobState) (reason : String) (now : Stamp) : Store :=
  { store with
    jobs := updateWhere (fun row => row.jobId == jobId && !row.state.isTerminal)
      (fun row => { row with
        state := state
        failureCode := some reason
        finishedAt := some now }) store.jobs }

/-- Withdraw a checkpoint, and with it the job and its lease. -/
def invalidateCheckpoint (checkpointId : Id) (reason : String) (now : Stamp) (stale : Bool) :
    Except JobError Store := do
  let checkpoint ← orReject (store.checkpoints.find? (·.checkpointId == checkpointId))
    (.key checkpointId)
  rejectIf (checkpoint.state != .active) (.store "checkpoint is already invalidated")
  let marked := { store with
    checkpoints := updateWhere
      (fun row : Checkpoint => row.checkpointId == checkpointId && row.state == CheckpointState.active)
      (fun row => { row with
        state := if stale then .stale else .invalidated
        invalidationReason := some reason
        invalidatedAt := some now }) store.checkpoints }
  return (marked.expireLeases checkpoint.jobId now).endJob checkpoint.jobId
    (if stale then .stale else .invalidated) reason now

/-- The expired leases, each with its job, in the order in which they are recovered. -/
def expiredLeases (now : Stamp) : List (LeaseRow × Job) :=
  ((store.leases.filter fun row => row.state == .active && decide (row.expiresAt ≤ now)).filterMap
    fun row => (store.jobs.find? (·.jobId == row.jobId)).map fun job => (row, job)).insertionSort
    fun a b => a.1.expiresAt < b.1.expiresAt ∨
      a.1.expiresAt = b.1.expiresAt ∧ a.1.leaseId ≤ b.1.leaseId

/-- The state of a job after its lease has expired. -/
def recoveredState (job : Job) : JobState :=
  if job.state == .cancelRequested || !job.retrySafety.isAutomatic then .outcomeUnknown
  else .queued

/-- Recover one expired lease. -/
def recoverLease (now : Stamp) (store : Store) (expired : LeaseRow × Job) : Store :=
  { store with
    leases := updateWhere
      (fun row : LeaseRow => row.leaseId == expired.1.leaseId && row.state == .active)
      (fun row => { row with state := .expired, releasedAt := some now }) store.leases
    jobs := updateWhere
      (fun row : Job =>
        row.jobId == expired.1.jobId && row.leaseGeneration == expired.1.leaseGeneration)
      (fun row => { row with
        state := recoveredState expired.2
        finishedAt := if recoveredState expired.2 == .outcomeUnknown then some now else none
        failureCode := some "LEASE_EXPIRED" }) store.jobs }

/-- Recover the jobs whose leases have expired: they go back to the queue if they may be
repeated, and have an unknown outcome otherwise. -/
def recoverExpired (now : Stamp) : Store :=
  (store.expiredLeases now).foldl (recoverLease now) store

end Store

namespace Sample

/-- A platform for runs that use nothing of it. -/
def platform : Platform where
  nfc := id
  sha256 := fun _ => ""
  hmacSha256 := fun _ _ => ""
  uuid5 := id
  repr := fun _ => ""
  parseInt := fun _ => none

def digest : Digest := "0123456789abcdef0123456789abcdef0123456789abcdef0123456789abcdef"

end Sample

end ResearchKernel.Product
