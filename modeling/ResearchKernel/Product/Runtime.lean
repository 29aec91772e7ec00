import ResearchKernel.Canonical
import ResearchKernel.Foundation.Dict
import ResearchKernel.Foundation.Runs
import ResearchKernel.Product.Jobs

/-!
# The runtime of durable jobs

Two more writers move jobs. The resolver ends a job together with the receipt of its
command, and the invalidation engine withdraws jobs whose authority is gone. The machine
performs their transactions and those of the job store in any order; whatever else the
product writes to the tables that these functions only read is one operation of its own.
-/

namespace ResearchKernel.Product

open Foundation

/-! ## The resolver -/

/-- The result of an execution with the decision on its command. Only an unknown outcome
comes without a decision. -/
structure TypedExecution where
  execution : ExecutionReceipt
  decision : Option JsonObject
  decided : execution.outcome = .outcomeUnknown ↔ decision = none

/-- The digest of an execution. -/
def executionDigest (P : Platform) (result : TypedExecution) : Digest :=
  P.sha256 (dumps (.obj
    [("outcome", .str result.execution.outcome.wire),
      ("exit_code", match result.execution.exitCode with
        | some code => .int code
        | none => .null),
      ("result_refs", .arr (result.execution.resultRefs.map .obj)),
      ("failure_code", Json.ofText? result.execution.failureCode),
      ("decision", match result.decision with
        | some decision => .obj decision
        | none => .null)]))

/-- The receipt of a command after its job is resolved. -/
def resolvedReceipt (receipt : JsonObject) (version : ℕ) (lease : JobLease)
    (decision : Option JsonObject) (now : Stamp) : JsonObject :=
  let dated := setKey "updated_at" (.str now)
    (setKey "receipt_version" (.int (version + 1)) receipt)
  match decision with
  | none =>
    (setKey "unknown_external_call_ref"
      (.str ("job:" ++ lease.jobId ++ ":lease-generation:" ++ toString lease.leaseGeneration))
      (setKey "state" (.str "OUTCOME_UNKNOWN") dated)).filter fun member =>
        member.1 != "decision" && member.1 != "decided_at"
  | some decision =>
    (setKey "decided_at" (.str now) (setKey "decision" (.obj decision)
      (setKey "state" (.str "DECIDED") dated))).filter fun member =>
        member.1 != "unknown_external_call_ref"

namespace Store

variable (store : Store)

/-- End a job together with the receipt of its command. The digest of the execution is what the
process is told. -/
def resolve (P : Platform) (lease : JobLease) (result : TypedExecution) (now : Stamp) (id : Id) :
    Except JobError (Store × Digest) := do
  let digest := executionDigest P result
  match store.resolutions.find? (·.jobId == lease.jobId) with
  | some previous =>
    rejectIf (previous.executionDigest != digest)
      (.store "durable execution replay conflicts with prior resolution")
    return (store, digest)
  | none =>
    let lost := JobError.leaseLost "durable resolution has no active exact lease"
    let job ← orReject (store.jobs.find? (·.jobId == lease.jobId)) lost
    let request ← orReject (store.requests.find? (·.jobId == lease.jobId)) lost
    let receipt ← orReject (store.receipts.find? (·.receiptId == job.receiptId)) lost
    let row ← orReject (store.leases.find? (lease.names ·)) lost
    rejectIf (row.state != .active) lost
    rejectIf (job.leaseGeneration != lease.leaseGeneration || !job.state.isExecuting ||
      request.requestDigest != receipt.requestDigest || receipt.state != .pending)
      (.store "job, request, receipt, or lease fence changed")
    rejectIf (result.execution.outcome == .cancelled && job.state != .cancelRequested)
      (.store "CANCELLED requires a persisted cancel request")
    let executions ← orReject (insertRow ExecutionRow.clash
      (executionRow lease result.execution now id) store.executions) .integrity
    let value ← orReject receipt.receipt.mapping?
      (.store "pending product receipt is not an object")
    let resolutions ← orReject (insertRow Resolution.clash
      { jobId := lease.jobId
        receiptId := job.receiptId
        leaseGeneration := lease.leaseGeneration
        executionDigest := digest
        outcome := result.execution.outcome
        decision := result.decision
        resolvedAt := now } store.resolutions) .integrity
    return ({ store.finish lease result.execution now with
      executions := executions
      receipts := updateWhere (fun row => row.receiptId == job.receiptId && row.state == .pending)
        (fun row => { row with
          receiptVersion := row.receiptVersion + 1
          state := if result.decision.isNone then .outcomeUnknown else .decided
          receipt := .obj
            (resolvedReceipt value receipt.receiptVersion lease result.decision now)
          updatedAt := now }) store.receipts
      resolutions := resolutions }, digest)

/-! ## The invalidation engine -/

def binding? (runId : Id) (object : InvalidatedObject) : Option BindingRow :=
  store.bindings.find? fun row => row.objectKind == object.objectKind &&
    row.objectId == object.objectId && row.runId == runId

/-- The active checkpoint with the given identifier. -/
def activeCheckpoint? (checkpointId : Id) : Option Checkpoint :=
  store.checkpoints.find? fun row => row.checkpointId == checkpointId && row.state == .active

/-- Withdraw an object in the table that it stands in. The tables of tool runs and of review
tasks are not among these. -/
def materializeExistingTable (object : InvalidatedObject) (reason : String) (now : Stamp) : Store :=
  match object.objectKind with
  | .checkpoint =>
    match store.activeCheckpoint? object.objectId with
    | none => store
    | some checkpoint =>
      let marked := { store with
        checkpoints := updateWhere (fun row => row.checkpointId == object.objectId)
          (fun row => { row with
            state := .invalidated
            invalidationReason := some reason
            invalidatedAt := some now }) store.checkpoints }
      (marked.expireLeases checkpoint.jobId now).endJob checkpoint.jobId .invalidated reason now
  | .queue => store.endJob object.objectId .invalidated reason now
  | _ => store

/-- Withdraw one object of an invalidation. -/
def materializeObject (event : LedgerRow) (now : Stamp) (object : InvalidatedObject) :
    Except JobError Store := do
  let binding ← orReject (store.binding? event.runId object)
    (.conflict "affected object disappeared during catch-up")
  let known := store.materializations.any fun row => row.kernelEventId == event.kernelEventId &&
    row.objectKind == object.objectKind && row.objectId == object.objectId
  let noted := if known then store else { store with
    materializations := store.materializations ++
      [{ kernelEventId := event.kernelEventId
         objectKind := object.objectKind
         objectId := object.objectId
         previousState := binding.state
         materializedAt := now }] }
  if binding.state == .valid then
    let withdrawn := { noted with
      bindings := updateWhere (fun row => row.objectKind == object.objectKind &&
          row.objectId == object.objectId && row.state == BindingState.valid)
        (fun row => { row with
          state := .invalidated
          invalidatedByEventId := some event.kernelEventId
          invalidatedAt := some now
          invalidationReason := some event.intent.reason }) noted.bindings }
    return withdrawn.materializeExistingTable object event.intent.reason now
  else return noted

/-- Withdraw the objects of an invalidation, one after the other. -/
def materialize (event : LedgerRow) (now : Stamp) :
    List InvalidatedObject → Store → Except JobError Store
  | [], store => .ok store
  | object :: objects, store => do
    let store ← store.materializeObject event now object
    materialize event now objects store

/-- The invalidation of a run that is processed next. -/
def nextEvent (watermark : WatermarkRow) : Option LedgerRow :=
  ((store.ledger.filter fun row => row.runId == watermark.runId &&
    decide (watermark.processedSequence < row.sequence)).insertionSort
      fun a b => a.sequence ≤ b.sequence).head?

/-- One turn of `catch_up`: the next invalidation of a run is carried out. The loop repeats
this in transactions of their own. -/
def catchUp (runId : Id) (now later : Stamp) : Except JobError Store := do
  let watermark ← orReject (store.watermarks.find? (·.runId == runId)) (.key runId)
  match store.nextEvent watermark with
  | none => return store
  | some event =>
    let done ← materialize event now event.intent.affectedObjects store
    rejectIf (decide (watermark.recordedSequence < event.sequence) ||
      decide (watermark.recordedRevision < event.researchRevision)) .integrity
    return { done with
      watermarks := updateWhere (·.runId == runId)
        (fun row => { row with
          processedSequence := event.sequence
          processedRevision := event.researchRevision
          updatedAt := later }) done.watermarks }

end Store

/-! ## The machine -/

/-- What the rest of the product writes: receipts of commands, and bindings, invalidations
and watermarks of the invalidation engine. -/
structure Surroundings where
  receipts : List ProductReceipt
  bindings : List BindingRow
  ledger : List LedgerRow
  watermarks : List WatermarkRow

/-- The transactions that move jobs. -/
inductive JobOp where
  | enqueue (arguments : Enqueue)
  | claimNext (holderId processToken : String) (now expiresAt : Stamp) (leaseId : Id)
  | heartbeat (lease : JobLease) (now expiresAt : Stamp)
  | requestCancel (jobId : Id) (now : Stamp)
  | recordExecution (lease : JobLease) (receipt : ExecutionReceipt) (now : Stamp) (id : Id)
  | saveCheckpoint (jobId : Id) (researchRevision contractVersion : ℤ) (artifactId : Id)
      (checkpointDigest : Digest) (now : Stamp) (checkpointId : Id)
  | invalidateCheckpoint (checkpointId : Id) (reason : String) (now : Stamp) (stale : Bool)
  | recoverExpired (now : Stamp)
  | resolve (lease : JobLease) (result : TypedExecution) (now : Stamp) (id : Id)
  | catchUp (runId : Id) (now later : Stamp)
  | surroundings (written : Surroundings)

/-- A transaction that may raise, in which case nothing is written. -/
def JobOp.transaction (P : Platform) (store : Store) : JobOp → Except JobError Store
  | .enqueue arguments => store.enqueue arguments
  | .claimNext holderId processToken now expiresAt leaseId =>
    (store.claimNext holderId processToken now expiresAt leaseId).map Prod.fst
  | .heartbeat lease now expiresAt => store.heartbeat lease now expiresAt
  | .requestCancel jobId now => store.requestCancel jobId now
  | .recordExecution lease receipt now id => store.recordExecution lease receipt now id
  | .saveCheckpoint jobId researchRevision contractVersion artifactId digest now id =>
    store.saveCheckpoint jobId researchRevision contractVersion artifactId digest now id
  | .invalidateCheckpoint id reason now stale => store.invalidateCheckpoint id reason now stale
  | .recoverExpired now => .ok (store.recoverExpired now)
  | .resolve lease result now id => (store.resolve P lease result now id).map Prod.fst
  | .catchUp runId now later => store.catchUp runId now later
  | .surroundings written => .ok { store with
      receipts := written.receipts
      bindings := written.bindings
      ledger := written.ledger
      watermarks := written.watermarks }

def jobStep (P : Platform) (store : Store) (op : JobOp) : Store :=
  match op.transaction P store with
  | .ok store => store
  | .error _ => store

/-- The tables that a list of transactions reaches from empty ones. -/
def jobsReached (P : Platform) (ops : List JobOp) : Store := runFrom (jobStep P) {} ops

/-- The job that a transaction claims. -/
def JobOp.claimed? (store : Store) : JobOp → Option Id
  | .claimNext holderId processToken now expiresAt leaseId =>
    match store.claimNext holderId processToken now expiresAt leaseId with
    | .ok (_, some lease) => some lease.jobId
    | _ => none
  | _ => none

end ResearchKernel.Product
