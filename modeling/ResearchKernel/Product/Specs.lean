import ResearchKernel.Product.Runtime

/-!
# What each transaction on jobs writes

One lemma for each function: when it succeeds, what it has checked and which tables it has
written. Later proofs use these and do not open the functions again.
-/

namespace ResearchKernel.Product.Store

open Foundation

variable {store store' : Store}

variable {id : Id}

/-- A job that is looked up by its identifier. -/
theorem mem_of_find?_jobId {job : Job} (h : store.jobs.find? (·.jobId == id) = some job) :
    job ∈ store.jobs ∧ job.jobId = id :=
  ⟨List.mem_of_find?_eq_some h, by simpa using List.find?_some h⟩

variable {lease : JobLease}

/-- The row by which a process acts. -/
theorem mem_of_find?_names {row : LeaseRow} (h : store.leases.find? (lease.names ·) = some row) :
    row ∈ store.leases ∧ row.leaseId = lease.leaseId ∧ row.jobId = lease.jobId ∧
      row.leaseGeneration = lease.leaseGeneration := by
  have hnames := List.find?_some h
  simp only [JobLease.names, Bool.and_eq_true, beq_iff_eq] at hnames
  exact ⟨List.mem_of_find?_eq_some h, hnames.1.1.1.1, hnames.1.1.1.2, hnames.1.1.2⟩

/-- The job that `enqueue` adds. -/
def enqueuedJob (e : Enqueue) (key : String) : Job where
  jobId := e.jobId
  receiptId := e.receiptId
  scopeKey := key
  scopeKind := e.scopeKind
  runId := e.runId
  deploymentId := e.deploymentId
  kind := e.kind
  requestedBy := e.requestedBy
  requestId := e.requestId
  state := .queued
  retrySafety := e.retrySafety
  idempotencyKey := e.idempotencyKey
  workerRunIds := e.workerRunIds
  createdAt := e.now

/-- `enqueue` does nothing, or it adds a queued job of a pending receipt that names it. -/
theorem enqueue_spec {e : Enqueue} (h : store.enqueue e = .ok store') :
    store' = store ∨ ∃ key receipt, ∃ value : JsonObject, ∃ requests,
      store.receipts.find? (·.receiptId == e.receiptId) = some receipt ∧
      receipt.state = .pending ∧ receipt.receipt = .obj value ∧
      value.get "job_id" = .str e.jobId ∧
      (∀ old ∈ store.jobs, (enqueuedJob e key).clash old = false) ∧
      store' = { store with jobs := store.jobs ++ [enqueuedJob e key], requests := requests } := by
  unfold enqueue at h
  obtain ⟨key, -, h⟩ := bind_eq_ok.mp h
  obtain ⟨⟨⟩, -, h⟩ := bind_eq_ok.mp h
  split at h
  · obtain ⟨⟨⟩, -, h⟩ := bind_eq_ok.mp h
    exact Or.inl (pure_eq_ok.mp h).symm
  · obtain ⟨receipt, hreceipt, h⟩ := bind_eq_ok.mp h
    obtain ⟨⟨⟩, hbody, h⟩ := bind_eq_ok.mp h
    obtain ⟨jobs, hjobs, h⟩ := bind_eq_ok.mp h
    rw [orReject_eq_ok, Option.filter_eq_some_iff] at hreceipt
    rw [rejectIf_eq_ok, Bool.not_eq_false'] at hbody
    rw [orReject_eq_ok, insertRow_eq_some] at hjobs
    obtain ⟨value, hvalue, hjobId⟩ := (Option.any_eq_true _ _).mp hbody
    obtain ⟨hfresh, rfl⟩ := hjobs
    rw [Json.mapping?_eq_some] at hvalue
    have hpending : receipt.state = .pending := by simpa using hreceipt.2
    have hwrites : ∃ requests, store' =
        { store with jobs := store.jobs ++ [enqueuedJob e key], requests := requests } := by
      split at h
      · exact ⟨store.requests, (pure_eq_ok.mp h).symm⟩
      · obtain ⟨⟨⟩, -, h⟩ := bind_eq_ok.mp h
        obtain ⟨requests, -, h⟩ := bind_eq_ok.mp h
        exact ⟨requests, (pure_eq_ok.mp h).symm⟩
      · cases h
    obtain ⟨requests, hstore⟩ := hwrites
    exact Or.inr ⟨key, receipt, value, requests, hreceipt.1, hpending, hvalue,
      Json.isText_iff.mp hjobId, hfresh, hstore⟩

theorem mem_of_nextQueued {job : Job} (h : store.nextQueued = some job) :
    job ∈ store.jobs ∧ job.state = .queued := by
  have hmem := List.mem_of_head? h
  rw [List.mem_insertionSort, List.mem_filter] at hmem
  exact ⟨hmem.1, by simpa using hmem.2⟩

/-- The lease that a claim adds. -/
def claimedLease (job : Job) (holderId processToken : String) (now expiresAt : Stamp)
    (leaseId : Id) : LeaseRow where
  leaseId := leaseId
  jobId := job.jobId
  leaseGeneration := job.leaseGeneration + 1
  holderId := holderId
  processToken := processToken
  state := .active
  claimedAt := now
  heartbeatAt := now
  expiresAt := expiresAt

/-- Whether a row is the one that a claim takes. -/
def claims (job row : Job) : Bool :=
  row.jobId == job.jobId && row.state == .queued && row.leaseGeneration == job.leaseGeneration

def claimedJob (job : Job) (now : Stamp) (row : Job) : Job :=
  { row with
    state := .running
    leaseGeneration := job.leaseGeneration + 1
    startedAt := some (row.startedAt.getD now) }

variable {now expiresAt : Stamp}

/-- `claimNext` does nothing, or it takes a queued job under the next generation. -/
theorem claimNext_spec {holderId processToken : String} {leaseId : Id} {lease? : Option JobLease}
    (h : store.claimNext holderId processToken now expiresAt leaseId = .ok (store', lease?)) :
    (store' = store ∧ lease? = none) ∨ ∃ job, job ∈ store.jobs ∧ job.state = .queued ∧
      lease? = some ⟨leaseId, job.jobId, job.leaseGeneration + 1, holderId, processToken⟩ ∧
      (∀ old ∈ store.leases,
        (claimedLease job holderId processToken now expiresAt leaseId).clash old = false) ∧
      store' = { store with
        jobs := updateWhere (claims job) (claimedJob job now) store.jobs
        leases := store.leases ++
          [claimedLease job holderId processToken now expiresAt leaseId] } := by
  unfold claimNext at h
  obtain ⟨⟨⟩, -, h⟩ := bind_eq_ok.mp h
  split at h
  · cases pure_eq_ok.mp h
    exact Or.inl ⟨rfl, rfl⟩
  · next job hnext =>
    obtain ⟨⟨⟩, -, h⟩ := bind_eq_ok.mp h
    obtain ⟨leases, hleases, h⟩ := bind_eq_ok.mp h
    rw [orReject_eq_ok, insertRow_eq_some] at hleases
    obtain ⟨hfresh, rfl⟩ := hleases
    obtain ⟨hmem, hqueued⟩ := mem_of_nextQueued hnext
    cases pure_eq_ok.mp h
    exact Or.inr ⟨job, hmem, hqueued, rfl, hfresh, rfl⟩

/-- `heartbeat` extends an active lease that has not expired. -/
theorem heartbeat_spec (h : store.heartbeat lease now expiresAt = .ok store') :
    (∃ row ∈ store.leases, lease.names row = true ∧ row.state = .active) ∧
      store' = { store with
        leases := updateWhere (fun row => lease.names row && row.state == .active &&
            decide (now < row.expiresAt))
          (fun row => { row with heartbeatAt := now, expiresAt := expiresAt }) store.leases } := by
  unfold heartbeat at h
  obtain ⟨⟨⟩, -, h⟩ := bind_eq_ok.mp h
  obtain ⟨⟨⟩, hcount, h⟩ := bind_eq_ok.mp h
  refine ⟨?_, (pure_eq_ok.mp h).symm⟩
  rw [rejectIf_eq_ok, bne_eq_false_iff_eq] at hcount
  have hpos : 0 < store.leases.countP fun row =>
      lease.names row && row.state == .active && decide (now < row.expiresAt) := by omega
  obtain ⟨row, hrow, hheld⟩ := List.countP_pos_iff.mp hpos
  simp only [Bool.and_eq_true, beq_iff_eq] at hheld
  exact ⟨row, hrow, hheld.1.1, hheld.1.2⟩

def cancelledJob (job : Job) (now : Stamp) (row : Job) : Job :=
  if job.state == .queued then { row with state := .cancelled, finishedAt := some now }
  else { row with state := .cancelRequested }

/-- `requestCancel` cancels a queued job and marks another one that has not ended. -/
theorem requestCancel_spec {jobId : Id} (h : store.requestCancel jobId now = .ok store') :
    ∃ job, job ∈ store.jobs ∧ job.jobId = jobId ∧ job.state.isTerminal = false ∧
      store' = { store with
        jobs := updateWhere (·.jobId == jobId) (cancelledJob job now) store.jobs } := by
  unfold requestCancel at h
  obtain ⟨job, hjob, h⟩ := bind_eq_ok.mp h
  obtain ⟨⟨⟩, hlive, h⟩ := bind_eq_ok.mp h
  rw [orReject_eq_ok] at hjob
  rw [rejectIf_eq_ok] at hlive
  obtain ⟨hmem, hid⟩ := mem_of_find?_jobId hjob
  refine ⟨job, hmem, hid, hlive, ?_⟩
  unfold cancelledJob
  split at h
  · next hqueued =>
    simp only [hqueued, if_true]
    exact (pure_eq_ok.mp h).symm
  · next hqueued =>
    simp only [hqueued]
    exact (pure_eq_ok.mp h).symm

/-- `saveCheckpoint` changes nothing of a job but its current checkpoint. -/
theorem saveCheckpoint_spec {jobId : Id} {researchRevision contractVersion : ℤ} {artifactId : Id}
    {digest : Digest} {checkpointId : Id}
    (h : store.saveCheckpoint jobId researchRevision contractVersion artifactId digest now
      checkpointId = .ok store') :
    ∃ checkpoints, store' = { store with
      checkpoints := checkpoints
      jobs := updateWhere (·.jobId == jobId)
        (fun row => { row with currentCheckpointId := some checkpointId }) store.jobs } := by
  unfold saveCheckpoint at h
  obtain ⟨⟨⟩, -, h⟩ := bind_eq_ok.mp h
  obtain ⟨job, -, h⟩ := bind_eq_ok.mp h
  obtain ⟨⟨⟩, -, h⟩ := bind_eq_ok.mp h
  obtain ⟨checkpoints, -, h⟩ := bind_eq_ok.mp h
  exact ⟨checkpoints, (pure_eq_ok.mp h).symm⟩

/-- What is known when an execution ends a job: the lease is active, the job executes and is
of the generation of the lease. -/
structure Ends (store : Store) (lease : JobLease) (row : LeaseRow) (job : Job) : Prop where
  row_mem : row ∈ store.leases
  leaseId_eq : row.leaseId = lease.leaseId
  rowJobId_eq : row.jobId = lease.jobId
  rowGeneration_eq : row.leaseGeneration = lease.leaseGeneration
  active : row.state = .active
  job_mem : job ∈ store.jobs
  jobId_eq : job.jobId = lease.jobId
  generation_eq : job.leaseGeneration = lease.leaseGeneration
  executing : job.state.isExecuting = true

/-- `recordExecution` ends the job of an active lease and records how. -/
theorem recordExecution_spec {receipt : ExecutionReceipt}
    (h : store.recordExecution lease receipt now id = .ok store') :
    ∃ row job, store.Ends lease row job ∧
      (∀ old ∈ store.executions, (executionRow lease receipt now id).clash old = false) ∧
      store' = { store.finish lease receipt now with
        executions := store.executions ++ [executionRow lease receipt now id] } := by
  unfold recordExecution at h
  obtain ⟨row, hrow, h⟩ := bind_eq_ok.mp h
  obtain ⟨⟨⟩, hactive, h⟩ := bind_eq_ok.mp h
  obtain ⟨job, hjob, h⟩ := bind_eq_ok.mp h
  obtain ⟨⟨⟩, hgeneration, h⟩ := bind_eq_ok.mp h
  obtain ⟨⟨⟩, -, h⟩ := bind_eq_ok.mp h
  obtain ⟨⟨⟩, hexecuting, h⟩ := bind_eq_ok.mp h
  obtain ⟨executions, hexecutions, h⟩ := bind_eq_ok.mp h
  rw [orReject_eq_ok] at hrow hjob
  rw [rejectIf_eq_ok] at hactive hgeneration hexecuting
  rw [orReject_eq_ok, insertRow_eq_some] at hexecutions
  obtain ⟨hfresh, rfl⟩ := hexecutions
  obtain ⟨hrowMem, hleaseId, hrowJob, hrowGeneration⟩ := mem_of_find?_names hrow
  obtain ⟨hjobMem, hjobId⟩ := mem_of_find?_jobId hjob
  exact ⟨row, job, ⟨hrowMem, hleaseId, hrowJob, hrowGeneration, by simpa using hactive, hjobMem,
    hjobId, by simpa using hgeneration, by simpa using hexecuting⟩, hfresh,
    (pure_eq_ok.mp h).symm⟩

/-- The state of a receipt after its job is resolved. -/
def resolvedState (decision : Option JsonObject) : ReceiptState :=
  if decision.isNone then .outcomeUnknown else .decided

/-- `resolve` repeats a resolution that was made, or ends the job of an active lease together
with its pending receipt. -/
theorem resolve_spec {P : Platform} {result : TypedExecution} {digest : Digest}
    (h : store.resolve P lease result now id = .ok (store', digest)) :
    (store' = store ∧ ∃ previous ∈ store.resolutions, previous.jobId = lease.jobId ∧
        previous.executionDigest = executionDigest P result) ∨
      ∃ row job receipt value resolution, store.Ends lease row job ∧
        (∀ old ∈ store.executions, (executionRow lease result.execution now id).clash old = false) ∧
        store.receipts.find? (·.receiptId == job.receiptId) = some receipt ∧
        receipt.state = .pending ∧ resolution.jobId = lease.jobId ∧
        store' = { store.finish lease result.execution now with
          executions := store.executions ++ [executionRow lease result.execution now id]
          receipts := updateWhere
            (fun row => row.receiptId == job.receiptId && row.state == .pending)
            (fun row => { row with
              receiptVersion := row.receiptVersion + 1
              state := resolvedState result.decision
              receipt := .obj
                (resolvedReceipt value receipt.receiptVersion lease result.decision now)
              updatedAt := now }) store.receipts
          resolutions := store.resolutions ++ [resolution] } := by
  unfold resolve at h
  split at h
  · next previous hprevious =>
    obtain ⟨_, hdigest, h⟩ := bind_eq_ok.mp h
    rw [rejectIf_eq_ok] at hdigest
    cases pure_eq_ok.mp h
    exact Or.inl ⟨rfl, previous, List.mem_of_find?_eq_some hprevious,
      by simpa using List.find?_some hprevious, by simpa using hdigest⟩
  · obtain ⟨job, hjob, h⟩ := bind_eq_ok.mp h
    obtain ⟨request, -, h⟩ := bind_eq_ok.mp h
    obtain ⟨receipt, hreceipt, h⟩ := bind_eq_ok.mp h
    obtain ⟨row, hrow, h⟩ := bind_eq_ok.mp h
    obtain ⟨⟨⟩, hactive, h⟩ := bind_eq_ok.mp h
    obtain ⟨⟨⟩, hfence, h⟩ := bind_eq_ok.mp h
    obtain ⟨⟨⟩, -, h⟩ := bind_eq_ok.mp h
    obtain ⟨executions, hexecutions, h⟩ := bind_eq_ok.mp h
    obtain ⟨value, -, h⟩ := bind_eq_ok.mp h
    obtain ⟨resolutions, hresolutions, h⟩ := bind_eq_ok.mp h
    rw [orReject_eq_ok] at hrow hjob hreceipt
    rw [rejectIf_eq_ok] at hactive hfence
    rw [orReject_eq_ok, insertRow_eq_some] at hexecutions hresolutions
    obtain ⟨hfresh, rfl⟩ := hexecutions
    obtain ⟨-, rfl⟩ := hresolutions
    simp only [Bool.or_eq_false_iff, bne_eq_false_iff_eq, Bool.not_eq_false'] at hfence
    obtain ⟨hrowMem, hleaseId, hrowJob, hrowGeneration⟩ := mem_of_find?_names hrow
    obtain ⟨hjobMem, hjobId⟩ := mem_of_find?_jobId hjob
    cases pure_eq_ok.mp h
    refine Or.inr ⟨row, job, receipt, value, _, ⟨hrowMem, hleaseId, hrowJob, hrowGeneration,
      by simpa using hactive, hjobMem, hjobId, hfence.1.1.1, hfence.1.1.2⟩, hfresh, hreceipt,
      hfence.2, ?_, rfl⟩
    rfl

theorem invalidateCheckpoint_spec {reason : String} {stale : Bool}
    (h : store.invalidateCheckpoint id reason now stale = .ok store') :
    ∃ checkpoint checkpoints, store' = ({ store with
      checkpoints := checkpoints }.expireLeases checkpoint now).endJob checkpoint
        (if stale then .stale else .invalidated) reason now := by
  unfold invalidateCheckpoint at h
  obtain ⟨checkpoint, -, h⟩ := bind_eq_ok.mp h
  obtain ⟨⟨⟩, -, h⟩ := bind_eq_ok.mp h
  exact ⟨checkpoint.jobId, _, (pure_eq_ok.mp h).symm⟩

/-- A turn of `catchUp` does nothing, or it withdraws the objects of the next invalidation and
advances the watermark. -/
theorem catchUp_spec {runId : Id} {later : Stamp} (h : store.catchUp runId now later = .ok store') :
    ∃ watermark, store.watermarks.find? (·.runId == runId) = some watermark ∧
      (store.nextEvent watermark = none ∧ store' = store ∨
        ∃ event done, store.nextEvent watermark = some event ∧
          materialize event now event.intent.affectedObjects store = .ok done ∧
          event.sequence ≤ watermark.recordedSequence ∧
          event.researchRevision ≤ watermark.recordedRevision ∧
          store' = { done with
            watermarks := updateWhere (·.runId == runId)
              (fun row => { row with
                processedSequence := event.sequence
                processedRevision := event.researchRevision
                updatedAt := later }) done.watermarks }) := by
  unfold catchUp at h
  obtain ⟨watermark, hwatermark, h⟩ := bind_eq_ok.mp h
  rw [orReject_eq_ok] at hwatermark
  refine ⟨watermark, hwatermark, ?_⟩
  split at h
  · next hnone => exact Or.inl ⟨hnone, (pure_eq_ok.mp h).symm⟩
  · next event hevent =>
    obtain ⟨done, hdone, h⟩ := bind_eq_ok.mp h
    obtain ⟨⟨⟩, hbounds, h⟩ := bind_eq_ok.mp h
    simp only [rejectIf_eq_ok, Bool.or_eq_false_iff, decide_eq_false_iff_not, not_lt] at hbounds
    exact Or.inr ⟨event, done, hevent, hdone, hbounds.1, hbounds.2, (pure_eq_ok.mp h).symm⟩

end ResearchKernel.Product.Store
