import Mathlib.Data.List.Dedup
import ResearchKernel.Canonical
import ResearchKernel.Foundation.Dict
import ResearchKernel.Product.Jobs

/-!
# Placement and scheduling of work

Work is placed on injected targets that preserve every requested quality field. A schedule
plan is a numbered queue of placed work. Its items are started within the capacity of their
concurrency group, finish in any order and are promoted one at a time in the order of their
numbers. Every function of the store is one transaction that may raise.
-/

namespace ResearchKernel.Product.Placement

open Foundation

/-! ## Targets and requirements -/

/-- Kind of an executor. -/
inductive ExecutorKind where
  | cpu | nvidia | rocm | api
deriving DecidableEq

/-- Text of an executor kind. -/
def ExecutorKind.wire : ExecutorKind → String
  | .cpu => "CPU"
  | .nvidia => "NVIDIA"
  | .rocm => "ROCM"
  | .api => "API"

/-- Whether a target answered its probe. -/
inductive TargetAvailability where
  | available | unavailable | unconfigured
deriving DecidableEq

/-- Text of an availability. -/
def TargetAvailability.wire : TargetAvailability → String
  | .available => "AVAILABLE"
  | .unavailable => "UNAVAILABLE"
  | .unconfigured => "UNCONFIGURED"

/-- An optional text that says something. -/
def given (text : Option String) : Bool := text.any (· != "")

/-- A target that can execute work. -/
structure ExecutionTarget where
  targetId : Id
  kind : ExecutorKind
  concurrencyGroup : String
  capacity : ℕ
  memoryBytes : ℕ
  provider : Option String := none
  availability : TargetAvailability := .unconfigured
  probeReceiptId : Option Id := none
  availabilityFault : Option String := some "NOT_CONFIGURED"
  assets : List String := []
  named : targetId ≠ "" ∧ concurrencyGroup ≠ ""
  capacity_pos : 0 < capacity
  provided : kind = .api → given provider = true
  probed : if availability = .available then
    given probeReceiptId = true ∧ availabilityFault = none else given availabilityFault = true

def ExecutionTarget.toDict (target : ExecutionTarget) : Json :=
  .obj [("target_id", .str target.targetId), ("kind", .str target.kind.wire),
    ("concurrency_group", .str target.concurrencyGroup), ("capacity", .int target.capacity),
    ("memory_bytes", .int target.memoryBytes), ("provider", Json.ofText? target.provider),
    ("assets", Json.ofTexts (target.assets.insertionSort (· ≤ ·))),
    ("availability", .str target.availability.wire),
    ("probe_receipt_id", Json.ofText? target.probeReceiptId),
    ("availability_fault", Json.ofText? target.availabilityFault)]

/-- The targets of a machine. -/
structure HardwareProfile where
  profileId : Id
  osFamily : String
  systemMemoryBytes : ℕ
  targets : List ExecutionTarget
  named : profileId ≠ "" ∧ osFamily ≠ ""
  memory_pos : 0 < systemMemoryBytes
  targets_ne : targets ≠ []
  unique : (targets.map (·.targetId)).Nodup

def HardwareProfile.toDict (hardware : HardwareProfile) : Json :=
  .obj [("profile_id", .str hardware.profileId), ("os_family", .str hardware.osFamily),
    ("system_memory_bytes", .int hardware.systemMemoryBytes),
    ("targets", .arr (hardware.targets.map (·.toDict)))]

/-- What a piece of work asks for. -/
structure WorkRequirement where
  workItemId : Id
  component : String
  allowedKinds : List ExecutorKind
  memoryBytes : ℕ
  requiredAsset : Option String
  requiredProvider : Option String
  retrievalTopK : ℕ
  rerankRequired : Bool
  verifierRequired : Bool
  named : workItemId ≠ "" ∧ component ≠ ""
  kinds_ne : allowedKinds ≠ []
  topK_pos : 0 < retrievalTopK

def WorkRequirement.toDict (requirement : WorkRequirement) : Json :=
  .obj [("work_item_id", .str requirement.workItemId),
    ("component", .str requirement.component),
    ("allowed_kinds", Json.ofTexts (requirement.allowedKinds.map (·.wire))),
    ("memory_bytes", .int requirement.memoryBytes),
    ("required_asset", Json.ofText? requirement.requiredAsset),
    ("required_provider", Json.ofText? requirement.requiredProvider),
    ("retrieval_top_k", .int requirement.retrievalTopK),
    ("rerank_required", .bool requirement.rerankRequired),
    ("verifier_required", .bool requirement.verifierRequired)]

/-- Where a piece of work is executed. -/
structure PlacementDecision where
  workItemId : Id
  targetId : Id
  kind : ExecutorKind
  concurrencyGroup : String
  groupCapacity : ℕ
  retrievalTopK : ℕ
  rerankRequired : Bool
  verifierRequired : Bool
  fallbackReason : Option String := none

def PlacementDecision.toDict (placement : PlacementDecision) : Json :=
  .obj [("work_item_id", .str placement.workItemId), ("target_id", .str placement.targetId),
    ("kind", .str placement.kind.wire),
    ("concurrency_group", .str placement.concurrencyGroup),
    ("group_capacity", .int placement.groupCapacity),
    ("retrieval_top_k", .int placement.retrievalTopK),
    ("rerank_required", .bool placement.rerankRequired),
    ("verifier_required", .bool placement.verifierRequired),
    ("fallback_reason", Json.ofText? placement.fallbackReason)]

/-- What the functions of the planner and of the store raise. -/
inductive SchedulingError where
  /-- `PlacementError`. -/
  | placement (message : String)
  /-- `ValueError`. -/
  | value (message : String)
  /-- `KeyError`. -/
  | key (id : Id)
  /-- `sqlite3.IntegrityError`. -/
  | integrity

/-- Whether a target satisfies a requirement that allows executors of the kind. -/
def ExecutionTarget.satisfies (target : ExecutionTarget) (kind : ExecutorKind)
    (requirement : WorkRequirement) : Bool :=
  target.availability == .available &&
    !(target.kind != kind || target.memoryBytes < requirement.memoryBytes) &&
    !(given requirement.requiredAsset &&
      !requirement.requiredAsset.any (target.assets.contains ·)) &&
    !(given requirement.requiredProvider && target.provider != requirement.requiredProvider) &&
    !(requirement.rerankRequired && !target.assets.contains "reranker") &&
    !(requirement.verifierRequired && !target.assets.contains "verifier")

/-- Place a requirement on the first target of the first allowed kind that satisfies it. -/
def place (hardware : HardwareProfile) (requirement : WorkRequirement) :
    Except SchedulingError PlacementDecision := do
  let candidates := requirement.allowedKinds.flatMap fun kind =>
    hardware.targets.filter (·.satisfies kind requirement)
  let target ← orReject candidates.head? (.placement
    ("no injected target satisfies exact requirement for " ++ requirement.workItemId))
  return { workItemId := requirement.workItemId
           targetId := target.targetId
           kind := target.kind
           concurrencyGroup := target.concurrencyGroup
           groupCapacity := target.capacity
           retrievalTopK := requirement.retrievalTopK
           rerankRequired := requirement.rerankRequired
           verifierRequired := requirement.verifierRequired }

/-! ## Receipts -/

/-- How the execution of a piece of work has ended. -/
inductive ExecutionOutcome where
  | succeeded | failed
deriving DecidableEq

/-- What an executor reports. -/
structure PlacementExecutionReceipt where
  workItemId : Id
  targetId : Id
  outcome : ExecutionOutcome
  startedAt : Stamp
  finishedAt : Stamp
  startedMonotonicNs : ℕ
  finishedMonotonicNs : ℕ
  exitCode : Option ℤ
  failureCode : Option String
  receiptArtifactId : Id
  named : workItemId ≠ "" ∧ targetId ≠ "" ∧ startedAt ≠ "" ∧ finishedAt ≠ "" ∧
    receiptArtifactId ≠ ""
  interval : startedMonotonicNs ≤ finishedMonotonicNs
  reported : if outcome = .succeeded then exitCode = some 0 ∧ failureCode = none
    else given failureCode = true

/-- Whether work is admitted under the budget, and why not. -/
structure BackpressureDecision where
  allowed : Bool
  reason : Option String

/-! ## Tables -/

/-- State of a schedule plan. -/
inductive PlanState where
  | ready | running | budgetPaused | completed
deriving DecidableEq

/-- State of a piece of scheduled work. -/
inductive WorkState where
  | queued | running | budgetPaused | succeeded | failed
deriving DecidableEq

/-- State of the promotion of a piece of scheduled work. -/
inductive PromotionState where
  | waiting | claimed | promoted | notEligible
deriving DecidableEq

/-- The quality that an item of a plan was promised. -/
structure QualityItem where
  workItemId : Id
  retrievalTopK : ℕ
  rerankRequired : Bool
  verifierRequired : Bool

/-- A row of `product_schedule_plans`. -/
structure SchedulePlanRow where
  schedulePlanId : Id
  runId : Id
  hardwareProfile : HardwareProfile
  qualityContract : List QualityItem
  planDigest : Digest
  state : PlanState := .ready
  pauseReason : Option String := none
  createdAt : Stamp
  updatedAt : Stamp

/-- Unique columns of `product_schedule_plans`. -/
def SchedulePlanRow.clash (a b : SchedulePlanRow) : Bool :=
  a.schedulePlanId == b.schedulePlanId || a.runId == b.runId && a.planDigest == b.planDigest

/-- A row of `product_scheduled_work`. -/
structure ScheduledWorkRow where
  workItemId : Id
  schedulePlanId : Id
  stableOrdinal : ℕ
  requirement : WorkRequirement
  placement : PlacementDecision
  concurrencyGroup : String
  groupCapacity : ℕ
  state : WorkState := .queued
  promotionState : PromotionState := .waiting
  executionReceipt : Option PlacementExecutionReceipt := none
  startedAt : Option Stamp := none
  finishedAt : Option Stamp := none
  executionStartedMonotonicNs : Option ℕ := none
  executionFinishedMonotonicNs : Option ℕ := none
  failureCode : Option String := none
  promotionClaimedAt : Option Stamp := none
  promotedAt : Option Stamp := none

/-- Unique columns of `product_scheduled_work`. -/
def ScheduledWorkRow.clash (a b : ScheduledWorkRow) : Bool :=
  a.workItemId == b.workItemId ||
    a.schedulePlanId == b.schedulePlanId && a.stableOrdinal == b.stableOrdinal

/-- The tables of the scheduling store. -/
structure SchedulingStore where
  plans : List SchedulePlanRow := []
  work : List ScheduledWorkRow := []

/-! ## Plans -/

/-- The digest of what a plan consists of. -/
def planDigest (P : Platform) (runId : Id) (hardware : HardwareProfile)
    (requirements : List WorkRequirement) (placements : List PlacementDecision) :
    Except SchedulingError Digest := do
  let text ← orReject (Wire.canonicalJsonBytes P (.obj [("run_id", .str runId),
    ("hardware", hardware.toDict), ("requirements", .arr (requirements.map (·.toDict))),
    ("placements", .arr (placements.map (·.toDict)))]))
    (.value "object keys collide after normalization")
  return P.sha256 text

/-- The row of the item with the given position in its plan. -/
def workRow (schedulePlanId : Id) (item : (WorkRequirement × PlacementDecision) × ℕ) :
    ScheduledWorkRow :=
  { workItemId := item.1.1.workItemId
    schedulePlanId := schedulePlanId
    stableOrdinal := item.2 + 1
    requirement := item.1.1
    placement := item.1.2
    concurrencyGroup := item.1.2.concurrencyGroup
    groupCapacity := item.1.2.groupCapacity }

/-- The rows of the items of a new plan, numbered from one. -/
def workRows (schedulePlanId : Id) (requirements : List WorkRequirement)
    (placements : List PlacementDecision) : List ScheduledWorkRow :=
  (requirements.zip placements).zipIdx.map (workRow schedulePlanId)

/-- Create a plan, or find it as it was created. The planner has a profile of its own. -/
def createPlan (P : Platform) (schedulePlanId runId : Id) (hardware : HardwareProfile)
    (requirements : List WorkRequirement) (planner : HardwareProfile) (createdAt : Stamp)
    (store : SchedulingStore) : Except SchedulingError (SchedulingStore × Digest) := do
  rejectIf requirements.isEmpty (.value "schedule plan requires work")
  let placements ← requirements.mapM (place planner)
  let digest ← planDigest P runId hardware requirements placements
  match store.plans.find? (·.schedulePlanId == schedulePlanId) with
  | some existing =>
    rejectIf ((existing.runId, existing.planDigest) != (runId, digest))
      (.placement "schedule plan identity was reused")
    return (store, digest)
  | none =>
    let plans ← orReject (insertRow SchedulePlanRow.clash
      { schedulePlanId := schedulePlanId
        runId := runId
        hardwareProfile := hardware
        qualityContract := requirements.map fun item =>
          ⟨item.workItemId, item.retrievalTopK, item.rerankRequired, item.verifierRequired⟩
        planDigest := digest
        createdAt := createdAt
        updatedAt := createdAt } store.plans) .integrity
    let work ← orReject (insertRows ScheduledWorkRow.clash
      (workRows schedulePlanId requirements placements) store.work) .integrity
    return ({ plans := plans, work := work }, digest)

def start (schedulePlanId : Id) (now : Stamp) (store : SchedulingStore) :
    Except SchedulingError SchedulingStore := do
  let ready : SchedulePlanRow → Bool := fun plan =>
    plan.schedulePlanId == schedulePlanId && plan.state == .ready
  rejectIf (store.plans.countP ready != 1) (.placement "only a ready schedule can start")
  return { store with
    plans := updateWhere ready (fun plan => { plan with state := .running, updatedAt := now })
      store.plans }

/-! ## Backpressure -/

/-- Bring the work of a plan from one state into another. -/
def moveWork (schedulePlanId : Id) (before after : WorkState) (work : List ScheduledWorkRow) :
    List ScheduledWorkRow :=
  updateWhere (fun row => row.schedulePlanId == schedulePlanId && row.state == before)
    (fun row => { row with state := after }) work

/-- Bring a plan into a state. -/
def setPlan (schedulePlanId : Id) (state : PlanState) (reason : Option String) (now : Stamp)
    (plans : List SchedulePlanRow) : List SchedulePlanRow :=
  updateWhere (·.schedulePlanId == schedulePlanId)
    (fun plan => { plan with state := state, pauseReason := reason, updatedAt := now }) plans

/-- Pause a running plan or resume a paused one, together with its queue. -/
def applyBackpressure (schedulePlanId : Id) (decision : BackpressureDecision) (now : Stamp)
    (store : SchedulingStore) : Except SchedulingError SchedulingStore := do
  let plan ← orReject (store.plans.find? (·.schedulePlanId == schedulePlanId))
    (.key schedulePlanId)
  if decision.allowed then
    if plan.state = .budgetPaused then
      return { plans := setPlan schedulePlanId .running none now store.plans
               work := moveWork schedulePlanId .budgetPaused .queued store.work }
    else
      return store
  else if plan.state = .running then
    return { plans := setPlan schedulePlanId .budgetPaused decision.reason now store.plans
             work := moveWork schedulePlanId .queued .budgetPaused store.work }
  else
    return store

/-! ## Executions -/

/-- How many items of a plan are running, by concurrency group. -/
def runningCounts (schedulePlanId : Id) (work : List ScheduledWorkRow) : List (String × ℕ) :=
  let groups := (work.filter fun row =>
    row.schedulePlanId == schedulePlanId && row.state == .running).map (·.concurrencyGroup)
  groups.dedup.map fun group => (group, groups.count group)

/-- The queue of a plan, in the order of its numbers. -/
def queuedWork (schedulePlanId : Id) (work : List ScheduledWorkRow) : List ScheduledWorkRow :=
  (work.filter fun row =>
    row.schedulePlanId == schedulePlanId && row.state == .queued).insertionSort
      fun a b => a.stableOrdinal ≤ b.stableOrdinal

/-- What the loop over the queue carries along. -/
structure ClaimPass where
  work : List ScheduledWorkRow
  running : List (String × ℕ)
  claimed : List Id

/-- How many items of a group are running, as far as the loop has counted. -/
def ClaimPass.count (pass : ClaimPass) (group : String) : ℕ := (pass.running.lookup group).getD 0

/-- Start the item of a row of the queue unless its group is full. -/
def claimRow (startedAt : Stamp) (pass : ClaimPass) (row : ScheduledWorkRow) : ClaimPass :=
  if row.groupCapacity ≤ pass.count row.concurrencyGroup then
    pass
  else
    { work := updateWhere (fun other => other.workItemId == row.workItemId && other.state == .queued)
        (fun other => { other with state := .running, startedAt := some startedAt }) pass.work
      running := setKey row.concurrencyGroup (pass.count row.concurrencyGroup + 1) pass.running
      claimed := pass.claimed ++ [row.workItemId] }

/-- Start what the capacities of the groups admit of the queue of a running plan. -/
def claimReady (schedulePlanId : Id) (startedAt : Stamp) (store : SchedulingStore) :
    Except SchedulingError (SchedulingStore × List Id) := do
  let plan ← orReject (store.plans.find? (·.schedulePlanId == schedulePlanId))
    (.key schedulePlanId)
  if plan.state = .running then
    let pass := (queuedWork schedulePlanId store.work).foldl (claimRow startedAt)
      { work := store.work, running := runningCounts schedulePlanId store.work, claimed := [] }
    return ({ store with work := pass.work }, pass.claimed)
  else
    return (store, [])

/-- The state of work whose execution had the outcome. -/
def ExecutionOutcome.workState : ExecutionOutcome → WorkState
  | .succeeded => .succeeded
  | .failed => .failed

/-- Whether work whose execution had the outcome can be promoted. -/
def ExecutionOutcome.promotionState : ExecutionOutcome → PromotionState
  | .succeeded => .waiting
  | .failed => .notEligible

/-- An item with the receipt of its execution. -/
def ScheduledWorkRow.finished (receipt : PlacementExecutionReceipt) (row : ScheduledWorkRow) :
    ScheduledWorkRow :=
  { row with
    state := receipt.outcome.workState
    finishedAt := some receipt.finishedAt
    failureCode := receipt.failureCode
    promotionState := receipt.outcome.promotionState
    executionReceipt := some receipt
    executionStartedMonotonicNs := some receipt.startedMonotonicNs
    executionFinishedMonotonicNs := some receipt.finishedMonotonicNs }

/-- Finish a running item on the target on which it was placed. -/
def finish (receipt : PlacementExecutionReceipt) (store : SchedulingStore) :
    Except SchedulingError SchedulingStore := do
  let executed : ScheduledWorkRow → Bool := fun row =>
    row.workItemId == receipt.workItemId && row.state == .running
  let row ← orReject (store.work.find? executed) (.placement "only running work can finish")
  rejectIf (row.placement.targetId != receipt.targetId)
    (.placement "execution receipt target does not match placement")
  rejectIf (store.work.countP executed != 1) (.placement "only running work can finish")
  return { store with work := updateWhere executed (·.finished receipt) store.work }

/-! ## Promotions -/

/-- The items of a plan whose promotion is open, in the order of their numbers. -/
def openPromotions (schedulePlanId : Id) (work : List ScheduledWorkRow) : List ScheduledWorkRow :=
  (work.filter fun row => row.schedulePlanId == schedulePlanId &&
    (row.promotionState == .waiting || row.promotionState == .claimed)).insertionSort
      fun a b => a.stableOrdinal ≤ b.stableOrdinal

/-- Claim the first open promotion of a plan when its item has succeeded. -/
def claimNextPromotion (schedulePlanId : Id) (claimedAt : Stamp) (store : SchedulingStore) :
    SchedulingStore × Option Id :=
  match (openPromotions schedulePlanId store.work).head? with
  | none => (store, none)
  | some row =>
    if (row.state, row.promotionState) ≠ (.succeeded, .waiting) then
      (store, none)
    else
      ({ store with
          work := updateWhere (·.workItemId == row.workItemId)
            (fun other => { other with
              promotionState := .claimed, promotionClaimedAt := some claimedAt }) store.work },
        some row.workItemId)

def markPromoted (workItemId : Id) (promotedAt : Stamp) (store : SchedulingStore) :
    Except SchedulingError SchedulingStore := do
  let claimed : ScheduledWorkRow → Bool := fun row =>
    row.workItemId == workItemId && row.promotionState == .claimed
  rejectIf (store.work.countP claimed != 1) (.placement "promotion must be claimed serially")
  return { store with
    work := updateWhere claimed
      (fun row => { row with promotionState := .promoted, promotedAt := some promotedAt })
      store.work }

/-! ## Runs -/

/-- A call of the store, by whomever. -/
inductive SchedulingCall where
  | createPlan (schedulePlanId runId : Id) (hardware : HardwareProfile)
      (requirements : List WorkRequirement) (planner : HardwareProfile) (createdAt : Stamp)
  | start (schedulePlanId : Id) (now : Stamp)
  | applyBackpressure (schedulePlanId : Id) (decision : BackpressureDecision) (now : Stamp)
  | claimReady (schedulePlanId : Id) (startedAt : Stamp)
  | finish (receipt : PlacementExecutionReceipt)
  | claimNextPromotion (schedulePlanId : Id) (claimedAt : Stamp)
  | markPromoted (workItemId : Id) (promotedAt : Stamp)

/-- What a call makes of the store. -/
def SchedulingCall.perform (P : Platform) (store : SchedulingStore) :
    SchedulingCall → Except SchedulingError SchedulingStore
  | .createPlan schedulePlanId runId hardware requirements planner createdAt =>
    Prod.fst <$> Placement.createPlan P schedulePlanId runId hardware requirements planner
      createdAt store
  | .start schedulePlanId now => Placement.start schedulePlanId now store
  | .applyBackpressure schedulePlanId decision now =>
    Placement.applyBackpressure schedulePlanId decision now store
  | .claimReady schedulePlanId startedAt =>
    Prod.fst <$> Placement.claimReady schedulePlanId startedAt store
  | .finish receipt => Placement.finish receipt store
  | .claimNextPromotion schedulePlanId claimedAt =>
    .ok (Placement.claimNextPromotion schedulePlanId claimedAt store).1
  | .markPromoted workItemId promotedAt => Placement.markPromoted workItemId promotedAt store

/-- A call that raises leaves the store as it was. -/
def step (P : Platform) (store : SchedulingStore) (call : SchedulingCall) : SchedulingStore :=
  match call.perform P store with
  | .ok store' => store'
  | .error _ => store

/-- The store after calls on an empty one. -/
def reached (P : Platform) (calls : List SchedulingCall) : SchedulingStore :=
  calls.foldl (step P) {}

end ResearchKernel.Product.Placement
