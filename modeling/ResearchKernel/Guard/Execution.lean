import Mathlib.Algebra.Ring.Int.Defs
import ResearchKernel.Guard.Context

/-!
# Decisions about attempts, leases and budgets

An attempt of a route is registered, bound to an execution adapter and leased; the lease
is extended and released. Budget events of controllers are recorded within the limits of
the policy.
-/

namespace ResearchKernel

open Foundation

namespace Guard

variable (context : GuardContext)

/-! ## Attempts and leases -/

/-- Whether a path leads to a place below the work directory. -/
def workPathValid (path : String) : Bool :=
  path != "" && !path.toList.contains '\\' && path.toList.head? != some '/' &&
    !(path.toList.splitOn '/').contains ['.', '.']

def routeOrdinals (routeId : Id) : List ℕ :=
  (context.snapshot.attempts.filter (·.routeId == routeId)).map (·.ordinal)

/-- The number of attempts that the budget policy of a route allows. -/
def attemptLimit (route : Route) : Option ℤ := (route.budgetPolicy.get "attempts").int?

/-- Whether an attempt can still write to its set of files. -/
def AttemptStatus.isLive : AttemptStatus → Bool
  | .queued | .running | .paused => true
  | _ => false

/-- `RegisterAttempt`: the next attempt of an active route, with files of its own. -/
def handleRegisterAttempt (p : RegisterAttempt) : Decision := do
  let route ← orReject
    ((context.snapshot.route? p.routeId).filter fun route =>
      context.snapshot.status == .running && (route.status == .active || route.status == .blocked))
    (refuse .invalidTransition "RUN_STATE" "/command/type"
      [("required", .str "RUNNING_ACTIVE_ROUTE")])
  let ordinals := routeOrdinals context p.routeId
  let withinLimit := (attemptLimit route).any fun limit =>
    decide (0 < limit) && decide ((ordinals.length : ℤ) < limit)
  rejectIf (!withinLimit)
    (refuse .budgetDenied "BUDGET_POLICY" "/command/payload/ordinal"
      [("attempt_limit", route.budgetPolicy.get "attempts")])
  let next := ordinals.foldr max 0 + 1
  rejectIf (p.ordinal != next)
    (refuse .invalidTransition "OBJECT_SCOPE" "/command/payload/ordinal" [("expected", .int next)])
  rejectIf (!workPathValid p.workRelpath || p.allowedWriteSet.isEmpty)
    (refuse .ingestSchemaInvalid "OBJECT_SCOPE" "/command/payload/work_relpath")
  rejectIf
    (context.snapshot.attempts.any fun attempt =>
      AttemptStatus.isLive attempt.status &&
        attempt.allowedWriteSet.any p.allowedWriteSet.contains)
    (refuse .leaseConflict "ACTIVE_LEASE" "/command/payload/allowed_write_set")
  return [.registerAttempt p]

/-- `AcquireLease`: a bound attempt that waits gets a lease and runs. -/
def handleAcquireLease (p : AcquireLease) : Decision := do
  let waiting := context.snapshot.status == .running &&
    (context.snapshot.attempt? p.attemptId).any fun attempt =>
      attempt.status == .queued || attempt.status == .paused
  rejectIf (!waiting) (refuse .invalidTransition "RUN_STATE" "/command/payload/attempt_id")
  rejectIf
    ((context.snapshot.activeLeases context.now).any fun lease => lease.attemptId == p.attemptId)
    (refuse .leaseConflict "ACTIVE_LEASE" "/command/payload/attempt_id")
  rejectIf (context.snapshot.bindingOf? p.attemptId).isNone
    (refuse .capabilityDenied "LEASE_HOLDER" "/command/payload/holder_id")
  return [.expireStaleLeases p.attemptId, .acquireLease p,
    .setAttemptStatus (.attempt p.attemptId) .running]

def heldLease? (leaseId : Id) (holderId : String) : Option Lease :=
  (context.snapshot.lease? leaseId).filter fun lease =>
    lease.status == .active && decide (context.now < lease.expiresAt) &&
      lease.holderId == holderId

/-- `HeartbeatLease`: the holder of an active lease extends it. -/
def handleHeartbeatLease (p : HeartbeatLease) : Decision := do
  rejectIf (heldLease? context p.leaseId p.holderId).isNone
    (refuse .leaseConflict "LEASE_HOLDER" "/command/payload/holder_id")
  return [.extendLease p.leaseId p.extendSeconds]

/-- `ReleaseLease`: the holder of an active lease ends its attempt. -/
def handleReleaseLease (p : ReleaseLease) : Decision := do
  let refusal := refuse .leaseConflict "LEASE_HOLDER" "/command/payload/holder_id"
  let lease ← orReject (heldLease? context p.leaseId p.holderId) refusal
  rejectIf (!(context.snapshot.attempt? lease.attemptId).any (·.status == .running)) refusal
  let requirements :=
    (context.policy.releaseArtifactRequirements.lookup p.terminalAttemptStatus).getD []
  rejectIf (requirements.any fun id => !context.snapshot.artifactCommitted id)
    (refuse .artifactMissing "ARTIFACT_STATE" "/command/payload/terminal_attempt_status")
  return [.releaseLease p.leaseId,
    .setAttemptStatus (.leased p.leaseId) p.terminalAttemptStatus.toStatus]

/-- `BindExecution`: a queued attempt is bound to a configured adapter, once. -/
def handleBindExecution (p : BindExecution) : Decision := do
  let bindable := (context.snapshot.route? p.routeId).isSome &&
    (context.snapshot.attempt? p.attemptId).any fun attempt =>
      attempt.status == .queued && attempt.routeId == p.routeId
  rejectIf (!bindable) (refuse .invalidTransition "OBJECT_SCOPE" "/command/payload/attempt_id")
  rejectIf (context.snapshot.bindingOf? p.attemptId).isSome
    (refuse .invalidTransition "OBJECT_SCOPE" "/command/payload/attempt_id"
      [("reason", .str "already_bound")])
  let versions := (context.policy.adapterProfiles.lookup p.adapterName).getD []
  let configured := (versions.lookup p.adapterVersion).any fun version =>
    version.environmentProfileIds.contains p.environmentProfileId &&
      (!hasCommit p.sourceCommit || p.sourceCommit.any version.sourceCommits.contains)
  rejectIf (!configured)
    (refuse .environmentDrift "MACHINE_REPLAY" "/command/payload/adapter_version")
  rejectIf (!context.snapshot.artifactCommitted p.invocationArtifactId)
    (refuse .artifactMissing "ARTIFACT_STATE" "/command/payload/invocation_artifact_id")
  return [.bindExecution p]
where
  /-- Whether a commit is named. -/
  hasCommit (commit : Option String) : Bool := (commit.getD "") != ""

/-! ## Budgets -/

/-- The amounts of the budget events of some kinds for a resource, in one attempt if given. -/
def budgetSum (kinds : List BudgetEventKind) (resource : ResourceKind)
    (scope : BudgetEvent → Bool) : ℤ :=
  ((context.snapshot.budgetEvents.filter fun event =>
    event.resourceKind == resource && kinds.contains event.eventKind && scope event &&
      !legacyBudgetEvent event).map fun event => ((event.amountMicrounits.getD 0 : ℕ) : ℤ)).sum

/-- The counters of a usage report, which are natural numbers where they are given. -/
def usageCounters : List String :=
  ["input_tokens", "output_tokens", "reasoning_tokens", "cache_read_tokens", "cache_write_tokens",
    "total_tokens", "wall_time_ms"]

/-- Whether a counter of a usage report is absent or a natural number. -/
def counterValid (value : Json) : Bool :=
  value.isNull || value.int?.any fun n => decide (0 ≤ n)

/-- Check the usage report of a budget event. -/
def checkUsage (usage : JsonObject) : Checked Unit := do
  let path := "/command/payload/provider_usage/"
  rejectIf (!(usage.get "component").text?.any fun text => !isBlank text)
    (refuse .ingestSchemaInvalid "BUDGET_POLICY" (path ++ "component"))
  let reserved := (usage.find? fun entry => "_rk_".isPrefixOf entry.1).map Prod.fst
  rejectIf reserved.isSome
    (refuse .ingestSchemaInvalid "BUDGET_POLICY" (path ++ reserved.getD "")
      [("reason", .str "reserved_host_namespace")])
  checkAll (fun name => rejectIf (!counterValid (usage.get name))
    (refuse .ingestSchemaInvalid "BUDGET_POLICY" (path ++ name))) usageCounters

/-- Check the amount of a budget event against reservations and limits. -/
def checkAmount (p : RecordBudget) : Checked Unit := do
  let path := "/command/payload/amount_microunits"
  let amount ← orReject p.amountMicrounits (refuse .budgetDenied "BUDGET_POLICY" path)
  if p.eventKind == .refund then
    let ofAttempt (event : BudgetEvent) : Bool := event.attemptId == p.attemptId
    let available := budgetSum context [.reservation] p.resourceKind ofAttempt -
      budgetSum context [.refund] p.resourceKind ofAttempt
    rejectIf (decide (available < amount))
      (refuse .budgetDenied "BUDGET_POLICY" path [("available", .int available)])
  else if p.eventKind == .reservation then
    let limits := context.policy.globalBudgetLimits.getD []
    let limit ← orReject ((limits.lookup p.resourceKind.wire).filter fun n => decide (0 < n))
      (refuse .budgetDenied "BUDGET_POLICY" "/command/payload/resource_kind"
        [("reason", .str "hard_limit_missing")])
    let consumed := budgetSum context [.actual, .reservation] p.resourceKind (fun _ => true) -
      budgetSum context [.refund] p.resourceKind (fun _ => true)
    rejectIf (decide (limit < consumed + amount))
      (refuse .budgetDenied "BUDGET_POLICY" path
        [("consumed", .int consumed), ("limit", .int limit)])

/-- `RecordBudget`: a controller reserves, refunds, denies or trips the fuse. What was
really used is recorded by the host alone. -/
def handleRecordBudget (p : RecordBudget) : Decision := do
  let scope (field : String) := refuse .evidenceScopeMismatch "OBJECT_SCOPE"
    ("/command/payload/" ++ field)
  rejectIf (p.routeId.any fun id => (context.snapshot.route? id).isNone) (scope "route_id")
  let attemptValid := p.attemptId.all fun id =>
    (context.snapshot.attempt? id).any fun attempt => p.routeId.all (attempt.routeId == ·)
  rejectIf (!attemptValid) (scope "attempt_id")
  rejectIf (p.eventKind == .fuseTrip && p.routeId.isNone)
    (refuse .evidenceScopeMismatch "OBJECT_SCOPE" "/command/payload/route_id"
      [("required", .str "ROUTE")])
  rejectIf (!context.policy.budgetControllerCapabilityIds.contains context.capability.capabilityId)
    (roleRefusal "BUDGET_CONTROLLER")
  checkUsage p.providerUsage
  rejectIf (p.eventKind == .actual || p.eventKind == .unknownCost)
    (refuse .evidenceInsufficient "BUDGET_POLICY" "/command/payload/provider_usage"
      [("required", .str "HOST_EXECUTION_RECEIPT")])
  checkAmount context p
  return .appendBudgetEvent p ::
    if p.eventKind == .fuseTrip then [.blockRoute p.routeId, .setRunStatus .paused none] else []

end Guard

end ResearchKernel
