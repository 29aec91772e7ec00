import ResearchKernel.Product.ActivityStream
import ResearchKernel.Product.ConfirmRevoke
import ResearchKernel.Product.RoutePlans
import ResearchKernel.Product.Uploads

/-!
# Guidance

A user guides the routes of a run. The command `SUBMIT_GUIDANCE` publishes what the user says
and hands it to the store of guidance once for each route; the store checks the declaration,
the fence of the run and the target, and queues an item with an activity in one transaction.
The command declares its items to be of a kind of its own, which is none of those that the
store knows. So the store refuses every declaration of the command, whatever it is about.
-/

namespace ResearchKernel.Product.Guiding

open Foundation

variable {F : Type}

/-! ## The store -/

/-- State of an item. -/
inductive GuidanceState where
  | queued | applied | rejected | superseded | cancelled
deriving DecidableEq

/-- Text of a state. -/
def GuidanceState.wire : GuidanceState → String
  | .queued => "QUEUED"
  | .applied => "APPLIED"
  | .rejected => "REJECTED"
  | .superseded => "SUPERSEDED"
  | .cancelled => "CANCELLED"

/-- What an item is declared to be. -/
structure Declaration where
  runId : Id
  researchRevision : ℤ
  contractVersion : ℤ
  checkpointId : Id
  targetKind : String
  targetId : Id
  routeId : Id
  kind : String
  contentArtifactId : Id
  submittedBy : Id
  supersedesGuidanceId : Option Id
deriving DecidableEq

/-- A row of `product_guidance`. -/
structure Guidance extends Declaration where
  guidanceId : Id
  state : GuidanceState := .queued
  resolutionCode : Option String := none
  appliedWorkItemId : Option Id := none
  createdAt : Stamp
  resolvedAt : Option Stamp := none

/-- A row of `product_work_items`, as far as guidance reads it. -/
structure WorkItem where
  workItemId : Id
  runId : Id
  routeId : Option Id

/-- The tables of the store with those that it reads: the fences of the runs, the runs of the
checkpoints of workers, and the runs of the planned routes. -/
structure GuidanceStore (F : Type) where
  fences : List (Id × Routes.RunFence) := []
  checkpoints : List (Id × Id) := []
  routes : List (Id × Id) := []
  workItems : List WorkItem := []
  guidance : List Guidance := []
  activities : Delivery.ActivityLedger F := {}

/-- What the store raises. -/
inductive GuidanceError where
  /-- `GuidanceError`. -/
  | guidance (message : String)
  /-- `GuidanceConflict`. -/
  | conflict (message : String)
  /-- `GuidanceFenceMismatch`. -/
  | fenceMismatch (message : String)
  /-- `ValueError`. -/
  | value (message : String)
  /-- `KeyError`. -/
  | key (id : Id)
  /-- `sqlite3.IntegrityError`. -/
  | integrity
  /-- What the store of activities raises. -/
  | activity (error : Delivery.ActivityError)

/-- The kinds of guidance that the store knows. -/
def guidanceKinds : List String := ["CHANGE_REPRESENTATION", "PRIORITIZE_LEMMA", "STOP_ROUTE_REQUEST"]

/-- The kinds of targets that the store knows. -/
def targetKinds : List String := ["ROUTE", "WORK_ITEM"]

def Declaration.texts (d : Declaration) : List String :=
  [d.runId, d.checkpointId, d.targetKind, d.targetId, d.routeId, d.kind, d.contentArtifactId,
    d.submittedBy] ++ d.supersedesGuidanceId.toList

/-- A declaration is complete and of kinds that the store knows. The checks of the columns of
the table say no more. -/
def validateDeclaration (guidanceId : Id) (d : Declaration) : Except GuidanceError Unit := do
  rejectIf (guidanceId == "" || d.texts.contains "")
    (.value "guidance identities and bindings must be non-empty")
  rejectIf (decide (d.researchRevision < 0)) (.value "research revision is invalid")
  rejectIf (decide (d.contractVersion ≤ 0)) (.value "contract version is invalid")
  rejectIf (!targetKinds.contains d.targetKind) (.value "unknown guidance target kind")
  rejectIf (!guidanceKinds.contains d.kind) (.value "unknown guidance kind")

namespace GuidanceStore

/-- The declaration is about the current revision and contract of its run. -/
def assertFence (s : GuidanceStore F) (d : Declaration) : Except GuidanceError Unit := do
  let actual ← orReject (s.fences.lookup d.runId) (.key d.runId)
  rejectIf (actual != ⟨d.researchRevision, d.contractVersion⟩)
    (.fenceMismatch ("guidance fence is revision " ++ toString d.researchRevision ++
      ", contract " ++ toString d.contractVersion ++ "; current fence is revision " ++
      toString actual.researchRevision ++ ", contract " ++ toString actual.contractVersion))

/-- The declaration is about a checkpoint and a route of its run, and its target belongs to
that route. -/
def assertTarget (s : GuidanceStore F) (d : Declaration) : Except GuidanceError Unit := do
  rejectIf (s.checkpoints.lookup d.checkpointId != some d.runId)
    (.guidance "checkpoint is outside the research run")
  rejectIf (s.routes.lookup d.routeId != some d.runId)
    (.guidance "route is outside the research run")
  if d.targetKind == "ROUTE" then
    rejectIf (d.targetId != d.routeId) (.guidance "route target must equal the bound route")
  else
    rejectIf (!(s.workItems.find? (·.workItemId == d.targetId)).any fun item =>
        item.runId == d.runId && item.routeId == some d.routeId)
      (.guidance "work-item target is outside the route binding")

/-- The activity about an item. -/
def activityOf (row : Guidance) (eventId : Id) (eventType : String) (state : GuidanceState)
    (now : Stamp) (extraRef : List (String × Id)) : Delivery.ProductActivity F where
  eventId := eventId
  scopeKind := "RUN"
  source := "HUMAN_GUIDANCE"
  recordedAt := now
  payload := [("type", .str eventType), ("kind", .str row.kind), ("state", .str state.wire)]
  runId := some row.runId
  researchRevision := some row.researchRevision
  entityRefs := [("guidance_id", .str row.guidanceId), ("checkpoint_id", .str row.checkpointId),
    ("target_id", .str row.targetId), ("route_id", .str row.routeId)] ++
      extraRef.map fun entry => (entry.1, .str entry.2)

/-- Append an activity in the transaction of the store. -/
def appendActivity (ops : FloatJson.FloatOps F) (s : GuidanceStore F)
    (activity : Delivery.ProductActivity F) : Except GuidanceError (GuidanceStore F) :=
  match Delivery.append ops s.activities activity with
  | .error error => .error (.activity error)
  | .ok (_, activities) => .ok { s with activities := activities }

/-- A queued item is resolved. -/
def resolve (s : GuidanceStore F) (guidanceId : Id) (state : GuidanceState)
    (resolutionCode : String) (now : Stamp) : Except GuidanceError (GuidanceStore F) := do
  rejectIf (!s.guidance.any fun row => row.guidanceId == guidanceId && row.state == .queued)
    (.guidance "guidance is no longer queued")
  return { s with
    guidance := updateWhere (fun row => row.guidanceId == guidanceId && row.state == .queued)
      (fun row => { row with
        state := state, resolutionCode := some resolutionCode, resolvedAt := some now })
      s.guidance }

/-- The item that a new one replaces is superseded: it waits in the same binding and comes from
the same author. -/
def supersede (ops : FloatJson.FloatOps F) (s : GuidanceStore F) (guidanceId : Id)
    (d : Declaration) (previousId : Id) (now : Stamp) (eventId : Id) :
    Except GuidanceError (GuidanceStore F) := do
  let previous ← orReject (s.guidance.find? (·.guidanceId == previousId)) (.key previousId)
  rejectIf (previous.runId != d.runId || previous.submittedBy != d.submittedBy ||
      previous.state != .queued || previous.checkpointId != d.checkpointId ||
      previous.targetKind != d.targetKind || previous.targetId != d.targetId)
    (.guidance "superseded guidance must be queued in the same author and target binding")
  let resolved ← s.resolve previousId .superseded "REPLACED_BY_NEW_GUIDANCE" now
  resolved.appendActivity ops (activityOf previous eventId "GUIDANCE_SUPERSEDED" .superseded now
    [("replacement_guidance_id", guidanceId)])

/-- The moments and the event identifiers of a submission. -/
structure Tick where
  now : Stamp
  supersededEventId : Id
  queuedEventId : Id

/-- Queue an item. A repeated submission gives the item that is there. -/
def submit (ops : FloatJson.FloatOps F) (s : GuidanceStore F) (guidanceId : Id) (d : Declaration)
    (tick : Tick) : Except GuidanceError (GuidanceStore F × Guidance) := do
  validateDeclaration guidanceId d
  match s.guidance.find? (·.guidanceId == guidanceId) with
  | some existing => do
    rejectIf (existing.toDeclaration != d)
      (.conflict "guidance identity was reused with different content")
    return (s, existing)
  | none => do
    s.assertFence d
    s.assertTarget d
    let freed ← match d.supersedesGuidanceId with
      | none => .ok s
      | some previousId => s.supersede ops guidanceId d previousId tick.now tick.supersededEventId
    rejectIf (d.supersedesGuidanceId.isSome &&
      freed.guidance.any (·.supersedesGuidanceId == d.supersedesGuidanceId)) .integrity
    let row : Guidance := { d with guidanceId := guidanceId, createdAt := tick.now }
    let inserted : GuidanceStore F := { freed with guidance := freed.guidance ++ [row] }
    let recorded ← inserted.appendActivity ops
      (activityOf row tick.queuedEventId "GUIDANCE_QUEUED" .queued tick.now [])
    return (recorded, row)

end GuidanceStore

/-! ## The command -/

/-- What the command takes from its services: the publisher of artifacts, and what the generator
of identifiers and the store give at each route. -/
structure GuidanceServices (F : Type) where
  ops : FloatJson.FloatOps F
  publish : List Char → String → String → Except CommandError Uploads.ArtifactRef
  guidanceIds : ℕ → Id
  ticks : ℕ → GuidanceStore.Tick

/-- A command `SUBMIT_GUIDANCE` with the fence that it has met. -/
structure GuidanceCall where
  requestId : Id
  runId : Id
  payload : JsonObject
  fence : CommandFence
  principalSubjectId : Id

/-- What the handler raises. -/
inductive SubmitError where
  /-- What the handler itself raises. -/
  | command (error : CommandError)
  /-- What the store raises. -/
  | store (error : GuidanceError)

/-- The decision of the handler with the items that it names. -/
structure GuidanceDecision extends ProductDecision where
  affectedEntityIds : List Id

/-- The kind of guidance that the command declares. -/
def userGuidance : String := "USER_GUIDANCE"

/-- What the command declares for a route. -/
def GuidanceCall.declaration (call : GuidanceCall) (content : Uploads.ArtifactRef) (checkpointId routeId : Id) :
    Declaration where
  runId := call.runId
  researchRevision := call.fence.revision
  contractVersion := call.fence.contractVersion
  checkpointId := checkpointId
  targetKind := "ROUTE"
  targetId := routeId
  routeId := routeId
  kind := userGuidance
  contentArtifactId := content.artifactId
  submittedBy := call.principalSubjectId
  supersedesGuidanceId := none

section Handler

variable (R : GuidanceServices F)

/-- One item is submitted for each route, each in a transaction of its own. -/
def submitEach (call : GuidanceCall) (content : Uploads.ArtifactRef) :
    List Id → ℕ → GuidanceStore F → GuidanceStore F × Except SubmitError (List Id)
  | [], _, s => (s, .ok [])
  | routeId :: routes, k, s =>
    match textField call.payload "target_checkpoint_id" with
    | .error error => (s, .error (.command error))
    | .ok checkpointId =>
      match s.submit R.ops (R.guidanceIds k) (call.declaration content checkpointId routeId)
          (R.ticks k) with
      | .error error => (s, .error (.store error))
      | .ok (s, guidance) =>
        match submitEach call content routes (k + 1) s with
        | (s, result) => (s, result.map (guidance.guidanceId :: ·))

/-- What the command publishes. -/
def guidanceContent (call : GuidanceCall) : Except CommandError (List Char) := do
  let goal ← textField call.payload "goal"
  let text ← textField call.payload "guidance_text"
  return dumps (.obj [("goal", .str goal), ("guidance_text", .str text)])

def prepareGuidance (call : GuidanceCall) : Except CommandError (List Id × Uploads.ArtifactRef) := do
  let routes ← stringsField call.payload "affected_route_ids"
  rejectIf routes.isEmpty (.rejected "GUIDANCE_ROUTE_REQUIRED")
  let data ← guidanceContent call
  let artifact ← R.publish data (call.requestId ++ ".guidance.json") "application/json"
  return (routes, artifact)

/-- The decision on a command whose items were all submitted. -/
def guidanceDecision (call : GuidanceCall) (content : Uploads.ArtifactRef) (s : GuidanceStore F)
    (ids : List Id) : GuidanceDecision where
  accepted := true
  revisionBefore := call.fence.revision
  revisionAfter := call.fence.revision
  contractVersion := call.fence.contractVersion
  eventCursorAfter := Delivery.lastCursor s.activities
  createdArtifactRefs := [[("artifact_id", .str content.artifactId),
    ("sha256", .str content.sha256), ("byte_count", .int content.byteCount),
    ("media_type", .str content.mediaType)]]
  affectedEntityIds := ids

/-- The handler of `SUBMIT_GUIDANCE`: what it leaves behind, and what it decides or raises. -/
def submitGuidance (s : GuidanceStore F) (call : GuidanceCall) :
    GuidanceStore F × Except SubmitError GuidanceDecision :=
  match prepareGuidance R call with
  | .error error => (s, .error (.command error))
  | .ok (routes, content) =>
    match submitEach R call content routes 0 s with
    | (s, .error error) => (s, .error error)
    | (s, .ok ids) => (s, .ok (guidanceDecision call content s ids))

end Handler

/-! ## The law -/

/-- The command has the members that it is specified with, its routes and its checkpoint belong
to the run, and its fence is the current one. -/
def GuidanceCall.Admissible (s : GuidanceStore F) (call : GuidanceCall) (routes : List Id) : Prop :=
  call.payload.get "affected_route_ids" = .arr (routes.map .str) ∧ routes ≠ [] ∧ routes.Nodup ∧
    (∀ routeId ∈ routes, s.routes.lookup routeId = some call.runId) ∧
    (∃ checkpointId, call.payload.get "target_checkpoint_id" = .str checkpointId ∧
      s.checkpoints.lookup checkpointId = some call.runId) ∧
    (∃ goal ≠ "", call.payload.get "goal" = .str goal) ∧
    (∃ text ≠ "", call.payload.get "guidance_text" = .str text) ∧
    s.fences.lookup call.runId = some ⟨call.fence.revision, call.fence.contractVersion⟩

/-- The command does all or nothing: an admissible command is accepted and queues one item for
each of its routes, and any other adds no item and no activity. -/
structure AllOrNothing (R : GuidanceServices F) (s : GuidanceStore F) (call : GuidanceCall) : Prop where
  all : ∀ routes, call.Admissible s routes →
    (∃ decision, (submitGuidance R s call).2 = .ok decision ∧ decision.accepted = true) ∧
      ∃ items, (submitGuidance R s call).1.guidance = s.guidance ++ items ∧
        items.map (·.routeId) = routes ∧ ∀ item ∈ items, item.state = .queued
  nothing : (¬ ∃ routes, call.Admissible s routes) →
    (submitGuidance R s call).1.guidance = s.guidance ∧
      (submitGuidance R s call).1.activities = s.activities

section Refusals

variable {R : GuidanceServices F} {s : GuidanceStore F} {call : GuidanceCall}

theorem submit_of_unknown {ops : FloatJson.FloatOps F} {guidanceId : Id} {d : Declaration}
    {tick : GuidanceStore.Tick} (h : guidanceKinds.contains d.kind = false) :
    ∃ error, s.submit ops guidanceId d tick = .error error := by
  cases hsubmit : s.submit ops guidanceId d tick with
  | error error => exact ⟨error, rfl⟩
  | ok result =>
    obtain ⟨⟨⟩, hvalid, -⟩ := bind_eq_ok.mp hsubmit
    obtain ⟨⟨⟩, -, hvalid⟩ := bind_eq_ok.mp hvalid
    obtain ⟨⟨⟩, -, hvalid⟩ := bind_eq_ok.mp hvalid
    obtain ⟨⟨⟩, -, hvalid⟩ := bind_eq_ok.mp hvalid
    obtain ⟨⟨⟩, -, hkind⟩ := bind_eq_ok.mp hvalid
    rw [rejectIf_eq_ok, h] at hkind
    cases hkind

/-- The first route of a command is refused, and nothing is written. -/
theorem submitEach_cons (content : Uploads.ArtifactRef) (routeId : Id) (routes : List Id) (k : ℕ) :
    ∃ error, submitEach R call content (routeId :: routes) k s = (s, .error error) := by
  unfold submitEach
  cases htext : textField call.payload "target_checkpoint_id" with
  | error error => exact ⟨.command error, rfl⟩
  | ok checkpointId =>
    obtain ⟨error, herror⟩ := @submit_of_unknown F s R.ops (R.guidanceIds k)
      (call.declaration content checkpointId routeId) (R.ticks k) rfl
    exact ⟨.store error, by simp only [herror]⟩

/-- The routes of a command that is prepared are not empty. -/
theorem routes_of_prepareGuidance {routes : List Id} {content : Uploads.ArtifactRef}
    (h : prepareGuidance R call = .ok (routes, content)) : routes ≠ [] := by
  obtain ⟨listed, -, h⟩ := bind_eq_ok.mp h
  obtain ⟨⟨⟩, hne, h⟩ := bind_eq_ok.mp h
  obtain ⟨data, -, h⟩ := bind_eq_ok.mp h
  obtain ⟨artifact, -, h⟩ := bind_eq_ok.mp h
  cases pure_eq_ok.mp h
  rw [rejectIf_eq_ok] at hne
  rintro rfl
  cases hne

/-- No command is accepted, and none writes anything. -/
theorem submitGuidance_raises (R : GuidanceServices F) (s : GuidanceStore F) (call : GuidanceCall) :
    ∃ error, submitGuidance R s call = (s, .error error) := by
  unfold submitGuidance
  cases hprepare : prepareGuidance R call with
  | error error => exact ⟨.command error, rfl⟩
  | ok prepared =>
    obtain ⟨routes, content⟩ := prepared
    obtain ⟨routeId, routes, rfl⟩ := List.exists_cons_of_ne_nil (routes_of_prepareGuidance hprepare)
    obtain ⟨error, herror⟩ := @submitEach_cons F R s call content routeId routes 0
    exact ⟨error, by simp only [herror]⟩

end Refusals

/-- The command does all or nothing exactly where it is not admissible. -/
theorem submitGuidance_allOrNothing_iff (R : GuidanceServices F) (s : GuidanceStore F)
    (call : GuidanceCall) : AllOrNothing R s call ↔ ¬ ∃ routes, call.Admissible s routes := by
  obtain ⟨error, herror⟩ := submitGuidance_raises R s call
  constructor
  · rintro h ⟨routes, hadmissible⟩
    obtain ⟨⟨decision, hdecision, -⟩, -⟩ := h.all routes hadmissible
    rw [herror] at hdecision
    cases hdecision
  · intro hnone
    refine ⟨fun routes hadmissible => absurd ⟨routes, hadmissible⟩ hnone, fun _ => ?_⟩
    rw [herror]
    exact ⟨rfl, rfl⟩

/-! ## What the store takes -/

namespace Sample

/-- A database with one run, a route and a checkpoint. -/
def store : GuidanceStore Unit where
  fences := [("run", ⟨0, 1⟩)]
  checkpoints := [("checkpoint", "run")]
  routes := [("route", "run")]

/-- Services that publish everything and give the same identifiers always. -/
def services : GuidanceServices Unit where
  ops := ⟨fun _ _ => true, fun _ _ => false⟩
  publish data _ mediaType := .ok ⟨"artifact", "", data.length, mediaType⟩
  guidanceIds _ := "guidance"
  ticks _ := ⟨"now", "superseded", "queued"⟩

/-- A command that guides the route. -/
def call : GuidanceCall where
  requestId := "request"
  runId := "run"
  payload := [("target_checkpoint_id", .str "checkpoint"), ("goal", .str "goal"),
    ("guidance_text", .str "try the other lemma"), ("affected_route_ids", .arr [.str "route"])]
  fence := ⟨"RUN", "run", 0, 1⟩
  principalSubjectId := "user"

theorem call_admissible : call.Admissible store ["route"] := by
  refine ⟨rfl, by decide, by decide, ?_, ⟨"checkpoint", rfl, rfl⟩, ⟨"goal", by decide, rfl⟩,
    ⟨"try the other lemma", by decide, rfl⟩, rfl⟩
  intro routeId hroute
  rw [List.mem_singleton.mp hroute]
  rfl

end Sample

/-- An admissible command is refused. -/
theorem admissible_guidance_refused : Sample.call.Admissible Sample.store ["route"] ∧
    ¬ AllOrNothing Sample.services Sample.store Sample.call := by
  refine ⟨Sample.call_admissible, fun h => ?_⟩
  obtain ⟨⟨decision, hdecision, -⟩, -⟩ := h.all ["route"] Sample.call_admissible
  obtain ⟨error, herror⟩ := submitGuidance_raises Sample.services Sample.store Sample.call
  rw [herror] at hdecision
  cases hdecision

end ResearchKernel.Product.Guiding
