import ResearchKernel.Product.FloatJson
import ResearchKernel.Product.GraphQuery

/-!
# Route plans

A route plan is proposed for a run with its routes, and controlled by commands: it is
approved, started, paused and stopped, and its routes are given priorities and budgets. Plans
and routes keep their state in rows of their own. A command is bound to the research revision
and contract version of the run, changes plan and routes together, and leaves a row with its
result, from which a repetition of the request is answered.
-/

namespace ResearchKernel.Product.Routes

open Foundation
open FloatJson (text? int? mapping? sequence? optionalText?)

variable {F : Type}

/-! ## Plans -/

/-- State of a plan and of its routes. -/
inductive RouteState where
  | proposed | approved | active | paused | stopped
deriving DecidableEq

/-- Text of a state. -/
def RouteState.wire : RouteState → String
  | .proposed => "PROPOSED"
  | .approved => "APPROVED"
  | .active => "ACTIVE"
  | .paused => "PAUSED"
  | .stopped => "STOPPED"

/-- What a command does to a plan. -/
inductive RouteAction where
  | approve | start | pause | stop | setPriority | setBudget
deriving DecidableEq

/-- Text of an action. -/
def RouteAction.wire : RouteAction → String
  | .approve => "APPROVE"
  | .start => "START"
  | .pause => "PAUSE"
  | .stop => "STOP"
  | .setPriority => "SET_PRIORITY"
  | .setBudget => "SET_BUDGET"

/-- The action with the given text. -/
def RouteAction.ofWire (text : String) : Option RouteAction :=
  [.approve, .start, .pause, .stop, .setPriority, .setBudget].find? fun action : RouteAction =>
    action.wire == text

/-- What an action is called in the activity of the run. -/
def RouteAction.eventSuffix : RouteAction → String
  | .approve => "APPROVED"
  | .start => "STARTED"
  | .pause => "PAUSED"
  | .stop => "STOPPED"
  | .setPriority => "PRIORITY_SET"
  | .setBudget => "BUDGET_SET"

/-- The state into which an action brings a plan, for the actions that are transitions. -/
def transitions : RouteAction → Option (RouteState → Option RouteState)
  | .approve => some fun
    | .proposed => some .approved
    | _ => none
  | .start => some fun
    | .approved | .paused => some .active
    | _ => none
  | .pause => some fun
    | .active => some .paused
    | _ => none
  | .stop => some fun
    | .approved | .active | .paused => some .stopped
    | _ => none
  | .setPriority | .setBudget => none

/-- What the functions of the store raise. -/
inductive RouteError where
  /-- `RoutePlanError`. -/
  | plan (message : String)
  /-- `RoutePlanConflict`. -/
  | conflict (message : String)
  /-- `RoutePlanCASMismatch`. -/
  | casMismatch (message : String)
  /-- `ActivityStoreError`. -/
  | activity (message : String)
  /-- `ValueError`. -/
  | value (message : String)
  /-- `KeyError`. -/
  | key (id : String)
  /-- `sqlite3.IntegrityError`. -/
  | integrity

/-- A dictionary of a caller: its keys are distinct. -/
structure Mapping (F : Type) where
  entries : List (String × FloatJson F)
  distinct : (entries.map Prod.fst).Nodup

/-- What the store takes from the runtime: comparisons of floating point numbers, which of them
are negative and which have a JSON text, and the digest of the text of a value. -/
structure RouteRuntime (F : Type) where
  ops : FloatJson.FloatOps F
  isNegative : F → Bool
  isFinite : F → Bool
  digest : FloatJson F → Digest

/-- Whether a value is a number that is not negative. -/
def isAmount (R : RouteRuntime F) : FloatJson F → Bool
  | .int value => decide (0 ≤ value)
  | .float value => !R.isNegative value
  | _ => false

/-- The budget of a route: numbers that are not negative, under names. -/
def checkBudget (R : RouteRuntime F) (budget : Mapping F) : Except RouteError (FloatJson F) := do
  rejectIf budget.entries.isEmpty (.value "route budget must be explicit")
  rejectIf (budget.entries.any fun entry => entry.1 == "" || !isAmount R entry.2)
    (.value "route budget values must be non-negative numbers")
  return .obj budget.entries

/-- Whether the database takes a budget for a JSON text. -/
def isJson (R : RouteRuntime F) (budget : FloatJson F) : Bool :=
  match budget with
  | .obj entries => entries.all fun entry =>
    match entry.2 with
    | .float value => R.isFinite value
    | _ => true
  | _ => false

/-- A route as it is proposed. -/
structure RouteProposal (R : RouteRuntime F) where
  routeId : Id
  method : String
  target : String
  expectedVerifier : String
  milestones : List String
  terminationCondition : String
  dependencies : List Id
  priority : ℤ
  budget : Mapping F
  trimmed : ∀ text ∈ [routeId, method, target, expectedVerifier, terminationCondition],
    text ≠ "" ∧ isTrimmed text = true
  explicit : milestones ≠ [] ∧ ∀ milestone ∈ milestones, milestone ≠ ""
  named : ∀ dependency ∈ dependencies, dependency ≠ ""
  positive : 0 < priority
  budgeted : (checkBudget R budget).toBool = true

/-- A plan as it is proposed. -/
structure RoutePlanProposal (R : RouteRuntime F) where
  routePlanId : Id
  runId : Id
  researchRevision : ℤ
  contractVersion : ℤ
  routes : List (RouteProposal R)
  named : routePlanId ≠ "" ∧ runId ≠ ""
  fenced : 0 ≤ researchRevision ∧ 0 < contractVersion
  routes_ne : routes ≠ []
  distinct : (routes.map (·.routeId)).Nodup

/-- A route as a plan shows it. -/
structure PlannedRoute (F : Type) where
  routeId : Id
  method : String
  target : String
  expectedVerifier : String
  milestones : List String
  terminationCondition : String
  dependencies : List Id
  state : String
  priority : ℤ
  budget : List (String × FloatJson F)
  stopReason : Option String

/-- A plan. -/
structure RoutePlan (F : Type) where
  routePlanId : Id
  runId : Id
  researchRevision : ℤ
  contractVersion : ℤ
  planDigest : Digest
  state : String
  stateReason : Option String
  createdAt : Stamp
  updatedAt : Stamp
  routes : List (PlannedRoute F)

/-- The answer to a command. -/
structure RoutePlanCommandResult (F : Type) where
  requestDigest : Digest
  replayed : Bool
  plan : RoutePlan F

/-! ## Tables -/

/-- The revision and the contract version of a run. -/
structure RunFence where
  researchRevision : ℤ
  contractVersion : ℤ
deriving DecidableEq

/-- A row of `product_route_plans`. -/
structure RoutePlanRow (F : Type) where
  routePlanId : Id
  runId : Id
  researchRevision : ℤ
  contractVersion : ℤ
  planDigest : Digest
  proposal : FloatJson F
  state : RouteState := .proposed
  stateReason : Option String := none
  createdAt : Stamp
  updatedAt : Stamp

/-- Unique columns of `product_route_plans`. -/
def RoutePlanRow.clash (a b : RoutePlanRow F) : Bool :=
  a.routePlanId == b.routePlanId || a.runId == b.runId && a.planDigest == b.planDigest

/-- A row of `product_planned_routes`. -/
structure PlannedRouteRow (F : Type) where
  routeId : Id
  routePlanId : Id
  method : String
  target : String
  expectedVerifier : String
  milestones : FloatJson F
  terminationCondition : String
  dependencies : FloatJson F
  state : RouteState := .proposed
  priority : ℤ
  budget : FloatJson F
  stopReason : Option String := none

/-- A row of `product_route_plan_commands`. -/
structure RouteCommandRow (F : Type) where
  runId : Id
  requestId : Id
  requestDigest : Digest
  routePlanId : Id
  action : RouteAction
  expectedRevision : ℤ
  contractVersion : ℤ
  result : FloatJson F
  appliedAt : Stamp

/-- Unique columns of `product_route_plan_commands`. -/
def RouteCommandRow.clash (a b : RouteCommandRow F) : Bool :=
  a.runId == b.runId && a.requestId == b.requestId

/-- A row of `product_activity_events` with the scope of a run. -/
structure RouteActivity (F : Type) where
  eventId : Id
  runId : Id
  source : String
  researchRevision : ℤ
  entityRefs : FloatJson F
  payload : FloatJson F
  recordedAt : Stamp

/-- The tables of the store, and the fences of the runs. -/
structure RouteStore (F : Type) where
  fences : List (Id × RunFence) := []
  plans : List (RoutePlanRow F) := []
  routes : List (PlannedRouteRow F) := []
  commands : List (RouteCommandRow F) := []
  activities : List (RouteActivity F) := []

/-! ## Values -/

/-- A proposed route as JSON. -/
def routeProposalValue {R : RouteRuntime F} (route : RouteProposal R) : FloatJson F :=
  .obj [("route_id", .str route.routeId), ("method", .str route.method),
    ("target", .str route.target), ("expected_verifier", .str route.expectedVerifier),
    ("milestones", .ofTexts route.milestones),
    ("termination_condition", .str route.terminationCondition),
    ("dependencies", .ofTexts route.dependencies), ("priority", .int route.priority),
    ("budget", .obj route.budget.entries)]

/-- A proposed plan as JSON. -/
def proposalValue {R : RouteRuntime F} (proposal : RoutePlanProposal R) : FloatJson F :=
  .obj [("route_plan_id", .str proposal.routePlanId), ("run_id", .str proposal.runId),
    ("research_revision", .int proposal.researchRevision),
    ("contract_version", .int proposal.contractVersion),
    ("routes", .arr (proposal.routes.map routeProposalValue))]

/-- The digest of a proposed plan. -/
def RoutePlanProposal.digest {R : RouteRuntime F} (proposal : RoutePlanProposal R) : Digest :=
  R.digest (proposalValue proposal).stored

def routeMembers (route : PlannedRoute F) : List (String × FloatJson F) :=
  [("route_id", .str route.routeId), ("method", .str route.method),
    ("target", .str route.target), ("expected_verifier", .str route.expectedVerifier),
    ("milestones", .ofTexts route.milestones),
    ("termination_condition", .str route.terminationCondition),
    ("dependencies", .ofTexts route.dependencies), ("state", .str route.state),
    ("priority", .int route.priority), ("budget", .obj route.budget),
    ("stop_reason", .ofText? route.stopReason)]

def routeValue (route : PlannedRoute F) : FloatJson F := .obj (routeMembers route)

def planMembers (plan : RoutePlan F) : List (String × FloatJson F) :=
  [("route_plan_id", .str plan.routePlanId), ("run_id", .str plan.runId),
    ("research_revision", .int plan.researchRevision),
    ("contract_version", .int plan.contractVersion), ("plan_digest", .str plan.planDigest),
    ("state", .str plan.state), ("state_reason", .ofText? plan.stateReason),
    ("created_at", .str plan.createdAt), ("updated_at", .str plan.updatedAt),
    ("routes", .arr (plan.routes.map routeValue))]

def planValue (plan : RoutePlan F) : FloatJson F := .obj (planMembers plan)

/-- A member of an object, read in the given way. -/
def member {α : Type} (read : FloatJson F → Option α) (fields : List (String × FloatJson F))
    (key : String) : Except RouteError α :=
  orReject ((fields.lookup key).bind read) (.key key)

/-- An array of texts, read from an object. -/
def texts? (value : FloatJson F) : Option (List String) :=
  value.sequence?.bind fun items => items.mapM text?

/-- Read a planned route from JSON. -/
def routeFromValue (value : FloatJson F) : Except RouteError (PlannedRoute F) := do
  let item ← orReject value.mapping? (.value "not a mapping")
  let routeId ← member text? item "route_id"
  let method ← member text? item "method"
  let target ← member text? item "target"
  let expectedVerifier ← member text? item "expected_verifier"
  let milestones ← member texts? item "milestones"
  let terminationCondition ← member text? item "termination_condition"
  let dependencies ← member texts? item "dependencies"
  let state ← member text? item "state"
  let priority ← member int? item "priority"
  let budget ← member mapping? item "budget"
  let stopReason ← member optionalText? item "stop_reason"
  return { routeId, method, target, expectedVerifier, milestones, terminationCondition,
           dependencies, state, priority, budget, stopReason }

/-- Read a plan from JSON. -/
def planFromValue (value : FloatJson F) : Except RouteError (RoutePlan F) := do
  let item ← orReject value.mapping? (.value "not a mapping")
  let routePlanId ← member text? item "route_plan_id"
  let runId ← member text? item "run_id"
  let researchRevision ← member int? item "research_revision"
  let contractVersion ← member int? item "contract_version"
  let planDigest ← member text? item "plan_digest"
  let state ← member text? item "state"
  let stateReason ← member optionalText? item "state_reason"
  let createdAt ← member text? item "created_at"
  let updatedAt ← member text? item "updated_at"
  let items ← member sequence? item "routes"
  let routes ← items.mapM routeFromValue
  return { routePlanId, runId, researchRevision, contractVersion, planDigest, state,
           stateReason, createdAt, updatedAt, routes }

/-- Read a planned route from its row. -/
def routeOfRow (row : PlannedRouteRow F) : Except RouteError (PlannedRoute F) := do
  let milestones ← orReject (texts? row.milestones)
    (.plan "stored route identity list is invalid")
  let dependencies ← orReject (texts? row.dependencies)
    (.plan "stored route identity list is invalid")
  let budget ← orReject row.budget.mapping? (.plan "stored route JSON is not an object")
  return { routeId := row.routeId
           method := row.method
           target := row.target
           expectedVerifier := row.expectedVerifier
           milestones := milestones
           terminationCondition := row.terminationCondition
           dependencies := dependencies
           state := row.state.wire
           priority := row.priority
           budget := budget
           stopReason := row.stopReason }

def routesOf (routePlanId : Id) (store : RouteStore F) : List (PlannedRouteRow F) :=
  (store.routes.filter (·.routePlanId == routePlanId)).insertionSort fun a b =>
    a.priority < b.priority ∨ a.priority = b.priority ∧ a.routeId ≤ b.routeId

/-- Read a plan with its routes. -/
def getPlan (routePlanId : Id) (store : RouteStore F) : Except RouteError (RoutePlan F) := do
  let row ← orReject (store.plans.find? (·.routePlanId == routePlanId)) (.key routePlanId)
  let routes ← (routesOf routePlanId store).mapM routeOfRow
  return { routePlanId := row.routePlanId
           runId := row.runId
           researchRevision := row.researchRevision
           contractVersion := row.contractVersion
           planDigest := row.planDigest
           state := row.state.wire
           stateReason := row.stateReason
           createdAt := row.createdAt
           updatedAt := row.updatedAt
           routes := routes }

/-! ## Commands -/

/-- Append an activity of a run. An identifier that was used may be used again for the same
activity only, and then appends nothing. -/
def appendActivity (R : RouteRuntime F) (activity : RouteActivity F)
    (activities : List (RouteActivity F)) : Except RouteError (List (RouteActivity F)) :=
  let activity := { activity with
    entityRefs := activity.entityRefs.stored, payload := activity.payload.stored }
  match activities.find? (·.eventId == activity.eventId) with
  | none => .ok (activities ++ [activity])
  | some existing => do
    rejectIf (!(existing.runId == activity.runId && existing.source == activity.source &&
        existing.researchRevision == activity.researchRevision &&
        existing.entityRefs.eqv R.ops activity.entityRefs &&
        existing.payload.eqv R.ops activity.payload &&
        existing.recordedAt == activity.recordedAt))
      (.activity "activity identity was reused with different content")
    return activities

/-- The activity of the orchestrator about a plan. -/
def routeActivity (eventId runId : Id) (revision : ℤ) (eventType : String) (routePlanId : Id)
    (routeIds : List Id) (payload : List (String × FloatJson F)) (now : Stamp) :
    RouteActivity F where
  eventId := eventId
  runId := runId
  source := "ORCHESTRATOR"
  researchRevision := revision
  entityRefs := .obj [("route_ids", .ofTexts routeIds), ("route_plan_id", .str routePlanId)]
  payload := .obj (("type", .str eventType) :: payload)
  recordedAt := now

/-- The run must be at the expected revision and contract version. -/
def assertFence (runId : Id) (expectedRevision contractVersion : ℤ) (store : RouteStore F) :
    Except RouteError Unit := do
  let actual ← orReject (store.fences.lookup runId) (.key runId)
  rejectIf (actual != ⟨expectedRevision, contractVersion⟩) (.casMismatch
    ("research fence is revision " ++ toString actual.researchRevision ++ ", contract " ++
      toString actual.contractVersion))

/-- The row of a proposed route. -/
def proposedRow {R : RouteRuntime F} (routePlanId : Id) (route : RouteProposal R) :
    PlannedRouteRow F where
  routeId := route.routeId
  routePlanId := routePlanId
  method := route.method
  target := route.target
  expectedVerifier := route.expectedVerifier
  milestones := (FloatJson.ofTexts route.milestones).stored
  terminationCondition := route.terminationCondition
  dependencies := (FloatJson.ofTexts route.dependencies).stored
  priority := route.priority
  budget := (FloatJson.obj route.budget.entries).stored

/-- Register a proposed plan with its routes, or find it as it was proposed. -/
def registerProposal {R : RouteRuntime F} (proposal : RoutePlanProposal R) (now : Stamp)
    (eventId : Id) (store : RouteStore F) : Except RouteError (RouteStore F) := do
  assertFence proposal.runId proposal.researchRevision proposal.contractVersion store
  match store.plans.find? (·.routePlanId == proposal.routePlanId) with
  | some existing =>
    rejectIf (existing.runId != proposal.runId || existing.planDigest != proposal.digest ||
        !existing.proposal.eqv R.ops (proposalValue proposal))
      (.conflict "route plan identity was reused")
    return store
  | none =>
    let plans ← orReject (insertRow RoutePlanRow.clash
      { routePlanId := proposal.routePlanId
        runId := proposal.runId
        researchRevision := proposal.researchRevision
        contractVersion := proposal.contractVersion
        planDigest := proposal.digest
        proposal := (proposalValue proposal).stored
        createdAt := now
        updatedAt := now } store.plans)
      (.conflict "route or plan digest is already owned")
    rejectIf (proposal.routes.any fun route => !isJson R (.obj route.budget.entries))
      (.conflict "route or plan digest is already owned")
    let routes ← orReject (insertRows (fun a b => a.routeId == b.routeId)
      (proposal.routes.map (proposedRow proposal.routePlanId)) store.routes)
      (.conflict "route or plan digest is already owned")
    let activities ← appendActivity R (routeActivity eventId proposal.runId
      proposal.researchRevision "ROUTE_PLAN_PROPOSED" proposal.routePlanId
      (proposal.routes.map (·.routeId))
      [("plan_digest", .str proposal.digest), ("route_count", .int proposal.routes.length)] now)
      store.activities
    return { store with plans := plans, routes := routes, activities := activities }

/-- A command for a plan. -/
structure RouteCommand (F : Type) where
  runId : Id
  requestId : Id
  expectedRevision : ℤ
  contractVersion : ℤ
  action : String
  routePlanId : Id
  planDigest : Option Digest := none
  reason : Option String := none
  priority : Option ℤ := none
  budget : Option (Mapping F) := none

/-- Whether an optional text says something. -/
def filled (text : Option String) : Bool := text.any (· != "")

/-- Whether a command has the data that its action requires. -/
def RouteCommand.hasRequired (command : RouteCommand F) : RouteAction → Bool
  | .approve => filled command.planDigest
  | .start => true
  | .pause | .stop => filled command.reason
  | .setPriority => command.priority.isSome
  | .setBudget => command.budget.isSome

/-- Whether a command has data that another action owns. -/
def RouteCommand.hasForeign (command : RouteCommand F) (action : RouteAction) : Bool :=
  command.planDigest.isSome && action != .approve ||
    command.reason.isSome && action != .pause && action != .stop ||
    command.priority.isSome && action != .setPriority ||
    command.budget.isSome && action != .setBudget

/-- The members of the content of a command that are given. -/
def commandMembers (command : RouteCommand F) (budget : Option (FloatJson F)) :
    List (String × FloatJson F) :=
  [("run_id", .str command.runId), ("request_id", .str command.requestId),
    ("expected_revision", .int command.expectedRevision),
    ("contract_version", .int command.contractVersion), ("action", .str command.action),
    ("route_plan_id", .str command.routePlanId)] ++
  (command.planDigest.map fun value => ("plan_digest", FloatJson.str value)).toList ++
  (command.reason.map fun value => ("reason", FloatJson.str value)).toList ++
  (command.priority.map fun value => ("priority", FloatJson.int value)).toList ++
  (budget.map fun value => ("budget", value)).toList

/-- The content of a command, and its action. -/
def commandValue (R : RouteRuntime F) (command : RouteCommand F) :
    Except RouteError (RouteAction × FloatJson F) := do
  let action ← orReject (RouteAction.ofWire command.action)
    (.value ("unknown route plan action: " ++ command.action))
  rejectIf (!command.hasRequired action)
    (.value (command.action ++ " is missing required action data"))
  rejectIf (command.hasForeign action)
    (.value (command.action ++ " received fields owned by another action"))
  rejectIf (command.runId == "" || command.requestId == "" || command.routePlanId == "")
    (.value "route command identities are required")
  rejectIf (decide (command.expectedRevision < 0) || decide (command.contractVersion ≤ 0))
    (.value "route command fence is invalid")
  rejectIf (command.priority.any fun priority => decide (priority ≤ 0))
    (.value "priority must be positive")
  let budget ← command.budget.mapM (checkBudget R)
  return (action, .obj (commandMembers command budget))

/-- Bring a plan and its routes into another state. -/
def moveTo (routePlanId : Id) (before after : RouteState) (stateReason stopReason : Option String)
    (now : Stamp) (store : RouteStore F) : RouteStore F :=
  { store with
    plans := updateWhere (fun plan => plan.routePlanId == routePlanId && plan.state == before)
      (fun plan => { plan with state := after, stateReason := stateReason, updatedAt := now })
      store.plans
    routes := updateWhere (·.routePlanId == routePlanId)
      (fun route => { route with state := after, stopReason := stopReason }) store.routes }

/-- Note that a plan was updated. -/
def touch (routePlanId : Id) (now : Stamp) (store : RouteStore F) : RouteStore F :=
  { store with
    plans := updateWhere (·.routePlanId == routePlanId)
      (fun plan => { plan with updatedAt := now }) store.plans }

/-- Apply the action of a command to a plan in the given state. Returns the state after it. -/
def applyAction (R : RouteRuntime F) (command : RouteCommand F) (action : RouteAction)
    (storedDigest : Digest) (before : RouteState) (now : Stamp) (store : RouteStore F) :
    Except RouteError (RouteStore F × RouteState) :=
  match transitions action with
  | some transition => do
    let after ← orReject (transition before) (.plan
      ("route plan transition " ++ before.wire ++ "->" ++ action.wire ++ " is not allowed"))
    rejectIf (action == .approve && command.planDigest != some storedDigest)
      (.conflict "approval digest does not match the frozen proposal")
    let stateReason := if action = .pause ∨ action = .stop then command.reason else none
    let stopReason := if action = .stop then command.reason else none
    return (moveTo command.routePlanId before after stateReason stopReason now store, after)
  | none => do
    rejectIf (before == .stopped) (.plan "stopped route plans are immutable")
    if action = .setPriority then
      let priority ← orReject (command.priority.filter fun priority => decide (0 < priority))
        (.value "SET_PRIORITY requires a positive priority")
      return (touch command.routePlanId now { store with
        routes := updateWhere (·.routePlanId == command.routePlanId)
          (fun route => { route with priority := priority }) store.routes }, before)
    else
      let budget ← orReject command.budget (.value "SET_BUDGET requires an explicit budget")
      let value ← checkBudget R budget
      rejectIf (!isJson R value && store.routes.any (·.routePlanId == command.routePlanId)) .integrity
      return (touch command.routePlanId now { store with
        routes := updateWhere (·.routePlanId == command.routePlanId)
          (fun route => { route with budget := value.stored }) store.routes }, before)

/-- The members of the result of a command, as its row keeps it. -/
def resultMembers (action : RouteAction) (before after : RouteState) (routeIds : List Id)
    (plan : RoutePlan F) : List (String × FloatJson F) :=
  [("action", .str action.wire), ("state_before", .str before.wire),
    ("state_after", .str after.wire), ("route_ids", .ofTexts routeIds), ("plan", planValue plan)]

/-- What the activity of a command says. -/
def eventPayload (command : RouteCommand F) (action : RouteAction) (before after : RouteState) :
    List (String × FloatJson F) :=
  [("action", .str action.wire), ("state_before", .str before.wire),
    ("state_after", .str after.wire)] ++
  (command.reason.map fun value => ("reason", FloatJson.str value)).toList ++
  (command.priority.map fun value => ("priority", FloatJson.int value)).toList ++
  (command.budget.map fun value => ("budget", FloatJson.obj value.entries)).toList

def appliedRow (runId requestId : Id) (store : RouteStore F) : Option (RouteCommandRow F) :=
  store.commands.find? fun row => row.runId == runId && row.requestId == requestId

/-- Answer a request that was applied, from its row. -/
def replay (requestDigest : Digest) (row : RouteCommandRow F) :
    Except RouteError (RoutePlanCommandResult F) := do
  rejectIf (row.requestDigest != requestDigest)
    (.conflict "request id was reused with different content")
  let result ← orReject row.result.mapping? (.plan "stored route JSON is not an object")
  let value ← member some result "plan"
  let plan ← planFromValue value
  return { requestDigest := requestDigest, replayed := true, plan := plan }

/-- Bind a plan to the revision at which a command was applied to it. -/
def setRevision (routePlanId : Id) (revision : ℤ) (store : RouteStore F) : RouteStore F :=
  { store with
    plans := updateWhere (·.routePlanId == routePlanId)
      (fun plan => { plan with researchRevision := revision }) store.plans }

/-- The identifiers of the routes of a plan, in order. -/
def routeIdsOf (routePlanId : Id) (store : RouteStore F) : List Id :=
  ((store.routes.filter (·.routePlanId == routePlanId)).map (·.routeId)).insertionSort (· ≤ ·)

/-- Apply a request that was not applied before. -/
def applyNew (R : RouteRuntime F) (command : RouteCommand F) (action : RouteAction)
    (requestDigest : Digest) (now : Stamp) (eventId : Id) (store : RouteStore F) :
    Except RouteError (RouteStore F × RoutePlanCommandResult F) := do
  assertFence command.runId command.expectedRevision command.contractVersion store
  let row ← orReject (store.plans.find? (·.routePlanId == command.routePlanId))
    (.key command.routePlanId)
  rejectIf (row.runId != command.runId) (.plan "route plan belongs to another research run")
  rejectIf (row.contractVersion != command.contractVersion)
    (.casMismatch "route plan contract binding is stale")
  rejectIf (row.state == .proposed && row.researchRevision != command.expectedRevision)
    (.casMismatch "unapproved route proposal revision is stale")
  let (changed, after) ← applyAction R command action row.planDigest row.state now store
  let moved := setRevision command.routePlanId command.expectedRevision changed
  let plan ← getPlan command.routePlanId moved
  let routeIds := routeIdsOf command.routePlanId moved
  let commands ← orReject (insertRow RouteCommandRow.clash
    { runId := command.runId
      requestId := command.requestId
      requestDigest := requestDigest
      routePlanId := command.routePlanId
      action := action
      expectedRevision := command.expectedRevision
      contractVersion := command.contractVersion
      result := (FloatJson.obj (resultMembers action row.state after routeIds plan)).stored
      appliedAt := now } moved.commands) .integrity
  let activities ← appendActivity R (routeActivity eventId command.runId command.expectedRevision
    ("ROUTE_PLAN_" ++ action.eventSuffix) command.routePlanId routeIds
    (eventPayload command action row.state after) now) moved.activities
  return ({ moved with commands := commands, activities := activities },
    { requestDigest := requestDigest, replayed := false, plan := plan })

/-- Apply a command, or answer it again. -/
def apply (R : RouteRuntime F) (command : RouteCommand F) (now : Stamp) (eventId : Id)
    (store : RouteStore F) : Except RouteError (RouteStore F × RoutePlanCommandResult F) := do
  let (action, request) ← commandValue R command
  let requestDigest := R.digest request.stored
  match appliedRow command.runId command.requestId store with
  | some row => (store, ·) <$> replay requestDigest row
  | none => applyNew R command action requestDigest now eventId store

/-! ## Runs -/

/-- A call of the store, or a step of the kernel that moves the fence of a run. -/
inductive RouteCall (R : RouteRuntime F) where
  | propose (proposal : RoutePlanProposal R) (now : Stamp) (eventId : Id)
  | apply (command : RouteCommand F) (now : Stamp) (eventId : Id)
  | setFence (runId : Id) (fence : RunFence)

/-- A call that raises leaves the store as it was. -/
def step (R : RouteRuntime F) (store : RouteStore F) : RouteCall R → RouteStore F
  | .propose proposal now eventId =>
    match registerProposal proposal now eventId store with
    | .ok store' => store'
    | .error _ => store
  | .apply command now eventId =>
    match apply R command now eventId store with
    | .ok (store', _) => store'
    | .error _ => store
  | .setFence runId fence => { store with fences := setKey runId fence store.fences }

/-- The store after calls on an empty one. -/
def reached (R : RouteRuntime F) (calls : List (RouteCall R)) : RouteStore F :=
  calls.foldl (step R) {}

end ResearchKernel.Product.Routes
