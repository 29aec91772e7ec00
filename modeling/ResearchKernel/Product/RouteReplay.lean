import ResearchKernel.Foundation.Runs
import ResearchKernel.Product.RoutePlans

/-!
# Commands of route plans

Every command leaves routes in the state of their plan, and none changes a stopped plan. A
request is applied once: a repetition finds the row of the request and reads the plan of the
first answer back from it, whatever has become of the plan since.
-/

namespace ResearchKernel.Product.Routes

open Foundation
open FloatJson (text? int? mapping? sequence? optionalText?)

variable {F : Type} {R : RouteRuntime F} {store store' : RouteStore F}

/-! ## Reading a plan back -/

/-- A member of an object that was read back. -/
theorem member_stored {α : Type} {read : FloatJson F → Option α}
    {fields : List (String × FloatJson F)} (h : (fields.map Prod.fst).Nodup) {key : String}
    {value : FloatJson F} {a : α} (hfound : fields.lookup key = some value)
    (hread : read value.stored = some a) :
    member read (FloatJson.sortKeys (FloatJson.storedFields fields)) key = .ok a := by
  unfold member
  rw [FloatJson.lookup_stored h, hfound]
  exact orReject_eq_ok.mpr hread

/-- Texts are read back as they were stored. -/
theorem texts?_ofTexts (texts : List String) :
    texts? (FloatJson.ofTexts texts : FloatJson F).stored = some texts := by
  unfold texts? FloatJson.ofTexts
  rw [FloatJson.stored, FloatJson.storedItems_eq_map, List.map_map]
  show ((texts.map (FloatJson.stored ∘ FloatJson.str)).mapM text? : Option _) = some texts
  induction texts with
  | nil => rfl
  | cons text texts ih => simp [FloatJson.stored, text?, List.mapM_cons, ih]

theorem optionalText?_ofText? (text : Option String) :
    optionalText? (FloatJson.ofText? text : FloatJson F).stored = some text := by
  cases text <;> rfl

/-- A budget that is stored in the order of its keys. -/
def PlannedRoute.Ordered (route : PlannedRoute F) : Prop :=
  (FloatJson.obj route.budget).stored = .obj route.budget

/-- A route is read back as it was stored. -/
theorem routeFromValue_stored {route : PlannedRoute F} (h : route.Ordered) :
    routeFromValue (routeValue route).stored = .ok route := by
  have hbudget : mapping? (FloatJson.obj route.budget).stored = some route.budget := by
    rw [h]
    rfl
  have hkeys : ((routeMembers route).map Prod.fst).Nodup := by
    show (["route_id", "method", "target", "expected_verifier", "milestones",
      "termination_condition", "dependencies", "state", "priority", "budget",
      "stop_reason"] : List String).Nodup
    decide
  unfold routeFromValue routeValue
  rw [FloatJson.stored]
  refine bind_eq_ok.mpr ⟨_, rfl, ?_⟩
  refine bind_eq_ok.mpr ⟨_, member_stored hkeys rfl rfl, ?_⟩
  refine bind_eq_ok.mpr ⟨_, member_stored hkeys rfl rfl, ?_⟩
  refine bind_eq_ok.mpr ⟨_, member_stored hkeys rfl rfl, ?_⟩
  refine bind_eq_ok.mpr ⟨_, member_stored hkeys rfl rfl, ?_⟩
  refine bind_eq_ok.mpr ⟨_, member_stored hkeys rfl (texts?_ofTexts route.milestones), ?_⟩
  refine bind_eq_ok.mpr ⟨_, member_stored hkeys rfl rfl, ?_⟩
  refine bind_eq_ok.mpr ⟨_, member_stored hkeys rfl (texts?_ofTexts route.dependencies), ?_⟩
  refine bind_eq_ok.mpr ⟨_, member_stored hkeys rfl rfl, ?_⟩
  refine bind_eq_ok.mpr ⟨_, member_stored hkeys rfl rfl, ?_⟩
  refine bind_eq_ok.mpr ⟨_, member_stored hkeys rfl hbudget, ?_⟩
  refine bind_eq_ok.mpr ⟨_, member_stored hkeys rfl (optionalText?_ofText? route.stopReason), ?_⟩
  rfl

variable {plan : RoutePlan F}

/-- A plan is read back as it was stored. -/
theorem planFromValue_stored (h : ∀ route ∈ plan.routes, route.Ordered) :
    planFromValue (planValue plan).stored = .ok plan := by
  have hkeys : ((planMembers plan).map Prod.fst).Nodup := by
    show (["route_plan_id", "run_id", "research_revision", "contract_version", "plan_digest",
      "state", "state_reason", "created_at", "updated_at", "routes"] : List String).Nodup
    decide
  have hroutes : ((plan.routes.map routeValue).map FloatJson.stored).mapM routeFromValue =
      (.ok plan.routes : Except RouteError _) := by
    rw [mapM_eq_ok, List.map_map, List.forall₂_map_left_iff]
    exact List.forall₂_same.mpr fun route hroute => routeFromValue_stored (h route hroute)
  have hitems : sequence? (FloatJson.arr (plan.routes.map routeValue)).stored =
      some ((plan.routes.map routeValue).map FloatJson.stored) := by
    rw [FloatJson.stored, FloatJson.storedItems_eq_map]
    rfl
  unfold planFromValue planValue
  rw [FloatJson.stored]
  refine bind_eq_ok.mpr ⟨_, rfl, ?_⟩
  refine bind_eq_ok.mpr ⟨_, member_stored hkeys rfl rfl, ?_⟩
  refine bind_eq_ok.mpr ⟨_, member_stored hkeys rfl rfl, ?_⟩
  refine bind_eq_ok.mpr ⟨_, member_stored hkeys rfl rfl, ?_⟩
  refine bind_eq_ok.mpr ⟨_, member_stored hkeys rfl rfl, ?_⟩
  refine bind_eq_ok.mpr ⟨_, member_stored hkeys rfl rfl, ?_⟩
  refine bind_eq_ok.mpr ⟨_, member_stored hkeys rfl rfl, ?_⟩
  refine bind_eq_ok.mpr ⟨_, member_stored hkeys rfl (optionalText?_ofText? plan.stateReason), ?_⟩
  refine bind_eq_ok.mpr ⟨_, member_stored hkeys rfl rfl, ?_⟩
  refine bind_eq_ok.mpr ⟨_, member_stored hkeys rfl rfl, ?_⟩
  refine bind_eq_ok.mpr ⟨_, member_stored hkeys rfl hitems, ?_⟩
  exact bind_eq_ok.mpr ⟨_, hroutes, rfl⟩

/-- The row of a request answers with a plan: its result is an object whose plan is read back
as this plan. -/
def Answers (row : RouteCommandRow F) (plan : RoutePlan F) : Prop :=
  ∃ result value, row.result.mapping? = some result ∧
    member some result "plan" = .ok value ∧ planFromValue value = .ok plan

variable {row : RouteCommandRow F} {action : RouteAction} {before after : RouteState}

theorem answers_result {routeIds : List Id} (h : ∀ route ∈ plan.routes, route.Ordered)
    (hrow : row.result =
      (FloatJson.obj (resultMembers action before after routeIds plan)).stored) :
    Answers row plan := by
  have hkeys : ((resultMembers action before after routeIds plan).map Prod.fst).Nodup := by
    show (["action", "state_before", "state_after", "route_ids", "plan"] : List String).Nodup
    decide
  refine ⟨_, _, ?_, member_stored hkeys rfl rfl, planFromValue_stored h⟩
  rw [hrow, FloatJson.stored]
  rfl

variable {requestDigest : Digest} {result : RoutePlanCommandResult F}

/-- A repetition is answered with the plan of the row, when the content is the same. -/
theorem replay_eq_ok : replay requestDigest row = .ok result ↔
      row.requestDigest = requestDigest ∧ ∃ plan, Answers row plan ∧
        result = { requestDigest := requestDigest, replayed := true, plan := plan } := by
  unfold replay
  constructor
  · intro h
    obtain ⟨_, hdigest, h⟩ := bind_eq_ok.mp h
    obtain ⟨members, hmembers, h⟩ := bind_eq_ok.mp h
    obtain ⟨value, hvalue, h⟩ := bind_eq_ok.mp h
    obtain ⟨plan, hplan, h⟩ := bind_eq_ok.mp h
    exact ⟨by simpa using rejectIf_eq_ok.mp hdigest, plan,
      ⟨members, value, orReject_eq_ok.mp hmembers, hvalue, hplan⟩, (pure_eq_ok.mp h).symm⟩
  · rintro ⟨hdigest, plan, ⟨members, value, hmembers, hvalue, hplan⟩, rfl⟩
    refine bind_eq_ok.mpr ⟨(), rejectIf_eq_ok.mpr (by simpa using hdigest), ?_⟩
    refine bind_eq_ok.mpr ⟨members, orReject_eq_ok.mpr hmembers, ?_⟩
    exact bind_eq_ok.mpr ⟨value, hvalue, bind_eq_ok.mpr ⟨plan, hplan, rfl⟩⟩

/-! ## What an action does -/

/-- What an action does to the row of a plan: another plan stays, and the plan of the command
comes from the state before into the state after. -/
def RoutePlanRow.Acted (routePlanId : Id) (before after : RouteState) (row row' : RoutePlanRow F) :
    Prop :=
  row'.routePlanId = row.routePlanId ∧ (row.routePlanId ≠ routePlanId → row' = row) ∧
    (row.routePlanId = routePlanId → row.state = before → row'.state = after)

/-- What an action does to the row of a route: likewise, and a budget in the order of its keys
stays so. -/
def PlannedRouteRow.Acted (routePlanId : Id) (before after : RouteState)
    (row row' : PlannedRouteRow F) : Prop :=
  row'.routePlanId = row.routePlanId ∧ (row.routePlanId ≠ routePlanId → row' = row) ∧
    (row.routePlanId = routePlanId → row.state = before → row'.state = after) ∧
    (row.budget.stored = row.budget → row'.budget.stored = row'.budget)

/-- What an action makes of the store: a plan that is not stopped is acted on with its routes. -/
structure Acted (routePlanId : Id) (before after : RouteState) (store store' : RouteStore F) :
    Prop where
  unstopped : before ≠ .stopped
  plans : List.Forall₂ (RoutePlanRow.Acted routePlanId before after) store.plans store'.plans
  routes : List.Forall₂ (PlannedRouteRow.Acted routePlanId before after) store.routes store'.routes
  fences : store'.fences = store.fences
  commands : store'.commands = store.commands
  activities : store'.activities = store.activities

theorem forall₂_updateWhere {α : Type} {S : α → α → Prop} {test : α → Bool} {change : α → α}
    {table : List α} (hsame : ∀ row ∈ table, test row = false → S row row)
    (hchange : ∀ row ∈ table, test row = true → S row (change row)) :
    List.Forall₂ S table (updateWhere test change table) := by
  unfold updateWhere
  rw [List.forall₂_map_right_iff]
  refine List.forall₂_same.mpr fun row hrow => ?_
  split
  · exact hchange row hrow ‹_›
  · exact hsame row hrow (by simpa using ‹¬ test row = true›)

theorem transitions_unstopped {transition : RouteState → Option RouteState}
    (h : transitions action = some transition) (hafter : transition before = some after) :
    before ≠ .stopped := by
  rintro rfl
  cases action <;> cases h <;> cases hafter

variable {routePlanId : Id}

theorem acted_plans {change : RoutePlanRow F → RoutePlanRow F} (plans : List (RoutePlanRow F))
    (hid : ∀ row, (change row).routePlanId = row.routePlanId)
    (hstate : ∀ row, (change row).state = row.state) :
    List.Forall₂ (RoutePlanRow.Acted routePlanId before before) plans
      (updateWhere (·.routePlanId == routePlanId) change plans) := by
  refine forall₂_updateWhere (fun row _ _ => ⟨rfl, fun _ => rfl, fun _ h => h⟩) ?_
  intro row _ htest
  have heq : row.routePlanId = routePlanId := by simpa using htest
  exact ⟨hid row, fun hne => absurd heq hne, fun _ h => (hstate row).trans h⟩

variable {command : RouteCommand F} {now : Stamp}

/-- Every action that succeeds acts on the plan and on its routes. -/
theorem applyAction_acted {storedDigest : Digest}
    (h : applyAction R command action storedDigest before now store = .ok (store', after)) :
    Acted command.routePlanId before after store store' := by
  unfold applyAction at h
  split at h
  · rename_i transition htransition
    obtain ⟨next, hnext, h⟩ := bind_eq_ok.mp h
    obtain ⟨_, -, h⟩ := bind_eq_ok.mp h
    obtain ⟨rfl, rfl⟩ := Prod.mk.inj (pure_eq_ok.mp h)
    refine ⟨transitions_unstopped htransition (orReject_eq_ok.mp hnext), ?_, ?_, rfl, rfl, rfl⟩
    · refine forall₂_updateWhere ?_ ?_
      · intro row _ htest
        refine ⟨rfl, fun _ => rfl, fun hid hstate => ?_⟩
        simp [hid, hstate] at htest
      · intro row _ htest
        simp only [Bool.and_eq_true, beq_iff_eq] at htest
        exact ⟨rfl, fun hne => absurd htest.1 hne, fun _ _ => rfl⟩
    · refine forall₂_updateWhere ?_ ?_
      · intro row _ htest
        have hne : row.routePlanId ≠ command.routePlanId := by simpa using htest
        exact ⟨rfl, fun _ => rfl, fun heq => absurd heq hne, fun hstored => hstored⟩
      · intro row _ htest
        have heq : row.routePlanId = command.routePlanId := by simpa using htest
        exact ⟨rfl, fun hne => absurd heq hne, fun _ _ => rfl, fun hstored => hstored⟩
  · obtain ⟨_, hstopped, h⟩ := bind_eq_ok.mp h
    have hunstopped : before ≠ .stopped := by simpa using rejectIf_eq_ok.mp hstopped
    split at h
    · obtain ⟨priority, -, h⟩ := bind_eq_ok.mp h
      obtain ⟨rfl, rfl⟩ := Prod.mk.inj (pure_eq_ok.mp h)
      refine ⟨hunstopped, acted_plans _ (by exact fun _ => rfl) (by exact fun _ => rfl), ?_, rfl,
        rfl, rfl⟩
      refine forall₂_updateWhere
        (fun row _ _ => ⟨rfl, fun _ => rfl, fun _ hstate => hstate, fun hstored => hstored⟩) ?_
      intro row _ htest
      have heq : row.routePlanId = command.routePlanId := by simpa using htest
      exact ⟨rfl, fun hne => absurd heq hne, fun _ hstate => hstate, fun hstored => hstored⟩
    · obtain ⟨budget, -, h⟩ := bind_eq_ok.mp h
      obtain ⟨value, -, h⟩ := bind_eq_ok.mp h
      obtain ⟨_, -, h⟩ := bind_eq_ok.mp h
      obtain ⟨rfl, rfl⟩ := Prod.mk.inj (pure_eq_ok.mp h)
      refine ⟨hunstopped, acted_plans _ (by exact fun _ => rfl) (by exact fun _ => rfl), ?_, rfl,
        rfl, rfl⟩
      refine forall₂_updateWhere
        (fun row _ _ => ⟨rfl, fun _ => rfl, fun _ hstate => hstate, fun hstored => hstored⟩) ?_
      intro row _ htest
      have heq : row.routePlanId = command.routePlanId := by simpa using htest
      exact ⟨rfl, fun hne => absurd heq hne, fun _ hstate => hstate,
        fun _ => FloatJson.stored_stored value⟩

theorem setRevision_acted (revision : ℤ) (h : Acted routePlanId before after store store') :
    Acted routePlanId before after store (setRevision routePlanId revision store') := by
  refine ⟨h.unstopped, ?_, h.routes, h.fences, h.commands, h.activities⟩
  unfold setRevision updateWhere
  rw [List.forall₂_map_right_iff]
  refine List.Forall₂.imp (fun row row' hacted => ?_) h.plans
  obtain ⟨hid, hother, hstate⟩ := hacted
  split
  · rename_i htest
    have heq : row'.routePlanId = routePlanId := by simpa using htest
    exact ⟨hid, fun hne => absurd (hid.symm.trans heq) hne, hstate⟩
  · exact ⟨hid, hother, hstate⟩

/-! ## What a call does -/

theorem appendActivity_cases {activity : RouteActivity F}
    {activities activities' : List (RouteActivity F)}
    (h : appendActivity R activity activities = .ok activities') :
    activities' = activities ∨ ∃ row, activities' = activities ++ [row] := by
  unfold appendActivity at h
  dsimp only at h
  split at h
  · cases h
    exact Or.inr ⟨_, rfl⟩
  · obtain ⟨_, -, h⟩ := bind_eq_ok.mp h
    cases h
    exact Or.inl rfl

variable {runId : Id}

theorem assertFence_spec {revision version : ℤ} {u : Unit}
    (h : assertFence runId revision version store = .ok u) :
    store.fences.lookup runId = some ⟨revision, version⟩ := by
  obtain ⟨actual, hactual, h⟩ := bind_eq_ok.mp h
  have heq : actual = ⟨revision, version⟩ := by simpa using rejectIf_eq_ok.mp h
  rw [← heq]
  exact orReject_eq_ok.mp hactual

/-- What a request that was not applied before makes of the store. -/
structure AppliedNew (R : RouteRuntime F) (command : RouteCommand F) (requestDigest : Digest)
    (store store' : RouteStore F) (result : RoutePlanCommandResult F) (row : RouteCommandRow F)
    (moved : RouteStore F) : Prop where
  fence : store.fences.lookup command.runId =
    some ⟨command.expectedRevision, command.contractVersion⟩
  acted : ∃ plan after, store.plans.find? (·.routePlanId == command.routePlanId) = some plan ∧
    Acted command.routePlanId plan.state after store moved
  got : getPlan command.routePlanId moved = .ok result.plan
  answer : result.requestDigest = requestDigest
  request : row.runId = command.runId ∧ row.requestId = command.requestId ∧
    row.requestDigest = requestDigest
  result_eq : ∃ action before after routeIds,
    row.result = (FloatJson.obj (resultMembers action before after routeIds result.plan)).stored
  fresh : ∀ old ∈ store.commands, row.clash old = false
  store_eq : ∃ activities, (activities = store.activities ∨
    ∃ activity, activities = store.activities ++ [activity]) ∧
    store' = { moved with commands := store.commands ++ [row], activities := activities }

variable {eventId : Id}

/-- A new request that succeeds is applied once and leaves a row. -/
theorem applyNew_spec
    (h : applyNew R command action requestDigest now eventId store = .ok (store', result)) :
    ∃ row moved, AppliedNew R command requestDigest store store' result row moved := by
  obtain ⟨_, hfence, h⟩ := bind_eq_ok.mp h
  obtain ⟨plan, hplan, h⟩ := bind_eq_ok.mp h
  obtain ⟨_, -, h⟩ := bind_eq_ok.mp h
  obtain ⟨_, -, h⟩ := bind_eq_ok.mp h
  obtain ⟨_, -, h⟩ := bind_eq_ok.mp h
  obtain ⟨⟨changed, after⟩, hchanged, h⟩ := bind_eq_ok.mp h
  have hacted := setRevision_acted command.expectedRevision (applyAction_acted hchanged)
  obtain ⟨found, hfound, h⟩ := bind_eq_ok.mp h
  obtain ⟨commands, hcommands, h⟩ := bind_eq_ok.mp h
  obtain ⟨activities, hactivities, h⟩ := bind_eq_ok.mp h
  obtain ⟨rfl, rfl⟩ := Prod.mk.inj (pure_eq_ok.mp h)
  obtain ⟨hfresh, rfl⟩ := insertRow_eq_some.mp (orReject_eq_ok.mp hcommands)
  have hactivities := appendActivity_cases hactivities
  rw [hacted.activities] at hactivities
  rw [hacted.commands] at hfresh
  refine ⟨_, _, ⟨assertFence_spec hfence, ⟨plan, after, orReject_eq_ok.mp hplan, hacted⟩, hfound,
    rfl, ⟨rfl, rfl, rfl⟩, ⟨_, _, _, _, rfl⟩, hfresh, activities, hactivities, ?_⟩⟩
  rw [hacted.commands]

/-- What an application of a command does: it answers again from the row of the request, or
applies the request. -/
theorem apply_cases {command : RouteCommand F} {now : Stamp} {eventId : Id}
    {result : RoutePlanCommandResult F}
    (h : apply R command now eventId store = .ok (store', result)) :
    ∃ action request, commandValue R command = .ok (action, request) ∧
      ((∃ row, appliedRow command.runId command.requestId store = some row ∧ store' = store ∧
          replay (R.digest request.stored) row = .ok result) ∨
        appliedRow command.runId command.requestId store = none ∧
          ∃ row moved, AppliedNew R command (R.digest request.stored) store store' result row
            moved) := by
  obtain ⟨⟨action, request⟩, hvalue, h⟩ := bind_eq_ok.mp h
  refine ⟨action, request, hvalue, ?_⟩
  dsimp only at h
  split at h
  · rename_i row hrow
    left
    cases hreplay : replay (R.digest request.stored) row with
    | ok answer =>
      rw [hreplay] at h
      obtain ⟨rfl, rfl⟩ := Prod.mk.inj (Except.ok.inj h)
      exact ⟨row, hrow, rfl, hreplay⟩
    | error error =>
      rw [hreplay] at h
      cases h
  · exact Or.inr ⟨‹_›, applyNew_spec h⟩

/-- What the tables of the store satisfy: plans have one row each, routes are in the state of
their plan, budgets are stored in the order of their keys, and requests have one row each. -/
structure Sound (store : RouteStore F) : Prop where
  plans : (store.plans.map (·.routePlanId)).Nodup
  owned : ∀ route ∈ store.routes, ∃ plan ∈ store.plans,
    plan.routePlanId = route.routePlanId ∧ plan.state = route.state
  budgets : ∀ route ∈ store.routes, route.budget.stored = route.budget
  commands : (store.commands.map fun row => (row.runId, row.requestId)).Nodup

/-- What a call may make of the store. -/
inductive Effect (store : RouteStore F) : RouteStore F → Prop
  | unchanged : Effect store store
  | fenced (fences : List (Id × RunFence)) : Effect store { store with fences := fences }
  | proposed (plan : RoutePlanRow F) (routes : List (PlannedRouteRow F))
      {activities : List (RouteActivity F)}
      (hfresh : ∀ old ∈ store.plans, old.routePlanId ≠ plan.routePlanId)
      (hplan : plan.state = .proposed)
      (hroutes : ∀ route ∈ routes, route.routePlanId = plan.routePlanId ∧
        route.state = .proposed ∧ route.budget.stored = route.budget)
      (hactivities : activities = store.activities ∨
        ∃ activity, activities = store.activities ++ [activity]) :
      Effect store { store with
        plans := store.plans ++ [plan], routes := store.routes ++ routes, activities := activities }
  | applied {plan : RoutePlanRow F} {after : RouteState} {moved : RouteStore F}
      (row : RouteCommandRow F) {activities : List (RouteActivity F)}
      (hplan : plan ∈ store.plans)
      (hacted : Acted plan.routePlanId plan.state after store moved)
      (hfresh : ∀ old ∈ store.commands, row.clash old = false)
      (hactivities : activities = store.activities ∨
        ∃ activity, activities = store.activities ++ [activity]) :
      Effect store { moved with commands := store.commands ++ [row], activities := activities }

/-- A proposal that is registered is found or appended with its routes. -/
theorem registerProposal_effect {proposal : RoutePlanProposal R}
    (h : registerProposal proposal now eventId store = .ok store') : Effect store store' := by
  unfold registerProposal at h
  obtain ⟨_, -, h⟩ := bind_eq_ok.mp h
  split at h
  · obtain ⟨_, -, h⟩ := bind_eq_ok.mp h
    cases h
    exact .unchanged
  · obtain ⟨plans, hplans, h⟩ := bind_eq_ok.mp h
    obtain ⟨_, -, h⟩ := bind_eq_ok.mp h
    obtain ⟨routes, hroutes, h⟩ := bind_eq_ok.mp h
    obtain ⟨activities, hactivities, h⟩ := bind_eq_ok.mp h
    cases h
    obtain ⟨hfresh, rfl⟩ := insertRow_eq_some.mp (orReject_eq_ok.mp hplans)
    rw [eq_append_of_insertRows (orReject_eq_ok.mp hroutes)]
    refine .proposed _ _ ?_ rfl ?_ (appendActivity_cases hactivities)
    · intro old hold heq
      have hclash := hfresh old hold
      simp [RoutePlanRow.clash, heq] at hclash
    · intro route hroute
      obtain ⟨proposed, -, rfl⟩ := List.mem_map.mp hroute
      exact ⟨rfl, rfl, FloatJson.stored_stored _⟩

/-- Every call does one of these things. -/
theorem effect_step (R : RouteRuntime F) (store : RouteStore F) (call : RouteCall R) :
    Effect store (step R store call) := by
  cases call with
  | propose proposal now eventId =>
    simp only [step]
    split
    · exact registerProposal_effect ‹_›
    · exact .unchanged
  | apply command now eventId =>
    simp only [step]
    split
    · rename_i store' result h
      obtain ⟨action, request, -, ⟨row, -, rfl, -⟩ | ⟨-, row, moved, hnew⟩⟩ := apply_cases h
      · exact .unchanged
      · obtain ⟨plan, after, hfound, hacted⟩ := hnew.acted
        obtain ⟨activities, hactivities, rfl⟩ := hnew.store_eq
        have hid : plan.routePlanId = command.routePlanId := by simpa using List.find?_some hfound
        rw [← hid] at hacted
        exact .applied row (List.mem_of_find?_eq_some hfound) hacted hnew.fresh hactivities
    · exact .unchanged
  | setFence runId fence => exact .fenced _

/-- A plan that an action acts on has the same identifier. -/
theorem map_id_acted {plans plans' : List (RoutePlanRow F)}
    (h : List.Forall₂ (RoutePlanRow.Acted routePlanId before after) plans plans') :
    plans'.map (·.routePlanId) = plans.map (·.routePlanId) := by
  induction h with
  | nil => rfl
  | cons hhead _ ih => rw [List.map_cons, List.map_cons, hhead.1, ih]

/-- Every call keeps the tables sound. -/
theorem Effect.sound (h : Effect store store') (hsound : Sound store) : Sound store' := by
  cases h with
  | unchanged => exact hsound
  | fenced fences => exact ⟨hsound.plans, hsound.owned, hsound.budgets, hsound.commands⟩
  | proposed plan routes hfresh hplan hroutes hactivities =>
    refine ⟨?_, ?_, ?_, hsound.commands⟩
    · rw [List.map_append]
      refine nodup_concat_of_fresh hsound.plans fun id hid => ?_
      obtain ⟨old, hold, rfl⟩ := List.mem_map.mp hid
      exact hfresh old hold
    · intro route hroute
      rcases List.mem_append.mp hroute with hold | hnew
      · obtain ⟨owner, howner, hid, hstate⟩ := hsound.owned route hold
        exact ⟨owner, List.mem_append_left _ howner, hid, hstate⟩
      · obtain ⟨hid, hstate, -⟩ := hroutes route hnew
        exact ⟨plan, by simp, hid.symm, hplan.trans hstate.symm⟩
    · intro route hroute
      rcases List.mem_append.mp hroute with hold | hnew
      · exact hsound.budgets route hold
      · exact (hroutes route hnew).2.2
  | @applied plan after moved row activities hplan hacted hfresh hactivities =>
    refine ⟨?_, ?_, ?_, ?_⟩
    · rw [map_id_acted hacted.plans]
      exact hsound.plans
    · intro route' hroute'
      obtain ⟨route, hroute, hid, hother, hmine, -⟩ :=
        exists_left_of_forall₂ hacted.routes route' hroute'
      obtain ⟨owner, howner, hid', hstate⟩ := hsound.owned route hroute
      obtain ⟨owner', howner', hidowner, hotherowner, hmineowner⟩ :=
        exists_of_forall₂ hacted.plans owner howner
      refine ⟨owner', howner', (hidowner.trans hid').trans hid.symm, ?_⟩
      by_cases hplanid : route.routePlanId = plan.routePlanId
      · -- The owner is the plan of the command, in the state before.
        have howns : owner = plan :=
          List.inj_on_of_nodup_map hsound.plans howner hplan (hid'.trans hplanid)
        subst howns
        rw [hmineowner rfl rfl, hmine hplanid hstate.symm]
      · have hne : owner.routePlanId ≠ plan.routePlanId := fun heq =>
          hplanid (hid'.symm.trans heq)
        rw [hotherowner hne, hother hplanid]
        exact hstate
    · intro route' hroute'
      obtain ⟨route, hroute, -, -, -, hstored⟩ :=
        exists_left_of_forall₂ hacted.routes route' hroute'
      exact hstored (hsound.budgets route hroute)
    · rw [List.map_append]
      refine nodup_concat_of_fresh hsound.commands fun key hkey => ?_
      obtain ⟨old, hold, rfl⟩ := List.mem_map.mp hkey
      intro heq
      obtain ⟨hrun, hrequest⟩ := Prod.mk.inj heq
      have hclash := hfresh old hold
      simp [RouteCommandRow.clash, hrun, hrequest] at hclash

theorem sound_reached (R : RouteRuntime F) (calls : List (RouteCall R)) :
    Sound (reached R calls) := by
  refine @runFrom_invariant _ _ (step R) Sound _ ?_ ?_ calls
  · exact ⟨List.nodup_nil, by simp, by simp, List.nodup_nil⟩
  · intro store call hsound
    exact (effect_step R store call).sound hsound

/-- The store after calls and further calls. -/
theorem reached_append (R : RouteRuntime F) (first second : List (RouteCall R)) :
    reached R (first ++ second) = runFrom (step R) (reached R first) second :=
  runFrom_append (step R) {} first second

/-! ## The laws -/

def StatesAgree (store : RouteStore F) : Prop :=
  ∀ route ∈ store.routes, ∃ plan ∈ store.plans, plan.routePlanId = route.routePlanId ∧
    plan.state = route.state ∧ ∀ other ∈ store.plans, other.routePlanId = route.routePlanId →
      other = plan

/-- A plan that is stopped stays as it is, with its routes, whatever is called. -/
def StoppedForever (R : RouteRuntime F) (calls : List (RouteCall R)) : Prop :=
  ∀ first second, calls = first ++ second → ∀ plan ∈ (reached R first).plans,
    plan.state = .stopped → plan ∈ (reached R calls).plans ∧
      (reached R calls).routes.filter (·.routePlanId == plan.routePlanId) =
        (reached R first).routes.filter (·.routePlanId == plan.routePlanId)

/-- A command or a proposal that is bound to another fence than that of its run changes
nothing. -/
def FenceGuards (R : RouteRuntime F) (store : RouteStore F) : Prop :=
  (∀ command now eventId, store.fences.lookup command.runId ≠
    some ⟨command.expectedRevision, command.contractVersion⟩ →
      step R store (.apply command now eventId) = store) ∧
  ∀ proposal now eventId, store.fences.lookup proposal.runId ≠
    some ⟨proposal.researchRevision, proposal.contractVersion⟩ →
      step R store (.propose proposal now eventId) = store

/-- Whether a call is a command with the given request of a run. -/
def RouteCall.isRequest (runId requestId : Id) : RouteCall R → Bool
  | .apply command _ _ => command.runId == runId && command.requestId == requestId
  | _ => false

/-- How many activities the commands with the given request append along a run. -/
def activitiesOf (R : RouteRuntime F) (runId requestId : Id) :
    RouteStore F → List (RouteCall R) → ℕ
  | _, [] => 0
  | store, call :: calls =>
    (if call.isRequest runId requestId then
      (step R store call).activities.length - store.activities.length else 0) +
      activitiesOf R runId requestId (step R store call) calls

/-- A request has at most one row and at most one activity. -/
def OncePerRequest (R : RouteRuntime F) (calls : List (RouteCall R)) : Prop :=
  ∀ runId requestId,
    ((reached R calls).commands.countP fun row =>
      row.runId == runId && row.requestId == requestId) ≤ 1 ∧
    activitiesOf R runId requestId {} calls ≤ 1

/-- Two commands with the same content. -/
def SameContent (R : RouteRuntime F) (command command' : RouteCommand F) : Prop :=
  command'.runId = command.runId ∧ command'.requestId = command.requestId ∧
    ∃ action request action' request', commandValue R command = .ok (action, request) ∧
      commandValue R command' = .ok (action', request') ∧ request'.stored = request.stored

/-- A repetition of a command that was answered is answered with the same plan, whatever has
been called in between, and changes nothing. -/
def RepeatsAnswer (R : RouteRuntime F) (calls : List (RouteCall R)) : Prop :=
  ∀ first command now eventId between store result,
    calls = first ++ .apply command now eventId :: between →
    apply R command now eventId (reached R first) = .ok (store, result) →
    ∀ command' now' eventId', SameContent R command command' →
      apply R command' now' eventId' (reached R calls) =
        .ok (reached R calls, { result with replayed := true })

/-! ## Stopped plans -/

/-- Rows of which those with another key stay as they are. -/
theorem filter_of_forall₂ {other : Id} {routes routes' : List (PlannedRouteRow F)}
    (hne : other ≠ routePlanId)
    (h : List.Forall₂ (PlannedRouteRow.Acted routePlanId before after) routes routes') :
    routes'.filter (·.routePlanId == other) = routes.filter (·.routePlanId == other) := by
  induction h with
  | nil => rfl
  | @cons route route' routes routes' hhead _ ih =>
    obtain ⟨hid, hsame, -, -⟩ := hhead
    by_cases hother : route.routePlanId = other
    · have heq : route' = route := hsame (by rw [hother]; exact hne)
      rw [heq, List.filter_cons_of_pos (by simpa using hother),
        List.filter_cons_of_pos (by simpa using hother), ih]
    · rw [List.filter_cons_of_neg (by simpa [hid] using hother),
        List.filter_cons_of_neg (by simpa using hother), ih]

/-- A call leaves a stopped plan and its routes. -/
theorem Effect.stopped (h : Effect store store') (hsound : Sound store) {plan : RoutePlanRow F}
    (hmem : plan ∈ store.plans) (hstopped : plan.state = .stopped) :
    plan ∈ store'.plans ∧ store'.routes.filter (·.routePlanId == plan.routePlanId) =
      store.routes.filter (·.routePlanId == plan.routePlanId) := by
  cases h with
  | unchanged | fenced => exact ⟨hmem, rfl⟩
  | proposed new routes hfresh hplan hroutes hactivities =>
    refine ⟨List.mem_append_left _ hmem, ?_⟩
    have hnone : routes.filter (·.routePlanId == plan.routePlanId) = [] := by
      refine List.filter_eq_nil_iff.mpr fun route hroute => ?_
      have hne := hfresh plan hmem
      rw [(hroutes route hroute).1]
      simpa using Ne.symm hne
    show (store.routes ++ routes).filter _ = _
    rw [List.filter_append, hnone, List.append_nil]
  | @applied acted after moved row activities hplan hacted hfresh hactivities =>
    have hne : plan.routePlanId ≠ acted.routePlanId := by
      intro heq
      have hsame := List.inj_on_of_nodup_map hsound.plans hmem hplan heq
      rw [hsame] at hstopped
      exact hacted.unstopped hstopped
    obtain ⟨plan', hplan', -, hsame, -⟩ := exists_of_forall₂ hacted.plans plan hmem
    refine ⟨?_, filter_of_forall₂ hne hacted.routes⟩
    rw [hsame hne] at hplan'
    exact hplan'

/-- A stopped plan stays as it is along every run. -/
theorem stoppedForever_reached (R : RouteRuntime F) (calls : List (RouteCall R)) :
    StoppedForever R calls := by
  rintro first second rfl plan hplan hstopped
  refine runFrom_stays (I := fun store : RouteStore F => plan ∈ store.plans ∧
    store.routes.filter (·.routePlanId == plan.routePlanId) = _) ⟨hplan, rfl⟩ ?_ second
  rintro calls call ⟨hmem, hroutes⟩
  have hstep := (effect_step R (reached R calls) call).stopped (sound_reached R calls) hmem hstopped
  exact ⟨hstep.1, hstep.2.trans hroutes⟩

/-! ## Fences -/

/-- The fence of its run guards every call. -/
theorem fenceGuards (R : RouteRuntime F) (store : RouteStore F) : FenceGuards R store := by
  constructor
  · intro command now eventId hfence
    simp only [step]
    split
    · rename_i store' result h
      obtain ⟨action, request, -, ⟨row, -, hsame, -⟩ | ⟨-, row, moved, hnew⟩⟩ := apply_cases h
      · exact hsame
      · exact absurd hnew.fence hfence
    · rfl
  · intro proposal now eventId hfence
    simp only [step]
    split
    · rename_i store' h
      unfold registerProposal at h
      obtain ⟨_, hcheck, -⟩ := bind_eq_ok.mp h
      exact absurd (assertFence_spec hcheck) hfence
    · rfl

/-! ## Requests -/

/-- The row of a request is found after every call. -/
theorem Effect.appliedRow (h : Effect store store') {runId requestId : Id}
    {row : RouteCommandRow F} (hrow : appliedRow runId requestId store = some row) :
    appliedRow runId requestId store' = some row := by
  cases h with
  | unchanged | fenced | proposed => exact hrow
  | applied new hplan hacted hfresh hactivities =>
    unfold Routes.appliedRow at hrow ⊢
    rw [List.find?_append, hrow]
    rfl

variable {requestId : Id}

theorem appliedRow_run {first : List (RouteCall R)}
    (hrow : appliedRow runId requestId (reached R first) = some row) (second : List (RouteCall R)) :
    appliedRow runId requestId (reached R (first ++ second)) = some row :=
  runFrom_stays (I := fun store => appliedRow runId requestId store = some row) hrow
    (fun _ call ih => (effect_step R _ call).appliedRow ih) second

/-- Routes that are read from rows have their budgets in the order of the keys. -/
theorem ordered_of_getPlan (hbudgets : ∀ route ∈ store.routes, route.budget.stored = route.budget)
    (h : getPlan routePlanId store = .ok plan) : ∀ route ∈ plan.routes, route.Ordered := by
  obtain ⟨row, -, h⟩ := bind_eq_ok.mp h
  obtain ⟨routes, hroutes, h⟩ := bind_eq_ok.mp h
  cases pure_eq_ok.mp h
  intro route hroute
  obtain ⟨stored, hstored, hread⟩ :=
    exists_left_of_forall₂ (mapM_eq_ok.mp hroutes) route hroute
  obtain ⟨_, -, hread⟩ := bind_eq_ok.mp hread
  obtain ⟨_, -, hread⟩ := bind_eq_ok.mp hread
  obtain ⟨budget, hbudget, hread⟩ := bind_eq_ok.mp hread
  cases pure_eq_ok.mp hread
  have hmem : stored ∈ store.routes := by
    unfold routesOf at hstored
    exact (List.mem_filter.mp ((List.mem_insertionSort _).mp hstored)).1
  have hobj : stored.budget = .obj budget := by
    have hmapping := orReject_eq_ok.mp hbudget
    cases hcases : stored.budget <;> rw [hcases] at hmapping <;> cases hmapping
    rfl
  have hfixed := hbudgets stored hmem
  rw [hobj] at hfixed
  exact hfixed

/-- After a command was answered its request has a row, which answers with the same plan. -/
theorem appliedRow_of_apply (hsound : Sound store)
    (h : apply R command now eventId store = .ok (store', result)) :
    ∃ action request row, commandValue R command = .ok (action, request) ∧
      result.requestDigest = R.digest request.stored ∧
      appliedRow command.runId command.requestId store' = some row ∧
      row.requestDigest = R.digest request.stored ∧ Answers row result.plan := by
  obtain ⟨action, request, hvalue, ⟨row, hrow, rfl, hreplay⟩ | ⟨hnone, row, moved, hnew⟩⟩ :=
    apply_cases h
  · obtain ⟨hdigest, plan, hanswers, rfl⟩ := replay_eq_ok.mp hreplay
    exact ⟨action, request, row, hvalue, rfl, hrow, hdigest, hanswers⟩
  · obtain ⟨plan, after, hfound, hacted⟩ := hnew.acted
    obtain ⟨activities, -, rfl⟩ := hnew.store_eq
    obtain ⟨_, _, _, _, hresult⟩ := hnew.result_eq
    have hbudgets : ∀ route ∈ moved.routes, route.budget.stored = route.budget := by
      intro route' hroute'
      obtain ⟨route, hroute, -, -, -, hstored⟩ :=
        exists_left_of_forall₂ hacted.routes route' hroute'
      exact hstored (hsound.budgets route hroute)
    refine ⟨action, request, row, hvalue, hnew.answer, ?_, hnew.request.2.2,
      answers_result (ordered_of_getPlan hbudgets hnew.got) hresult⟩
    unfold appliedRow at hnone ⊢
    rw [List.find?_append, hnone]
    simp [hnew.request.1, hnew.request.2.1]

/-- A repetition is answered as the first command was. -/
theorem repeatsAnswer_reached (R : RouteRuntime F) (calls : List (RouteCall R)) :
    RepeatsAnswer R calls := by
  rintro first command now eventId between store result rfl hfirst command' now' eventId'
    ⟨hrun, hrequest, action, request, action', request', hvalue, hvalue', hsame⟩
  obtain ⟨action₀, request₀, row, hvalue₀, hdigest, hrow, hrowdigest, hanswers⟩ :=
    appliedRow_of_apply (sound_reached R first) hfirst
  obtain ⟨rfl, rfl⟩ := Prod.mk.inj (Except.ok.inj (hvalue₀.symm.trans hvalue))
  have hnext : reached R (first ++ [.apply command now eventId]) = store := by
    rw [reached_append]
    simp only [runFrom_cons, runFrom_nil, step, hfirst]
  have hlater := appliedRow_run (hnext ▸ hrow) between
  rw [List.append_assoc, List.singleton_append] at hlater
  have hreplay : replay (R.digest request'.stored) row =
      .ok { result with replayed := true } := by
    rw [hsame]
    refine replay_eq_ok.mpr ⟨hrowdigest, result.plan, hanswers, ?_⟩
    rw [← hdigest]
  unfold apply
  refine bind_eq_ok.mpr ⟨(action', request'), hvalue', ?_⟩
  dsimp only
  rw [hrun, hrequest, hlater]
  show (_ <$> replay (R.digest request'.stored) row) = _
  rw [hreplay]
  rfl

/-- A command whose request has a row appends no activity. -/
theorem activities_of_applied (hrow : appliedRow runId requestId store = some row)
    {call : RouteCall R} (hcall : call.isRequest runId requestId = true) :
    step R store call = store := by
  cases call with
  | propose | setFence => cases hcall
  | apply command now eventId =>
    simp only [RouteCall.isRequest, Bool.and_eq_true, beq_iff_eq] at hcall
    obtain ⟨rfl, rfl⟩ := hcall
    simp only [step]
    split
    · rename_i store' result h
      obtain ⟨action, request, -, ⟨_, -, hsame, -⟩ | ⟨hnone, -⟩⟩ := apply_cases h
      · exact hsame
      · rw [hrow] at hnone
        cases hnone
    · rfl

/-- A command appends at most one activity, and then its request has a row. -/
theorem activities_step (store : RouteStore F) {call : RouteCall R}
    (hcall : call.isRequest runId requestId = true) :
    step R store call = store ∨
      (step R store call).activities.length ≤ store.activities.length + 1 ∧
        ∃ row, appliedRow runId requestId (step R store call) = some row := by
  cases call with
  | propose | setFence => cases hcall
  | apply command now eventId =>
    simp only [RouteCall.isRequest, Bool.and_eq_true, beq_iff_eq] at hcall
    obtain ⟨rfl, rfl⟩ := hcall
    simp only [step]
    split
    · rename_i store' result h
      obtain ⟨action, request, -, ⟨_, -, hsame, -⟩ | ⟨hnone, row, moved, hnew⟩⟩ := apply_cases h
      · exact Or.inl hsame
      · right
        obtain ⟨activities, hactivities, rfl⟩ := hnew.store_eq
        refine ⟨?_, row, ?_⟩
        · rcases hactivities with rfl | ⟨activity, rfl⟩ <;> simp
        · unfold appliedRow at hnone ⊢
          rw [List.find?_append, hnone]
          simp [hnew.request.1, hnew.request.2.1]
    · exact Or.inl rfl

/-- Once a request has a row, no command with it appends an activity. -/
theorem activitiesOf_of_applied (calls : List (RouteCall R))
    (hrow : appliedRow runId requestId store = some row) :
    activitiesOf R runId requestId store calls = 0 := by
  induction calls generalizing store with
  | nil => rfl
  | cons call calls ih =>
    rw [activitiesOf, ih ((effect_step R store call).appliedRow hrow)]
    split
    · rw [activities_of_applied hrow ‹_›]
      omega
    · rfl

/-- The commands with one request append at most one activity along a run. -/
theorem activitiesOf_le_one (store : RouteStore F) (runId requestId : Id)
    (calls : List (RouteCall R)) : activitiesOf R runId requestId store calls ≤ 1 := by
  induction calls generalizing store with
  | nil => exact Nat.zero_le 1
  | cons call calls ih =>
    rw [activitiesOf]
    split
    · rename_i hcall
      rcases activities_step store hcall with hsame | ⟨hle, row, hrow⟩
      · rw [hsame, Nat.sub_self, Nat.zero_add]
        exact ih store
      · rw [activitiesOf_of_applied calls hrow]
        omega
    · rw [Nat.zero_add]
      exact ih _

/-- A request has at most one row and at most one activity after every run. -/
theorem oncePerRequest_reached (R : RouteRuntime F) (calls : List (RouteCall R)) :
    OncePerRequest R calls := by
  intro runId requestId
  refine ⟨?_, activitiesOf_le_one {} runId requestId calls⟩
  have hcount : ((reached R calls).commands.countP fun row =>
      row.runId == runId && row.requestId == requestId) =
      ((reached R calls).commands.map fun row => (row.runId, row.requestId)).count
        (runId, requestId) := by
    rw [List.count_eq_countP, List.countP_map]
    rfl
  rw [hcount]
  exact List.nodup_iff_count_le_one.mp (sound_reached R calls).commands (runId, requestId)

/-- Every route is in the state of the one plan that it belongs to. -/
theorem statesAgree_of_sound (h : Sound store) : StatesAgree store := by
  intro route hroute
  obtain ⟨plan, hplan, hid, hstate⟩ := h.owned route hroute
  exact ⟨plan, hplan, hid, hstate, fun other hother hid' =>
    List.inj_on_of_nodup_map h.plans hother hplan (hid'.trans hid.symm)⟩

/-- The laws of route plans, in every store that calls reach: routes are in the state of their
plan, stopped plans stay as they are, fences guard every call, a request leaves one row and one
activity at most, and its repetition is answered as it was. -/
theorem route_plan_laws (R : RouteRuntime F) (calls : List (RouteCall R)) :
    StatesAgree (reached R calls) ∧ StoppedForever R calls ∧ FenceGuards R (reached R calls) ∧
      OncePerRequest R calls ∧ RepeatsAnswer R calls :=
  ⟨statesAgree_of_sound (sound_reached R calls), stoppedForever_reached R calls,
    fenceGuards R _, oncePerRequest_reached R calls, repeatsAnswer_reached R calls⟩

end ResearchKernel.Product.Routes
