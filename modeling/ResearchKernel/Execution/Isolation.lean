import ResearchKernel.Execution.Turns
import Mathlib.Data.List.MinMax
import Mathlib.Order.Nat

/-!
# Isolation of attempts

The attempts of a run share its files, and the attempts of a route its budget. The guard
looks at both only when an attempt is registered: the new attempt may write no file that an
unfinished attempt of the run may write, and it gets the number after the last one of its
route. What an attempt is registered with never changes, and no operation revives an
attempt that has ended, so both hold in every state.
-/

namespace ResearchKernel

open Foundation

/-- What an attempt is registered with. -/
structure AttemptPlan where
  attemptId : Id
  routeId : Id
  runId : Id
  ordinal : ℕ
  allowedWriteSet : List String

/-- What a route is registered with, as far as its attempts depend on it. -/
structure RoutePlan where
  routeId : Id
  runId : Id
  budgetPolicy : JsonObject

def Attempt.plan (attempt : Attempt) : AttemptPlan where
  attemptId := attempt.attemptId
  routeId := attempt.routeId
  runId := attempt.runId
  ordinal := attempt.ordinal
  allowedWriteSet := attempt.allowedWriteSet

def Route.plan (route : Route) : RoutePlan where
  routeId := route.routeId
  runId := route.runId
  budgetPolicy := route.budgetPolicy

def Db.plans (db : Db) : List RoutePlan × List AttemptPlan :=
  (db.routes.map (·.plan), db.attempts.map (·.plan))

/-- The numbers of the attempts of a route. -/
def Db.ordinalsOf (db : Db) (routeId : Id) : List ℕ :=
  (db.attempts.filter (·.routeId == routeId)).map (·.ordinal)

/-- The number of attempts that the budget policy of a route allows; without a positive limit
it allows none. -/
def Route.attemptsAllowed (route : Route) : ℕ := ((Guard.attemptLimit route).getD 0).toNat

/-- The attempts of every run are isolated from each other, and those of every route are
numbered within its budget. -/
structure AttemptsIsolated (db : Db) : Prop where
  distinct : (db.attempts.map (·.attemptId)).Nodup
  separate : ∀ a ∈ db.attempts, ∀ b ∈ db.attempts, a.runId = b.runId →
    a.attemptId ≠ b.attemptId → Guard.AttemptStatus.isLive a.status = true →
    Guard.AttemptStatus.isLive b.status = true → a.allowedWriteSet.Disjoint b.allowedWriteSet
  numbered : ∀ route ∈ db.routes, ∃ n ≤ route.attemptsAllowed,
    (db.ordinalsOf route.routeId).Perm (List.range' 1 n)

/-- What is kept of routes and attempts by every operation. -/
structure PlanInvariant (db : Db) : Prop where
  routes_unique : (db.routes.map (·.routeId)).Nodup
  routed : ∀ attempt ∈ db.attempts, ∃ route ∈ db.routes,
    route.routeId = attempt.routeId ∧ route.runId = attempt.runId
  isolated : AttemptsIsolated db

/-- What the guard has seen before it lets an attempt be registered. -/
structure RegisterAttempt.Fits (p : RegisterAttempt) (runId : Id) (db : Db) : Prop where
  planned : ∃ route ∈ db.routes, route.routeId = p.routeId ∧ route.runId = runId ∧
    ((db.attempts.filter (·.runId == runId)).filter (·.routeId == p.routeId)).length <
      route.attemptsAllowed
  ordinal_eq : p.ordinal = (((db.attempts.filter (·.runId == runId)).filter
    (·.routeId == p.routeId)).map (·.ordinal)).foldr max 0 + 1
  separate : ∀ attempt ∈ db.attempts, attempt.runId = runId →
    Guard.AttemptStatus.isLive attempt.status = true →
    p.allowedWriteSet.Disjoint attempt.allowedWriteSet

/-- What an operation does to the plans. -/
inductive Planning (db db' : Db) : Prop
  | kept (plans_eq : db'.plans = db.plans) : Planning db db'
  | routed (route : Route) (fresh : ∀ old ∈ db.routes, old.routeId ≠ route.routeId)
      (routes_eq : db'.routes = db.routes ++ [route]) (attempts_eq : db'.attempts = db.attempts) :
      Planning db db'
  | registered (p : RegisterAttempt) (attempt : Attempt) (fits : p.Fits attempt.runId db)
      (routeId_eq : attempt.routeId = p.routeId) (ordinal_eq : attempt.ordinal = p.ordinal)
      (writes_eq : attempt.allowedWriteSet = p.allowedWriteSet)
      (routes_eq : db'.routes = db.routes) (attempts_eq : db'.attempts = db.attempts ++ [attempt]) :
      Planning db db'

section Numbers

/-- The greatest of the first numbers. -/
theorem foldr_max_of_perm {numbers : List ℕ} {n : ℕ} (h : numbers.Perm (List.range' 1 n)) :
    numbers.foldr max 0 = n := by
  apply le_antisymm
  · refine List.max_le_of_forall_le numbers n fun x hx => ?_
    have hrange := List.mem_range'_1.mp (h.mem_iff.mp hx)
    omega
  · rcases Nat.eq_zero_or_pos n with rfl | hpos
    · exact Nat.zero_le _
    · have hmem : n ∈ numbers := h.mem_iff.mpr (List.mem_range'_1.mpr (by omega))
      exact List.le_max_of_le hmem le_rfl

/-- The number after the last one continues the numbering. -/
theorem perm_range'_concat {numbers : List ℕ} {n : ℕ} (h : numbers.Perm (List.range' 1 n)) :
    (numbers ++ [numbers.foldr max 0 + 1]).Perm (List.range' 1 (n + 1)) := by
  rw [foldr_max_of_perm h, List.range'_concat, Nat.one_mul, Nat.add_comm n 1]
  exact h.append_right [1 + n]

end Numbers

section Steps

variable {P : Platform} {policy : Policy} {db db' : Db}

theorem SameBody.routes (h : SameBody db db') : db'.routes = db.routes :=
  congrArg Workings.routes h.workings

theorem SameBody.plans (h : SameBody db db') : db'.plans = db.plans := by
  unfold Db.plans
  rw [h.routes, h.attempts]

/-- Whether a mutation registers a route or an attempt. -/
def Mutation.registersPlan : Mutation → Bool
  | .registerRoute _ | .registerAttempt _ => true
  | _ => false

/-- A mutation that registers no route and no attempt keeps the plans. -/
theorem Projection.plans_of_apply {ctx : ProjectionContext} {m : Mutation}
    (h : applyMutation ctx db m = some db') (hm : m.registersPlan = false) : db'.plans = db.plans := by
  have hworkings := workings_of_apply h
  have hroutes := congrArg Workings.routes hworkings
  have hattempts := congrArg Workings.attempts hworkings
  refine Prod.ext ?_ ?_
  · cases m with
    | registerRoute p => cases hm
    | createContractVersion version replacement =>
      obtain ⟨artifactId, -, h⟩ := Option.bind_eq_some_iff.mp h
      obtain ⟨text, -, h⟩ := Option.bind_eq_some_iff.mp h
      obtain ⟨contracts, -, h⟩ := Option.bind_eq_some_iff.mp h
      obtain rfl := Option.some.inj h
      exact map_updateWhere (by exact fun _ => rfl) db.routes
    | blockRoute id =>
      obtain rfl := Option.some.inj h
      exact map_updateWhere (by exact fun _ => rfl) db.routes
    | _ => exact congrArg (List.map Route.plan) hroutes
  · cases m with
    | registerAttempt p => cases hm
    | pauseActiveAttempts | setAttemptStatus =>
      obtain rfl := Option.some.inj h
      exact map_updateWhere (by exact fun _ => rfl) db.attempts
    | _ => exact congrArg (List.map Attempt.plan) hattempts

/-- Routes and attempts are registered by the commands of these names alone. -/
theorem Guard.Emission.planning {context : GuardContext} {command : Command}
    {mutations : List Mutation} (h : Emission context command mutations) :
    (∃ p, command = .registerRoute p ∧ mutations = [.registerRoute p]) ∨
    (∃ p, command = .registerAttempt p ∧ mutations = [.registerAttempt p]) ∨
    ∀ m ∈ mutations, m.registersPlan = false := by
  cases h with
  | registerRoute p => exact Or.inl ⟨p, rfl, rfl⟩
  | registerAttempt p => exact Or.inr (Or.inl ⟨p, rfl, rfl⟩)
  | recordBudget p =>
    refine Or.inr (Or.inr ?_)
    split
    all_goals exact List.forall_iff_forall_mem.mp (by simp [Mutation.registersPlan])
  | amendContract p contract found =>
    exact Or.inr (Or.inr (List.forall_iff_forall_mem.mp (by simp [amendment, Mutation.registersPlan])))
  | _ => exact Or.inr (Or.inr (List.forall_iff_forall_mem.mp (by simp [Mutation.registersPlan])))

/-- The guard lets an attempt be registered only if it fits. -/
theorem fits_of_registerAttempt {op : ApplyOp} (acceptance : Acceptance P policy db op db')
    {p : RegisterAttempt} (hcommand : op.request.command = .registerAttempt p) :
    p.Fits op.request.runId db := by
  have hhandled := acceptance.handled
  rw [hcommand] at hhandled
  unfold Guard.handle Guard.handleRegisterAttempt at hhandled
  obtain ⟨route, hroute, hhandled⟩ := bind_eq_ok.mp hhandled
  obtain ⟨⟨⟩, hlimit, hhandled⟩ := bind_eq_ok.mp hhandled
  obtain ⟨⟨⟩, hordinal, hhandled⟩ := bind_eq_ok.mp hhandled
  obtain ⟨⟨⟩, -, hhandled⟩ := bind_eq_ok.mp hhandled
  obtain ⟨⟨⟩, hseparate, -⟩ := bind_eq_ok.mp hhandled
  have hattempts : acceptance.context.snapshot.attempts =
      db.attempts.filter (·.runId == op.request.runId) := by
    rw [← acceptance.runId_eq]
    exact acceptance.works.attempts_eq
  rw [orReject_eq_ok] at hroute
  obtain ⟨hfound, -⟩ := Option.filter_eq_some_iff.mp hroute
  obtain ⟨hmem, hid⟩ := mem_of_lookup_records hfound
  change route ∈ acceptance.snapshot.routes at hmem
  rw [acceptance.works.routes_eq, acceptance.runId_eq, List.mem_filter, beq_iff_eq] at hmem
  rw [rejectIf_eq_ok] at hlimit hordinal hseparate
  rw [Bool.not_eq_false', Option.any_eq_true] at hlimit
  obtain ⟨limit, hlimit, hwithin⟩ := hlimit
  simp only [Guard.routeOrdinals, hattempts, List.length_map, Bool.and_eq_true,
    decide_eq_true_eq] at hwithin
  refine ⟨⟨route, hmem.1, hid, hmem.2, ?_⟩, ?_, ?_⟩
  · unfold Route.attemptsAllowed
    rw [hlimit, Option.getD_some]
    omega
  · simpa [Guard.routeOrdinals, hattempts] using hordinal
  · intro attempt hattempt hrun hlive path hpath hother
    rw [hattempts, List.any_eq_false] at hseparate
    have hnone := hseparate attempt (List.mem_filter.mpr ⟨hattempt, by simp [hrun]⟩)
    rw [hlive, Bool.true_and, List.any_eq_true] at hnone
    exact hnone ⟨path, hother, List.contains_iff_mem.mpr hpath⟩

/-- Every operation is one of these. -/
theorem planning_step (op : Op) : Planning db (step P policy db op) := by
  have hmove := @move_step P policy db op
  generalize step P policy db op = db' at hmove
  cases hmove with
  | idle _ _ same | created _ _ run contract begins same
  | reported _ _ _ revision overruns overruns_eq same | claimed _ _ _ claim begins same
  | recorded _ _ _ revision reasons usage usage_eq hclaimed fresh same
  | checkerConsumed _ _ _ _ _ rows _ _ _ _ _ same => exact .kept same.plans
  | applied applied _ accepts acceptance =>
    rcases acceptance.emission.planning with ⟨p, hcommand, hmutations⟩ |
      ⟨p, hcommand, hmutations⟩ | hkeeps
    · obtain ⟨start, last, hstart, hprojected, hlast⟩ := acceptance.projects
      rw [hmutations] at hprojected
      obtain ⟨mid, hfirst, hrest⟩ := Projection.apply_cons_eq_some.mp hprojected
      obtain rfl := Option.some.inj hrest
      obtain ⟨label, -, hfirst⟩ := Option.bind_eq_some_iff.mp hfirst
      obtain ⟨origin, -, hfirst⟩ := Option.bind_eq_some_iff.mp hfirst
      obtain ⟨⟨⟩, -, hfirst⟩ := Option.bind_eq_some_iff.mp hfirst
      obtain ⟨epoch, -, hfirst⟩ := Option.bind_eq_some_iff.mp hfirst
      obtain ⟨⟨⟩, -, hfirst⟩ := Option.bind_eq_some_iff.mp hfirst
      obtain ⟨roots, -, hfirst⟩ := Option.bind_eq_some_iff.mp hfirst
      obtain ⟨routes, hroutes, hfirst⟩ := Option.bind_eq_some_iff.mp hfirst
      obtain ⟨hfresh, rfl⟩ := insertRow_eq_some.mp hroutes
      obtain rfl := Option.some.inj hfirst
      have hend := hlast.routes
      dsimp only at hend
      rw [hstart.routes] at hfresh hend
      refine .routed _ (fun old hold heq => ?_) hend (hlast.attempts.trans hstart.attempts)
      have hclash := hfresh old hold
      simp [Route.clash, heq] at hclash
    · obtain ⟨start, last, hstart, hprojected, hlast⟩ := acceptance.projects
      rw [hmutations] at hprojected
      obtain ⟨mid, hfirst, hrest⟩ := Projection.apply_cons_eq_some.mp hprojected
      obtain rfl := Option.some.inj hrest
      obtain ⟨attempts, hattempts, hfirst⟩ := Option.bind_eq_some_iff.mp hfirst
      obtain ⟨-, rfl⟩ := insertRow_eq_some.mp hattempts
      obtain rfl := Option.some.inj hfirst
      have hend := hlast.attempts
      dsimp only at hend
      rw [hstart.attempts] at hend
      exact .registered p _ (fits_of_registerAttempt acceptance hcommand) rfl rfl rfl
        (hlast.routes.trans hstart.routes) hend
    · exact .kept (acceptance.keeps (fun _ _ same => same.plans)
        fun m hm before after happly => Projection.plans_of_apply happly (hkeeps m hm))
  | beaten => exact .kept rfl
  | recovered capability now claimToken force _ recoveries =>
    refine .kept (recoveries.keeps (fun _ _ same => same.plans) fun db revision claim => ?_)
    exact Prod.ext rfl (map_updateWhere (by exact fun _ => rfl) db.attempts)
  | leanConsumed _ _ _ _ _ rows _ _ _ verified _ _ verified_eq same =>
    obtain ⟨verdicts, claims, rfl⟩ := setKernelVerified_eq rows _ _ verified verified_eq
    exact .kept same.plans

/-! ## The attempts stay isolated -/

/-- What is live after an operation that keeps the plan of an attempt was so before it. -/
theorem Attempt.origin (h : LeaseInvariant db) (op : Op) {attempt' : Attempt}
    (hafter : attempt' ∈ (step P policy db op).attempts)
    (hplan : attempt'.plan ∈ db.attempts.map (·.plan)) :
    ∃ attempt ∈ db.attempts, attempt.plan = attempt'.plan ∧
      (Guard.AttemptStatus.isLive attempt'.status = true →
        Guard.AttemptStatus.isLive attempt.status = true) := by
  obtain ⟨attempt, hattempt, hsame⟩ := List.mem_map.mp hplan
  obtain ⟨next, hnext, hids, hmoves⟩ := @attempt_moves_step P policy db attempt h op hattempt
  have hid : next.attemptId = attempt'.attemptId :=
    hids.attemptId.trans (congrArg AttemptPlan.attemptId hsame)
  obtain rfl := (leaseInvariant_step op h).attempt_eq hnext hafter hid
  refine ⟨attempt, hattempt, hsame, fun hlive => ?_⟩
  rcases hmoves with hstatus | ⟨hunfinished, -⟩
  · rwa [hstatus] at hlive
  · cases hattempt' : attempt.status with
    | queued | running | paused => rfl
    | _ =>
      rw [hattempt'] at hunfinished
      cases hunfinished

/-- The numbers of the attempts of a route depend on the plans alone. -/
theorem ordinalsOf_eq (db : Db) (routeId : Id) : db.ordinalsOf routeId =
    ((db.attempts.map (·.plan)).filter (·.routeId == routeId)).map (·.ordinal) := by
  unfold Db.ordinalsOf
  rw [List.filter_map, List.map_map]
  rfl

theorem PlanInvariant.filter_run (h : PlanInvariant db) {route : Route} (hroute : route ∈ db.routes) :
    (db.attempts.filter (·.runId == route.runId)).filter (·.routeId == route.routeId) =
      db.attempts.filter (·.routeId == route.routeId) := by
  rw [List.filter_filter]
  apply List.filter_congr
  intro attempt hattempt
  obtain ⟨other, hother, hid, hrun⟩ := h.routed attempt hattempt
  by_cases hsame : attempt.routeId = route.routeId
  · obtain rfl := List.inj_on_of_nodup_map h.routes_unique hother hroute (hid.trans hsame)
    simp [hsame, hrun]
  · simp [hsame]

theorem Route.attemptsAllowed_of_plan {route route' : Route} (h : route.plan = route'.plan) :
    route.attemptsAllowed = route'.attemptsAllowed := by
  unfold Route.attemptsAllowed Guard.attemptLimit
  rw [show route.budgetPolicy = route'.budgetPolicy from congrArg RoutePlan.budgetPolicy h]

namespace PlanInvariant

/-- Operations that keep the plans keep the invariant. -/
theorem keep (h : PlanInvariant db) (hleases : LeaseInvariant db) (op : Op)
    (hplans : (step P policy db op).plans = db.plans) : PlanInvariant (step P policy db op) := by
  have hroutes : (step P policy db op).routes.map (·.plan) = db.routes.map (·.plan) :=
    congrArg Prod.fst hplans
  have hattempts : (step P policy db op).attempts.map (·.plan) = db.attempts.map (·.plan) :=
    congrArg Prod.snd hplans
  have horigin : ∀ attempt' ∈ (step P policy db op).attempts, ∃ attempt ∈ db.attempts,
      attempt.plan = attempt'.plan ∧ (Guard.AttemptStatus.isLive attempt'.status = true →
        Guard.AttemptStatus.isLive attempt.status = true) := by
    intro attempt' hattempt'
    refine Attempt.origin hleases op hattempt' ?_
    rw [← hattempts]
    exact List.mem_map_of_mem hattempt'
  have hrouteOrigin : ∀ route' ∈ (step P policy db op).routes, ∃ route ∈ db.routes,
      route.plan = route'.plan := by
    intro route' hroute'
    exact List.mem_map.mp (hroutes ▸ List.mem_map_of_mem hroute')
  refine ⟨?_, ?_, (leaseInvariant_step op hleases).attempts_unique, ?_, ?_⟩
  · have hids := congrArg (List.map RoutePlan.routeId) hroutes
    rw [List.map_map, List.map_map] at hids
    exact hids ▸ h.routes_unique
  · intro attempt' hattempt'
    obtain ⟨attempt, hattempt, hplan, -⟩ := horigin attempt' hattempt'
    obtain ⟨route, hroute, hid, hrun⟩ := h.routed attempt hattempt
    have hmem : route.plan ∈ (step P policy db op).routes.map (·.plan) := by
      rw [hroutes]
      exact List.mem_map_of_mem hroute
    obtain ⟨route', hroute', hsame⟩ := List.mem_map.mp hmem
    exact ⟨route', hroute',
      (congrArg RoutePlan.routeId hsame).trans (hid.trans (congrArg AttemptPlan.routeId hplan)),
      (congrArg RoutePlan.runId hsame).trans (hrun.trans (congrArg AttemptPlan.runId hplan))⟩
  · intro a' ha' b' hb' hrun hne hlive hlive'
    obtain ⟨a, ha, hplan, hback⟩ := horigin a' ha'
    obtain ⟨b, hb, hplan', hback'⟩ := horigin b' hb'
    have hdisjoint := h.isolated.separate a ha b hb
      ((congrArg AttemptPlan.runId hplan).trans
        (hrun.trans (congrArg AttemptPlan.runId hplan').symm))
      (fun hid => hne ((congrArg AttemptPlan.attemptId hplan).symm.trans
        (hid.trans (congrArg AttemptPlan.attemptId hplan')))) (hback hlive) (hback' hlive')
    rwa [show a.allowedWriteSet = a'.allowedWriteSet from
        congrArg AttemptPlan.allowedWriteSet hplan,
      show b.allowedWriteSet = b'.allowedWriteSet from
        congrArg AttemptPlan.allowedWriteSet hplan'] at hdisjoint
  · intro route' hroute'
    obtain ⟨route, hroute, hplan⟩ := hrouteOrigin route' hroute'
    obtain ⟨n, hn, hperm⟩ := h.isolated.numbered route hroute
    refine ⟨n, Route.attemptsAllowed_of_plan hplan ▸ hn, ?_⟩
    rw [ordinalsOf_eq, hattempts, ← ordinalsOf_eq,
      ← show route.routeId = route'.routeId from congrArg RoutePlan.routeId hplan]
    exact hperm

/-- A new route has no attempts. -/
theorem route (h : PlanInvariant db) {route : Route}
    (hfresh : ∀ old ∈ db.routes, old.routeId ≠ route.routeId)
    (hroutes : db'.routes = db.routes ++ [route]) (hattempts : db'.attempts = db.attempts) :
    PlanInvariant db' := by
  refine ⟨?_, ?_, ?_, ?_, ?_⟩
  · rw [hroutes, List.map_append, List.map_singleton]
    refine List.nodup_append.mpr ⟨h.routes_unique, List.nodup_singleton _, ?_⟩
    intro id hid other hother
    obtain ⟨old, hold, rfl⟩ := List.mem_map.mp hid
    rw [List.mem_singleton.mp hother]
    exact hfresh old hold
  · intro attempt hattempt
    rw [hattempts] at hattempt
    obtain ⟨old, hold, hid, hrun⟩ := h.routed attempt hattempt
    refine ⟨old, ?_, hid, hrun⟩
    rw [hroutes]
    exact List.mem_append_left _ hold
  · rw [hattempts]
    exact h.isolated.distinct
  · rw [hattempts]
    exact h.isolated.separate
  · intro other hother
    have hsame : ∀ id, db'.ordinalsOf id = db.ordinalsOf id := by
      intro id
      unfold Db.ordinalsOf
      rw [hattempts]
    rw [hsame]
    rw [hroutes, List.mem_append, List.mem_singleton] at hother
    rcases hother with hother | rfl
    · exact h.isolated.numbered other hother
    · refine ⟨0, Nat.zero_le _, ?_⟩
      have hnone : db.attempts.filter (·.routeId == other.routeId) = [] := by
        rw [List.filter_eq_nil_iff]
        intro attempt hattempt hid
        obtain ⟨old, hold, holdId, -⟩ := h.routed attempt hattempt
        exact hfresh old hold (holdId.trans (beq_iff_eq.mp hid))
      unfold Db.ordinalsOf
      rw [hnone]
      exact List.Perm.refl _

/-- A new attempt fits into the isolation of the others. -/
theorem register (h : PlanInvariant db) {p : RegisterAttempt} {attempt : Attempt}
    (hfits : p.Fits attempt.runId db) (hroute : attempt.routeId = p.routeId)
    (hordinal : attempt.ordinal = p.ordinal)
    (hwrites : attempt.allowedWriteSet = p.allowedWriteSet) (hroutes : db'.routes = db.routes)
    (hattempts : db'.attempts = db.attempts ++ [attempt])
    (hdistinct : (db'.attempts.map (·.attemptId)).Nodup) : PlanInvariant db' := by
  obtain ⟨route, hplanned, hid, hrun, hbudget⟩ := hfits.planned
  have hfilter := h.filter_run hplanned
  rw [hrun, hid] at hfilter
  refine ⟨hroutes ▸ h.routes_unique, ?_, hdistinct, ?_, ?_⟩
  · intro other hother
    rw [hroutes]
    rw [hattempts, List.mem_append, List.mem_singleton] at hother
    rcases hother with hother | rfl
    · exact h.routed other hother
    · exact ⟨route, hplanned, hid.trans hroute.symm, hrun⟩
  · intro a ha b hb hsame hne hlive hlive'
    rw [hattempts, List.mem_append, List.mem_singleton] at ha hb
    rcases ha with ha | rfl
    · rcases hb with hb | rfl
      · exact h.isolated.separate a ha b hb hsame hne hlive hlive'
      · rw [hwrites]
        exact (hfits.separate a ha hsame hlive).symm
    · rcases hb with hb | rfl
      · rw [hwrites]
        exact hfits.separate b hb hsame.symm hlive'
      · exact absurd rfl hne
  · intro other hother
    rw [hroutes] at hother
    obtain ⟨n, hn, hperm⟩ := h.isolated.numbered other hother
    by_cases hsame : other.routeId = p.routeId
    · obtain rfl := List.inj_on_of_nodup_map h.routes_unique hother hplanned (hsame.trans hid.symm)
      -- The guard has counted and numbered the attempts of this very route.
      have hordinals : db'.ordinalsOf other.routeId =
          db.ordinalsOf other.routeId ++ [(db.ordinalsOf other.routeId).foldr max 0 + 1] := by
        unfold Db.ordinalsOf
        rw [hattempts, List.filter_append, List.map_append, hsame, ← hfilter, ← hfits.ordinal_eq,
          ← hordinal, List.filter_singleton, hroute, beq_self_eq_true]
        rfl
      rw [hordinals]
      refine ⟨n + 1, ?_, perm_range'_concat hperm⟩
      have hlength := hperm.length_eq
      rw [List.length_range', Db.ordinalsOf, List.length_map, hsame, ← hfilter] at hlength
      omega
    · have hordinals : db'.ordinalsOf other.routeId = db.ordinalsOf other.routeId := by
        unfold Db.ordinalsOf
        rw [hattempts, List.filter_append, List.filter_singleton, hroute,
          beq_false_of_ne (Ne.symm hsame), cond_false, List.append_nil]
      rw [hordinals]
      exact ⟨n, hn, hperm⟩

end PlanInvariant

theorem planInvariant_empty : PlanInvariant Db.empty where
  routes_unique := List.nodup_nil
  routed := by simp [Db.empty]
  isolated := ⟨List.nodup_nil, by simp [Db.empty], by simp [Db.empty]⟩

/-- Every operation keeps the attempts isolated. -/
theorem planInvariant_step (hleases : LeaseInvariant db) (op : Op) (h : PlanInvariant db) :
    PlanInvariant (step P policy db op) := by
  cases @planning_step P policy db op with
  | kept hplans => exact h.keep hleases op hplans
  | routed route hfresh hroutes hattempts => exact h.route hfresh hroutes hattempts
  | registered p attempt hfits hroute hordinal hwrites hroutes hattempts =>
    exact h.register hfits hroute hordinal hwrites hroutes hattempts
      (leaseInvariant_step op hleases).attempts_unique

end Steps

/-- In every reachable state the unfinished attempts of a run write different files, and the
attempts of a route are numbered from one on within its budget. -/
theorem attempts_isolated_of_reached (P : Platform) (policy : Policy) (ops : List Op) :
    AttemptsIsolated (reached P policy ops) := by
  refine (@runFrom_invariant Db Op (step P policy) (fun db => LeaseInvariant db ∧ PlanInvariant db)
    Db.empty ⟨leaseInvariant_empty, planInvariant_empty⟩ ?_ ops).2.isolated
  intro db op h
  exact ⟨leaseInvariant_step op h.1, planInvariant_step h.1 op h.2⟩

end ResearchKernel
