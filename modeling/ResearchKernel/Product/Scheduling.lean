import ResearchKernel.Foundation.Runs
import ResearchKernel.Foundation.Sums
import ResearchKernel.Product.Placement

/-!
# Capacity and order of scheduled work

What a call does to the store is said once: it creates a plan, moves its state, pauses or
resumes its queue, starts items of the queue, finishes one, or moves one promotion. From this
it follows that no group runs more items than its largest capacity, that no item is started
twice or while its plan is paused, that a pause keeps the queue, and that promotions follow
the numbers of the items, in whatever order the executions finish.
-/

namespace ResearchKernel.Product.Placement

open Foundation

variable {P : Platform} {store : SchedulingStore} {work : List ScheduledWorkRow}

/-! ## What the tables say -/

/-- How many items of a group of a plan are running. -/
def runningIn (plan : Id) (group : String) (work : List ScheduledWorkRow) : ℕ :=
  work.countP fun row =>
    row.schedulePlanId == plan && row.concurrencyGroup == group && row.state == .running

/-- The largest capacity of the items of a group of a plan. -/
def largestCapacity (plan : Id) (group : String) (work : List ScheduledWorkRow) : ℕ :=
  ((work.filter fun row => row.schedulePlanId == plan && row.concurrencyGroup == group).map
    (·.groupCapacity)).foldl max 0

def planState (plan : Id) (store : SchedulingStore) : Option PlanState :=
  (store.plans.find? (·.schedulePlanId == plan)).map (·.state)

def itemsIn (plan : Id) (state : WorkState) (store : SchedulingStore) : List Id :=
  (store.work.filter fun row => row.schedulePlanId == plan && row.state == state).map
    (·.workItemId)

/-- Whether an item is running. -/
def IsRunning (item : Id) (store : SchedulingStore) : Prop :=
  ∃ row ∈ store.work, row.workItemId = item ∧ row.state = .running

/-- A call starts an item: the item runs after it and did not run before. -/
def Starts (P : Platform) (item : Id) (store : SchedulingStore) (call : SchedulingCall) : Prop :=
  IsRunning item (step P store call) ∧ ¬ IsRunning item store

/-- No group runs more items than its largest capacity. -/
def WithinCapacity (work : List ScheduledWorkRow) : Prop :=
  ∀ plan group, runningIn plan group work ≤ largestCapacity plan group work

/-- In the run of the calls every item is started at most once. -/
def StartsOnce (P : Platform) (calls : List SchedulingCall) : Prop :=
  ∀ first call between again last item, calls = first ++ call :: between ++ again :: last →
    Starts P item (reached P first) call →
      ¬ Starts P item (reached P (first ++ call :: between)) again

def StartsFromQueue (P : Platform) (store : SchedulingStore) : Prop :=
  ∀ call item, Starts P item store call → ∃ row ∈ store.work, row.workItemId = item ∧
    row.state = .queued ∧ planState row.schedulePlanId store = some .running

/-- Whatever is called while a plan is paused, it resumes with the queue it was paused with. -/
def PauseKeepsQueue (P : Platform) (calls : List SchedulingCall) : Prop :=
  ∀ first pause waiting resume last plan,
    calls = first ++ pause :: waiting ++ resume :: last →
    planState plan (reached P first) ≠ some .budgetPaused →
    (∀ n ≤ waiting.length,
      planState plan (reached P (first ++ pause :: waiting.take n)) = some .budgetPaused) →
    planState plan (reached P (first ++ pause :: waiting ++ [resume])) ≠ some .budgetPaused →
      itemsIn plan .queued (reached P (first ++ pause :: waiting ++ [resume])) =
        itemsIn plan .queued (reached P first)

/-- A plan promotes one item at a time. -/
def OneClaimed (work : List ScheduledWorkRow) : Prop :=
  ∀ plan, (work.countP fun row =>
    row.schedulePlanId == plan && row.promotionState == .claimed) ≤ 1

/-- A promotion that has been taken up. -/
def PromotionState.isTaken : PromotionState → Bool
  | .claimed | .promoted => true
  | _ => false

def PromotionState.isOver : PromotionState → Bool
  | .promoted | .notEligible => true
  | _ => false

/-- A promotion is taken up when those of all smaller numbers of the plan are over. -/
def PromotesInOrder (work : List ScheduledWorkRow) : Prop :=
  ∀ a ∈ work, ∀ b ∈ work, b.schedulePlanId = a.schedulePlanId →
    a.promotionState.isTaken = true → b.stableOrdinal < a.stableOrdinal →
      b.promotionState.isOver = true

/-! ## What a call does -/

/-- Work that was claimed and has not finished or that has. -/
def WorkState.isEnded : WorkState → Bool
  | .succeeded | .failed => true
  | _ => false

/-- Start an item if it is queued. -/
def startItem (item : Id) (startedAt : Stamp) (work : List ScheduledWorkRow) :
    List ScheduledWorkRow :=
  updateWhere (fun other => other.workItemId == item && other.state == .queued)
    (fun other => { other with state := .running, startedAt := some startedAt }) work

/-- The rows that a new plan brings along. -/
structure Brings (store : SchedulingStore) (plan : SchedulePlanRow)
    (rows : List ScheduledWorkRow) : Prop where
  fresh : ∀ old ∈ store.plans, old.schedulePlanId ≠ plan.schedulePlanId
  ready : plan.state = .ready
  rows : ∀ row ∈ rows, row.schedulePlanId = plan.schedulePlanId ∧ row.state = .queued ∧
    row.promotionState = .waiting

/-- What a call may make of the store, with what was checked. -/
inductive Effect (store : SchedulingStore) : SchedulingStore → Prop
  | unchanged : Effect store store
  | created {plan : SchedulePlanRow} {rows work : List ScheduledWorkRow}
      (hbrings : Brings store plan rows)
      (hrows : insertRows ScheduledWorkRow.clash rows store.work = some work) :
      Effect store { plans := store.plans ++ [plan], work := work }
  | started (plan : Id) (now : Stamp) :
      Effect store { store with
        plans := updateWhere (fun row => row.schedulePlanId == plan && row.state == .ready)
          (fun row => { row with state := .running, updatedAt := now }) store.plans }
  | paused {plan : Id} (reason : Option String) (now : Stamp)
      (hplan : planState plan store = some .running) :
      Effect store { plans := setPlan plan .budgetPaused reason now store.plans
                     work := moveWork plan .queued .budgetPaused store.work }
  | resumed {plan : Id} (now : Stamp) (hplan : planState plan store = some .budgetPaused) :
      Effect store { plans := setPlan plan .running none now store.plans
                     work := moveWork plan .budgetPaused .queued store.work }
  | claimed {plan : Id} (startedAt : Stamp) (hplan : planState plan store = some .running) :
      Effect store { store with
        work := ((queuedWork plan store.work).foldl (claimRow startedAt)
          { work := store.work, running := runningCounts plan store.work, claimed := [] }).work }
  | finished (receipt : PlacementExecutionReceipt) :
      Effect store { store with
        work := updateWhere
          (fun row => row.workItemId == receipt.workItemId && row.state == .running)
          (·.finished receipt) store.work }
  | promotionClaimed {plan : Id} {row : ScheduledWorkRow} (claimedAt : Stamp)
      (hfirst : (openPromotions plan store.work).head? = some row)
      (hstate : row.state = .succeeded) (hwaiting : row.promotionState = .waiting) :
      Effect store { store with
        work := updateWhere (·.workItemId == row.workItemId)
          (fun other => { other with
            promotionState := .claimed, promotionClaimedAt := some claimedAt }) store.work }
  | promoted (item : Id) (promotedAt : Stamp) :
      Effect store { store with
        work := updateWhere
          (fun row => row.workItemId == item && row.promotionState == .claimed)
          (fun row => { row with promotionState := .promoted, promotedAt := some promotedAt })
          store.work }

variable {plan : Id}

theorem planState_of_find {row : SchedulePlanRow}
    (h : store.plans.find? (·.schedulePlanId == plan) = some row) :
    planState plan store = some row.state := by
  unfold planState
  rw [h]
  rfl

variable {requirements : List WorkRequirement} {row : ScheduledWorkRow}

/-- The rows of a new plan belong to it and wait in its queue. -/
theorem workRows_queued {placements : List PlacementDecision}
    (h : row ∈ workRows plan requirements placements) :
    row.schedulePlanId = plan ∧ row.state = .queued ∧ row.promotionState = .waiting := by
  obtain ⟨item, -, rfl⟩ := List.mem_map.mp h
  exact ⟨rfl, rfl, rfl⟩

variable {store' : SchedulingStore}

/-- Creating a plan finds it or adds it with its queue. -/
theorem createPlan_effect {runId : Id} {hardware planner : HardwareProfile} {createdAt : Stamp}
    {digest : Digest} (h : createPlan P plan runId hardware requirements planner createdAt store =
      .ok (store', digest)) : Effect store store' := by
  unfold createPlan at h
  obtain ⟨_, -, h⟩ := bind_eq_ok.mp h
  obtain ⟨placements, -, h⟩ := bind_eq_ok.mp h
  obtain ⟨found, -, h⟩ := bind_eq_ok.mp h
  split at h
  · obtain ⟨_, -, h⟩ := bind_eq_ok.mp h
    cases h
    exact .unchanged
  · rename_i hnone
    obtain ⟨plans, hplans, h⟩ := bind_eq_ok.mp h
    obtain ⟨work, hwork, h⟩ := bind_eq_ok.mp h
    cases h
    obtain ⟨-, rfl⟩ := insertRow_eq_some.mp (orReject_eq_ok.mp hplans)
    refine .created ⟨?_, rfl, fun row hrow => workRows_queued hrow⟩ (orReject_eq_ok.mp hwork)
    intro old hold heq
    have hmiss := List.find?_eq_none.mp hnone old hold
    exact hmiss (by simpa using heq)

/-- Backpressure pauses a running plan, resumes a paused one, or does nothing. -/
theorem applyBackpressure_effect {decision : BackpressureDecision} {now : Stamp}
    (h : applyBackpressure plan decision now store = .ok store') :
    Effect store store' := by
  unfold applyBackpressure at h
  obtain ⟨row, hrow, h⟩ := bind_eq_ok.mp h
  have hstate := planState_of_find (orReject_eq_ok.mp hrow)
  split at h
  · split at h
    · cases h
      exact .resumed now (by rw [hstate, ‹row.state = .budgetPaused›])
    · cases h
      exact .unchanged
  · split at h
    · cases h
      exact .paused decision.reason now (by rw [hstate, ‹row.state = .running›])
    · cases h
      exact .unchanged

variable {startedAt : Stamp}

theorem claimReady_effect {items : List Id}
    (h : claimReady plan startedAt store = .ok (store', items)) :
    Effect store store' := by
  unfold claimReady at h
  obtain ⟨row, hrow, h⟩ := bind_eq_ok.mp h
  have hstate := planState_of_find (orReject_eq_ok.mp hrow)
  split at h
  · cases h
    exact .claimed startedAt (by rw [hstate, ‹row.state = .running›])
  · cases h
    exact .unchanged

theorem claimNextPromotion_effect (plan : Id) (claimedAt : Stamp) (store : SchedulingStore) :
    Effect store (claimNextPromotion plan claimedAt store).1 := by
  unfold claimNextPromotion
  split
  · exact .unchanged
  · rename_i row hfirst
    split
    · exact .unchanged
    · have hpair := not_not.mp ‹¬ (row.state, row.promotionState) ≠ _›
      exact .promotionClaimed claimedAt hfirst (congrArg Prod.fst hpair) (congrArg Prod.snd hpair)

/-- Every call does one of these things. -/
theorem effect_step (P : Platform) (store : SchedulingStore) (call : SchedulingCall) :
    Effect store (step P store call) := by
  unfold step
  split
  · rename_i store' h
    cases call with
    | createPlan plan runId hardware requirements planner createdAt =>
      obtain ⟨digest, h⟩ := map_fst_eq_ok.mp h
      exact createPlan_effect h
    | start plan now =>
      obtain ⟨_, -, h⟩ := bind_eq_ok.mp h
      cases h
      exact .started plan now
    | applyBackpressure plan decision now => exact applyBackpressure_effect h
    | claimReady plan startedAt =>
      obtain ⟨items, h⟩ := map_fst_eq_ok.mp h
      exact claimReady_effect h
    | finish receipt =>
      obtain ⟨row, -, h⟩ := bind_eq_ok.mp h
      obtain ⟨_, -, h⟩ := bind_eq_ok.mp h
      obtain ⟨_, -, h⟩ := bind_eq_ok.mp h
      cases h
      exact .finished receipt
    | claimNextPromotion plan claimedAt =>
      cases h
      exact claimNextPromotion_effect plan claimedAt store
    | markPromoted item promotedAt =>
      obtain ⟨_, -, h⟩ := bind_eq_ok.mp h
      cases h
      exact .promoted item promotedAt
  · exact .unchanged

/-! ## How items move -/

/-- The columns of an item that no call changes. -/
def ScheduledWorkRow.columns (row : ScheduledWorkRow) : Id × Id × ℕ × String × ℕ :=
  (row.workItemId, row.schedulePlanId, row.stableOrdinal, row.concurrencyGroup,
    row.groupCapacity)

/-- What a call does to the state of an item: nothing, or it starts a queued item of a running
plan, pauses a queued one, queues a paused one, or ends a running one. -/
inductive StateMoves (store : SchedulingStore) (plan : Id) : WorkState → WorkState → Prop
  | same (state : WorkState) : StateMoves store plan state state
  | started (hplan : planState plan store = some .running) :
      StateMoves store plan .queued .running
  | paused : StateMoves store plan .queued .budgetPaused
  | resumed : StateMoves store plan .budgetPaused .queued
  | ended {state : WorkState} (hended : state.isEnded = true) :
      StateMoves store plan .running state

/-- What a call does to an item. -/
structure ScheduledWorkRow.Moves (store : SchedulingStore) (row row' : ScheduledWorkRow) :
    Prop where
  columns : row'.columns = row.columns
  state : StateMoves store row.schedulePlanId row.state row'.state

theorem ScheduledWorkRow.Moves.refl (row : ScheduledWorkRow) : row.Moves store row :=
  ⟨rfl, .same _⟩

theorem ScheduledWorkRow.Moves.item {row' : ScheduledWorkRow} (h : row.Moves store row') :
    row'.workItemId = row.workItemId :=
  congrArg (·.1) h.columns

/-- What the keys of the tables say: plans and items have one row each, the items of a plan
have numbers of their own, and their plan is there. -/
structure Keyed (store : SchedulingStore) : Prop where
  plans : (store.plans.map (·.schedulePlanId)).Nodup
  items : (store.work.map (·.workItemId)).Nodup
  numbers : (store.work.map fun row => (row.schedulePlanId, row.stableOrdinal)).Nodup
  planned : ∀ row ∈ store.work, row.schedulePlanId ∈ store.plans.map (·.schedulePlanId)

variable {test : ScheduledWorkRow → Bool} {change : ScheduledWorkRow → ScheduledWorkRow}

/-- An update moves the items that it picks. -/
theorem forall₂_updateWhere (h : ∀ row ∈ work, test row = true → row.Moves store (change row)) :
    List.Forall₂ (ScheduledWorkRow.Moves store) work (updateWhere test change work) := by
  unfold updateWhere
  rw [List.forall₂_map_right_iff]
  refine List.forall₂_same.mpr fun row hrow => ?_
  split
  · exact h row hrow ‹_›
  · exact .refl row

/-- The loop over the queue leaves an item or starts it. -/
theorem claimRow_work (startedAt : Stamp) (pass : ClaimPass) (row : ScheduledWorkRow) :
    (claimRow startedAt pass row).work = pass.work ∨
      (claimRow startedAt pass row).work = startItem row.workItemId startedAt pass.work := by
  unfold claimRow
  split
  · exact Or.inl rfl
  · exact Or.inr rfl

/-- What starting an item of the queue preserves, the loop over the queue preserves. -/
theorem foldl_claimRow_invariant {Q : List ScheduledWorkRow → Prop} {rows : List ScheduledWorkRow}
    (hstart : ∀ row ∈ rows, ∀ work, Q work → Q (startItem row.workItemId startedAt work))
    {pass : ClaimPass} (h : Q pass.work) : Q (rows.foldl (claimRow startedAt) pass).work := by
  induction rows generalizing pass with
  | nil => exact h
  | cons row rows ih =>
    refine ih (fun other hother => hstart other (List.mem_cons_of_mem _ hother)) ?_
    rcases claimRow_work startedAt pass row with hwork | hwork
    · rw [hwork]
      exact h
    · rw [hwork]
      exact hstart row List.mem_cons_self _ h

theorem mem_queuedWork :
    row ∈ queuedWork plan work ↔ row ∈ work ∧ row.schedulePlanId = plan ∧ row.state = .queued := by
  unfold queuedWork
  rw [List.mem_insertionSort, List.mem_filter]
  simp

/-- An item after the loop is the item before it, or it was queued and was started. -/
def StartedIn (plan : Id) (row row' : ScheduledWorkRow) : Prop :=
  row' = row ∨ row'.columns = row.columns ∧ row.schedulePlanId = plan ∧ row.state = .queued ∧
    row'.state = .running ∧ row'.promotionState = row.promotionState

/-- The loop over the queue of a plan starts items of the plan only. -/
theorem forall₂_claimed (hitems : (work.map (·.workItemId)).Nodup) (plan : Id)
    (startedAt : Stamp) {pass : ClaimPass} (hpass : pass.work = work) :
    List.Forall₂ (StartedIn plan) work
      ((queuedWork plan work).foldl (claimRow startedAt) pass).work := by
  refine foldl_claimRow_invariant (Q := fun work' => List.Forall₂ (StartedIn plan) work work')
    ?_ ?_
  · intro chosen hchosen work' hwork'
    obtain ⟨hmem, hplan, -⟩ := mem_queuedWork.mp hchosen
    unfold startItem updateWhere
    rw [List.forall₂_map_right_iff]
    refine forall₂_imp_of_mem hwork' fun row hrow row' hstarted => ?_
    split
    · rename_i htest
      simp only [Bool.and_eq_true, beq_iff_eq] at htest
      rcases hstarted with rfl | ⟨-, -, -, hrunning, -⟩
      · -- The row with the identifier of the chosen one is the chosen one.
        have heq := List.inj_on_of_nodup_map hitems hrow hmem htest.1
        exact Or.inr ⟨rfl, heq ▸ hplan, htest.2, rfl, rfl⟩
      · rw [hrunning] at htest
        cases htest.2
    · exact hstarted
  · rw [hpass]
    exact List.forall₂_same.mpr fun row _ => Or.inl rfl

/-- A call moves the items that are there, and appends the queue of a new plan. -/
theorem Effect.forall₂ (h : Effect store store') (hkeyed : Keyed store) :
    (∃ rows, store'.work = store.work ++ rows ∧ ∀ row ∈ rows, row.state = .queued) ∨
      List.Forall₂ (ScheduledWorkRow.Moves store) store.work store'.work := by
  cases h with
  | unchanged | started => exact Or.inr (List.forall₂_same.mpr fun row _ => .refl row)
  | created hbrings hrows =>
    exact Or.inl ⟨_, eq_append_of_insertRows hrows, fun row hrow => (hbrings.rows row hrow).2.1⟩
  | paused reason now hplan =>
    refine Or.inr (forall₂_updateWhere fun row _ htest => ⟨rfl, ?_⟩)
    simp only [Bool.and_eq_true, beq_iff_eq] at htest
    rw [htest.2]
    exact .paused
  | resumed now hplan =>
    refine Or.inr (forall₂_updateWhere fun row _ htest => ⟨rfl, ?_⟩)
    simp only [Bool.and_eq_true, beq_iff_eq] at htest
    rw [htest.2]
    exact .resumed
  | @claimed plan startedAt hplan =>
    refine Or.inr (List.Forall₂.imp (fun row row' hrow => ?_)
      (forall₂_claimed hkeyed.items plan startedAt rfl))
    rcases hrow with rfl | ⟨hcolumns, hrow, hqueued, hrunning, -⟩
    · exact .refl _
    · refine ⟨hcolumns, ?_⟩
      rw [hqueued, hrunning, hrow]
      exact .started hplan
  | finished receipt =>
    refine Or.inr (forall₂_updateWhere fun row _ htest => ⟨rfl, ?_⟩)
    simp only [Bool.and_eq_true, beq_iff_eq] at htest
    rw [htest.2]
    refine .ended ?_
    cases houtcome : receipt.outcome <;> simp [ScheduledWorkRow.finished, houtcome,
      ExecutionOutcome.workState, WorkState.isEnded]
  | promotionClaimed claimedAt hfirst hstate hwaiting =>
    exact Or.inr (forall₂_updateWhere fun row _ _ => ⟨rfl, .same _⟩)
  | promoted item promotedAt =>
    exact Or.inr (forall₂_updateWhere fun row _ _ => ⟨rfl, .same _⟩)

/-- Every item is there after a call, moved. -/
theorem Effect.kept (h : Effect store store') (hkeyed : Keyed store) :
    Kept (ScheduledWorkRow.Moves store) store.work store'.work := by
  rcases h.forall₂ hkeyed with ⟨rows, hwork, -⟩ | hmoves
  · rw [hwork]
    exact Kept.append .refl _ _
  · intro row hrow
    exact exists_of_forall₂ hmoves row hrow

/-- Every item after a call was there and has moved, or is queued for the first time. -/
theorem Effect.stems (h : Effect store store') (hkeyed : Keyed store) :
    Stems (ScheduledWorkRow.Moves store) (fun row => row.state = .queued) store.work
      store'.work := by
  rcases h.forall₂ hkeyed with ⟨rows, hwork, hrows⟩ | hmoves
  · rw [hwork]
    exact Stems.append .refl hrows _
  · intro row' hrow'
    obtain ⟨row, hrow, hmove⟩ := exists_left_of_forall₂ hmoves row' hrow'
    exact Or.inl ⟨row, hrow, hmove⟩

/-! ## Keys -/

/-- Setting the state of plans keeps their identifiers. -/
theorem map_id_setPlan (plan : Id) (state : PlanState) (reason : Option String) (now : Stamp)
    (plans : List SchedulePlanRow) :
    (setPlan plan state reason now plans).map (·.schedulePlanId) =
      plans.map (·.schedulePlanId) :=
  map_updateWhere (by exact fun _ => rfl) plans

/-- Where the plans keep their identifiers and the items their columns, the keys hold. -/
theorem Keyed.of_columns (h : Keyed store)
    (hplans : store'.plans.map (·.schedulePlanId) = store.plans.map (·.schedulePlanId))
    (hwork : store'.work.map (·.columns) = store.work.map (·.columns)) : Keyed store' := by
  have hcolumn : ∀ {κ : Type} (f : Id × Id × ℕ × String × ℕ → κ),
      store'.work.map (fun row => f row.columns) = store.work.map fun row => f row.columns := by
    intro κ f
    have h := congrArg (List.map f) hwork
    rwa [List.map_map, List.map_map] at h
  have hitems := hcolumn (·.1)
  have hnumbers := hcolumn fun c => (c.2.1, c.2.2.1)
  have howners := hcolumn (·.2.1)
  refine ⟨hplans ▸ h.plans, hitems ▸ h.items, hnumbers ▸ h.numbers, fun row hrow => ?_⟩
  have hmem : row.schedulePlanId ∈ store.work.map (·.columns.2.1) :=
    howners ▸ List.mem_map_of_mem hrow
  obtain ⟨old, hold, heq⟩ := List.mem_map.mp hmem
  rw [hplans, ← heq]
  exact h.planned old hold

/-- A new plan with its queue has keys of its own. -/
theorem Keyed.created {plan : SchedulePlanRow} {rows work : List ScheduledWorkRow}
    (h : Keyed store) (hbrings : Brings store plan rows)
    (hrows : insertRows ScheduledWorkRow.clash rows store.work = some work) :
    Keyed { plans := store.plans ++ [plan], work := work } := by
  constructor
  · show ((store.plans ++ [plan]).map (·.schedulePlanId)).Nodup
    rw [List.map_append]
    refine nodup_concat_of_fresh h.plans fun id hid => ?_
    obtain ⟨old, hold, rfl⟩ := List.mem_map.mp hid
    exact hbrings.fresh old hold
  · exact nodup_of_insertRows (fun a b hab => by simp [ScheduledWorkRow.clash, hab]) hrows h.items
  · refine nodup_of_insertRows (fun a b hab => ?_) hrows h.numbers
    simp only [Prod.mk.injEq] at hab
    simp [ScheduledWorkRow.clash, hab.1, hab.2]
  · intro row hrow
    show row.schedulePlanId ∈ (store.plans ++ [plan]).map (·.schedulePlanId)
    rw [List.map_append, List.mem_append]
    have hrow : row ∈ store.work ++ rows := eq_append_of_insertRows hrows ▸ hrow
    rcases List.mem_append.mp hrow with hold | hnew
    · exact Or.inl (h.planned row hold)
    · right
      rw [(hbrings.rows row hnew).1]
      exact List.mem_singleton.mpr rfl

/-- Every call keeps the keys. -/
theorem Effect.keyed (h : Effect store store') (hkeyed : Keyed store) :
    Keyed store' := by
  cases h with
  | created hbrings hrows => exact hkeyed.created hbrings hrows
  | unchanged => exact hkeyed
  | started plan now =>
    exact hkeyed.of_columns (map_updateWhere (by exact fun _ => rfl) store.plans) rfl
  | paused | resumed =>
    exact hkeyed.of_columns (map_id_setPlan _ _ _ _ _)
      (map_updateWhere (by exact fun _ => rfl) store.work)
  | claimed startedAt hplan =>
    refine hkeyed.of_columns rfl (foldl_claimRow_invariant
      (Q := fun work => work.map (·.columns) = store.work.map (·.columns)) ?_ rfl)
    intro row _ work hwork
    exact (map_updateWhere (by exact fun _ => rfl) work).trans hwork
  | finished | promotionClaimed | promoted =>
    exact hkeyed.of_columns rfl (map_updateWhere (by exact fun _ => rfl) store.work)

theorem keyed_reached (P : Platform) (calls : List SchedulingCall) : Keyed (reached P calls) := by
  refine @runFrom_invariant _ _ (step P) Keyed _ ?_ ?_ calls
  · exact ⟨List.nodup_nil, List.nodup_nil, List.nodup_nil, by simp⟩
  · intro store call hkeyed
    exact (effect_step P store call).keyed hkeyed

/-! ## Items are started once -/

/-- An item that was started. -/
def WorkState.wasStarted : WorkState → Bool
  | .queued | .budgetPaused => false
  | _ => true

/-- An item that was started is not queued again. -/
theorem StateMoves.wasStarted {state state' : WorkState} (h : StateMoves store plan state state')
    (hstarted : state.wasStarted = true) :
    state'.wasStarted = true := by
  cases h with
  | same => exact hstarted
  | started | paused | resumed => cases hstarted
  | ended hended => cases state' <;> first | rfl | cases hended

theorem queued_of_starts {call : SchedulingCall} {item : Id} (hkeyed : Keyed store)
    (h : Starts P item store call) : ∃ row ∈ store.work, row.workItemId = item ∧
      row.state = .queued ∧ planState row.schedulePlanId store = some .running := by
  obtain ⟨⟨row', hrow', hitem, hrunning⟩, hnot⟩ := h
  rcases (effect_step P store call).stems hkeyed row' hrow' with ⟨row, hrow, hmove⟩ | hnew
  · refine ⟨row, hrow, hmove.item.symm.trans hitem, ?_⟩
    have hstate := hmove.state
    rw [hrunning] at hstate
    generalize hbefore : row.state = before at hstate
    cases hstate with
    | same => exact absurd ⟨row, hrow, hmove.item.symm.trans hitem, hbefore⟩ hnot
    | started hplan => exact ⟨rfl, hplan⟩
    | ended hended => cases hended
  · rw [hrunning] at hnew
    cases hnew

/-- Whether an item has been started. -/
def WasStarted (item : Id) (store : SchedulingStore) : Prop :=
  ∃ row ∈ store.work, row.workItemId = item ∧ row.state.wasStarted = true

/-- An item that has been started stays so. -/
theorem WasStarted.step {item : Id} (h : WasStarted item store) (hkeyed : Keyed store)
    (call : SchedulingCall) : WasStarted item (step P store call) := by
  obtain ⟨row, hrow, hitem, hstarted⟩ := h
  obtain ⟨row', hrow', hmove⟩ := (effect_step P store call).kept hkeyed row hrow
  exact ⟨row', hrow', hmove.item.trans hitem, hmove.state.wasStarted hstarted⟩

theorem reached_append (P : Platform) (first second : List SchedulingCall) :
    reached P (first ++ second) = runFrom (step P) (reached P first) second :=
  runFrom_append (step P) {} first second

/-- An item that has been started stays so along a run. -/
theorem WasStarted.run {item : Id} {first : List SchedulingCall}
    (h : WasStarted item (reached P first)) (second : List SchedulingCall) :
    WasStarted item (reached P (first ++ second)) :=
  runFrom_stays (I := WasStarted item) h
    (fun calls call ih => ih.step (keyed_reached P calls) call) second

/-- Items are started at most once. -/
theorem startsOnce_reached (P : Platform) (calls : List SchedulingCall) : StartsOnce P calls := by
  intro first call between again last item _ hfirst hagain
  obtain ⟨row', hrow', hitem', hrunning⟩ := hfirst.1
  have hstarted : WasStarted item (reached P (first ++ [call])) := by
    rw [reached_append]
    exact ⟨row', hrow', hitem', by rw [hrunning]; rfl⟩
  have hlater := hstarted.run between
  rw [List.append_assoc, List.singleton_append] at hlater
  obtain ⟨row, hrow, hitem, hrow_started⟩ := hlater
  have hkeyed := keyed_reached P (first ++ call :: between)
  obtain ⟨queued, hqueued, hqueued_item, hstate, -⟩ := queued_of_starts hkeyed hagain
  have heq := List.inj_on_of_nodup_map hkeyed.items hrow hqueued (hitem.trans hqueued_item.symm)
  rw [heq, hstate] at hrow_started
  cases hrow_started

/-! ## Capacity -/

/-- A number is within the largest capacity if it is within that of an item. -/
theorem le_largestCapacity {group : String} {n : ℕ} :
    n ≤ largestCapacity plan group work ↔ n = 0 ∨ ∃ row ∈ work,
      row.schedulePlanId = plan ∧ row.concurrencyGroup = group ∧ n ≤ row.groupCapacity := by
  unfold largestCapacity
  rw [le_foldl_max, Nat.le_zero]
  refine or_congr_right ⟨?_, ?_⟩
  · rintro ⟨_, hmem, hle⟩
    obtain ⟨row, hrow, rfl⟩ := List.mem_map.mp hmem
    obtain ⟨hrow, htest⟩ := List.mem_filter.mp hrow
    simp only [Bool.and_eq_true, beq_iff_eq] at htest
    exact ⟨row, hrow, htest.1, htest.2, hle⟩
  · rintro ⟨row, hrow, rfl, rfl, hle⟩
    exact ⟨row.groupCapacity, List.mem_map_of_mem (List.mem_filter.mpr ⟨hrow, by simp⟩), hle⟩

/-- The counts of the query are the numbers of running items. -/
theorem lookup_runningCounts (plan : Id) (group : String) (work : List ScheduledWorkRow) :
    ((runningCounts plan work).lookup group).getD 0 = runningIn plan group work := by
  unfold runningCounts
  generalize hgroups : (work.filter fun row => row.schedulePlanId == plan &&
    row.state == .running).map (·.concurrencyGroup) = groups
  have hcount : groups.count group = runningIn plan group work := by
    rw [← hgroups, List.count_eq_countP, List.countP_map, List.countP_filter]
    refine List.countP_congr fun row _ => ?_
    simp only [Function.comp_apply, Bool.and_eq_true, beq_iff_eq]
    constructor
    · rintro ⟨hgroup, hplan, hstate⟩
      exact ⟨⟨hplan, hgroup⟩, hstate⟩
    · rintro ⟨⟨hplan, hgroup⟩, hstate⟩
      exact ⟨hgroup, hplan, hstate⟩
  have hkeys : ((groups.dedup.map fun g => (g, groups.count g)).map Prod.fst).Nodup := by
    rw [List.map_map]
    simpa [Function.comp_def] using groups.nodup_dedup
  rw [← hcount]
  by_cases hmem : group ∈ groups
  · have hentry : (group, groups.count group) ∈ groups.dedup.map fun g => (g, groups.count g) :=
      List.mem_map.mpr ⟨group, List.mem_dedup.mpr hmem, rfl⟩
    rw [(mem_iff_lookup hkeys).mp hentry]
    rfl
  · have hnone : (groups.dedup.map fun g => (g, groups.count g)).lookup group = none := by
      rw [List.lookup_eq_none_iff]
      intro entry hentry
      obtain ⟨g, hg, rfl⟩ := List.mem_map.mp hentry
      have hne : group ≠ g := fun heq => hmem (heq ▸ List.mem_dedup.mp hg)
      simpa using hne
    rw [hnone, List.count_eq_zero_of_not_mem hmem]
    rfl

/-- Starting an item of the queue adds one to the running items of its group. -/
theorem runningIn_startItem (hitems : (work.map (·.workItemId)).Nodup) (hrow : row ∈ work)
    (hqueued : row.state = .queued) (startedAt : Stamp) (plan : Id) (group : String) :
    runningIn plan group (startItem row.workItemId startedAt work) =
      runningIn plan group work +
        if row.schedulePlanId = plan ∧ row.concurrencyGroup = group then 1 else 0 := by
  have hone : ∀ other ∈ work, other.workItemId = row.workItemId → other = row :=
    fun other hother heq => List.inj_on_of_nodup_map hitems hother hrow heq
  split
  · rename_i hgroup
    obtain ⟨before, after, rfl⟩ := List.append_of_mem hrow
    have hsides : row ∉ before ∧ row ∉ after := by
      have hnodup := hitems.of_map
      rw [List.nodup_middle, List.nodup_cons, List.mem_append, not_or] at hnodup
      exact hnodup.1
    refine countP_updateWhere_of_one ?_ ?_ (by simp [hqueued]) (by simp [hqueued])
      (by simp [hgroup.1, hgroup.2])
    · intro other hother
      have hne : other.workItemId ≠ row.workItemId := fun heq =>
        hsides.1 (hone other (List.mem_append_left _ hother) heq ▸ hother)
      simp [hne]
    · intro other hother
      have hne : other.workItemId ≠ row.workItemId := fun heq =>
        hsides.2 (hone other (List.mem_append_right _ (List.mem_cons_of_mem _ hother)) heq ▸ hother)
      simp [hne]
  · rename_i hgroup
    unfold runningIn startItem updateWhere
    rw [List.countP_map, Nat.add_zero]
    refine List.countP_congr fun other hother => ?_
    simp only [Function.comp_apply]
    split
    · rename_i htest
      simp only [Bool.and_eq_true, beq_iff_eq] at htest
      have heq := hone other hother htest.1
      subst heq
      simpa [hqueued] using not_and.mp hgroup
    · rfl

/-- An update that keeps the columns of the items keeps the largest capacities. -/
theorem largestCapacity_updateWhere (h : ∀ row, (change row).columns = row.columns) (plan : Id)
    (group : String) (work : List ScheduledWorkRow) :
    largestCapacity plan group (updateWhere test change work) =
      largestCapacity plan group work := by
  have hplan : ∀ row, (change row).schedulePlanId = row.schedulePlanId := fun row =>
    congrArg (·.2.1) (h row)
  have hgroup : ∀ row, (change row).concurrencyGroup = row.concurrencyGroup := fun row =>
    congrArg (·.2.2.2.1) (h row)
  have hcapacity : ∀ row, (change row).groupCapacity = row.groupCapacity := fun row =>
    congrArg (·.2.2.2.2) (h row)
  unfold largestCapacity
  rw [map_filter_updateWhere (fun row => by rw [hplan, hgroup]) hcapacity]

/-- An update that starts nothing keeps within the capacities. -/
theorem WithinCapacity.updateWhere (h : WithinCapacity work) {test : ScheduledWorkRow → Bool}
    {change : ScheduledWorkRow → ScheduledWorkRow}
    (hcolumns : ∀ row, (change row).columns = row.columns)
    (hstate : ∀ row, test row = true → (change row).state = .running → row.state = .running) :
    WithinCapacity (updateWhere test change work) := by
  intro plan group
  rw [largestCapacity_updateWhere hcolumns]
  refine le_trans ?_ (h plan group)
  unfold runningIn Foundation.updateWhere
  rw [List.countP_map]
  refine List.countP_mono_left fun row _ hrow => ?_
  simp only [Function.comp_apply] at hrow
  split at hrow
  · rename_i htest
    simp only [Bool.and_eq_true, beq_iff_eq] at hrow ⊢
    obtain ⟨⟨hplan, hgroup⟩, hrunning⟩ := hrow
    exact ⟨⟨(congrArg (·.2.1) (hcolumns row)).symm.trans hplan,
      (congrArg (·.2.2.2.1) (hcolumns row)).symm.trans hgroup⟩, hstate row htest hrunning⟩
  · exact hrow

/-- What the loop over the queue knows before the rows that are left: they are queued items of
the plan, the counts are right and the capacities hold. -/
structure ClaimPass.Sound (plan : Id) (rows : List ScheduledWorkRow) (pass : ClaimPass) :
    Prop where
  items : (pass.work.map (·.workItemId)).Nodup
  distinct : (rows.map (·.workItemId)).Nodup
  queued : ∀ row ∈ rows, row ∈ pass.work ∧ row.schedulePlanId = plan ∧ row.state = .queued
  counts : ∀ group, pass.count group = runningIn plan group pass.work
  within : WithinCapacity pass.work

/-- One round of the loop. -/
theorem ClaimPass.Sound.claimRow {plan : Id} {row : ScheduledWorkRow}
    {rows : List ScheduledWorkRow} {pass : ClaimPass} (h : pass.Sound plan (row :: rows))
    (startedAt : Stamp) : (claimRow startedAt pass row).Sound plan rows := by
  obtain ⟨hfresh, hdistinct⟩ := List.nodup_cons.mp h.distinct
  obtain ⟨hrow, rfl, hqueued⟩ := h.queued row List.mem_cons_self
  unfold Placement.claimRow
  split
  · exact ⟨h.items, hdistinct, fun other hother => h.queued other (List.mem_cons_of_mem _ hother),
      h.counts, h.within⟩
  · rename_i hfree
    have hrunning := runningIn_startItem h.items hrow hqueued startedAt
    refine ⟨?_, hdistinct, ?_, ?_, ?_⟩
    · exact nodup_map_updateWhere (by exact fun _ => rfl) h.items
    · intro other hother
      obtain ⟨hmem, hplan, hstate⟩ := h.queued other (List.mem_cons_of_mem _ hother)
      have hne : other.workItemId ≠ row.workItemId := fun heq =>
        hfresh (List.mem_map.mpr ⟨other, hother, heq⟩)
      exact ⟨mem_updateWhere.mpr ⟨other, hmem, by simp [hne]⟩, hplan, hstate⟩
    · intro group
      show ((setKey _ _ _).lookup group).getD 0 =
        runningIn _ group (startItem row.workItemId startedAt pass.work)
      rw [hrunning, lookup_setKey, h.counts]
      by_cases hgroup : group = row.concurrencyGroup
      · simp [hgroup]
      · have hcount := h.counts group
        unfold ClaimPass.count at hcount
        simp [hgroup, hcount, Ne.symm hgroup]
    · intro plan group
      show runningIn plan group (startItem row.workItemId startedAt pass.work) ≤
        largestCapacity plan group (startItem row.workItemId startedAt pass.work)
      rw [hrunning, startItem, largestCapacity_updateWhere (by exact fun _ => rfl)]
      split
      · rename_i hgroup
        obtain ⟨rfl, rfl⟩ := hgroup
        rw [h.counts] at hfree
        exact le_largestCapacity.mpr (Or.inr ⟨row, hrow, rfl, rfl, by omega⟩)
      · exact h.within plan group

/-- The loop over the queue keeps within the capacities. -/
theorem withinCapacity_claimed (hitems : (work.map (·.workItemId)).Nodup)
    (hwithin : WithinCapacity work) (plan : Id) (startedAt : Stamp) :
    WithinCapacity ((queuedWork plan work).foldl (claimRow startedAt)
      { work := work, running := runningCounts plan work, claimed := [] }).work := by
  have hloop : ∀ rows pass, ClaimPass.Sound plan rows pass →
      WithinCapacity (rows.foldl (claimRow startedAt) pass).work := by
    intro rows
    induction rows with
    | nil => exact fun pass h => h.within
    | cons row rows ih => exact fun pass h => ih _ (h.claimRow startedAt)
  refine hloop _ _ ⟨hitems, ?_, fun row hrow => mem_queuedWork.mp hrow,
    fun group => lookup_runningCounts plan group work, hwithin⟩
  have hperm := (List.perm_insertionSort (fun a b : ScheduledWorkRow =>
    a.stableOrdinal ≤ b.stableOrdinal) (work.filter fun row =>
      row.schedulePlanId == plan && row.state == .queued)).map (·.workItemId)
  exact hperm.nodup_iff.mpr (hitems.sublist (List.filter_sublist.map _))

/-- Every call keeps within the capacities. -/
theorem Effect.withinCapacity (h : Effect store store') (hkeyed : Keyed store)
    (hwithin : WithinCapacity store.work) : WithinCapacity store'.work := by
  cases h with
  | unchanged | started => exact hwithin
  | @created plan rows work hbrings hrows =>
    intro plan' group
    show runningIn plan' group work ≤ largestCapacity plan' group work
    have hnone : rows.countP (fun row => row.schedulePlanId == plan' &&
        row.concurrencyGroup == group && row.state == .running) = 0 := by
      refine List.countP_eq_zero.mpr fun row hrow => ?_
      simp [(hbrings.rows row hrow).2.1]
    rw [eq_append_of_insertRows hrows, runningIn, List.countP_append, hnone, Nat.add_zero]
    refine le_largestCapacity.mpr ((le_largestCapacity.mp (hwithin plan' group)).imp_right ?_)
    rintro ⟨row, hrow, hmatch⟩
    exact ⟨row, List.mem_append_left _ hrow, hmatch⟩
  | paused reason now hplan =>
    exact hwithin.updateWhere (by exact fun _ => rfl) (by exact fun _ _ h => by cases h)
  | resumed now hplan =>
    exact hwithin.updateWhere (by exact fun _ => rfl) (by exact fun _ _ h => by cases h)
  | @claimed plan startedAt hplan =>
    exact withinCapacity_claimed hkeyed.items hwithin plan startedAt
  | finished receipt =>
    refine hwithin.updateWhere (by exact fun _ => rfl) fun row _ hrunning => ?_
    cases houtcome : receipt.outcome <;>
      simp [ScheduledWorkRow.finished, houtcome, ExecutionOutcome.workState] at hrunning
  | promotionClaimed claimedAt hfirst hstate hwaiting =>
    exact hwithin.updateWhere (by exact fun _ => rfl) (by exact fun _ _ h => h)
  | promoted item promotedAt =>
    exact hwithin.updateWhere (by exact fun _ => rfl) (by exact fun _ _ h => h)

/-! ## Pauses -/

/-- Setting the state of a plan sets it for this plan only. -/
theorem planState_setPlan (plan other : Id) (state : PlanState) (reason : Option String)
    (now : Stamp) (store : SchedulingStore) (work : List ScheduledWorkRow) :
    planState other { plans := setPlan plan state reason now store.plans, work := work } =
      if other = plan then (planState other store).map fun _ => state
      else planState other store := by
  unfold planState setPlan
  rw [find?_updateWhere (by exact fun _ _ => rfl), Option.map_map]
  split
  · rename_i heq
    subst heq
    cases hfound : store.plans.find? (·.schedulePlanId == other) with
    | none => rfl
    | some row =>
      have hrow : row.schedulePlanId = other := by simpa using List.find?_some hfound
      simp [hrow]
  · rename_i hne
    cases hfound : store.plans.find? (·.schedulePlanId == other) with
    | none => rfl
    | some row =>
      have hrow : row.schedulePlanId = other := by simpa using List.find?_some hfound
      simp [hrow, hne]

/-- Starting plans pauses none and resumes none. -/
theorem planState_started (plan other : Id) (now : Stamp) (store : SchedulingStore) :
    planState other { store with
      plans := updateWhere (fun row => row.schedulePlanId == plan && row.state == .ready)
        (fun row => { row with state := .running, updatedAt := now }) store.plans } =
        some .budgetPaused ↔ planState other store = some .budgetPaused := by
  unfold planState
  rw [find?_updateWhere (by exact fun _ _ => rfl), Option.map_map]
  cases hfound : store.plans.find? (·.schedulePlanId == other) with
  | none => simp
  | some row =>
    simp only [Option.map_some, Function.comp_apply, Option.some.injEq]
    split
    · rename_i htest
      simp only [Bool.and_eq_true, beq_iff_eq] at htest
      simp [htest.2]
    · rfl

/-- A new plan leaves the states of the plans that are there, and is not paused. -/
theorem planState_created {plan : SchedulePlanRow} {rows work : List ScheduledWorkRow}
    (hbrings : Brings store plan rows) (other : Id) :
    planState other { plans := store.plans ++ [plan], work := work } = some .budgetPaused ↔
      planState other store = some .budgetPaused := by
  unfold planState
  rw [List.find?_append]
  cases hfound : store.plans.find? (·.schedulePlanId == other) with
  | some row => simp
  | none =>
    simp only [Option.none_or, Option.map_none, reduceCtorEq, iff_false]
    intro h
    obtain ⟨row, hrow, hstate⟩ := Option.map_eq_some_iff.mp h
    obtain rfl : row = plan := by simpa using List.mem_of_find?_eq_some hrow
    rw [hbrings.ready] at hstate
    cases hstate

/-- Items wait in the queue while their plan is not paused, and are paused while it is. -/
structure PauseSound (store : SchedulingStore) : Prop where
  queued : ∀ row ∈ store.work, row.state = .queued →
    planState row.schedulePlanId store ≠ some .budgetPaused
  paused : ∀ row ∈ store.work, row.state = .budgetPaused →
    planState row.schedulePlanId store = some .budgetPaused

/-- A call that neither pauses nor resumes a plan and queues or pauses no item that was not
keeps the items with their plans. -/
theorem PauseSound.of_kept (h : PauseSound store)
    (hplans : ∀ plan, planState plan store' = some .budgetPaused ↔
      planState plan store = some .budgetPaused)
    (hwork : ∀ row' ∈ store'.work, row'.state = .queued ∨ row'.state = .budgetPaused →
      ∃ row ∈ store.work, row.schedulePlanId = row'.schedulePlanId ∧ row.state = row'.state) :
    PauseSound store' := by
  constructor
  · intro row' hrow' hqueued
    obtain ⟨row, hrow, hplan, hstate⟩ := hwork row' hrow' (Or.inl hqueued)
    rw [← hplan, Ne, hplans]
    exact h.queued row hrow (hstate.trans hqueued)
  · intro row' hrow' hpaused
    obtain ⟨row, hrow, hplan, hstate⟩ := hwork row' hrow' (Or.inr hpaused)
    rw [← hplan, hplans]
    exact h.paused row hrow (hstate.trans hpaused)

/-- Pausing a plan with its queue, or resuming it, moves both together. -/
theorem PauseSound.moved {before after : WorkState} {state : PlanState} {reason : Option String}
    {now : Stamp} (h : PauseSound store) (hfound : (planState plan store).isSome = true)
    (hboth : before = .queued ∧ after = .budgetPaused ∧ state = .budgetPaused ∨
      before = .budgetPaused ∧ after = .queued ∧ state = .running) :
    PauseSound { plans := setPlan plan state reason now store.plans
                 work := moveWork plan before after store.work } := by
  obtain ⟨old, hold⟩ := Option.isSome_iff_exists.mp hfound
  have hrows : ∀ row' ∈ moveWork plan before after store.work, ∃ row ∈ store.work,
      row'.schedulePlanId = row.schedulePlanId ∧
        (row.schedulePlanId = plan ∧ row.state = before ∧ row'.state = after ∨
          ¬ (row.schedulePlanId = plan ∧ row.state = before) ∧ row'.state = row.state) := by
    intro row' hrow'
    obtain ⟨row, hrow, heq⟩ := mem_updateWhere.mp hrow'
    refine ⟨row, hrow, ?_⟩
    split at heq
    · rename_i htest
      subst heq
      simp only [Bool.and_eq_true, beq_iff_eq] at htest
      exact ⟨rfl, Or.inl ⟨htest.1, htest.2, rfl⟩⟩
    · rename_i htest
      subst heq
      exact ⟨rfl, Or.inr ⟨by simpa using htest, rfl⟩⟩
  constructor
  · intro row' hrow' hqueued
    obtain ⟨row, hrow, hplan, hcases⟩ := hrows row' hrow'
    rw [planState_setPlan, hplan]
    rcases hcases with ⟨hmine, -, hafter⟩ | ⟨hother, hsame⟩
    · rw [if_pos hmine, hmine, hold]
      rcases hboth with ⟨-, rfl, -⟩ | ⟨-, -, rfl⟩
      · rw [hqueued] at hafter
        cases hafter
      · simp
    · by_cases hmine : row.schedulePlanId = plan
      · rw [if_pos hmine, hmine, hold]
        rcases hboth with ⟨rfl, -, -⟩ | ⟨-, -, rfl⟩
        · exact absurd ⟨hmine, hsame.symm.trans hqueued⟩ hother
        · simp
      · rw [if_neg hmine]
        exact h.queued row hrow (hsame.symm.trans hqueued)
  · intro row' hrow' hpaused
    obtain ⟨row, hrow, hplan, hcases⟩ := hrows row' hrow'
    rw [planState_setPlan, hplan]
    rcases hcases with ⟨hmine, -, hafter⟩ | ⟨hother, hsame⟩
    · rw [if_pos hmine, hmine, hold]
      rcases hboth with ⟨-, -, rfl⟩ | ⟨-, rfl, -⟩
      · rfl
      · rw [hpaused] at hafter
        cases hafter
    · by_cases hmine : row.schedulePlanId = plan
      · rw [if_pos hmine, hmine, hold]
        rcases hboth with ⟨-, -, rfl⟩ | ⟨rfl, -, -⟩
        · rfl
        · exact absurd ⟨hmine, hsame.symm.trans hpaused⟩ hother
      · rw [if_neg hmine]
        exact h.paused row hrow (hsame.symm.trans hpaused)

/-- Every call keeps queues and pauses together. -/
theorem Effect.pauseSound (h : Effect store store') (hkeyed : Keyed store)
    (hsound : PauseSound store) : PauseSound store' := by
  cases h with
  | unchanged => exact hsound
  | @created plan rows work hbrings hrows =>
    have hwork := eq_append_of_insertRows hrows
    subst hwork
    have hnew : planState plan.schedulePlanId store ≠ some .budgetPaused := by
      intro hstate
      obtain ⟨old, hold, -⟩ := Option.map_eq_some_iff.mp hstate
      exact hbrings.fresh old (List.mem_of_find?_eq_some hold)
        (by simpa using List.find?_some hold)
    constructor
    · intro row hrow hqueued
      rw [Ne, planState_created hbrings]
      rcases List.mem_append.mp hrow with hold | hfresh
      · exact hsound.queued row hold hqueued
      · rw [(hbrings.rows row hfresh).1]
        exact hnew
    · intro row hrow hpaused
      rw [planState_created hbrings]
      rcases List.mem_append.mp hrow with hold | hfresh
      · exact hsound.paused row hold hpaused
      · rw [(hbrings.rows row hfresh).2.1] at hpaused
        cases hpaused
  | started plan now =>
    exact hsound.of_kept (fun other => planState_started plan other now store)
      fun row hrow _ => ⟨row, hrow, rfl, rfl⟩
  | paused reason now hplan =>
    exact hsound.moved (by rw [hplan]; rfl) (Or.inl ⟨rfl, rfl, rfl⟩)
  | resumed now hplan =>
    exact hsound.moved (by rw [hplan]; rfl) (Or.inr ⟨rfl, rfl, rfl⟩)
  | @claimed plan startedAt hplan =>
    refine hsound.of_kept (fun _ => Iff.rfl) fun row' hrow' hstate => ?_
    obtain ⟨row, hrow, hstarted⟩ :=
      exists_left_of_forall₂ (forall₂_claimed hkeyed.items plan startedAt rfl) row' hrow'
    rcases hstarted with rfl | ⟨-, -, -, hrunning, -⟩
    · exact ⟨row', hrow, rfl, rfl⟩
    · rw [hrunning] at hstate
      rcases hstate with hstate | hstate <;> cases hstate
  | finished receipt =>
    refine hsound.of_kept (fun _ => Iff.rfl) fun row' hrow' hstate => ?_
    obtain ⟨row, hrow, heq⟩ := mem_updateWhere.mp hrow'
    split at heq
    · subst heq
      cases houtcome : receipt.outcome <;>
        simp [ScheduledWorkRow.finished, houtcome, ExecutionOutcome.workState] at hstate
    · exact ⟨row, hrow, heq ▸ ⟨rfl, rfl⟩⟩
  | promotionClaimed claimedAt hfirst hstate hwaiting =>
    refine hsound.of_kept (fun _ => Iff.rfl) fun row' hrow' _ => ?_
    obtain ⟨row, hrow, heq⟩ := mem_updateWhere.mp hrow'
    exact ⟨row, hrow, by split at heq <;> exact heq ▸ ⟨rfl, rfl⟩⟩
  | promoted item promotedAt =>
    refine hsound.of_kept (fun _ => Iff.rfl) fun row' hrow' _ => ?_
    obtain ⟨row, hrow, heq⟩ := mem_updateWhere.mp hrow'
    exact ⟨row, hrow, by split at heq <;> exact heq ▸ ⟨rfl, rfl⟩⟩

/-- An update after which the items of a plan are in a state exactly when they were in another
one before makes the items in the one state those of the other. -/
theorem itemsIn_updateWhere {before after : WorkState} {plans plans' : List SchedulePlanRow}
    (hcolumns : ∀ row, (change row).columns = row.columns)
    (hstate : ∀ row ∈ work, row.schedulePlanId = plan →
      ((if test row then change row else row).state = after ↔ row.state = before)) :
    itemsIn plan after { plans := plans', work := updateWhere test change work } =
      itemsIn plan before { plans := plans, work := work } := by
  have hplan : ∀ row, (if test row = true then change row else row).schedulePlanId =
      row.schedulePlanId := by
    intro row
    split
    · exact congrArg (·.2.1) (hcolumns row)
    · rfl
  have hitem : ∀ row, (if test row = true then change row else row).workItemId =
      row.workItemId := by
    intro row
    split
    · exact congrArg (·.1) (hcolumns row)
    · rfl
  unfold itemsIn updateWhere
  rw [List.filter_map, List.map_map]
  have hfilter : work.filter ((fun row : ScheduledWorkRow =>
      row.schedulePlanId == plan && row.state == after) ∘ fun row =>
        if test row = true then change row else row) =
      work.filter fun row => row.schedulePlanId == plan && row.state == before := by
    refine List.filter_congr fun row hrow => ?_
    rw [Bool.eq_iff_iff]
    simp only [Function.comp_apply, Bool.and_eq_true, beq_iff_eq, hplan]
    exact and_congr_right fun hmine => hstate row hrow hmine
  rw [hfilter]
  exact List.map_congr_left fun row _ => hitem row

/-- The queue of a plan and its paused items, across a call: what is queued is paused with the
plan, stays paused while the plan is, and is queued again when the plan resumes. -/
structure KeepsQueue (plan : Id) (store store' : SchedulingStore) : Prop where
  pauses : planState plan store ≠ some .budgetPaused → planState plan store' = some .budgetPaused →
    itemsIn plan .budgetPaused store' = itemsIn plan .queued store
  waits : planState plan store = some .budgetPaused → planState plan store' = some .budgetPaused →
    itemsIn plan .budgetPaused store' = itemsIn plan .budgetPaused store
  resumes : planState plan store = some .budgetPaused →
    planState plan store' ≠ some .budgetPaused →
    itemsIn plan .queued store' = itemsIn plan .budgetPaused store

theorem KeepsQueue.of_paused
    (hplan : planState plan store' = some .budgetPaused ↔ planState plan store = some .budgetPaused)
    (hwork : itemsIn plan .budgetPaused store' = itemsIn plan .budgetPaused store) :
    KeepsQueue plan store store' :=
  ⟨fun hnot hpaused => absurd (hplan.mp hpaused) hnot, fun _ _ => hwork,
    fun hpaused hnot => absurd (hplan.mpr hpaused) hnot⟩

/-- Pausing a plan keeps the queues. -/
theorem keepsQueue_paused (other : Id) (reason : Option String) (now : Stamp)
    (hsound : PauseSound store) (hplan : planState plan store = some .running) :
    KeepsQueue other store { plans := setPlan plan .budgetPaused reason now store.plans
                             work := moveWork plan .queued .budgetPaused store.work } := by
  have hstate := planState_setPlan plan other .budgetPaused reason now store
    (moveWork plan .queued .budgetPaused store.work)
  by_cases hother : other = plan
  · subst hother
    rw [if_pos rfl, hplan] at hstate
    have hrunning : planState other store ≠ some .budgetPaused := by simp [hplan]
    refine ⟨fun _ _ => ?_, fun h => absurd h hrunning, fun h => absurd h hrunning⟩
    refine itemsIn_updateWhere (by exact fun _ => rfl) fun row hrow hmine => ?_
    have hnot : row.state ≠ .budgetPaused := fun h =>
      hrunning (hmine ▸ hsound.paused row hrow h)
    by_cases hqueued : row.state = .queued
    · simp [hmine, hqueued]
    · simp [hqueued, hnot]
  · rw [if_neg hother] at hstate
    refine .of_paused (by rw [hstate]) ?_
    refine itemsIn_updateWhere (by exact fun _ => rfl) fun row _ hmine => ?_
    have hne : row.schedulePlanId ≠ plan := hmine ▸ hother
    simp [hne]

/-- Resuming a plan keeps the queues. -/
theorem keepsQueue_resumed (other : Id) (now : Stamp) (hsound : PauseSound store)
    (hplan : planState plan store = some .budgetPaused) :
    KeepsQueue other store { plans := setPlan plan .running none now store.plans
                             work := moveWork plan .budgetPaused .queued store.work } := by
  have hstate := planState_setPlan plan other .running none now store
    (moveWork plan .budgetPaused .queued store.work)
  by_cases hother : other = plan
  · subst hother
    rw [if_pos rfl, hplan] at hstate
    have hrunning : ¬ planState other
        { plans := setPlan other .running none now store.plans
          work := moveWork other .budgetPaused .queued store.work } = some .budgetPaused := by
      simp [hstate]
    refine ⟨fun _ h => absurd h hrunning, fun _ h => absurd h hrunning, fun _ _ => ?_⟩
    refine itemsIn_updateWhere (by exact fun _ => rfl) fun row hrow hmine => ?_
    have hnot : row.state ≠ .queued := fun h =>
      hsound.queued row hrow h (hmine ▸ hplan)
    by_cases hpaused : row.state = .budgetPaused
    · simp [hmine, hpaused]
    · simp [hpaused, hnot]
  · rw [if_neg hother] at hstate
    refine .of_paused (by rw [hstate]) ?_
    refine itemsIn_updateWhere (by exact fun _ => rfl) fun row _ hmine => ?_
    have hne : row.schedulePlanId ≠ plan := hmine ▸ hother
    simp [hne]

/-- Every call keeps the queue of every plan. -/
theorem Effect.keepsQueue (h : Effect store store') (hsound : PauseSound store) (plan : Id) :
    KeepsQueue plan store store' := by
  cases h with
  | unchanged => exact .of_paused Iff.rfl rfl
  | @created new rows work hbrings hrows =>
    have hwork := eq_append_of_insertRows hrows
    subst hwork
    refine .of_paused (planState_created hbrings plan) ?_
    have hnone : (rows.filter fun row =>
        row.schedulePlanId == plan && row.state == .budgetPaused) = [] := by
      refine List.filter_eq_nil_iff.mpr fun row hrow => ?_
      simp [(hbrings.rows row hrow).2.1]
    unfold itemsIn
    rw [List.filter_append, hnone, List.append_nil]
  | started other now => exact .of_paused (planState_started other plan now store) rfl
  | paused reason now hplan => exact keepsQueue_paused plan reason now hsound hplan
  | resumed now hplan => exact keepsQueue_resumed plan now hsound hplan
  | claimed startedAt hplan =>
    refine .of_paused Iff.rfl (foldl_claimRow_invariant (Q := fun work =>
      itemsIn plan .budgetPaused { store with work := work } =
        itemsIn plan .budgetPaused store) ?_ rfl)
    intro row _ work hwork
    refine (itemsIn_updateWhere (by exact fun _ => rfl) fun other _ _ => ?_).trans hwork
    by_cases hqueued : other.state = .queued
    · by_cases hitem : other.workItemId = row.workItemId <;> simp [hqueued, hitem]
    · simp [hqueued]
  | finished receipt =>
    refine .of_paused Iff.rfl (itemsIn_updateWhere (by exact fun _ => rfl) fun row _ _ => ?_)
    by_cases hrunning : row.state = .running
    · by_cases hitem : row.workItemId = receipt.workItemId <;>
        cases houtcome : receipt.outcome <;>
          simp [hrunning, hitem, ScheduledWorkRow.finished, houtcome, ExecutionOutcome.workState]
    · simp [hrunning]
  | promotionClaimed claimedAt hfirst hstate hwaiting =>
    refine .of_paused Iff.rfl (itemsIn_updateWhere (by exact fun _ => rfl) fun row _ _ => ?_)
    split <;> rfl
  | promoted item promotedAt =>
    refine .of_paused Iff.rfl (itemsIn_updateWhere (by exact fun _ => rfl) fun row _ _ => ?_)
    split <;> rfl

/-- Queues and pauses go together in every store that calls reach. -/
theorem pauseSound_reached (P : Platform) (calls : List SchedulingCall) :
    PauseSound (reached P calls) := by
  have h : Keyed (reached P calls) ∧ PauseSound (reached P calls) := by
    refine @runFrom_invariant _ _ (step P) (fun store => Keyed store ∧ PauseSound store) _
      ⟨keyed_reached P [], ⟨by simp [reached], by simp [reached]⟩⟩ ?_ calls
    rintro store call ⟨hkeyed, hsound⟩
    have heffect := effect_step P store call
    exact ⟨heffect.keyed hkeyed, heffect.pauseSound hkeyed hsound⟩
  exact h.2

/-- A plan that is paused and resumed has the queue again that it was paused with. -/
theorem pauseKeepsQueue_reached (P : Platform) (calls : List SchedulingCall) :
    PauseKeepsQueue P calls := by
  intro first pause waiting resume last plan _ hbefore hpaused hafter
  have hstep : ∀ prior call, KeepsQueue plan (reached P prior) (reached P (prior ++ [call])) := by
    intro prior call
    rw [reached_append]
    exact (effect_step P _ call).keepsQueue (pauseSound_reached P prior) plan
  -- While the plan is paused, its paused items are those it was paused with.
  have hheld : ∀ n ≤ waiting.length,
      itemsIn plan .budgetPaused (reached P (first ++ pause :: waiting.take n)) =
        itemsIn plan .queued (reached P first) := by
    intro n
    induction n with
    | zero =>
      intro _
      have hfirst := hpaused 0 (Nat.zero_le _)
      rw [List.take_zero] at hfirst ⊢
      exact (hstep first pause).pauses hbefore hfirst
    | succ n ih =>
      intro hn
      have hlt : n < waiting.length := hn
      have htake : first ++ pause :: waiting.take (n + 1) =
          (first ++ pause :: waiting.take n) ++ [waiting[n]] := by
        rw [List.take_succ_eq_append_getElem hlt]
        simp
      have hnext := hpaused (n + 1) hn
      rw [htake] at hnext ⊢
      exact ((hstep _ _).waits (hpaused n (by omega)) hnext).trans (ih (by omega))
  have hall := hheld waiting.length le_rfl
  have hlast := hpaused waiting.length le_rfl
  rw [List.take_length] at hall hlast
  exact ((hstep _ resume).resumes hlast hafter).trans hall

/-! ## Promotions -/

/-- Numbers compare any two items. -/
instance : Std.Total fun a b : ScheduledWorkRow => a.stableOrdinal ≤ b.stableOrdinal where
  total a b := Nat.le_total a.stableOrdinal b.stableOrdinal

instance : IsTrans ScheduledWorkRow fun a b => a.stableOrdinal ≤ b.stableOrdinal where
  trans _ _ _ hab hbc := Nat.le_trans hab hbc

/-- Work that has not ended waits for its promotion, and promotions follow the numbers. -/
structure PromotionSound (work : List ScheduledWorkRow) : Prop where
  waits : ∀ row ∈ work, row.state.isEnded = false → row.promotionState = .waiting
  ordered : PromotesInOrder work

/-- An update that takes up a promotion only when all smaller ones are over, and reopens none,
keeps the order. -/
theorem PromotesInOrder.updateWhere (h : PromotesInOrder work)
    (hcolumns : ∀ row, (change row).columns = row.columns)
    (htaken : ∀ row ∈ work, test row = true → (change row).promotionState.isTaken = true →
      row.promotionState.isTaken = true ∨ ∀ b ∈ work, b.schedulePlanId = row.schedulePlanId →
        b.stableOrdinal < row.stableOrdinal → b.promotionState.isOver = true)
    (hover : ∀ row ∈ work, test row = true → row.promotionState.isOver = true →
      (change row).promotionState.isOver = true) :
    PromotesInOrder (updateWhere test change work) := by
  have hsame : ∀ row, (if test row = true then change row else row).columns = row.columns := by
    intro row
    split
    · exact hcolumns row
    · rfl
  intro a' ha' b' hb' hplan htaken' hlt
  obtain ⟨a, ha, rfl⟩ := mem_updateWhere.mp ha'
  obtain ⟨b, hb, rfl⟩ := mem_updateWhere.mp hb'
  have hplan : b.schedulePlanId = a.schedulePlanId :=
    (congrArg (·.2.1) (hsame b)).symm.trans (hplan.trans (congrArg (·.2.1) (hsame a)))
  have hlt : b.stableOrdinal < a.stableOrdinal := by
    have hb := congrArg (·.2.2.1) (hsame b)
    have ha := congrArg (·.2.2.1) (hsame a)
    simp only [ScheduledWorkRow.columns] at ha hb
    omega
  have hbover : b.promotionState.isOver = true := by
    split at htaken'
    · rcases htaken a ha ‹_› htaken' with hold | hall
      · exact h a ha b hb hplan hold hlt
      · exact hall b hb hplan hlt
    · exact h a ha b hb hplan htaken' hlt
  split
  · exact hover b hb ‹_› hbover
  · exact hbover

/-- An update of work that has not ended, which leaves its promotion, keeps promotions sound. -/
theorem PromotionSound.updateWhere (h : PromotionSound work) {test : ScheduledWorkRow → Bool}
    {change : ScheduledWorkRow → ScheduledWorkRow}
    (hcolumns : ∀ row, (change row).columns = row.columns)
    (hsame : ∀ row, (change row).promotionState = row.promotionState)
    (hopen : ∀ row, test row = true → row.state.isEnded = false) :
    PromotionSound (updateWhere test change work) := by
  constructor
  · intro row' hrow' hstate
    obtain ⟨row, hrow, heq⟩ := mem_updateWhere.mp hrow'
    split at heq
    · rw [← heq, hsame]
      exact h.waits row hrow (hopen row ‹_›)
    · rw [← heq] at hstate ⊢
      exact h.waits row hrow hstate
  · refine h.ordered.updateWhere hcolumns (fun row _ _ htaken => Or.inl ?_) fun row _ _ hover => ?_
    · rwa [hsame] at htaken
    · rwa [hsame]

/-- The first open promotion of a plan is the one of the smallest number. -/
theorem openPromotions_first (h : (openPromotions plan work).head? = some row) :
    row ∈ work ∧ row.schedulePlanId = plan ∧ ∀ b ∈ work, b.schedulePlanId = plan →
      b.stableOrdinal < row.stableOrdinal → b.promotionState.isOver = true := by
  have hmem : ∀ b, b ∈ openPromotions plan work ↔ b ∈ work ∧ b.schedulePlanId = plan ∧
      (b.promotionState = .waiting ∨ b.promotionState = .claimed) := by
    intro b
    unfold openPromotions
    rw [List.mem_insertionSort, List.mem_filter]
    simp
  obtain ⟨rest, hlist⟩ : ∃ rest, openPromotions plan work = row :: rest := by
    cases hcases : openPromotions plan work with
    | nil =>
      rw [hcases] at h
      cases h
    | cons first rest =>
      rw [hcases] at h
      cases h
      exact ⟨rest, rfl⟩
  have hrow := (hmem row).mp (hlist ▸ List.mem_cons_self)
  refine ⟨hrow.1, hrow.2.1, fun b hb hplan hlt => ?_⟩
  by_contra hover
  have hopen : b.promotionState = .waiting ∨ b.promotionState = .claimed := by
    cases hstate : b.promotionState <;> simp [hstate, PromotionState.isOver] at hover ⊢
  have hlater := (hmem b).mpr ⟨hb, hplan, hopen⟩
  have hsorted := List.pairwise_insertionSort
    (fun a b : ScheduledWorkRow => a.stableOrdinal ≤ b.stableOrdinal)
    (work.filter fun row => row.schedulePlanId == plan &&
      (row.promotionState == .waiting || row.promotionState == .claimed))
  change (openPromotions plan work).Pairwise _ at hsorted
  rw [hlist] at hlater hsorted
  rcases List.mem_cons.mp hlater with rfl | hlater
  · omega
  · have hle := List.rel_of_pairwise_cons hsorted hlater
    omega

/-- Every call keeps promotions sound. -/
theorem Effect.promotionSound (h : Effect store store') (hkeyed : Keyed store)
    (hsound : PromotionSound store.work) : PromotionSound store'.work := by
  cases h with
  | unchanged | started => exact hsound
  | @created plan rows work hbrings hrows =>
    have hwork := eq_append_of_insertRows hrows
    subst hwork
    constructor
    · intro row hrow hopen
      rcases List.mem_append.mp hrow with hold | hnew
      · exact hsound.waits row hold hopen
      · exact (hbrings.rows row hnew).2.2
    · intro a ha b hb hplan htaken hlt
      rcases List.mem_append.mp ha with hold | hnew
      · rcases List.mem_append.mp hb with hbold | hbnew
        · exact hsound.ordered a hold b hbold hplan htaken hlt
        · -- The plan of the old item is there already, so the new item is of another one.
          obtain ⟨old, hmem, heq⟩ := List.mem_map.mp (hkeyed.planned a hold)
          rw [← hplan, (hbrings.rows b hbnew).1] at heq
          exact absurd heq (hbrings.fresh old hmem)
      · rw [(hbrings.rows a hnew).2.2] at htaken
        cases htaken
  | paused reason now hplan =>
    refine hsound.updateWhere (by exact fun _ => rfl) (by exact fun _ => rfl) fun row htest => ?_
    simp only [Bool.and_eq_true, beq_iff_eq] at htest
    rw [htest.2]
    rfl
  | resumed now hplan =>
    refine hsound.updateWhere (by exact fun _ => rfl) (by exact fun _ => rfl) fun row htest => ?_
    simp only [Bool.and_eq_true, beq_iff_eq] at htest
    rw [htest.2]
    rfl
  | claimed startedAt hplan =>
    refine foldl_claimRow_invariant (Q := PromotionSound) ?_ hsound
    intro row _ work hwork
    refine hwork.updateWhere (by exact fun _ => rfl) (by exact fun _ => rfl) fun other htest => ?_
    simp only [Bool.and_eq_true, beq_iff_eq] at htest
    rw [htest.2]
    rfl
  | finished receipt =>
    constructor
    · intro row' hrow' hopen
      obtain ⟨row, hrow, heq⟩ := mem_updateWhere.mp hrow'
      split at heq
      · subst heq
        cases houtcome : receipt.outcome <;> simp [ScheduledWorkRow.finished, houtcome,
          ExecutionOutcome.workState, WorkState.isEnded] at hopen
      · subst heq
        exact hsound.waits row hrow hopen
    · refine hsound.ordered.updateWhere (by exact fun _ => rfl) ?_ ?_
      · intro row _ _ htaken
        cases houtcome : receipt.outcome <;> simp [ScheduledWorkRow.finished, houtcome,
          ExecutionOutcome.promotionState, PromotionState.isTaken] at htaken
      · intro row hrow htest hover
        simp only [Bool.and_eq_true, beq_iff_eq] at htest
        rw [hsound.waits row hrow (by rw [htest.2]; rfl)] at hover
        cases hover
  | @promotionClaimed plan row claimedAt hfirst hstate hwaiting =>
    obtain ⟨hmem, hplan, hsmaller⟩ := openPromotions_first hfirst
    have hone : ∀ other ∈ store.work, other.workItemId = row.workItemId → other = row :=
      fun other hother heq => List.inj_on_of_nodup_map hkeyed.items hother hmem heq
    constructor
    · intro row' hrow' hopen
      obtain ⟨other, hother, heq⟩ := mem_updateWhere.mp hrow'
      split at heq
      · rename_i htest
        have hrow := hone other hother (by simpa using htest)
        subst heq
        rw [show other.state = .succeeded from hrow ▸ hstate] at hopen
        cases hopen
      · subst heq
        exact hsound.waits other hother hopen
    · refine hsound.ordered.updateWhere (by exact fun _ => rfl) ?_ ?_
      · intro other hother htest _
        have hrow := hone other hother (by simpa using htest)
        subst hrow
        exact Or.inr fun b hb hbplan => hsmaller b hb (hbplan.trans hplan)
      · intro other hother htest hover
        have hrow := hone other hother (by simpa using htest)
        rw [hrow, hwaiting] at hover
        cases hover
  | promoted item promotedAt =>
    constructor
    · intro row' hrow' hopen
      obtain ⟨row, hrow, heq⟩ := mem_updateWhere.mp hrow'
      split at heq
      · rename_i htest
        subst heq
        simp only [Bool.and_eq_true, beq_iff_eq] at htest
        rw [hsound.waits row hrow hopen] at htest
        cases htest.2
      · subst heq
        exact hsound.waits row hrow hopen
    · refine hsound.ordered.updateWhere (by exact fun _ => rfl) ?_ (by exact fun _ _ _ _ => rfl)
      intro row _ htest _
      simp only [Bool.and_eq_true, beq_iff_eq] at htest
      rw [htest.2]
      exact Or.inl rfl

/-- Where promotions follow the numbers, one at a time is claimed. -/
theorem oneClaimed_of_ordered (hkeyed : Keyed store) (h : PromotesInOrder store.work) :
    OneClaimed store.work := by
  intro plan
  have hone : ∀ a ∈ store.work, ∀ b ∈ store.work, a.schedulePlanId = plan →
      b.schedulePlanId = plan → a.promotionState = .claimed → b.promotionState = .claimed →
      a = b := by
    intro a ha b hb haplan hbplan haclaimed hbclaimed
    have hnot : ∀ c ∈ store.work, ∀ d ∈ store.work, c.schedulePlanId = plan →
        d.schedulePlanId = plan → c.promotionState = .claimed → d.promotionState = .claimed →
        ¬ d.stableOrdinal < c.stableOrdinal := by
      intro c hc d hd hcplan hdplan hcclaimed hdclaimed hlt
      have hover := h c hc d hd (hdplan.trans hcplan.symm) (by rw [hcclaimed]; rfl) hlt
      rw [hdclaimed] at hover
      cases hover
    have hle := hnot a ha b hb haplan hbplan haclaimed hbclaimed
    have hge := hnot b hb a ha hbplan haplan hbclaimed haclaimed
    have hnumber : a.stableOrdinal = b.stableOrdinal := by omega
    exact List.inj_on_of_nodup_map hkeyed.numbers ha hb
      (Prod.ext (haplan.trans hbplan.symm) hnumber)
  rw [List.countP_eq_length_filter]
  by_contra hmany
  generalize hrows : (store.work.filter fun row =>
    row.schedulePlanId == plan && row.promotionState == .claimed) = rows at hmany
  match rows, hrows with
  | a :: b :: rest, hrows =>
    have hmem : ∀ row ∈ a :: b :: rest, row ∈ store.work ∧ row.schedulePlanId = plan ∧
        row.promotionState = .claimed := by
      intro row hrow
      rw [← hrows, List.mem_filter] at hrow
      simpa using hrow
    obtain ⟨ha, haplan, haclaimed⟩ := hmem a (by simp)
    obtain ⟨hb, hbplan, hbclaimed⟩ := hmem b (by simp)
    have hnodup : (a :: b :: rest).Nodup := hrows ▸ hkeyed.items.of_map.filter _
    have heq := hone a ha b hb haplan hbplan haclaimed hbclaimed
    simp [heq] at hnodup
  | [_], _ => simp at hmany
  | [], _ => simp at hmany

/-! ## Every run -/

theorem sound_reached (P : Platform) (calls : List SchedulingCall) :
    WithinCapacity (reached P calls).work ∧ PromotionSound (reached P calls).work := by
  have h : Keyed (reached P calls) ∧ WithinCapacity (reached P calls).work ∧
      PromotionSound (reached P calls).work := by
    refine @runFrom_invariant _ _ (step P) (fun store => Keyed store ∧
      WithinCapacity store.work ∧ PromotionSound store.work) _ ?_ ?_ calls
    · refine ⟨keyed_reached P [], fun plan group => Nat.zero_le _, by simp, ?_⟩
      intro a ha
      cases ha
    · rintro store call ⟨hkeyed, hwithin, hsound⟩
      have heffect := effect_step P store call
      exact ⟨heffect.keyed hkeyed, heffect.withinCapacity hkeyed hwithin,
        heffect.promotionSound hkeyed hsound⟩
  exact h.2

/-- Whatever is called in whatever order: capacities hold, items are started once and from the
queue of a running plan, a pause keeps the queue, and promotions follow the numbers one at a
time. -/
theorem scheduling_respects_capacity_and_order (P : Platform) (calls : List SchedulingCall) :
    WithinCapacity (reached P calls).work ∧ StartsOnce P calls ∧
      StartsFromQueue P (reached P calls) ∧ PauseKeepsQueue P calls ∧
      OneClaimed (reached P calls).work ∧ PromotesInOrder (reached P calls).work := by
  have hkeyed := keyed_reached P calls
  obtain ⟨hwithin, hsound⟩ := sound_reached P calls
  exact ⟨hwithin, startsOnce_reached P calls, fun _ _ h => queued_of_starts hkeyed h,
    pauseKeepsQueue_reached P calls, oneClaimed_of_ordered hkeyed hsound.ordered, hsound.ordered⟩

end ResearchKernel.Product.Placement
