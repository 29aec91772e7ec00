import ResearchKernel.Budget.Reservations

/-!
# Spending and the fuse

What was used is known only after the fact, so spending cannot be kept within its limit;
but spending over the limit trips the fuse of its resource. Components are measured
against what has been spent, executions against what has been spent or is in reserve. The
second is no weaker than the first, because no attempt is ever overdrawn.
-/

namespace ResearchKernel

open Foundation

/-- The operations of the host measure usage against the limits of the policy. -/
def Op.UsesLimits (policy : Policy) : Op → Prop
  | .recordComponentUsage _ report => report.budgetLimits = policy.globalBudgetLimits.getD []
  | .recordHostExecution _ record => record.budgetLimits = policy.globalBudgetLimits.getD []
  | _ => True

instance (policy : Policy) : DecidablePred (Op.UsesLimits policy)
  | .recordComponentUsage _ _ => inferInstanceAs (Decidable (_ = _))
  | .recordHostExecution _ _ => inferInstanceAs (Decidable (_ = _))
  | .create _ | .apply _ | .importArtifact _ | .claimHostExecution _ _
  | .heartbeatHostExecution _ _ _ _ | .recoverIncompleteHostClaims _ _ _ _
  | .consumeHostLeanReceipt _ _ _ _ | .consumeHostCheckerReceipt _ _ _ _ => isTrue trivial

/-- Spending stays within its limit, or the fuse of its resource has been tripped. -/
def SpendingFused (policy : Policy) (db : Db) : Prop :=
  ∀ runId resource, db.spent runId resource ≤ policy.hardLimit resource ∨
    db.fuseTrippedFor runId resource = true

section Spending

variable {P : Platform} {policy : Policy} {db db' : Db} {rows : List BudgetEvent}
  {runId : Id} {resource : ResourceKind}

variable {usage : List UsageRow}

/-- What is measured of a resource, which is measured at most once. -/
theorem spentOf_le {bound : ℤ} (hbound : 0 ≤ bound) (honce : (usage.map (·.resource)).Nodup)
    (h : ∀ row ∈ usage, row.resource = resource → row.kind = .actual →
      ((row.amount.getD 0 : ℕ) : ℤ) ≤ bound) : spentOf usage resource ≤ bound := by
  unfold spentOf
  induction usage with
  | nil => simpa using hbound
  | cons row usage ih =>
    rw [List.map_cons, List.nodup_cons] at honce
    rw [sumWhere_cons]
    by_cases hrow : row.resource = resource
    · -- No later measure is of the same resource.
      have hrest : sumWhere (fun row : UsageRow => row.resource == resource && row.kind == .actual)
          (fun row => ((row.amount.getD 0 : ℕ) : ℤ)) usage = 0 := by
        refine sumWhere_eq_zero fun other hother hcounts => ?_
        simp only [Bool.and_eq_true, beq_iff_eq] at hcounts
        have hmem : row.resource ∈ usage.map (·.resource) :=
          List.mem_map.mpr ⟨other, hother, hcounts.1.trans hrow.symm⟩
        exact absurd hmem honce.1
      rw [hrest, add_zero]
      split
      · rename_i hcounts
        simp only [Bool.and_eq_true, beq_iff_eq] at hcounts
        exact h row List.mem_cons_self hrow hcounts.2
      · exact hbound
    · have hrest := ih honce.2 fun row' hrow' => h row' (List.mem_cons_of_mem _ hrow')
      simpa [hrow] using hrest

/-- What other attempts hold in reserve is no debt. -/
theorem reservedFor_le_reserved
    (h : ∀ runId resource attemptId, 0 ≤ db.reservedFor runId resource attemptId)
    (attemptId : Option Id) :
    db.reservedFor runId resource attemptId ≤ db.reserved runId resource := by
  have hkeys : ∀ key : Option Id, 0 ≤ sumWhere (fun event => event.attemptId == key)
      BudgetEvent.netReserved (db.countedEvents runId resource) := by
    intro key
    rw [← reservedFor_eq]
    exact h runId resource key
  have hothers := sumWhere_nonneg_of_keys hkeys (fun key => key != attemptId)
  have hsplit := sumWhere_split (fun event : BudgetEvent => event.attemptId) (fun _ => true)
    attemptId BudgetEvent.netReserved (db.countedEvents runId resource)
  rw [sumWhere_filter] at hsplit
  simp only [↓reduceIte, Bool.and_true] at hsplit
  rw [reserved_eq, reservedFor_eq, hsplit]
  omega

theorem hardLimit_of_lookup {limit : ℤ}
    (h : ((policy.globalBudgetLimits.getD []).lookup resource.wire).filter
      (fun n => decide (0 < n)) = some limit) : policy.hardLimit resource = limit := by
  obtain ⟨hlookup, hpositive⟩ := Option.filter_eq_some_iff.mp h
  unfold Policy.hardLimit
  rw [hlookup]
  exact max_eq_right (le_of_lt (of_decide_eq_true hpositive))

/-- What a component uses of a resource that it does not overrun fits its limit. -/
theorem fits_of_not_componentOverrun
    (h : resource ∉ db.componentOverruns runId usage (policy.globalBudgetLimits.getD []))
    {row : UsageRow} (hrow : row ∈ usage) (hresource : row.resource = resource)
    (hkind : row.kind = .actual) {amount : ℕ} (hamount : row.amount = some amount) :
    db.spent runId resource + amount ≤ policy.hardLimit resource := by
  subst hresource
  unfold Db.componentOverruns at h
  have hfits := fun hover => h (List.mem_map.mpr ⟨row, List.mem_filter.mpr ⟨hrow, hover⟩, rfl⟩)
  rw [hkind, hamount] at hfits
  dsimp only at hfits
  cases hlimit : ((policy.globalBudgetLimits.getD []).lookup row.resource.wire).filter
      (fun n => decide (0 < n)) with
  | none =>
    rw [hlimit] at hfits
    exact absurd rfl hfits
  | some limit =>
    rw [hlimit] at hfits
    dsimp only at hfits
    rw [hardLimit_of_lookup hlimit]
    -- The component counts events that predate the accounting of the host as well.
    have hspent : db.spent runId row.resource ≤ Db.sumAmounts [.actual]
        (db.budgetEvents.filter fun event =>
          event.runId == runId && event.resourceKind == row.resource) := by
      unfold Db.spent Db.countedEvents Db.sumAmounts
      change sumWhere _ _ _ ≤ sumWhere _ _ _
      rw [sumWhere_filter, sumWhere_filter]
      refine sumWhere_mono (fun _ _ => Int.natCast_nonneg _) fun event _ hcounts => ?_
      simp only [Bool.and_eq_true] at hcounts ⊢
      exact ⟨hcounts.1.1, hcounts.2⟩
    simp only [decide_eq_true_eq, imp_false, not_lt] at hfits
    omega

/-- What an execution uses of a resource that it does not overrun fits its limit. -/
theorem fits_of_not_hostOverrun {attemptId : Id}
    (hcovered : ∀ runId resource attemptId, 0 ≤ db.reservedFor runId resource attemptId)
    (h : resource ∉ db.hostBudgetOverruns runId attemptId usage
      (policy.globalBudgetLimits.getD [])) {row : UsageRow} (hrow : row ∈ usage)
    (hresource : row.resource = resource) (hkind : row.kind = .actual) {amount : ℕ}
    (hamount : row.amount = some amount) :
    db.spent runId resource + amount ≤ policy.hardLimit resource := by
  subst hresource
  unfold Db.hostBudgetOverruns at h
  have hfits := fun hover => h (List.mem_map.mpr ⟨row, List.mem_filter.mpr ⟨hrow, hover⟩, rfl⟩)
  rw [hkind, hamount] at hfits
  dsimp only at hfits
  cases hlimit : ((policy.globalBudgetLimits.getD []).lookup row.resource.wire).filter
      (fun n => decide (0 < n)) with
  | none =>
    rw [hlimit] at hfits
    exact absurd rfl hfits
  | some limit =>
    rw [hlimit] at hfits
    dsimp only at hfits
    rw [hardLimit_of_lookup hlimit]
    have hothers := @reservedFor_le_reserved db runId row.resource hcovered (some attemptId)
    rw [sumAmounts_consumed] at hfits
    simp only [decide_eq_true_eq, imp_false, not_lt] at hfits
    change db.spent runId row.resource + db.reserved runId row.resource -
      db.reservedFor runId row.resource (some attemptId) +
      max (db.reservedFor runId row.resource (some attemptId)) amount ≤ limit at hfits
    have hmax := le_max_right (db.reservedFor runId row.resource (some attemptId)) (amount : ℤ)
    omega

/-- No event of a controller or of a further batch spends anything. -/
theorem unspent_of_enters {op : ApplyOp} (acceptance : Acceptance P policy db op db')
    {p : RecordBudget} (hcommand : op.request.command = .recordBudget p) {event : BudgetEvent}
    (henters : p.Enters op.request.runId event) : event.eventKind ≠ .actual := by
  have h := acceptance.handled
  rw [hcommand] at h
  unfold Guard.handle Guard.handleRecordBudget at h
  obtain ⟨⟨⟩, -, h⟩ := bind_eq_ok.mp h
  obtain ⟨⟨⟩, -, h⟩ := bind_eq_ok.mp h
  obtain ⟨⟨⟩, -, h⟩ := bind_eq_ok.mp h
  obtain ⟨⟨⟩, -, h⟩ := bind_eq_ok.mp h
  obtain ⟨⟨⟩, -, h⟩ := bind_eq_ok.mp h
  obtain ⟨⟨⟩, hkind, -⟩ := bind_eq_ok.mp h
  simp only [rejectIf_eq_ok, Bool.or_eq_false_iff, beq_eq_false_iff_ne] at hkind
  rw [henters.kind_eq]
  exact hkind.1

/-- Events of which none is a spending leave the account alone. -/
theorem spent_of_unspent (hrows : db'.budgetEvents = db.budgetEvents ++ rows)
    (h : ∀ event ∈ rows, event.eventKind ≠ .actual) :
    db'.spent runId resource = db.spent runId resource := by
  have hzero : Db.sumAmounts [.actual] (rows.filter (BudgetEvent.countsFor runId resource)) = 0 := by
    refine sumWhere_eq_zero fun event hevent hactual => ?_
    have hne := h event (List.mem_filter.mp hevent).1
    simp [hne] at hactual
  rw [spent_append hrows, hzero, add_zero]

/-- Metered usage spends within the limit, or trips the fuse. -/
theorem fused_of_metered {runId' : Id} {measure : UsageRow → BudgetEvent}
    {fuse : ResourceKind → BudgetEvent} {overruns : List ResourceKind}
    (hmetered : Metered runId' measure fuse) (honce : (usage.map (·.resource)).Nodup)
    (hrows : db'.budgetEvents = db.budgetEvents ++ (usage.map measure ++ overruns.map fuse))
    (hfits : resource ∉ overruns → ∀ row ∈ usage, row.resource = resource → row.kind = .actual →
      ∀ amount, row.amount = some amount →
        db.spent runId' resource + amount ≤ policy.hardLimit resource)
    (h : db.spent runId resource ≤ policy.hardLimit resource) :
    db'.spent runId resource ≤ policy.hardLimit resource ∨
      db'.fuseTrippedFor runId resource = true := by
  rw [spent_append hrows, hmetered.sumAmounts_actual]
  by_cases hrun : runId' = runId
  · subst hrun
    rw [if_pos rfl]
    by_cases hover : resource ∈ overruns
    · refine Or.inr ?_
      unfold Db.fuseTrippedFor
      rw [countedEvents_append hrows, List.any_append, hmetered.exists_fuse hover, Bool.or_true]
    · have hle : spentOf usage resource ≤
          policy.hardLimit resource - db.spent runId' resource := by
        refine spentOf_le (by omega) honce fun row hrow hresource hkind => ?_
        cases hamount : row.amount with
        | none =>
          simp only [Option.getD_none]
          omega
        | some amount =>
          have := hfits hover row hrow hresource hkind amount hamount
          simp only [Option.getD_some]
          omega
      exact Or.inl (by omega)
  · rw [if_neg hrun]
    exact Or.inl (by omega)

/-- One operation keeps spending within its limit or trips the fuse. -/
theorem fused_step {op : Op} (huses : op.UsesLimits policy)
    (hcovered : ∀ runId resource attemptId, 0 ≤ db.reservedFor runId resource attemptId)
    (h : SpendingFused policy db) : SpendingFused policy (step P policy db op) := by
  intro runId resource
  obtain ⟨rows, hrows, hbudgeting⟩ := @budgeting_step P policy db op
  rcases h runId resource with hspent | htripped
  · have hkeep : (∀ event ∈ rows, event.eventKind ≠ .actual) →
        (step P policy db op).spent runId resource ≤ policy.hardLimit resource ∨
          (step P policy db op).fuseTrippedFor runId resource = true := by
      intro hunspent
      rw [spent_of_unspent hrows hunspent]
      exact Or.inl hspent
    generalize step P policy db op = db' at hrows hbudgeting hkeep ⊢
    cases hbudgeting with
    | idle _ _ => exact hkeep (by simp)
    | entered applied _ accepts acceptance p hcommand event henters =>
      exact hkeep (by simpa using unspent_of_enters acceptance hcommand henters)
    | expanded applied _ accepts acceptance p hcommand _ hmap =>
      refine hkeep (forall_of_forall₂ (reservedBy_of_expansion acceptance hcommand hmap) ?_)
      intro entry event hentry hactual
      rw [hentry.kind_eq] at hactual
      cases hactual
    | reported capability report _ revision =>
      obtain ⟨measure, fuse, hmetered, heq⟩ := metered_report P report revision
        (componentRows report.usage)
        (db.componentOverruns report.runId (componentRows report.usage) report.budgetLimits)
      rw [heq] at hrows
      refine fused_of_metered hmetered
        ((meters_componentRows report.usage).once.nodup (by decide)) hrows ?_ hspent
      rw [show report.budgetLimits = policy.globalBudgetLimits.getD [] from huses]
      exact fun hover row hrow hresource hkind amount hamount =>
        fits_of_not_componentOverrun hover hrow hresource hkind hamount
    | recorded capability record _ revision usage usage_eq =>
      subst usage_eq
      obtain ⟨measure, fuse, hmetered, heq⟩ := metered_record P record revision
        (hostBudgetRows record.result.wallTimeMs record.result.providerUsage)
        (db.hostBudgetOverruns record.scope.runId record.scope.attemptId
          (hostBudgetRows record.result.wallTimeMs record.result.providerUsage)
          record.budgetLimits)
      rw [heq] at hrows
      refine fused_of_metered hmetered
        ((meters_hostBudgetRows _ _).once.nodup (by decide)) hrows ?_ hspent
      rw [show record.budgetLimits = policy.globalBudgetLimits.getD [] from huses]
      exact fun hover row hrow hresource hkind amount hamount =>
        fits_of_not_hostOverrun hcovered hover hrow hresource hkind hamount
    | recovered _ _ _ hunmetered =>
      refine hkeep fun event hevent hactual => ?_
      rcases hunmetered event hevent with hkind | hkind
      · rw [hkind] at hactual
        cases hactual
      · rw [hkind] at hactual
        cases hactual
  · exact Or.inr (fuseTrippedFor_append hrows htripped)

/-- In every state of a run in which the host uses the limits of the policy, spending is
within its limit or the fuse of its resource has been tripped. -/
theorem spending_fused_of_reached (P : Platform) (policy : Policy) (ops : List Op)
    (h : ∀ op ∈ ops, op.UsesLimits policy) : SpendingFused policy (reached P policy ops) := by
  have hsteps : StepsSatisfy (step P policy) (fun _ op => op.UsesLimits policy) Db.empty ops :=
    StepsSatisfy.of_forall fun op hop _ => h op hop
  have hinvariant := @runFrom_invariant_of Db Op (step P policy)
    (fun db => (∀ runId resource attemptId, 0 ≤ db.reservedFor runId resource attemptId) ∧
      SpendingFused policy db) (fun _ op => op.UsesLimits policy) Db.empty
    ⟨(reservesHeld_empty policy).covered, fun _ _ => Or.inl (le_max_left _ _)⟩
    (fun db op hdb huses => ⟨covered_step op hdb.1, fused_step huses hdb.1 hdb.2⟩) ops hsteps
  exact hinvariant.2

end Spending

/-- An execution that has spent more than its limit has tripped the fuse. -/
theorem spending_fused_of_overspent :
    1 < (reached Sample.platform Sample.budgetPolicy Sample.overspent).spent Sample.run
        .wallSecond ∧
      SpendingFused Sample.budgetPolicy
        (reached Sample.platform Sample.budgetPolicy Sample.overspent) :=
  ⟨Sample.outcomes.budget.overspent_actual,
    spending_fused_of_reached Sample.platform Sample.budgetPolicy Sample.overspent (by decide)⟩

end ResearchKernel
