import ResearchKernel.Authority.Machine
import ResearchKernel.Budget.Events

/-!
# Reservations and their limits

Budget is put in reserve by two commands and given back by one. A controller reserves
within what the limit leaves over everything consumed, and refunds what the attempt holds.
A further batch of a route is compared with the share of one request, whatever has been
reserved before.
-/

namespace ResearchKernel

open Foundation

/-! ## What the handlers check -/

namespace Guard

variable {context : GuardContext} {mutations : List Mutation}

variable {p : RecordBudget}

/-- The last check of an accepted budget event. -/
theorem checkAmount_of_handle (h : handleRecordBudget context p = .ok mutations) :
    checkAmount context p = .ok () := by
  unfold handleRecordBudget at h
  obtain ⟨-, -, h⟩ := bind_eq_ok.mp h
  obtain ⟨-, -, h⟩ := bind_eq_ok.mp h
  obtain ⟨-, -, h⟩ := bind_eq_ok.mp h
  obtain ⟨-, -, h⟩ := bind_eq_ok.mp h
  obtain ⟨-, -, h⟩ := bind_eq_ok.mp h
  obtain ⟨-, -, h⟩ := bind_eq_ok.mp h
  obtain ⟨⟨⟩, hamount, -⟩ := bind_eq_ok.mp h
  exact hamount

/-- What one attempt holds in reserve, as the guard sees it. -/
def heldFor (context : GuardContext) (resource : ResourceKind) (attemptId : Option Id) : ℤ :=
  budgetSum context [.reservation] resource (fun event => event.attemptId == attemptId) -
    budgetSum context [.refund] resource (fun event => event.attemptId == attemptId)

/-- A refund gives back no more than its attempt holds. -/
theorem refund_of_checkAmount (h : checkAmount context p = .ok ()) (hkind : p.eventKind = .refund) :
    ∃ amount, p.amountMicrounits = some amount ∧
      (amount : ℤ) ≤ heldFor context p.resourceKind p.attemptId := by
  obtain ⟨amount, hamount, h⟩ := bind_eq_ok.mp h
  rw [hkind] at h
  simp only [BEq.rfl, ↓reduceIte, rejectIf_eq_ok, decide_eq_false_iff_not, not_lt] at h
  exact ⟨amount, orReject_eq_ok.mp hamount, h⟩

/-- A reservation stays within the limit, with all that has been consumed. -/
theorem reservation_of_checkAmount (h : checkAmount context p = .ok ())
    (hkind : p.eventKind = .reservation) : ∃ amount limit, p.amountMicrounits = some amount ∧
      (context.policy.globalBudgetLimits.getD []).lookup p.resourceKind.wire = some limit ∧
      budgetSum context [.actual, .reservation] p.resourceKind (fun _ => true) -
        budgetSum context [.refund] p.resourceKind (fun _ => true) + amount ≤ limit := by
  obtain ⟨amount, hamount, h⟩ := bind_eq_ok.mp h
  rw [hkind] at h
  simp only [BEq.rfl, ↓reduceIte, reduceCtorEq, beq_iff_eq] at h
  obtain ⟨limit, hlimit, h⟩ := bind_eq_ok.mp h
  simp only [rejectIf_eq_ok, decide_eq_false_iff_not, not_lt] at h
  exact ⟨amount, limit, orReject_eq_ok.mp hamount,
    (Option.filter_eq_some_iff.mp (orReject_eq_ok.mp hlimit)).1, h⟩

/-- Every entry of an accepted reservation is an integer. -/
theorem asInt_of_requestExpansion {p : RequestExpansion}
    (h : handleRequestExpansion context p = .ok mutations) :
    ∀ entry ∈ p.reservation, ∃ amount, entry.2.asInt = some amount := by
  unfold handleRequestExpansion at h
  obtain ⟨route, -, h⟩ := bind_eq_ok.mp h
  obtain ⟨⟨⟩, -, h⟩ := bind_eq_ok.mp h
  obtain ⟨⟨⟩, -, h⟩ := bind_eq_ok.mp h
  obtain ⟨⟨⟩, -, h⟩ := bind_eq_ok.mp h
  obtain ⟨limits, -, h⟩ := bind_eq_ok.mp h
  obtain ⟨denominator, -, h⟩ := bind_eq_ok.mp h
  obtain ⟨⟨⟩, hexceeded, -⟩ := bind_eq_ok.mp h
  intro entry hentry
  simp only [rejectIf_eq_ok, Option.isSome_eq_false_iff, Option.isNone_iff_eq_none,
    reservationExceeds, Option.map_eq_none_iff, List.find?_eq_none] at hexceeded
  have hfits := hexceeded entry hentry
  cases hamount : entry.2.asInt with
  | some amount => exact ⟨amount, rfl⟩
  | none => simp [hamount] at hfits

end Guard

/-! ## The reserve of a run -/

/-- What a request asks to reserve of a resource. -/
def RequestExpansion.asked (p : RequestExpansion) (resource : ResourceKind) : ℤ :=
  sumWhere (fun entry => entry.1 == resource.wire) (fun entry => entry.2.asInt.getD 0)
    p.reservation

/-- A request for a further batch asks for no more than the limit leaves over the reserve. -/
def ExpansionFits (policy : Policy) (db : Db) (op : ApplyOp) : Prop :=
  ∀ p, op.request.command = .requestExpansion p → ∀ resource,
    db.reserved op.request.runId resource + p.asked resource ≤ policy.hardLimit resource

/-- Reserves stay within their limits, and no attempt gives back more than it holds. -/
structure ReservesHeld (policy : Policy) (db : Db) : Prop where
  capped : ∀ runId resource, db.reserved runId resource ≤ policy.hardLimit resource
  covered : ∀ runId resource attemptId, 0 ≤ db.reservedFor runId resource attemptId

section Reserves

variable {P : Platform} {policy : Policy} {db db' : Db} {rows : List BudgetEvent}

variable {op : ApplyOp}

/-- The guard sums the events that count for the run. -/
theorem budgetSum_eq (acceptance : Acceptance P policy db op db') (kinds : List BudgetEventKind)
    (resource : ResourceKind) (scope : BudgetEvent → Bool) :
    Guard.budgetSum acceptance.context kinds resource scope =
      Db.sumAmounts kinds ((db.countedEvents op.request.runId resource).filter scope) := by
  have hevents : acceptance.context.snapshot.budgetEvents =
      db.budgetEvents.filter (·.runId == op.request.runId) := by
    rw [← acceptance.runId_eq]
    exact acceptance.works.budgetEvents_eq
  unfold Guard.budgetSum Db.sumAmounts Db.countedEvents
  rw [hevents, List.filter_filter, List.filter_filter, List.filter_filter]
  congr 2
  apply List.filter_congr
  intro event _
  cases event.runId == op.request.runId <;> cases event.resourceKind == resource <;>
    cases kinds.contains event.eventKind <;> cases scope event <;>
    cases legacyBudgetEvent event <;> rfl

variable {event : BudgetEvent}

/-- A recorded event does not overdraw what its attempt holds. -/
theorem covered_of_enters (acceptance : Acceptance P policy db op db') {p : RecordBudget}
    (hcommand : op.request.command = .recordBudget p) (henters : p.Enters op.request.runId event)
    (hheld : 0 ≤ db.reservedFor op.request.runId p.resourceKind p.attemptId) :
    0 ≤ db.reservedFor op.request.runId p.resourceKind p.attemptId + event.netReserved := by
  have hhandled := acceptance.handled
  rw [hcommand] at hhandled
  have hchecked := Guard.checkAmount_of_handle hhandled
  unfold BudgetEvent.netReserved
  rw [henters.kind_eq, henters.amount_eq]
  cases hkind : p.eventKind with
  | refund =>
    obtain ⟨amount, hamount, hle⟩ := Guard.refund_of_checkAmount hchecked hkind
    unfold Guard.heldFor at hle
    rw [budgetSum_eq, budgetSum_eq] at hle
    change (amount : ℤ) ≤ db.reservedFor op.request.runId p.resourceKind p.attemptId at hle
    simp only [hamount, Option.getD_some]
    omega
  | reservation =>
    have := Int.natCast_nonneg (p.amountMicrounits.getD 0)
    simp only
    omega
  | _ => simpa using hheld

/-- A recorded event does not take the reserve over its limit. -/
theorem capped_of_enters (acceptance : Acceptance P policy db op db') {p : RecordBudget}
    (hcommand : op.request.command = .recordBudget p) (henters : p.Enters op.request.runId event)
    (hcapped : db.reserved op.request.runId p.resourceKind ≤ policy.hardLimit p.resourceKind) :
    db.reserved op.request.runId p.resourceKind + event.netReserved ≤
      policy.hardLimit p.resourceKind := by
  have hhandled := acceptance.handled
  rw [hcommand] at hhandled
  have hchecked := Guard.checkAmount_of_handle hhandled
  unfold BudgetEvent.netReserved
  rw [henters.kind_eq, henters.amount_eq]
  cases hkind : p.eventKind with
  | refund =>
    have := Int.natCast_nonneg (p.amountMicrounits.getD 0)
    simp only
    omega
  | reservation =>
    obtain ⟨amount, limit, hamount, hlimit, hle⟩ :=
      Guard.reservation_of_checkAmount hchecked hkind
    rw [budgetSum_eq, budgetSum_eq, List.filter_true, sumAmounts_consumed] at hle
    have hspent := sumAmounts_nonneg [.actual]
      (db.countedEvents op.request.runId p.resourceKind)
    have hreserve : limit ≤ policy.hardLimit p.resourceKind := by
      unfold Policy.hardLimit
      rw [show (policy.globalBudgetLimits.getD []).lookup p.resourceKind.wire = some limit from
        hlimit]
      exact le_max_right _ _
    simp only [hamount, Option.getD_some]
    unfold Db.reserved
    omega
  | _ => simpa using hcapped

theorem ResourceKind.wire_inj {a b : ResourceKind} : a.wire = b.wire ↔ a = b := by
  constructor
  · cases a <;> cases b <;> simp [ResourceKind.wire]
  · exact congrArg _

/-- The row of an entry of a reservation whose amount is an integer. -/
structure ReservedBy (runId : Id) (entry : String × Json) (event : BudgetEvent) : Prop where
  runId_eq : event.runId = runId
  attemptId_eq : event.attemptId = none
  usage_eq : event.providerUsage = []
  kind_eq : event.eventKind = .reservation
  resource_eq : entry.1 = event.resourceKind.wire
  amount_eq : event.netReserved = entry.2.asInt.getD 0
  nonneg : 0 ≤ event.netReserved

theorem reservedBy_of_row {ctx : ProjectionContext} {routeId : Id} {entry : (String × Json) × ℕ}
    (h : Projection.reservationRow ctx routeId entry = some event)
    (hint : ∃ amount, entry.1.2.asInt = some amount) : ReservedBy ctx.runId entry.1 event := by
  obtain ⟨amount, hamount⟩ := hint
  have hmapping : entry.1.2.mapping? = none := by
    cases hvalue : entry.1.2 with
    | obj fields =>
      rw [hvalue] at hamount
      cases hamount
    | _ => rfl
  unfold Projection.reservationRow at h
  rw [hmapping] at h
  obtain ⟨kind, hkind, h⟩ := Option.bind_eq_some_iff.mp h
  obtain ⟨value, hvalue, h⟩ := Option.bind_eq_some_iff.mp h
  obtain ⟨⟨⟩, hrange, h⟩ := Option.bind_eq_some_iff.mp h
  obtain ⟨unit, -, h⟩ := Option.bind_eq_some_iff.mp h
  obtain rfl := Option.some.inj h
  obtain rfl : amount = value := Option.some.inj (hamount.symm.trans hvalue)
  simp only [require_eq_some, Bool.and_eq_true, decide_eq_true_eq] at hrange
  have hnet : ((amount.toNat : ℕ) : ℤ) = amount := Int.toNat_of_nonneg hrange.1
  refine ⟨rfl, rfl, rfl, rfl, ?_, ?_, ?_⟩
  · have hwire := List.find?_some (show ResourceKind.all.find? _ = some kind from hkind)
    exact (beq_iff_eq.mp hwire).symm
  · simpa [BudgetEvent.netReserved, hamount] using hrange.1
  · simp [BudgetEvent.netReserved]

variable {p : RequestExpansion}

/-- The rows of an accepted request for a further batch. -/
theorem reservedBy_of_expansion (acceptance : Acceptance P policy db op db')
    (hcommand : op.request.command = .requestExpansion p)
    (hrows : (p.reservation.insertionSort fun a b => a.1 ≤ b.1).zipIdx.mapM
      (Projection.reservationRow acceptance.projection p.routeId) = some rows) :
    List.Forall₂ (ReservedBy op.request.runId)
      (p.reservation.insertionSort fun a b => a.1 ≤ b.1) rows := by
  have hhandled := acceptance.handled
  rw [hcommand] at hhandled
  have hints := Guard.asInt_of_requestExpansion hhandled
  have hpairs : List.Forall₂ (fun (entry : (String × Json) × ℕ) event =>
      ReservedBy op.request.runId entry.1 event)
      (p.reservation.insertionSort fun a b => a.1 ≤ b.1).zipIdx rows := by
    have hints' : ∀ entry ∈ (p.reservation.insertionSort fun a b => a.1 ≤ b.1).zipIdx,
        ∃ amount, entry.1.2.asInt = some amount := by
      intro entry hentry
      have hmem := List.fst_mem_of_mem_zipIdx hentry
      exact hints entry.1 ((List.mem_insertionSort _).mp hmem)
    refine List.Forall₂.imp ?_ ((List.forall₂_and_left _ _).mpr ⟨hints', mapM_eq_some.mp hrows⟩)
    rintro entry event ⟨hint, hrow⟩
    exact reservedBy_of_row hrow hint
  have hfirst := (List.forall₂_map_left_iff (f := Prod.fst)).mpr hpairs
  rwa [List.zipIdx_map_fst] at hfirst

/-- A request for a further batch adds what it asks for to the reserve of its run. -/
theorem sum_of_reservedBy {runId : Id} {entries : List (String × Json)}
    (h : List.Forall₂ (ReservedBy runId) entries rows) (resource : ResourceKind) :
    sumWhere (BudgetEvent.countsFor runId resource) BudgetEvent.netReserved rows =
      sumWhere (fun entry => entry.1 == resource.wire) (fun entry => entry.2.asInt.getD 0)
        entries := by
  induction h with
  | nil => rfl
  | @cons entry event entries rows hrow _ ih =>
    rw [sumWhere_cons, sumWhere_cons, ih, hrow.amount_eq, hrow.resource_eq]
    have hlegacy : legacyBudgetEvent event = false := by
      unfold legacyBudgetEvent
      rw [hrow.usage_eq]
      rfl
    simp [BudgetEvent.countsFor, hrow.runId_eq, hlegacy, ResourceKind.wire_inj]

theorem asked_of_reservedBy {runId : Id} (h : List.Forall₂ (ReservedBy runId)
      (p.reservation.insertionSort fun a b => a.1 ≤ b.1) rows) (resource : ResourceKind) :
    sumWhere (BudgetEvent.countsFor runId resource) BudgetEvent.netReserved rows =
      p.asked resource := by
  rw [sum_of_reservedBy h]
  exact sumWhere_perm (List.perm_insertionSort _ _)

/-- Events that add nothing to the reserve leave it alone. -/
theorem sumWhere_unreserved (h : ∀ event ∈ rows, event.netReserved = 0)
    (test : BudgetEvent → Bool) : sumWhere test BudgetEvent.netReserved rows = 0 :=
  sumWhere_eq_zero fun event hevent _ => h event hevent

/-- What the appended events of an operation add to the reserve: nothing, what a controller
records, or what a request for a further batch asks for. -/
theorem Budgeting.reserve {op : Op} (h : Budgeting P policy db op db' rows) :
    (∀ event ∈ rows, event.netReserved = 0) ∨
      (∃ (applied : ApplyOp) (_ : Acceptance P policy db applied db') (p : RecordBudget)
        (event : BudgetEvent), op = .apply applied ∧ applied.request.command = .recordBudget p ∧
          p.Enters applied.request.runId event ∧ rows = [event]) ∨
      ∃ (applied : ApplyOp) (p : RequestExpansion), op = .apply applied ∧
        applied.Accepts P policy db ∧ applied.request.command = .requestExpansion p ∧
        List.Forall₂ (ReservedBy applied.request.runId)
          (p.reservation.insertionSort fun a b => a.1 ≤ b.1) rows := by
  cases h with
  | idle _ _ => exact Or.inl (by simp)
  | entered applied _ accepts acceptance p hcommand event henters =>
    exact Or.inr (Or.inl ⟨applied, acceptance, p, event, rfl, hcommand, henters, rfl⟩)
  | expanded applied _ accepts acceptance p hcommand _ hrows =>
    exact Or.inr (Or.inr ⟨applied, p, rfl, accepts, hcommand,
      reservedBy_of_expansion acceptance hcommand hrows⟩)
  | reported capability report _ revision =>
    obtain ⟨measure, fuse, hmetered, heq⟩ := metered_report P report revision
      (componentRows report.usage)
      (db.componentOverruns report.runId (componentRows report.usage) report.budgetLimits)
    rw [heq]
    exact Or.inl (hmetered.netReserved_eq_zero (meters_componentRows _))
  | recorded capability record _ revision usage usage_eq =>
    subst usage_eq
    obtain ⟨measure, fuse, hmetered, heq⟩ := metered_record P record revision
      (hostBudgetRows record.result.wallTimeMs record.result.providerUsage)
      (db.hostBudgetOverruns record.scope.runId record.scope.attemptId
        (hostBudgetRows record.result.wallTimeMs record.result.providerUsage) record.budgetLimits)
    rw [heq]
    exact Or.inl (hmetered.netReserved_eq_zero (meters_hostBudgetRows _ _))
  | recovered _ _ _ hunmetered =>
    refine Or.inl fun event hevent => ?_
    unfold BudgetEvent.netReserved
    rcases hunmetered event hevent with hkind | hkind
    · rw [hkind]
    · rw [hkind]

/-- No operation lets an attempt give back more than it holds. -/
theorem covered_step (op : Op)
    (h : ∀ runId resource attemptId, 0 ≤ db.reservedFor runId resource attemptId) :
    ∀ runId resource attemptId,
      0 ≤ (step P policy db op).reservedFor runId resource attemptId := by
  intro runId resource attemptId
  obtain ⟨rows, hrows, hbudgeting⟩ := @budgeting_step P policy db op
  have hheld := h runId resource attemptId
  rw [reservedFor_append hrows]
  rcases hbudgeting.reserve with hzero | ⟨applied, acceptance, p, event, -, hcommand, henters, rfl⟩ |
    ⟨applied, p, -, -, -, hreserved⟩
  · rw [sumWhere_unreserved hzero]
    omega
  · rw [sumWhere_cons, sumWhere_nil]
    split
    · rename_i hcounts
      simp only [BudgetEvent.countsFor, Bool.and_eq_true, beq_iff_eq, henters.runId_eq,
        henters.resource_eq, henters.attemptId_eq] at hcounts
      obtain ⟨⟨⟨rfl, rfl⟩, -⟩, rfl⟩ := hcounts
      have := covered_of_enters acceptance hcommand henters (h _ _ _)
      omega
    · omega
  · have hnonneg : ∀ event ∈ rows, 0 ≤ event.netReserved :=
      forall_of_forall₂ hreserved fun _ _ hentry => hentry.nonneg
    have hadded : 0 ≤ sumWhere
        (fun event => event.countsFor runId resource && event.attemptId == attemptId)
        BudgetEvent.netReserved rows := sumWhere_nonneg hnonneg
    omega

/-- What an accepted request for a further batch leaves in reserve. -/
theorem reserved_of_expansion {applied : ApplyOp}
    (hrows : db'.budgetEvents = db.budgetEvents ++ rows)
    (hreserved : List.Forall₂ (ReservedBy applied.request.runId)
      (p.reservation.insertionSort fun a b => a.1 ≤ b.1) rows) (resource : ResourceKind) :
    db'.reserved applied.request.runId resource =
      db.reserved applied.request.runId resource + p.asked resource := by
  rw [reserved_append hrows, asked_of_reservedBy hreserved]

/-- An operation keeps reserves within their limits, when a further batch fits. -/
theorem capped_step {op : Op} (hfits : OnAccepted P policy (ExpansionFits policy) db op)
    (h : ∀ runId resource, db.reserved runId resource ≤ policy.hardLimit resource) :
    ∀ runId resource,
      (step P policy db op).reserved runId resource ≤ policy.hardLimit resource := by
  intro runId resource
  obtain ⟨rows, hrows, hbudgeting⟩ := @budgeting_step P policy db op
  have hcapped := h runId resource
  rcases hbudgeting.reserve with hzero | ⟨applied, acceptance, p, event, -, hcommand, henters, rfl⟩ |
    ⟨applied, p, rfl, haccepts, hcommand, hreserved⟩
  · rw [reserved_append hrows, sumWhere_unreserved hzero]
    omega
  · rw [reserved_append hrows, sumWhere_cons, sumWhere_nil]
    split
    · rename_i hcounts
      simp only [BudgetEvent.countsFor, Bool.and_eq_true, beq_iff_eq, henters.runId_eq,
        henters.resource_eq] at hcounts
      obtain ⟨⟨rfl, rfl⟩, -⟩ := hcounts
      have := capped_of_enters acceptance hcommand henters (h _ _)
      omega
    · omega
  · by_cases hrun : runId = applied.request.runId
    · subst hrun
      rw [reserved_of_expansion hrows hreserved]
      exact hfits haccepts p hcommand resource
    · have hother : sumWhere (BudgetEvent.countsFor runId resource) BudgetEvent.netReserved rows =
          0 := by
        refine sumWhere_eq_zero fun event hevent hcounts => ?_
        have hevent := forall_of_forall₂ hreserved (fun _ _ hentry => hentry.runId_eq) event hevent
        simp only [BudgetEvent.countsFor, Bool.and_eq_true, beq_iff_eq] at hcounts
        exact absurd (hcounts.1.1.symm.trans hevent) hrun
      rw [reserved_append hrows, hother]
      omega

theorem reservesHeld_empty (policy : Policy) : ReservesHeld policy Db.empty where
  capped := fun _ _ => le_max_left _ _
  covered := fun _ _ _ => le_refl 0

/-- Reserves stay within their limits, and no attempt gives back more than it holds, in every
state of a run exactly when each accepted request for a further batch asks for no more than
the limit leaves over the reserve. -/
theorem reserves_held_iff (P : Platform) (policy : Policy) (ops : List Op) :
    (∀ early late, ops = early ++ late → ReservesHeld policy (reached P policy early)) ↔
      StepsSatisfy (step P policy) (OnAccepted P policy (ExpansionFits policy)) Db.empty ops := by
  constructor
  · rintro hheld before op after rfl
    have hafter := hheld (before ++ [op]) after (by simp)
    rw [show reached P policy (before ++ [op]) = step P policy (reached P policy before) op from
      runFrom_concat _ _ _ _] at hafter
    cases op with
    | apply applied =>
      intro haccepts p hcommand resource
      obtain ⟨acceptance⟩ := acceptance_of_accepts haccepts
      obtain ⟨rows, hrows, hmap⟩ := budgetEvents_requestExpansion acceptance hcommand
      have hreserved := reservedBy_of_expansion acceptance hcommand hmap
      exact (reserved_of_expansion hrows hreserved resource).symm.trans_le
        (hafter.capped applied.request.runId resource)
    | _ => trivial
  · rintro hfits early late rfl
    have hcovered : ∀ runId resource attemptId,
        0 ≤ (reached P policy early).reservedFor runId resource attemptId :=
      @runFrom_invariant Db Op (step P policy)
        (fun db => ∀ runId resource attemptId, 0 ≤ db.reservedFor runId resource attemptId)
        Db.empty (reservesHeld_empty policy).covered (fun _ op h => covered_step op h) early
    have hcapped : ∀ runId resource,
        (reached P policy early).reserved runId resource ≤ policy.hardLimit resource :=
      @runFrom_invariant_of Db Op (step P policy)
        (fun db => ∀ runId resource, db.reserved runId resource ≤ policy.hardLimit resource)
        (OnAccepted P policy (ExpansionFits policy)) Db.empty (reservesHeld_empty policy).capped
        (fun _ _ h hcond => capped_step hcond h) early hfits.left
    exact ⟨hcapped, hcovered⟩

end Reserves

/-- A route that asks twice for all there is reserves more than there is. -/
theorem reserves_over_limit :
    ¬ ReservesHeld Sample.budgetPolicy
      (reached Sample.platform Sample.budgetPolicy Sample.expanded) := by
  intro hheld
  have hcapped := hheld.capped Sample.run .wallSecond
  unfold Db.reserved at hcapped
  rw [Sample.outcomes.budget.reserved_twice, Sample.outcomes.budget.none_refunded] at hcapped
  exact absurd hcapped (by decide)

end ResearchKernel
