import ResearchKernel.Foundation.Sums
import ResearchKernel.Kernel.Moves

/-!
# The budget of a run

The budget is a list of events that only grows. Four writers append to it: a controller
that records an event, a route that asks for a further batch, the host that reports what
was used, and the recovery of an execution. This file gives the accounts that are read off
the events, and the events that each operation appends.
-/

namespace ResearchKernel

open Foundation

/-! ## Accounts -/

namespace Db

variable (db : Db)

def spent (runId : Id) (resource : ResourceKind) : ℤ :=
  sumAmounts [.actual] (db.countedEvents runId resource)

/-- What a run holds in reserve of a resource: reservations less refunds. -/
def reserved (runId : Id) (resource : ResourceKind) : ℤ :=
  sumAmounts [.reservation] (db.countedEvents runId resource) -
    sumAmounts [.refund] (db.countedEvents runId resource)

/-- The events of a resource that name the given attempt, or none. -/
def eventsOf (runId : Id) (resource : ResourceKind) (attemptId : Option Id) : List BudgetEvent :=
  (db.countedEvents runId resource).filter (·.attemptId == attemptId)

/-- What one attempt holds in reserve of a resource. -/
def reservedFor (runId : Id) (resource : ResourceKind) (attemptId : Option Id) : ℤ :=
  sumAmounts [.reservation] (db.eventsOf runId resource attemptId) -
    sumAmounts [.refund] (db.eventsOf runId resource attemptId)

/-- Whether the fuse of a run has been tripped. -/
def fuseTripped (runId : Id) : Bool :=
  db.budgetEvents.any fun event =>
    event.runId == runId && event.eventKind == .fuseTrip && !legacyBudgetEvent event

/-- Whether the fuse of a run has been tripped for a resource. -/
def fuseTrippedFor (runId : Id) (resource : ResourceKind) : Bool :=
  (db.countedEvents runId resource).any (·.eventKind == .fuseTrip)

end Db

/-- The limit of a resource, which is nothing where the policy has no positive one. -/
def Policy.hardLimit (policy : Policy) (resource : ResourceKind) : ℤ :=
  max 0 (((policy.globalBudgetLimits.getD []).lookup resource.wire).getD 0)

/-- What an event adds to the reserve. -/
def BudgetEvent.netReserved (event : BudgetEvent) : ℤ :=
  match event.eventKind with
  | .reservation => (event.amountMicrounits.getD 0 : ℕ)
  | .refund => -(event.amountMicrounits.getD 0 : ℕ)
  | _ => 0

/-- Whether an event counts for a resource of a run. -/
def BudgetEvent.countsFor (runId : Id) (resource : ResourceKind) (event : BudgetEvent) : Bool :=
  event.runId == runId && event.resourceKind == resource && !legacyBudgetEvent event

section Accounts

variable {db db' : Db} {runId : Id} {resource : ResourceKind} {rows : List BudgetEvent}

@[simp] theorem sumAmounts_nil (kinds : List BudgetEventKind) : Db.sumAmounts kinds [] = 0 := rfl

theorem sumAmounts_append (kinds : List BudgetEventKind) (events rows : List BudgetEvent) :
    Db.sumAmounts kinds (events ++ rows) = Db.sumAmounts kinds events + Db.sumAmounts kinds rows :=
  sumWhere_append _ _ _ _

theorem sumAmounts_nonneg (kinds : List BudgetEventKind) (events : List BudgetEvent) :
    0 ≤ Db.sumAmounts kinds events :=
  sumWhere_nonneg fun _ _ => Int.natCast_nonneg _

/-- Reservations less refunds are the sum of what the events add to the reserve. -/
theorem sumAmounts_sub (events : List BudgetEvent) :
    Db.sumAmounts [.reservation] events - Db.sumAmounts [.refund] events =
      sumWhere (fun _ => true) BudgetEvent.netReserved events := by
  induction events with
  | nil => rfl
  | cons event events ih =>
    unfold Db.sumAmounts at ih ⊢
    change sumWhere _ _ (event :: events) - sumWhere _ _ (event :: events) = _
    rw [sumWhere_cons, sumWhere_cons, sumWhere_cons, ← ih]
    unfold sumWhere
    cases hkind : event.eventKind <;> simp [BudgetEvent.netReserved, hkind] <;> omega

/-- Spendings and reservations less refunds are what is spent and what is in reserve. -/
theorem sumAmounts_consumed (events : List BudgetEvent) :
    Db.sumAmounts [.actual, .reservation] events - Db.sumAmounts [.refund] events =
      Db.sumAmounts [.actual] events +
        (Db.sumAmounts [.reservation] events - Db.sumAmounts [.refund] events) := by
  have hsplit : Db.sumAmounts [.actual, .reservation] events =
      Db.sumAmounts [.actual] events + Db.sumAmounts [.reservation] events := by
    induction events with
    | nil => rfl
    | cons event events ih =>
      unfold Db.sumAmounts at ih ⊢
      change sumWhere _ _ (event :: events) = sumWhere _ _ (event :: events) +
        sumWhere _ _ (event :: events)
      rw [sumWhere_cons, sumWhere_cons, sumWhere_cons]
      unfold sumWhere
      rw [ih]
      cases hkind : event.eventKind <;> simp <;> omega
  omega

theorem reserved_eq : db.reserved runId resource =
    sumWhere (fun _ => true) BudgetEvent.netReserved (db.countedEvents runId resource) :=
  sumAmounts_sub _

variable {attemptId : Option Id}

theorem reservedFor_eq : db.reservedFor runId resource attemptId =
    sumWhere (fun event => event.attemptId == attemptId) BudgetEvent.netReserved
      (db.countedEvents runId resource) := by
  unfold Db.reservedFor Db.eventsOf
  rw [sumAmounts_sub]
  unfold sumWhere
  rw [List.filter_true]

theorem countedEvents_append (h : db'.budgetEvents = db.budgetEvents ++ rows) :
    db'.countedEvents runId resource =
      db.countedEvents runId resource ++ rows.filter (BudgetEvent.countsFor runId resource) := by
  unfold Db.countedEvents
  rw [h, List.filter_append]
  rfl

theorem spent_append (h : db'.budgetEvents = db.budgetEvents ++ rows) :
    db'.spent runId resource = db.spent runId resource +
      Db.sumAmounts [.actual] (rows.filter (BudgetEvent.countsFor runId resource)) := by
  unfold Db.spent
  rw [countedEvents_append h, sumAmounts_append]

theorem reserved_append (h : db'.budgetEvents = db.budgetEvents ++ rows) :
    db'.reserved runId resource = db.reserved runId resource +
      sumWhere (BudgetEvent.countsFor runId resource) BudgetEvent.netReserved rows := by
  rw [reserved_eq, reserved_eq, countedEvents_append h, sumWhere_append]
  unfold sumWhere
  rw [List.filter_true, List.filter_true]

theorem reservedFor_append (h : db'.budgetEvents = db.budgetEvents ++ rows) :
    db'.reservedFor runId resource attemptId = db.reservedFor runId resource attemptId +
      sumWhere (fun event => event.countsFor runId resource && event.attemptId == attemptId)
        BudgetEvent.netReserved rows := by
  rw [reservedFor_eq, reservedFor_eq, countedEvents_append h, sumWhere_append]
  rw [sumWhere_filter]

/-- A fuse that has been tripped stays so. -/
theorem fuseTripped_append (h : db'.budgetEvents = db.budgetEvents ++ rows)
    (htripped : db.fuseTripped runId = true) : db'.fuseTripped runId = true := by
  unfold Db.fuseTripped at htripped ⊢
  rw [h, List.any_append, htripped, Bool.true_or]

theorem fuseTrippedFor_append (h : db'.budgetEvents = db.budgetEvents ++ rows)
    (htripped : db.fuseTrippedFor runId resource = true) :
    db'.fuseTrippedFor runId resource = true := by
  unfold Db.fuseTrippedFor at htripped ⊢
  rw [countedEvents_append h, List.any_append, htripped, Bool.true_or]

end Accounts

/-! ## What the operations append -/

/-- An event that records what a controller asks for. -/
structure RecordBudget.Enters (p : RecordBudget) (runId : Id) (event : BudgetEvent) : Prop where
  runId_eq : event.runId = runId
  attemptId_eq : event.attemptId = p.attemptId
  kind_eq : event.eventKind = p.eventKind
  resource_eq : event.resourceKind = p.resourceKind
  amount_eq : event.amountMicrounits = p.amountMicrounits
  usage_eq : event.providerUsage = p.providerUsage

/-- The events that an operation appends to the budget. -/
inductive Budgeting (P : Platform) (policy : Policy) (db : Db) :
    Op → Db → List BudgetEvent → Prop
  | idle (op : Op) (db' : Db) : Budgeting P policy db op db' []
  | entered (op : ApplyOp) (db' : Db) (accepts : op.Accepts P policy db)
      (acceptance : Acceptance P policy db op db') (p : RecordBudget)
      (command_eq : op.request.command = .recordBudget p) (event : BudgetEvent)
      (enters : p.Enters op.request.runId event) :
      Budgeting P policy db (.apply op) db' [event]
  | expanded (op : ApplyOp) (db' : Db) (accepts : op.Accepts P policy db)
      (acceptance : Acceptance P policy db op db') (p : RequestExpansion)
      (command_eq : op.request.command = .requestExpansion p) (rows : List BudgetEvent)
      (rows_eq : (p.reservation.insertionSort fun a b => a.1 ≤ b.1).zipIdx.mapM
        (Projection.reservationRow acceptance.projection p.routeId) = some rows) :
      Budgeting P policy db (.apply op) db' rows
  | reported (capability : VerifiedCapability) (report : ComponentUsage) (db' : Db)
      (revision : ℕ) : Budgeting P policy db (.recordComponentUsage capability report) db'
        (report.budgetEvents P revision (componentRows report.usage)
          (db.componentOverruns report.runId (componentRows report.usage) report.budgetLimits))
  | recorded (capability : VerifiedCapability) (record : HostRecord) (db' : Db) (revision : ℕ)
      (usage : List UsageRow)
      (usage_eq : usage = hostBudgetRows record.result.wallTimeMs record.result.providerUsage) :
      Budgeting P policy db (.recordHostExecution capability record) db'
        (record.budgetEvents P revision usage (db.hostBudgetOverruns record.scope.runId
          record.scope.attemptId usage record.budgetLimits))
  | recovered (op : Op) (db' : Db) (rows : List BudgetEvent)
      (unmetered : ∀ event ∈ rows, event.eventKind = .unknownCost ∨ event.eventKind = .fuseTrip) :
      Budgeting P policy db op db' rows

/-- Whether a mutation writes the budget. -/
def Mutation.writesBudget : Mutation → Bool
  | .appendBudgetEvent _ | .appendBudgetReservation _ => true
  | _ => false

section Appended

variable {P : Platform} {policy : Policy} {db db' : Db} {op : Op}

theorem SameBody.budgetEvents (h : SameBody db db') : db'.budgetEvents = db.budgetEvents :=
  congrArg Workings.budgetEvents h.workings

/-- A mutation that does not write the budget leaves it alone. -/
theorem Projection.budgetEvents_of_apply {ctx : ProjectionContext} {m : Mutation}
    (h : applyMutation ctx db m = some db') (hm : m.writesBudget = false) :
    db'.budgetEvents = db.budgetEvents := by
  have hframe := congrArg Workings.budgetEvents (workings_of_apply h)
  cases m with
  | appendBudgetEvent | appendBudgetReservation => cases hm
  | _ => exact hframe

/-- Two commands write the budget. -/
theorem Guard.Emission.budget {context : GuardContext} {command : Command}
    {mutations : List Mutation} (h : Emission context command mutations) :
    (∃ p, command = .recordBudget p) ∨ (∃ p, command = .requestExpansion p) ∨
      ∀ m ∈ mutations, m.writesBudget = false := by
  cases h with
  | recordBudget p => exact Or.inl ⟨p, rfl⟩
  | requestExpansion p => exact Or.inr (Or.inl ⟨p, rfl⟩)
  | _ => exact Or.inr (Or.inr (List.forall_iff_forall_mem.mp (by simp [amendment,
      Mutation.writesBudget])))

theorem budgetEvents_of_first {op : ApplyOp} (acceptance : Acceptance P policy db op db')
    {m : Mutation} {rest : List Mutation} (hmutations : acceptance.mutations = m :: rest)
    (hrest : ∀ m ∈ rest, m.writesBudget = false) :
    ∃ start mid, SameBody db start ∧
      Projection.applyMutation acceptance.projection start m = some mid ∧
      db'.budgetEvents = mid.budgetEvents := by
  have hprojected := acceptance.projected
  rw [hmutations] at hprojected
  obtain ⟨mid, hfirst, hlast⟩ := Projection.apply_cons_eq_some.mp hprojected
  refine ⟨acceptance.appended, mid, acceptance.sameBody_appended, hfirst, ?_⟩
  rw [acceptance.sameBody_last.budgetEvents]
  exact Projection.apply_keeps hlast fun m hm before after happly =>
    Projection.budgetEvents_of_apply happly (hrest m hm)

theorem budgeting_recordBudget {op : ApplyOp} (accepts : op.Accepts P policy db)
    (acceptance : Acceptance P policy db op db') {p : RecordBudget}
    (hcommand : op.request.command = .recordBudget p) :
    ∃ rows, db'.budgetEvents = db.budgetEvents ++ rows ∧
      Budgeting P policy db (.apply op) db' rows := by
  have hhandled := acceptance.handled
  rw [hcommand] at hhandled
  have hmutations := Guard.emits_recordBudget p _ hhandled
  obtain ⟨start, mid, hstart, hfirst, hend⟩ := budgetEvents_of_first acceptance hmutations (by
    intro m hm
    split at hm
    · rcases List.mem_cons.mp hm with rfl | hm
      · rfl
      · rw [List.mem_singleton.mp hm]
        rfl
    · cases hm)
  obtain ⟨⟨⟩, -, hfirst⟩ := Option.bind_eq_some_iff.mp hfirst
  obtain ⟨events, hevents, hfirst⟩ := Option.bind_eq_some_iff.mp hfirst
  obtain rfl := Option.some.inj hfirst
  obtain ⟨-, rfl⟩ := insertRow_eq_some.mp hevents
  refine ⟨_, by rw [hend, ← hstart.budgetEvents], .entered op db' accepts acceptance p hcommand _ ?_⟩
  exact ⟨rfl, rfl, rfl, rfl, rfl, rfl⟩

/-- An accepted request for a further batch appends a row for each entry. -/
theorem budgetEvents_requestExpansion {op : ApplyOp} (acceptance : Acceptance P policy db op db')
    {p : RequestExpansion} (hcommand : op.request.command = .requestExpansion p) :
    ∃ rows, db'.budgetEvents = db.budgetEvents ++ rows ∧
      (p.reservation.insertionSort fun a b => a.1 ≤ b.1).zipIdx.mapM
        (Projection.reservationRow acceptance.projection p.routeId) = some rows := by
  have hhandled := acceptance.handled
  rw [hcommand] at hhandled
  have hmutations := Guard.emits_requestExpansion p _ hhandled
  obtain ⟨start, mid, hstart, hfirst, hend⟩ := budgetEvents_of_first acceptance hmutations (by
    intro m hm
    rw [List.mem_singleton.mp hm]
    rfl)
  obtain ⟨rows, hrows, hfirst⟩ := Option.bind_eq_some_iff.mp hfirst
  obtain ⟨events, hevents, hfirst⟩ := Option.bind_eq_some_iff.mp hfirst
  obtain rfl := Option.some.inj hfirst
  obtain rfl := eq_append_of_insertRows hevents
  exact ⟨rows, by rw [hend, ← hstart.budgetEvents], hrows⟩

/-- Recoveries append events without an amount that is spent or reserved. -/
theorem budgetEvents_of_recoveries {now : Instant} {claims : List HostClaim} {last : Db}
    (h : Recoveries P now claims db last) :
    ∃ rows, last.budgetEvents = db.budgetEvents ++ rows ∧
      ∀ event ∈ rows, event.eventKind = .unknownCost ∨ event.eventKind = .fuseTrip := by
  have hone : ∀ (db : Db) (event : BudgetEvent), ∃ rows : List BudgetEvent,
      (db.insertOrIgnoreBudget event).budgetEvents = db.budgetEvents ++ rows ∧
        ∀ row ∈ rows, row = event := by
    intro db event
    unfold Db.insertOrIgnoreBudget insertRow
    split
    · exact ⟨[], by simp, by simp⟩
    · exact ⟨[event], rfl, by simp⟩
  induction h with
  | nil same => exact ⟨[], by rw [same.budgetEvents, List.append_nil], by simp⟩
  | @cons db mid last claims claim revision same rest ih =>
    obtain ⟨rows, hlast, hrows⟩ := ih
    obtain ⟨first, hfirst, hunknown⟩ := hone db
      (recoveryEvent P claim revision "recovery:unknown" .unknownCost none)
    obtain ⟨second, hsecond, hfuse⟩ := hone _
      (recoveryEvent P claim revision "recovery:fuse" .fuseTrip (some 0))
    refine ⟨first ++ second ++ rows, ?_, ?_⟩
    · rw [hlast, same.budgetEvents, ← List.append_assoc, ← List.append_assoc, ← hfirst]
      exact congrArg (· ++ rows) hsecond
    · intro event hevent
      simp only [List.mem_append] at hevent
      rcases hevent with (hevent | hevent) | hevent
      · exact Or.inl (by rw [hunknown event hevent]; rfl)
      · exact Or.inr (by rw [hfuse event hevent]; rfl)
      · exact hrows event hevent

/-- Every move appends to the budget. -/
theorem budgeting_of_move {op : Op} (h : Move P policy db op db') :
    ∃ rows, db'.budgetEvents = db.budgetEvents ++ rows ∧ Budgeting P policy db op db' rows := by
  have hidle : ∀ {op : Op}, db'.budgetEvents = db.budgetEvents → ∃ rows,
      db'.budgetEvents = db.budgetEvents ++ rows ∧ Budgeting P policy db op db' rows :=
    fun h => ⟨[], by rw [h, List.append_nil], .idle _ _⟩
  cases h with
  | idle _ _ same | created op _ run contract begins same
  | claimed capability request _ claim begins same => exact hidle same.budgetEvents
  | applied op _ accepts acceptance =>
    rcases acceptance.emission.budget with ⟨p, hcommand⟩ | ⟨p, hcommand⟩ | hkeep
    · exact budgeting_recordBudget accepts acceptance hcommand
    · obtain ⟨rows, hrows, hmap⟩ := budgetEvents_requestExpansion acceptance hcommand
      exact ⟨rows, hrows, .expanded op _ accepts acceptance p hcommand rows hmap⟩
    · refine hidle (acceptance.keeps (f := Db.budgetEvents) (fun _ _ h => h.budgetEvents) ?_)
      exact fun m hm before after happly => Projection.budgetEvents_of_apply happly (hkeep m hm)
  | reported capability report _ revision overruns overruns_eq same =>
    subst overruns_eq
    exact ⟨_, same.budgetEvents, .reported capability report _ revision⟩
  | recorded capability record _ revision reasons usage usage_eq claimed fresh same =>
    exact ⟨_, same.budgetEvents, .recorded capability record _ revision usage usage_eq⟩
  | beaten claimToken serviceInstanceId now recoverAfter => exact hidle rfl
  | recovered capability now claimToken force _ recoveries =>
    obtain ⟨rows, hrows, hunmetered⟩ := budgetEvents_of_recoveries recoveries
    exact ⟨rows, hrows, .recovered _ _ rows hunmetered⟩
  | leanConsumed capability use feedbackId toolchain _ rows feedback root evidence verified rows_eq
      eligible verified_eq same =>
    obtain ⟨verdicts, claims, rfl⟩ := setKernelVerified_eq _ _ _ verified verified_eq
    exact hidle same.budgetEvents
  | checkerConsumed capability use verificationId rootKind _ rows root evidence verification
      rows_eq eligible same => exact hidle same.budgetEvents

/-- Every operation appends to the budget. -/
theorem budgeting_step (op : Op) : ∃ rows,
    (step P policy db op).budgetEvents = db.budgetEvents ++ rows ∧
      Budgeting P policy db op (step P policy db op) rows :=
  budgeting_of_move (move_step op)

end Appended

/-! ## Usage and fuses -/

/-- The events of measured usage: one for each measure, and a tripped fuse for each overrun. -/
structure Metered (runId : Id) (measure : UsageRow → BudgetEvent)
    (fuse : ResourceKind → BudgetEvent) : Prop where
  measure_runId : ∀ row, (measure row).runId = runId
  measure_kind : ∀ row, (measure row).eventKind = row.kind
  measure_resource : ∀ row, (measure row).resourceKind = row.resource
  measure_amount : ∀ row, (measure row).amountMicrounits = row.amount
  measure_counts : ∀ row, legacyBudgetEvent (measure row) = false
  fuse_runId : ∀ resource, (fuse resource).runId = runId
  fuse_kind : ∀ resource, (fuse resource).eventKind = .fuseTrip
  fuse_resource : ∀ resource, (fuse resource).resourceKind = resource
  fuse_counts : ∀ resource, legacyBudgetEvent (fuse resource) = false

/-- Measures of some resources, each at most once: spent or of unknown cost, never reserved. -/
structure Meters (resources : List ResourceKind) (usage : List UsageRow) : Prop where
  once : (usage.map (·.resource)).Sublist resources
  measured : ∀ row ∈ usage, row.kind = .actual ∨ row.kind = .unknownCost

theorem Meters.append {resources resources' : List ResourceKind} {usage usage' : List UsageRow}
    (h : Meters resources usage) (h' : Meters resources' usage') :
    Meters (resources ++ resources') (usage ++ usage') where
  once := by
    rw [List.map_append]
    exact h.once.append h'.once
  measured := by
    intro row hrow
    rcases List.mem_append.mp hrow with hrow | hrow
    · exact h.measured row hrow
    · exact h'.measured row hrow

theorem meters_actual (resource : ResourceKind) (amount : Option ℕ) (unit : String) :
    Meters [resource] [⟨resource, .actual, amount, unit⟩] :=
  ⟨List.Sublist.refl _, by simp⟩

theorem meters_unknown (resource : ResourceKind) (amount : Option ℕ) (unit : String) :
    Meters [resource] [⟨resource, .unknownCost, amount, unit⟩] :=
  ⟨List.Sublist.refl _, by simp⟩

theorem meters_nil (resources : List ResourceKind) : Meters resources [] :=
  ⟨List.nil_sublist _, by simp⟩

/-- The count of one resource, or that it is not known. -/
theorem meters_counter (usage : JsonObject) (name : String) (resource : ResourceKind)
    (multiplier : ℕ) (unit : String) :
    Meters [resource] (match counter? usage name with
      | some value => [⟨resource, .actual, some (value * multiplier), unit⟩]
      | none => if (usage.getOr (name ++ "_applicable") (.bool true)).isTrue then
          [⟨resource, .unknownCost, none, "unknown"⟩] else []) := by
  split
  · exact meters_actual _ _ _
  · split
    · exact meters_unknown _ _ _
    · exact meters_nil _

/-- The count of tokens, or that it is not known. -/
theorem meters_tokens (usage : JsonObject) (name : String) (resource : ResourceKind) :
    Meters [resource] [match counter? usage name with
      | some value => ⟨resource, .actual, some (value * 1000000), "microtoken"⟩
      | none => ⟨resource, .unknownCost, none, "unknown"⟩] := by
  split
  · exact meters_actual _ _ _
  · exact meters_unknown _ _ _

/-- What components report, each resource at most once. -/
theorem meters_componentRows (usage : JsonObject) :
    Meters [.inputToken, .outputToken, .wallSecond, .apiMicroCurrency] (componentRows usage) := by
  refine (((meters_counter _ _ _ _ _).append (meters_counter _ _ _ _ _)).append
    (meters_counter _ _ _ _ _)).append ?_
  split
  · exact meters_unknown _ _ _
  · exact meters_nil _

/-- What the host measures, each resource at most once. -/
theorem meters_hostBudgetRows (wallTimeMs : ℕ) (usage : JsonObject) :
    Meters [.wallSecond, .inputToken, .outputToken, .apiMicroCurrency]
      (hostBudgetRows wallTimeMs usage) := by
  refine (meters_actual _ _ _).append
    (@Meters.append [.inputToken, .outputToken] [.apiMicroCurrency] _ _ ?_ ?_)
  · split
    · exact (meters_tokens _ _ _).append (meters_tokens _ _ _)
    · exact meters_nil _
  · split
    · exact meters_unknown _ _ _
    · exact meters_nil _

theorem metered_report (P : Platform) (report : ComponentUsage) (revision : ℕ)
    (usage : List UsageRow) (overruns : List ResourceKind) :
    ∃ measure fuse, Metered report.runId measure fuse ∧
      report.budgetEvents P revision usage overruns = usage.map measure ++ overruns.map fuse := by
  refine ⟨_, _, ⟨fun _ => rfl, fun _ => rfl, fun _ => rfl, fun _ => rfl, fun row => ?_,
    fun _ => rfl, fun _ => rfl, fun _ => rfl, fun resource => ?_⟩, rfl⟩
  all_goals simp [legacyBudgetEvent, JsonObject.get, lookup_setKey, Json.isText]

theorem metered_record (P : Platform) (record : HostRecord) (revision : ℕ)
    (usage : List UsageRow) (overruns : List ResourceKind) :
    ∃ measure fuse, Metered record.scope.runId measure fuse ∧
      record.budgetEvents P revision usage overruns = usage.map measure ++ overruns.map fuse := by
  refine ⟨_, _, ⟨fun _ => rfl, fun _ => rfl, fun _ => rfl, fun _ => rfl, fun row => ?_,
    fun _ => rfl, fun _ => rfl, fun _ => rfl, fun resource => ?_⟩, rfl⟩
  all_goals simp [legacyBudgetEvent, JsonObject.get, lookup_setKey, Json.isText]

section Metering

variable {runId : Id} {measure : UsageRow → BudgetEvent} {fuse : ResourceKind → BudgetEvent}
  {usage : List UsageRow} {overruns : List ResourceKind} {resources : List ResourceKind}

theorem Metered.netReserved_eq_zero (h : Metered runId measure fuse)
    (hmeters : Meters resources usage) :
    ∀ event ∈ usage.map measure ++ overruns.map fuse, event.netReserved = 0 := by
  intro event hevent
  unfold BudgetEvent.netReserved
  rcases List.mem_append.mp hevent with hevent | hevent
  · obtain ⟨row, hrow, rfl⟩ := List.mem_map.mp hevent
    rw [h.measure_kind]
    rcases hmeters.measured row hrow with hkind | hkind
    · rw [hkind]
    · rw [hkind]
  · obtain ⟨resource, -, rfl⟩ := List.mem_map.mp hevent
    rw [h.fuse_kind]

/-- The amount that is spent of a resource, as measured. -/
def spentOf (usage : List UsageRow) (resource : ResourceKind) : ℤ :=
  sumWhere (fun row => row.resource == resource && row.kind == .actual)
    (fun row => ((row.amount.getD 0 : ℕ) : ℤ)) usage

/-- Metered usage is spent by its run. -/
theorem Metered.sumAmounts_actual (h : Metered runId measure fuse) (other : Id)
    (resource : ResourceKind) :
    Db.sumAmounts [.actual]
        ((usage.map measure ++ overruns.map fuse).filter (BudgetEvent.countsFor other resource)) =
      if runId = other then spentOf usage resource else 0 := by
  have hfuse : Db.sumAmounts [.actual]
      ((overruns.map fuse).filter (BudgetEvent.countsFor other resource)) = 0 := by
    refine sumWhere_eq_zero fun event hevent hactual => ?_
    obtain ⟨kind, -, rfl⟩ := List.mem_map.mp (List.mem_filter.mp hevent).1
    simp [h.fuse_kind] at hactual
  have hmeasure : Db.sumAmounts [.actual]
      ((usage.map measure).filter (BudgetEvent.countsFor other resource)) =
      if runId = other then spentOf usage resource else 0 := by
    unfold Db.sumAmounts
    change sumWhere _ _ _ = _
    rw [sumWhere_filter, sumWhere_map]
    by_cases hrun : runId = other
    · rw [if_pos hrun]
      refine sumWhere_congr fun row _ => ?_
      simp [BudgetEvent.countsFor, h.measure_runId, h.measure_resource, h.measure_counts,
        h.measure_kind, h.measure_amount, hrun]
    · rw [if_neg hrun]
      refine sumWhere_eq_zero fun row _ hcounts => ?_
      simp [BudgetEvent.countsFor, h.measure_runId, hrun] at hcounts
  rw [List.filter_append, sumAmounts_append, hfuse, add_zero, hmeasure]

theorem Metered.exists_fuse (h : Metered runId measure fuse) {resource : ResourceKind}
    (hresource : resource ∈ overruns) :
    ((usage.map measure ++ overruns.map fuse).filter (BudgetEvent.countsFor runId resource)).any
      (·.eventKind == .fuseTrip) = true := by
  refine List.any_eq_true.mpr ⟨fuse resource, List.mem_filter.mpr ⟨?_, ?_⟩, ?_⟩
  · exact List.mem_append_right _ (List.mem_map_of_mem hresource)
  · simp [BudgetEvent.countsFor, h.fuse_runId, h.fuse_resource, h.fuse_counts]
  · simp [h.fuse_kind]

end Metering

end ResearchKernel
