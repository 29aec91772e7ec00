import ResearchKernel.Authority.Machine
import ResearchKernel.Budget.Events

/-!
# A tripped fuse and the runs it stops

A run stops when its fuse is tripped, and a controller that resumes it is asked for the
state of the fuse. A run that starts is not. This file follows the status of a run along
every operation: a run is set running by `StartRun` and `Resume` alone, so the fuse is
respected exactly when no run starts under a fuse that has been tripped.
-/

namespace ResearchKernel

open Foundation

/-- The runs with their statuses. -/
def Db.standing (db : Db) : List (Id × RunStatus) :=
  db.runs.map fun run => (run.runId, run.status)

/-- The status of a run, if there is one. -/
def Db.statusOf? (db : Db) (runId : Id) : Option RunStatus :=
  db.standing.lookup runId

/-- A run that was not running is running afterwards. -/
def Restarts (db db' : Db) (runId : Id) : Prop :=
  db.statusOf? runId ≠ some .running ∧ db'.statusOf? runId = some .running

/-- The statuses after a run has been given one. -/
def reassign (runId : Id) (status : RunStatus) (standing : List (Id × RunStatus)) :
    List (Id × RunStatus) :=
  standing.map fun entry => if entry.1 == runId then (entry.1, status) else entry

/-- Whether a mutation sets a run running. -/
def Mutation.setsRunning : Mutation → Bool
  | .setRunStatus status _ => status == .running
  | _ => false

/-- A run is started with its fuse untripped. -/
def StartsUnfused (db : Db) (op : ApplyOp) : Prop :=
  ∀ p, op.request.command = .startRun p → db.fuseTripped op.request.runId = false

/-- After a fuse of a run has been tripped, no operation sets the run running. -/
def FuseRespected (P : Platform) (policy : Policy) (ops : List Op) : Prop :=
  ∀ early middle op late, ops = early ++ (middle ++ op :: late) →
    ∀ runId, (reached P policy early).fuseTripped runId = true →
      ¬ Restarts (reached P policy (early ++ middle))
        (step P policy (reached P policy (early ++ middle)) op) runId

section Statuses

variable {db db' : Db} {runId : Id} {status : RunStatus}

/-- The status of a run after one has been given to a run. -/
theorem lookup_reassign (other : Id) (standing : List (Id × RunStatus)) :
    (reassign other status standing).lookup runId =
      if runId = other then (standing.lookup runId).map (fun _ => status)
      else standing.lookup runId := by
  induction standing with
  | nil => simp [reassign]
  | cons entry standing ih =>
    obtain ⟨id, old⟩ := entry
    unfold reassign at ih ⊢
    rw [List.map_cons]
    by_cases hfound : runId = id
    · subst hfound
      by_cases hother : runId = other
      · simp [List.lookup_cons, hother]
      · simp [List.lookup_cons, hother]
    · have hmiss : ∀ (value : RunStatus) (rest : List (Id × RunStatus)),
          ((id, value) :: rest).lookup runId = rest.lookup runId := by
        intro value rest
        rw [List.lookup_cons, beq_false_of_ne hfound]
      rw [hmiss old standing, ← ih]
      by_cases hother : id = other
      · simp [hother ▸ hmiss, hother]
      · simp [hmiss, hother]

theorem SameBody.standing (h : SameBody db db') : db'.standing = db.standing := by
  have hstanding : ∀ db : Db, db.standing =
      db.workings.runs.map fun run => (run.runId, run.status) := by
    intro db
    change _ = (db.runs.map _).map _
    rw [List.map_map]
    rfl
  rw [hstanding db', hstanding db, h.workings]

theorem SameBody.statusOf? (h : SameBody db db') (runId : Id) :
    db'.statusOf? runId = db.statusOf? runId := by
  unfold Db.statusOf?
  rw [h.standing]

theorem standing_updateWhere {change : Run → Run} (other : Id)
    (h : ∀ run, (change run).runId = run.runId ∧ (change run).status = status) (runs : List Run) :
    (updateWhere (·.runId == other) change runs).map (fun run => (run.runId, run.status)) =
      reassign other status (runs.map fun run => (run.runId, run.status)) := by
  unfold reassign updateWhere
  rw [List.map_map, List.map_map]
  refine List.map_congr_left fun run _ => ?_
  simp only [Function.comp_apply]
  split
  · simp [h run]
  · rfl

/-- Only one mutation changes the status of a run. -/
theorem Projection.standing_of_apply {ctx : ProjectionContext} {m : Mutation}
    (h : applyMutation ctx db m = some db') :
    db'.standing = db.standing ∨ ∃ status outcome, m = .setRunStatus status outcome ∧
      db'.standing = reassign ctx.runId status db.standing := by
  have hframe := congrArg (fun w : Workings => w.runs.map fun run => (run.runId, run.status))
    (workings_of_apply h)
  have hstanding : ∀ db : Db, db.workings.runs.map (fun run => (run.runId, run.status)) =
      db.standing := by
    intro db
    change (db.runs.map _).map _ = _
    rw [List.map_map]
    rfl
  cases m with
  | setRunStatus status outcome =>
    refine Or.inr ⟨status, outcome, rfl, ?_⟩
    obtain rfl := Option.some.inj h
    refine standing_updateWhere ctx.runId (fun run => ?_) db.runs
    split
    · rename_i hclosed
      exact ⟨rfl, (eq_of_beq hclosed).symm⟩
    · exact ⟨rfl, rfl⟩
  | createDossier =>
    obtain ⟨artifactId, -, h⟩ := Option.bind_eq_some_iff.mp h
    obtain rfl := Option.some.inj h
    exact Or.inl (map_updateWhere (fun _ => by exact rfl) db.runs)
  | registerClaim p closure =>
    obtain ⟨claims, -, h⟩ := Option.bind_eq_some_iff.mp h
    obtain rfl := Option.some.inj h
    refine Or.inl ?_
    unfold Db.standing
    dsimp only
    split
    · exact map_updateWhere (fun _ => by exact rfl) db.runs
    · rfl
  | createContractVersion version replacement =>
    obtain ⟨artifactId, -, h⟩ := Option.bind_eq_some_iff.mp h
    obtain ⟨text, -, h⟩ := Option.bind_eq_some_iff.mp h
    obtain ⟨contracts, -, h⟩ := Option.bind_eq_some_iff.mp h
    obtain rfl := Option.some.inj h
    exact Or.inl (map_updateWhere (fun _ => by exact rfl) db.runs)
  | _ => exact Or.inl ((hstanding db').symm.trans (hframe.trans (hstanding db)))

/-- Recoveries leave the runs alone. -/
theorem standing_of_recoveries {P : Platform} {now : Instant} {claims : List HostClaim}
    (h : Recoveries P now claims db db') : db'.standing = db.standing := by
  have hone : ∀ (db : Db) (event : BudgetEvent),
      (db.insertOrIgnoreBudget event).runs = db.runs := fun _ _ => rfl
  induction h with
  | nil same => exact same.standing
  | cons claim revision same rest ih =>
    rw [ih, same.standing]
    unfold Db.standing Db.afterRecovery
    dsimp only
    rw [hone, hone]

end Statuses

section Steps

variable {P : Platform} {policy : Policy} {db db' : Db} {runId : Id}

/-- Two commands set a run running, and they do nothing else. -/
theorem Guard.Emission.running {context : GuardContext} {command : Command}
    {mutations : List Mutation} (h : Emission context command mutations) :
    (((∃ p, command = .startRun p) ∨ ∃ p, command = .resume p) ∧
        mutations = [.setRunStatus .running none]) ∨
      ∀ m ∈ mutations, m.setsRunning = false := by
  cases h with
  | startRun p => exact Or.inl ⟨Or.inl ⟨p, rfl⟩, rfl⟩
  | resume p => exact Or.inl ⟨Or.inr ⟨p, rfl⟩, rfl⟩
  | recordBudget p =>
    refine Or.inr fun m hm => ?_
    rcases List.mem_cons.mp hm with rfl | hm
    · rfl
    · split at hm
      · rcases List.mem_cons.mp hm with rfl | hm
        · rfl
        · rw [List.mem_singleton.mp hm]
          rfl
      · cases hm
  | _ => exact Or.inr (List.forall_iff_forall_mem.mp (by simp [amendment, Mutation.setsRunning]))

theorem Projection.not_running_of_apply {ctx : ProjectionContext} {m : Mutation}
    (h : applyMutation ctx db m = some db') (hm : m.setsRunning = false)
    (hstopped : db.statusOf? runId ≠ some .running) : db'.statusOf? runId ≠ some .running := by
  unfold Db.statusOf? at hstopped ⊢
  rcases standing_of_apply h with hsame | ⟨status, outcome, rfl, hset⟩
  · rwa [hsame]
  · rw [hset, lookup_reassign]
    split
    · intro hrunning
      obtain ⟨old, -, rfl⟩ := Option.map_eq_some_iff.mp hrunning
      cases hm
    · exact hstopped

variable {op : ApplyOp}

/-- The statuses after an accepted command that sets its run running. -/
theorem statusOf?_of_running (acceptance : Acceptance P policy db op db')
    (hmutations : acceptance.mutations = [.setRunStatus .running none]) (runId : Id) :
    db'.statusOf? runId = if runId = op.request.runId then
      (db.statusOf? runId).map (fun _ => .running) else db.statusOf? runId := by
  have hprojected := acceptance.projected
  rw [hmutations] at hprojected
  obtain ⟨mid, hfirst, hlast⟩ := Projection.apply_cons_eq_some.mp hprojected
  have hset : acceptance.last.standing =
      reassign op.request.runId .running acceptance.appended.standing := by
    rw [← Option.some.inj hlast, ← Option.some.inj hfirst]
    exact @standing_updateWhere .running (fun run => { run with status := .running })
      op.request.runId (fun _ => ⟨rfl, rfl⟩) _
  rw [acceptance.sameBody_last.statusOf?]
  unfold Db.statusOf?
  rw [hset, lookup_reassign, acceptance.sameBody_appended.standing]

/-- A run is set running by an accepted command of its own that starts or resumes it. -/
theorem Move.restarts {op : Op} (h : Move P policy db op db') (hrestarts : Restarts db db' runId) :
    ∃ applied : ApplyOp, ∃ _ : Acceptance P policy db applied db', op = .apply applied ∧
      applied.Accepts P policy db ∧ applied.request.runId = runId ∧
      ((∃ p, applied.request.command = .startRun p) ∨
        ∃ p, applied.request.command = .resume p) := by
  obtain ⟨hstopped, hrunning⟩ := hrestarts
  have hsame : db'.standing ≠ db.standing := by
    intro hstanding
    unfold Db.statusOf? at hstopped hrunning
    exact hstopped (hstanding ▸ hrunning)
  cases h with
  | idle _ _ same | claimed _ _ _ claim begins same
  | recorded _ _ _ revision reasons usage usage_eq hclaimed fresh same
  | checkerConsumed _ _ _ _ _ rows _ _ _ _ _ same => exact absurd same.standing hsame
  | created _ _ run contract begins same =>
    rw [same.statusOf?] at hrunning
    unfold Db.statusOf? Db.standing at hstopped hrunning
    rw [List.map_append, List.lookup_append, Option.or_eq_some_iff] at hrunning
    rcases hrunning with hrunning | ⟨-, hrunning⟩
    · exact absurd hrunning hstopped
    · rw [List.map_singleton, begins.isOpen, List.lookup_cons] at hrunning
      split at hrunning
      · cases hrunning
      · cases hrunning
  | applied applied _ accepts acceptance =>
    rcases acceptance.emission.running with ⟨hcommand, hmutations⟩ | hkeeps
    · refine ⟨applied, acceptance, rfl, accepts, ?_, hcommand⟩
      rw [statusOf?_of_running acceptance hmutations] at hrunning
      by_contra hother
      rw [if_neg (Ne.symm hother)] at hrunning
      exact hstopped hrunning
    · refine absurd hrunning (acceptance.preserves (I := fun db => db.statusOf? runId ≠ some .running)
        (fun _ _ hbody hdb => by rwa [hbody.statusOf?]) hstopped ?_)
      intro m before after happlies hbefore
      exact Projection.not_running_of_apply happlies.applied (hkeeps m happlies.mem) hbefore
  | reported capability report _ revision overruns overruns_eq same =>
    rw [same.statusOf?] at hrunning
    refine absurd hrunning ?_
    unfold Db.charge Db.statusOf? Db.standing
    dsimp only
    split
    · have hset := @standing_updateWhere .paused (fun run => { run with status := .paused })
        report.runId (fun _ => ⟨rfl, rfl⟩) db.runs
      rw [hset, lookup_reassign]
      split
      · simp
      · exact hstopped
    · exact hstopped
  | beaten => exact absurd rfl hsame
  | recovered _ now _ _ _ recoveries => exact absurd (standing_of_recoveries recoveries) hsame
  | leanConsumed _ _ _ _ _ rows _ _ _ verified _ _ verified_eq same =>
    obtain ⟨verdicts, claims, rfl⟩ := setKernelVerified_eq rows _ _ verified verified_eq
    exact absurd same.standing hsame

/-- The guard reads the status of the run before the request. -/
theorem Acceptance.status_eq {op : ApplyOp} (acceptance : Acceptance P policy db op db') :
    db.statusOf? op.request.runId = some acceptance.snapshot.status := by
  have hstatus := acceptance.works.status_eq
  rw [acceptance.runId_eq] at hstatus
  obtain ⟨run, hrun, hrunStatus⟩ := Option.map_eq_some_iff.mp hstatus
  have hlookup : ∀ runs : List Run, runs.find? (·.runId == op.request.runId) = some run →
      (runs.map fun run => (run.runId, run.status)).lookup op.request.runId = some run.status := by
    intro runs
    induction runs with
    | nil => simp
    | cons first runs ih =>
      intro hfind
      rw [List.map_cons, List.lookup_cons]
      by_cases hfirst : first.runId = op.request.runId
      · rw [List.find?_cons_of_pos (by simpa using hfirst)] at hfind
        obtain rfl := Option.some.inj hfind
        simp [hfirst]
      · rw [List.find?_cons_of_neg (by simpa using hfirst)] at hfind
        rw [beq_false_of_ne (Ne.symm hfirst)]
        exact ih hfind
  rw [← hrunStatus]
  exact hlookup db.runs hrun

/-- An accepted start sets a run running that was not. -/
theorem restarts_of_startRun (acceptance : Acceptance P policy db op db') {p : StartRun}
    (hcommand : op.request.command = .startRun p) :
    Restarts db db' op.request.runId := by
  have hhandled := acceptance.handled
  rw [hcommand] at hhandled
  have hmutations := Guard.emits_startRun p _ hhandled
  unfold Guard.handle Guard.handleStartRun at hhandled
  obtain ⟨⟨⟩, hopen, -⟩ := bind_eq_ok.mp hhandled
  simp only [rejectIf_eq_ok, Bool.or_eq_false_iff, bne_eq_false_iff_eq] at hopen
  have hstatus : db.statusOf? op.request.runId = some .isOpen :=
    acceptance.status_eq.trans (congrArg some hopen.1)
  refine ⟨by simp [hstatus], ?_⟩
  rw [statusOf?_of_running acceptance hmutations, if_pos rfl, hstatus]
  rfl

theorem untripped_of_resume (acceptance : Acceptance P policy db op db') {p : Resume}
    (hcommand : op.request.command = .resume p) :
    db.fuseTripped op.request.runId = false := by
  have hhandled := acceptance.handled
  rw [hcommand] at hhandled
  unfold Guard.handle Guard.handleResume at hhandled
  obtain ⟨⟨⟩, -, hhandled⟩ := bind_eq_ok.mp hhandled
  obtain ⟨⟨⟩, -, hhandled⟩ := bind_eq_ok.mp hhandled
  obtain ⟨⟨⟩, -, hhandled⟩ := bind_eq_ok.mp hhandled
  obtain ⟨⟨⟩, hfuse, -⟩ := bind_eq_ok.mp hhandled
  simp only [rejectIf_eq_ok, Bool.or_eq_false_iff] at hfuse
  have hsnapshot := acceptance.works.fuse_eq
  rw [acceptance.runId_eq] at hsnapshot
  exact hsnapshot.symm.trans hfuse.2

theorem fuseTripped_mono (early middle : List Op)
    (h : (reached P policy early).fuseTripped runId = true) :
    (reached P policy (early ++ middle)).fuseTripped runId = true := by
  refine runFrom_stays (I := fun db : Db => db.fuseTripped runId = true) h (fun _ op ih => ?_) middle
  obtain ⟨rows, hrows, -⟩ := budgeting_step op
  exact fuseTripped_append hrows ih

/-- Along every run the budget is only appended to, and a fuse that tripped stays tripped. -/
theorem budget_kept_of_reached (P : Platform) (policy : Policy) (early late : List Op) :
    (reached P policy early).budgetEvents <+: (reached P policy (early ++ late)).budgetEvents ∧
      ∀ runId, (reached P policy early).fuseTripped runId = true →
        (reached P policy (early ++ late)).fuseTripped runId = true := by
  refine ⟨runFrom_stays (I := fun db : Db => (reached P policy early).budgetEvents <+:
    db.budgetEvents) List.prefix_rfl (fun _ op ih => ?_) late, fun _ => fuseTripped_mono early late⟩
  obtain ⟨rows, hrows, -⟩ := budgeting_step op
  exact ih.trans ⟨rows, hrows.symm⟩

/-- A tripped fuse is respected along a run exactly when no run is started under one. -/
theorem fuse_respected_iff (P : Platform) (policy : Policy) (ops : List Op) :
    FuseRespected P policy ops ↔
      StepsSatisfy (step P policy) (OnAccepted P policy StartsUnfused) Db.empty ops := by
  constructor
  · rintro hrespected before op after rfl
    cases op with
    | apply applied =>
      intro haccepts p hcommand
      obtain ⟨acceptance⟩ := acceptance_of_accepts haccepts
      have hrestarts := restarts_of_startRun acceptance hcommand
      by_contra htripped
      have hno := hrespected before [] (.apply applied) after rfl applied.request.runId
        (eq_true_of_ne_false htripped)
      rw [List.append_nil] at hno
      exact hno hrestarts
    | _ => trivial
  · rintro hunfused early middle op late rfl runId htripped hrestarts
    have hnow := @fuseTripped_mono P policy runId early middle htripped
    obtain ⟨applied, acceptance, rfl, haccepts, rfl, ⟨p, hcommand⟩ | ⟨p, hcommand⟩⟩ :=
      (move_step op).restarts hrestarts
    · have hfalse := hunfused (early ++ middle) (.apply applied) late (by simp) haccepts p hcommand
      exact absurd (hnow.symm.trans hfalse) (by decide)
    · have hfalse := untripped_of_resume acceptance hcommand
      exact absurd (hnow.symm.trans hfalse) (by decide)

theorem not_fuseRespected {ops rest : List Op} {p : StartRun}
    (haccepts : op.Accepts P policy (reached P policy (ops ++ rest)))
    (hcommand : op.request.command = .startRun p)
    (htripped : (reached P policy ops).fuseTripped op.request.runId = true) :
    ¬ FuseRespected P policy (ops ++ (rest ++ [.apply op])) := by
  intro hrespected
  obtain ⟨acceptance⟩ := acceptance_of_accepts haccepts
  exact hrespected ops rest (.apply op) [] rfl op.request.runId htripped
    (restarts_of_startRun acceptance hcommand)

end Steps

/-- A run whose fuse has been tripped starts again after its contract is amended. -/
theorem restarts_under_tripped_fuse :
    ¬ FuseRespected Sample.platform Sample.budgetPolicy
      (Sample.tripped ++ (Sample.amendedTripped ++ [.apply Sample.startAmended])) :=
  not_fuseRespected Sample.outcomes.budget.amended_starts rfl Sample.outcomes.budget.fuse_tripped

end ResearchKernel
