import ResearchKernel.Kernel.Moves

/-!
# Leases and attempts

An attempt runs under a lease. Six commands and the recovery of executions write the two
tables, each in its own way: a lease is acquired, extended or released, the leases of a run
expire when it is interrupted or its contract is amended, and a recovered execution loses
its lease. This file gives what each operation does to both tables and proves that they
agree in every state: an attempt is running exactly when it has an active lease.
-/

namespace ResearchKernel

open Foundation

/-- The attempts under an active lease, one entry for each lease. -/
def Db.leased (db : Db) : List Id :=
  (db.leases.filter (·.status == .active)).map (·.attemptId)

def Db.activeLeasesOf (db : Db) (attemptId : Id) : List Lease :=
  db.leases.filter fun lease => lease.attemptId == attemptId && lease.status == .active

/-- The tables of attempts and leases agree. -/
structure LeasesAgree (db : Db) : Prop where
  one_active : ∀ attemptId, (db.activeLeasesOf attemptId).length ≤ 1
  running_iff : ∀ attempt ∈ db.attempts, attempt.status = .running ↔
    ∃ lease ∈ db.leases, lease.attemptId = attempt.attemptId ∧ lease.status = .active

/-- What is kept of attempts and leases by every operation. -/
structure LeaseInvariant (db : Db) : Prop where
  attempts_unique : (db.attempts.map (·.attemptId)).Nodup
  leases_unique : (db.leases.map (·.leaseId)).Nodup
  leased_known : ∀ id ∈ db.leased, id ∈ db.attempts.map (·.attemptId)
  leased_once : db.leased.Nodup
  running_iff : ∀ attempt ∈ db.attempts, attempt.status = .running ↔ attempt.attemptId ∈ db.leased

/-- A change of an attempt that sets its status. -/
structure Attempt.Sets (status : AttemptStatus) (change : Attempt → Attempt) : Prop where
  same : ∀ attempt : Attempt, attempt.Same (change attempt)
  status_eq : ∀ attempt, (change attempt).status = status

/-- A change of a lease that ends it. -/
structure Lease.Ends (change : Lease → Lease) : Prop where
  same : ∀ lease : Lease, lease.Same (change lease)
  ended : ∀ lease, (change lease).status ≠ .active

/-- The attempts after those of a run have been paused. -/
def pausedAttempts (runId : Id) (attempts : List Attempt) : List Attempt :=
  updateWhere (fun attempt => attempt.runId == runId && attempt.status == .running)
    (fun attempt => { attempt with status := .paused }) attempts

/-- What an operation does to attempts and leases. -/
inductive Leasing (P : Platform) (policy : Policy) (db : Db) : Op → Db → Prop
  | idle (op : Op) (db' : Db) (attempts_eq : db'.attempts = db.attempts)
      (leases_eq : db'.leases = db.leases) : Leasing P policy db op db'
  | registered (op : ApplyOp) (db' : Db) (attempt : Attempt) (queued : attempt.status = .queued)
      (fresh : ∀ old ∈ db.attempts, Attempt.clash attempt old = false)
      (attempts_eq : db'.attempts = db.attempts ++ [attempt])
      (leases_eq : db'.leases = db.leases) : Leasing P policy db (.apply op) db'
  | acquired (op : ApplyOp) (db' : Db) (accepts : op.Accepts P policy db) (p : AcquireLease)
      (command_eq : op.request.command = .acquireLease p)
      (waiting : ∃ attempt ∈ db.attempts, attempt.attemptId = p.attemptId ∧
        (attempt.status = .queued ∨ attempt.status = .paused))
      (now : Instant) (expire : Lease → Lease) (expires : Lease.Ends expire) (lease : Lease)
      (active : lease.status = .active) (lease_attempt : lease.attemptId = p.attemptId)
      (fresh : ∀ old ∈ db.leases, old.leaseId ≠ lease.leaseId)
      (run : Attempt → Attempt) (runs : Attempt.Sets .running run)
      (attempts_eq : db'.attempts =
        updateWhere (fun attempt => attempt.attemptId == p.attemptId) run db.attempts)
      (leases_eq : db'.leases = updateWhere (fun lease => lease.attemptId == p.attemptId &&
        lease.status == .active && decide (lease.expiresAt ≤ now)) expire db.leases ++ [lease]) :
      Leasing P policy db (.apply op) db'
  | extended (op : ApplyOp) (db' : Db) (test : Lease → Bool) (extend : Lease → Lease)
      (same : ∀ lease : Lease, lease.Same (extend lease))
      (status_eq : ∀ lease, (extend lease).status = lease.status)
      (attempts_eq : db'.attempts = db.attempts)
      (leases_eq : db'.leases = updateWhere test extend db.leases) :
      Leasing P policy db (.apply op) db'
  | released (op : ApplyOp) (db' : Db) (accepts : op.Accepts P policy db) (p : ReleaseLease)
      (command_eq : op.request.command = .releaseLease p) (lease : Lease)
      (found : lease ∈ db.leases) (lease_id : lease.leaseId = p.leaseId)
      (active : lease.status = .active)
      (running : ∃ attempt ∈ db.attempts, attempt.attemptId = lease.attemptId ∧
        attempt.status = .running)
      (release : Lease → Lease) (releases : Lease.Ends release) (finish : Attempt → Attempt)
      (finishes : Attempt.Sets p.terminalAttemptStatus.toStatus finish)
      (attempts_eq : db'.attempts =
        updateWhere (fun attempt => attempt.attemptId == lease.attemptId) finish db.attempts)
      (leases_eq : db'.leases = updateWhere (·.leaseId == p.leaseId) release db.leases) :
      Leasing P policy db (.apply op) db'
  | suspended (op : ApplyOp) (db' : Db) (accepts : op.Accepts P policy db)
      (command_eq : (∃ p, op.request.command = .interrupt p) ∨
        ∃ p, op.request.command = .amendContract p)
      (expire : Lease → Lease) (expires : Lease.Ends expire)
      (attempts_eq : db'.attempts = pausedAttempts op.request.runId db.attempts)
      (leases_eq : db'.leases = updateWhere
        (fun lease => lease.status == .active && db.attempts.any fun attempt =>
          attempt.attemptId == lease.attemptId && attempt.runId == op.request.runId)
        expire db.leases) : Leasing P policy db (.apply op) db'
  | recovered (capability : VerifiedCapability) (now : Instant) (claimToken : Option Id)
      (force : Bool) (db' : Db)
      (recoveries : Recoveries P now (db.dueClaims capability now claimToken force) db db') :
      Leasing P policy db (.recoverIncompleteHostClaims capability now claimToken force) db'

/-- Whether a mutation writes attempts or leases. -/
def Mutation.writesLeasing : Mutation → Bool
  | .expireActiveLeases | .pauseActiveAttempts | .registerAttempt _ | .expireStaleLeases _
  | .acquireLease _ | .setAttemptStatus _ _ | .extendLease _ _ | .releaseLease _ => true
  | _ => false

section Steps

variable {P : Platform} {policy : Policy} {db db' : Db}

theorem SameBody.attempts (h : SameBody db db') : db'.attempts = db.attempts :=
  congrArg Workings.attempts h.workings

theorem SameBody.leases (h : SameBody db db') : db'.leases = db.leases :=
  congrArg Workings.leases h.workings

/-- A mutation that does not write attempts or leases leaves both alone. -/
theorem Projection.leasing_of_apply {ctx : ProjectionContext} {m : Mutation}
    (h : applyMutation ctx db m = some db') (hm : m.writesLeasing = false) :
    (db'.attempts, db'.leases) = (db.attempts, db.leases) := by
  have hattempts := congrArg Workings.attempts (workings_of_apply h)
  have hleases := congrArg Workings.leases (workings_of_apply h)
  refine Prod.ext ?_ ?_
  · cases m with
    | pauseActiveAttempts | registerAttempt | setAttemptStatus => cases hm
    | _ => exact hattempts
  · cases m with
    | expireActiveLeases | expireStaleLeases | acquireLease | extendLease | releaseLease => cases hm
    | _ => exact hleases

variable {mutations : List Mutation}

/-- Mutations of which none writes attempts or leases leave both alone. -/
theorem Projection.leasing_of_applies {ctx : ProjectionContext}
    (h : Projection.apply ctx mutations db = some db')
    (hm : ∀ m ∈ mutations, m.writesLeasing = false) :
    db'.attempts = db.attempts ∧ db'.leases = db.leases := by
  have hkeep := Projection.apply_keeps (f := fun db => (db.attempts, db.leases)) h
    fun m hmem before after happly => Projection.leasing_of_apply happly (hm m hmem)
  exact ⟨congrArg Prod.fst hkeep, congrArg Prod.snd hkeep⟩

/-- The mutations of a command that write attempts or leases stand at the head of its list. -/
theorem Guard.Emission.leasing {context : GuardContext} {command : Command}
    (h : Emission context command mutations) :
    (∃ p, command = .registerAttempt p ∧ mutations = [.registerAttempt p]) ∨
    (∃ p, command = .acquireLease p ∧ mutations = [.expireStaleLeases p.attemptId, .acquireLease p,
      .setAttemptStatus (.attempt p.attemptId) .running]) ∨
    (∃ p, command = .heartbeatLease p ∧ mutations = [.extendLease p.leaseId p.extendSeconds]) ∨
    (∃ p, command = .releaseLease p ∧ mutations = [.releaseLease p.leaseId,
      .setAttemptStatus (.leased p.leaseId) p.terminalAttemptStatus.toStatus]) ∨
    (∃ p, command = .interrupt p ∧
      mutations = [.expireActiveLeases, .setRunStatus .paused none, .pauseActiveAttempts]) ∨
    (∃ p rest, command = .amendContract p ∧
      mutations = .expireActiveLeases :: .pauseActiveAttempts :: rest ∧
      ∀ m ∈ rest, m.writesLeasing = false) ∨
    ∀ m ∈ mutations, m.writesLeasing = false := by
  cases h with
  | registerAttempt p => exact Or.inl ⟨p, rfl, rfl⟩
  | acquireLease p => exact Or.inr (Or.inl ⟨p, rfl, rfl⟩)
  | heartbeatLease p => exact Or.inr (Or.inr (Or.inl ⟨p, rfl, rfl⟩))
  | releaseLease p => exact Or.inr (Or.inr (Or.inr (Or.inl ⟨p, rfl, rfl⟩)))
  | interrupt p => exact Or.inr (Or.inr (Or.inr (Or.inr (Or.inl ⟨p, rfl, rfl⟩))))
  | amendContract p contract found =>
    refine Or.inr (Or.inr (Or.inr (Or.inr (Or.inr (Or.inl ⟨p, _, rfl, rfl, ?_⟩)))))
    exact List.forall_iff_forall_mem.mp (by simp [Mutation.writesLeasing])
  | recordBudget p =>
    refine Or.inr (Or.inr (Or.inr (Or.inr (Or.inr (Or.inr ?_)))))
    split
    all_goals exact List.forall_iff_forall_mem.mp (by simp [Mutation.writesLeasing])
  | _ =>
    exact Or.inr (Or.inr (Or.inr (Or.inr (Or.inr (Or.inr
      (List.forall_iff_forall_mem.mp (by simp [Mutation.writesLeasing])))))))

theorem Lease.leaseId_ne_of_clash {a b : Lease} (h : Lease.clash a b = false) :
    b.leaseId ≠ a.leaseId := by
  intro heq
  simp [Lease.clash, heq] at h

variable {op : ApplyOp}

theorem leasing_registerAttempt (acceptance : Acceptance P policy db op db') {p : RegisterAttempt}
    (hmutations : acceptance.mutations = [.registerAttempt p]) :
    Leasing P policy db (.apply op) db' := by
  obtain ⟨start, last, hstart, hprojected, hlast⟩ := acceptance.projects
  rw [hmutations] at hprojected
  obtain ⟨mid, hfirst, hrest⟩ := Projection.apply_cons_eq_some.mp hprojected
  obtain rfl := Option.some.inj hrest
  obtain ⟨attempts, hattempts, hfirst⟩ := Option.bind_eq_some_iff.mp hfirst
  obtain ⟨hfresh, rfl⟩ := insertRow_eq_some.mp hattempts
  obtain rfl := Option.some.inj hfirst
  rw [hstart.attempts] at hfresh
  have hend := hlast.attempts
  rw [hstart.attempts] at hend
  exact .registered op db' _ rfl hfresh hend (hlast.leases.trans hstart.leases)

variable {p : AcquireLease}

/-- The guard has seen the attempt wait. -/
theorem waiting_of_acquireLease (acceptance : Acceptance P policy db op db')
    (hcommand : op.request.command = .acquireLease p) :
    ∃ attempt ∈ db.attempts, attempt.attemptId = p.attemptId ∧
      (attempt.status = .queued ∨ attempt.status = .paused) := by
  have hhandled := acceptance.handled
  rw [hcommand] at hhandled
  unfold Guard.handle Guard.handleAcquireLease at hhandled
  obtain ⟨⟨⟩, hwaiting, -⟩ := bind_eq_ok.mp hhandled
  simp only [rejectIf_eq_ok, Bool.not_eq_false', Bool.and_eq_true] at hwaiting
  obtain ⟨attempt, hfound, hstatus⟩ := (Option.any_eq_true _ _).mp hwaiting.2
  obtain ⟨hmem, hid⟩ := mem_of_lookup_records hfound
  change attempt ∈ acceptance.snapshot.attempts at hmem
  rw [acceptance.works.attempts_eq] at hmem
  refine ⟨attempt, (List.mem_filter.mp hmem).1, hid, ?_⟩
  simpa using hstatus

/-- What an accepted acquisition writes. -/
theorem tables_of_acquireLease (acceptance : Acceptance P policy db op db')
    (hmutations : acceptance.mutations = [.expireStaleLeases p.attemptId, .acquireLease p,
      .setAttemptStatus (.attempt p.attemptId) .running]) :
    ∃ (run : Attempt → Attempt) (expire : Lease → Lease) (lease : Lease) (now : Instant),
      Attempt.Sets .running run ∧ Lease.Ends expire ∧ lease.status = .active ∧
      lease.attemptId = p.attemptId ∧ (∀ old ∈ db.leases, old.leaseId ≠ lease.leaseId) ∧
      db'.attempts = updateWhere (fun attempt => attempt.attemptId == p.attemptId) run db.attempts ∧
      db'.leases = updateWhere (fun lease => lease.attemptId == p.attemptId &&
        lease.status == .active && decide (lease.expiresAt ≤ now)) expire db.leases ++ [lease] := by
  obtain ⟨start, last, hstart, hprojected, hlast⟩ := acceptance.projects
  rw [hmutations] at hprojected
  obtain ⟨expired, hexpired, hprojected⟩ := Projection.apply_cons_eq_some.mp hprojected
  obtain ⟨leased, hleased, hprojected⟩ := Projection.apply_cons_eq_some.mp hprojected
  obtain ⟨set, hset, hrest⟩ := Projection.apply_cons_eq_some.mp hprojected
  obtain rfl := Option.some.inj hrest
  obtain rfl := Option.some.inj hexpired
  obtain ⟨leases, hleases, hleased⟩ := Option.bind_eq_some_iff.mp hleased
  obtain ⟨hfresh, rfl⟩ := insertRow_eq_some.mp hleases
  obtain rfl := Option.some.inj hleased
  obtain rfl := Option.some.inj hset
  have hattempts := hlast.attempts
  have hrows := hlast.leases
  dsimp only at hfresh hattempts hrows
  rw [hstart.leases] at hfresh hrows
  rw [hstart.attempts] at hattempts
  have htest : (fun row : Attempt => some p.attemptId == some row.attemptId) =
      fun row => row.attemptId == p.attemptId := by
    funext row
    simp [eq_comm]
  simp only [Db.attemptOf?] at hattempts
  rw [htest] at hattempts
  refine ⟨_, _, _, _, ?_, ?_, ?_, ?_, ?_, hattempts, hrows⟩
  · exact ⟨fun _ => ⟨rfl, rfl, rfl⟩, fun _ => rfl⟩
  · exact ⟨fun _ => ⟨rfl, rfl⟩, fun _ => by simp⟩
  · rfl
  · rfl
  · -- An expired row keeps its identifier, so no old lease has the new one.
    exact fresh_of_updateWhere (by exact fun _ => rfl) fun old hold =>
      Lease.leaseId_ne_of_clash (hfresh old hold)

theorem leasing_acquireLease (accepts : op.Accepts P policy db)
    (acceptance : Acceptance P policy db op db') (hcommand : op.request.command = .acquireLease p)
    (hmutations : acceptance.mutations = [.expireStaleLeases p.attemptId, .acquireLease p,
      .setAttemptStatus (.attempt p.attemptId) .running]) :
    Leasing P policy db (.apply op) db' := by
  obtain ⟨run, expire, lease, now, hrun, hexpire, hactive, hlease, hfresh, hattempts, hleases⟩ :=
    tables_of_acquireLease acceptance hmutations
  exact .acquired op db' accepts p hcommand (waiting_of_acquireLease acceptance hcommand) now
    expire hexpire lease hactive hlease hfresh run hrun hattempts hleases

theorem leasing_heartbeatLease (acceptance : Acceptance P policy db op db') {p : HeartbeatLease}
    (hmutations : acceptance.mutations = [.extendLease p.leaseId p.extendSeconds]) :
    Leasing P policy db (.apply op) db' := by
  obtain ⟨start, last, hstart, hprojected, hlast⟩ := acceptance.projects
  rw [hmutations] at hprojected
  obtain ⟨mid, hfirst, hrest⟩ := Projection.apply_cons_eq_some.mp hprojected
  obtain rfl := Option.some.inj hrest
  obtain rfl := Option.some.inj hfirst
  have hrows := hlast.leases
  dsimp only at hrows
  rw [hstart.leases] at hrows
  exact .extended op db' _ _ (by exact fun _ => ⟨rfl, rfl⟩) (by exact fun _ => rfl)
    (hlast.attempts.trans hstart.attempts) hrows

/-- The guard has seen the lease of a running attempt. -/
theorem held_of_releaseLease (acceptance : Acceptance P policy db op db') {p : ReleaseLease}
    (hcommand : op.request.command = .releaseLease p) :
    ∃ lease ∈ db.leases, lease.leaseId = p.leaseId ∧ lease.status = .active ∧
      ∃ attempt ∈ db.attempts, attempt.attemptId = lease.attemptId ∧ attempt.status = .running := by
  have hhandled := acceptance.handled
  rw [hcommand] at hhandled
  unfold Guard.handle Guard.handleReleaseLease at hhandled
  obtain ⟨lease, hlease, hhandled⟩ := bind_eq_ok.mp hhandled
  obtain ⟨⟨⟩, hrunning, -⟩ := bind_eq_ok.mp hhandled
  rw [orReject_eq_ok] at hlease
  obtain ⟨hfound, hheld⟩ := Option.filter_eq_some_iff.mp hlease
  obtain ⟨hmem, hid⟩ := mem_of_lookup_records hfound
  change lease ∈ acceptance.snapshot.leases at hmem
  rw [acceptance.works.leases_eq] at hmem
  simp only [Bool.and_eq_true, beq_iff_eq] at hheld
  refine ⟨lease, (List.mem_filter.mp hmem).1, hid, hheld.1.1, ?_⟩
  simp only [rejectIf_eq_ok, Bool.not_eq_false'] at hrunning
  obtain ⟨attempt, hattempt, hstatus⟩ := (Option.any_eq_true _ _).mp hrunning
  obtain ⟨hmem, hid⟩ := mem_of_lookup_records hattempt
  change attempt ∈ acceptance.snapshot.attempts at hmem
  rw [acceptance.works.attempts_eq] at hmem
  exact ⟨attempt, (List.mem_filter.mp hmem).1, hid, by simpa using hstatus⟩

theorem leasing_releaseLease (accepts : op.Accepts P policy db)
    (acceptance : Acceptance P policy db op db') {p : ReleaseLease}
    (hunique : (db.leases.map (·.leaseId)).Nodup) (hcommand : op.request.command = .releaseLease p)
    (hmutations : acceptance.mutations = [.releaseLease p.leaseId,
      .setAttemptStatus (.leased p.leaseId) p.terminalAttemptStatus.toStatus]) :
    Leasing P policy db (.apply op) db' := by
  obtain ⟨lease, hlease, hid, hactive, hrunning⟩ := held_of_releaseLease acceptance hcommand
  obtain ⟨start, last, hstart, hprojected, hlast⟩ := acceptance.projects
  rw [hmutations] at hprojected
  obtain ⟨freed, hfreed, hprojected⟩ := Projection.apply_cons_eq_some.mp hprojected
  obtain ⟨set, hset, hrest⟩ := Projection.apply_cons_eq_some.mp hprojected
  obtain rfl := Option.some.inj hrest
  obtain rfl := Option.some.inj hfreed
  obtain rfl := Option.some.inj hset
  have hattempts := hlast.attempts
  have hrows := hlast.leases
  dsimp only at hattempts hrows
  -- The released row still names the attempt.
  have hreleased := @nodup_map_updateWhere Lease Id (fun row => row.leaseId == p.leaseId)
    (fun row => { row with
      status := .released
      releasedAt := some acceptance.projection.recordedAt }) (·.leaseId) (fun _ => rfl) _ hunique
  have hfind := find?_of_nodup hreleased (mem_updateWhere.mpr ⟨lease, hlease, rfl⟩)
  simp only [hid, beq_self_eq_true, ↓reduceIte] at hfind
  simp only [Db.attemptOf?] at hattempts
  rw [hstart.leases] at hattempts hrows
  rw [hfind, hstart.attempts] at hattempts
  have htest : (fun row : Attempt => some lease.attemptId == some row.attemptId) =
      fun row => row.attemptId == lease.attemptId := by
    funext row
    simp [eq_comm]
  simp only [Option.map_some] at hattempts
  rw [htest] at hattempts
  exact .released op db' accepts p hcommand lease hlease hid hactive hrunning _
    (by exact ⟨fun _ => ⟨rfl, rfl⟩, fun _ => by simp⟩) _
    (by exact ⟨fun _ => ⟨rfl, rfl, rfl⟩, fun _ => rfl⟩) hattempts hrows

/-- The leases of a run expire and its attempts are paused. -/
theorem leasing_suspended (accepts : op.Accepts P policy db)
    (acceptance : Acceptance P policy db op db')
    (hcommand : (∃ p, op.request.command = .interrupt p) ∨
      ∃ p, op.request.command = .amendContract p) (between rest : List Mutation)
    (hmutations : acceptance.mutations =
      .expireActiveLeases :: (between ++ .pauseActiveAttempts :: rest))
    (hbetween : ∀ m ∈ between, m.writesLeasing = false)
    (hrest : ∀ m ∈ rest, m.writesLeasing = false) : Leasing P policy db (.apply op) db' := by
  obtain ⟨start, last, hstart, hprojected, hlast⟩ := acceptance.projects
  rw [hmutations] at hprojected
  obtain ⟨expired, hexpired, hprojected⟩ := Projection.apply_cons_eq_some.mp hprojected
  obtain ⟨mid, hmid, hprojected⟩ := Projection.apply_append_eq_some.mp hprojected
  obtain ⟨paused, hpaused, hlater⟩ := Projection.apply_cons_eq_some.mp hprojected
  obtain ⟨hattempts, hleases⟩ := Projection.leasing_of_applies hmid hbetween
  obtain ⟨hattempts', hleases'⟩ := Projection.leasing_of_applies hlater hrest
  obtain rfl := Option.some.inj hexpired
  obtain rfl := Option.some.inj hpaused
  dsimp only at hattempts hleases hattempts' hleases'
  refine .suspended op db' accepts hcommand
    (fun lease => { lease with
      status := .expired
      releasedAt := some acceptance.projection.recordedAt })
    ⟨fun _ => ⟨rfl, rfl⟩, fun _ => by simp⟩ ?_ ?_
  · rw [hlast.attempts, hattempts', hattempts, hstart.attempts]
    rfl
  · rw [hlast.leases, hleases', hleases, hstart.leases, hstart.attempts]
    rfl

/-- Every operation is one of these, where leases are told apart by their identifiers. -/
theorem leasing_step (hunique : (db.leases.map (·.leaseId)).Nodup) (op : Op) :
    Leasing P policy db op (step P policy db op) := by
  have hmove := @move_step P policy db op
  generalize step P policy db op = db' at hmove
  cases hmove with
  | idle _ _ same | created _ _ run contract begins same
  | reported _ _ _ revision overruns overruns_eq same | claimed _ _ _ claim begins same
  | recorded _ _ _ revision reasons usage usage_eq hclaimed fresh same
  | checkerConsumed _ _ _ _ _ rows _ _ _ _ _ same => exact .idle _ _ same.attempts same.leases
  | applied applied _ accepts acceptance =>
    rcases acceptance.emission.leasing with ⟨p, hcommand, hmutations⟩ | ⟨p, hcommand, hmutations⟩ |
      ⟨p, hcommand, hmutations⟩ | ⟨p, hcommand, hmutations⟩ | ⟨p, hcommand, hmutations⟩ |
      ⟨p, rest, hcommand, hmutations, hrest⟩ | hkeeps
    · exact leasing_registerAttempt acceptance hmutations
    · exact leasing_acquireLease accepts acceptance hcommand hmutations
    · exact leasing_heartbeatLease acceptance hmutations
    · exact leasing_releaseLease accepts acceptance hunique hcommand hmutations
    · exact leasing_suspended accepts acceptance (Or.inl ⟨p, hcommand⟩)
        [.setRunStatus .paused none] [] hmutations (by simp [Mutation.writesLeasing]) (by simp)
    · exact leasing_suspended accepts acceptance (Or.inr ⟨p, hcommand⟩) [] rest hmutations
        (by simp) hrest
    · obtain ⟨start, last, hstart, hprojected, hlast⟩ := acceptance.projects
      obtain ⟨hattempts, hleases⟩ := Projection.leasing_of_applies hprojected hkeeps
      exact .idle _ _ (hlast.attempts.trans (hattempts.trans hstart.attempts))
        (hlast.leases.trans (hleases.trans hstart.leases))
  | beaten => exact .idle _ _ rfl rfl
  | recovered capability now claimToken force _ recoveries =>
    exact .recovered capability now claimToken force _ recoveries
  | leanConsumed _ _ _ _ _ rows _ _ _ verified _ _ verified_eq same =>
    obtain ⟨verdicts, claims, rfl⟩ := setKernelVerified_eq rows _ _ verified verified_eq
    exact .idle _ _ same.attempts same.leases

end Steps

/-! ## The tables agree -/

section Agreement

variable {P : Platform} {policy : Policy} {db db' : Db}

theorem mem_leased {id : Id} : id ∈ db.leased ↔
    ∃ lease ∈ db.leases, lease.attemptId = id ∧ lease.status = .active := by
  unfold Db.leased
  simp only [List.mem_map, List.mem_filter, beq_iff_eq]
  constructor
  · rintro ⟨lease, ⟨hlease, hactive⟩, hid⟩
    exact ⟨lease, hlease, hid, hactive⟩
  · rintro ⟨lease, hlease, hid, hactive⟩
    exact ⟨lease, ⟨hlease, hactive⟩, hid⟩

variable {test : Lease → Bool} {change : Lease → Lease}

/-- The leases that an update ends are no longer among the active ones. -/
theorem leased_of_ends (hends : Lease.Ends change)
    (h : db'.leases = updateWhere test change db.leases) :
    db'.leased = (db.leases.filter fun lease => lease.status == .active && !test lease).map
      (·.attemptId) := by
  unfold Db.leased
  rw [h, filter_updateWhere_of_drop fun lease _ => by simpa using hends.ended lease]

/-- An update that ends leases leaves distinct entries of those before. -/
theorem sublist_of_ends (hends : Lease.Ends change)
    (h : db'.leases = updateWhere test change db.leases) : db'.leased.Sublist db.leased := by
  rw [leased_of_ends hends h, ← List.filter_filter]
  unfold Db.leased
  rw [List.filter_comm]
  exact List.filter_sublist.map _

theorem mem_leased_of_ends (hends : Lease.Ends change)
    (h : db'.leases = updateWhere test change db.leases) {id : Id} :
    id ∈ db'.leased ↔
      ∃ lease ∈ db.leases, lease.attemptId = id ∧ lease.status = .active ∧ test lease = false := by
  rw [leased_of_ends hends h]
  simp only [List.mem_map, List.mem_filter, Bool.and_eq_true, beq_iff_eq, Bool.not_eq_true']
  constructor
  · rintro ⟨lease, ⟨hlease, hactive, htest⟩, hid⟩
    exact ⟨lease, hlease, hid, hactive, htest⟩
  · rintro ⟨lease, hlease, hid, hactive, htest⟩
    exact ⟨lease, ⟨hlease, hactive, htest⟩, hid⟩

namespace LeaseInvariant

/-- Attempts are told apart by their identifiers. -/
theorem attempt_eq (h : LeaseInvariant db) {a b : Attempt} (ha : a ∈ db.attempts)
    (hb : b ∈ db.attempts) (hid : a.attemptId = b.attemptId) : a = b :=
  List.inj_on_of_nodup_map h.attempts_unique ha hb hid

theorem lease_eq (h : LeaseInvariant db) {a b : Lease} (ha : a ∈ db.leases) (hb : b ∈ db.leases)
    (hactive : a.status = .active) (hactive' : b.status = .active)
    (hid : a.attemptId = b.attemptId) : a = b :=
  List.inj_on_of_nodup_map h.leased_once (List.mem_filter.mpr ⟨ha, by simpa using hactive⟩)
    (List.mem_filter.mpr ⟨hb, by simpa using hactive'⟩) hid

theorem not_leased_of_waiting (h : LeaseInvariant db) {attempt : Attempt}
    (hattempt : attempt ∈ db.attempts)
    (hwaiting : attempt.status = .queued ∨ attempt.status = .paused) :
    attempt.attemptId ∉ db.leased := by
  intro hleased
  have hrunning := (h.running_iff attempt hattempt).mpr hleased
  rcases hwaiting with hstatus | hstatus
  · rw [hstatus] at hrunning
    cases hrunning
  · rw [hstatus] at hrunning
    cases hrunning

/-- Attempts and leases of which nothing changes but what an update of the attempts does,
where the active leases are a part of those before. -/
theorem of_updates (h : LeaseInvariant db) {test : Attempt → Bool} {change : Attempt → Attempt}
    {ends : Lease → Bool} {ending : Lease → Lease}
    (hsame : ∀ attempt : Attempt, attempt.Same (change attempt)) (hends : Lease.Ends ending)
    (hattempts : db'.attempts = updateWhere test change db.attempts)
    (hleases : db'.leases = updateWhere ends ending db.leases)
    (hchanged : ∀ attempt ∈ db.attempts, test attempt = true →
      (change attempt).status ≠ .running ∧ attempt.attemptId ∉ db'.leased)
    (hkept : ∀ attempt ∈ db.attempts, test attempt = false →
      attempt.attemptId ∈ db.leased → attempt.attemptId ∈ db'.leased) : LeaseInvariant db' where
  attempts_unique := by
    rw [hattempts]
    exact nodup_map_updateWhere (fun attempt => (hsame attempt).attemptId) h.attempts_unique
  leases_unique := by
    rw [hleases]
    exact nodup_map_updateWhere (fun lease => (hends.same lease).leaseId) h.leases_unique
  leased_known := by
    intro id hid
    rw [hattempts, map_updateWhere fun attempt => (hsame attempt).attemptId]
    exact h.leased_known id ((sublist_of_ends hends hleases).subset hid)
  leased_once := h.leased_once.sublist (sublist_of_ends hends hleases)
  running_iff := by
    intro attempt' hattempt'
    rw [hattempts] at hattempt'
    obtain ⟨attempt, hattempt, rfl⟩ := mem_updateWhere.mp hattempt'
    by_cases htest : test attempt = true
    · obtain ⟨hstopped, hfree⟩ := hchanged attempt hattempt htest
      rw [if_pos htest, (hsame attempt).attemptId]
      exact iff_of_false hstopped hfree
    · rw [if_neg htest, h.running_iff attempt hattempt]
      exact ⟨hkept attempt hattempt (by simpa using htest),
        fun hid => (sublist_of_ends hends hleases).subset hid⟩

theorem congr (h : LeaseInvariant db) (hattempts : db'.attempts = db.attempts)
    (hleases : db'.leases = db.leases) : LeaseInvariant db' := by
  have hleased : db'.leased = db.leased := by
    unfold Db.leased
    rw [hleases]
  refine ⟨?_, ?_, ?_, ?_, ?_⟩
  · rw [hattempts]
    exact h.attempts_unique
  · rw [hleases]
    exact h.leases_unique
  · rw [hattempts, hleased]
    exact h.leased_known
  · rw [hleased]
    exact h.leased_once
  · rw [hattempts, hleased]
    exact h.running_iff

/-- A registered attempt is queued and has no lease. -/
theorem register (h : LeaseInvariant db) {attempt : Attempt} (hqueued : attempt.status = .queued)
    (hfresh : ∀ old ∈ db.attempts, Attempt.clash attempt old = false)
    (hattempts : db'.attempts = db.attempts ++ [attempt]) (hleases : db'.leases = db.leases) :
    LeaseInvariant db' := by
  have hleased : db'.leased = db.leased := by
    unfold Db.leased
    rw [hleases]
  have hnew : ∀ old ∈ db.attempts, old.attemptId ≠ attempt.attemptId := by
    intro old hold heq
    have hclash := hfresh old hold
    simp [Attempt.clash, heq] at hclash
  have hids : db'.attempts.map (·.attemptId) = db.attempts.map (·.attemptId) ++
      [attempt.attemptId] := by simp [hattempts]
  refine ⟨?_, ?_, ?_, ?_, ?_⟩
  · rw [hids]
    refine nodup_concat_of_fresh h.attempts_unique fun id hid => ?_
    obtain ⟨old, hold, rfl⟩ := List.mem_map.mp hid
    exact hnew old hold
  · rw [hleases]
    exact h.leases_unique
  · intro id hid
    rw [hleased] at hid
    rw [hids]
    exact List.mem_append_left _ (h.leased_known id hid)
  · rw [hleased]
    exact h.leased_once
  · intro other hother
    rw [hattempts, List.mem_append, List.mem_singleton] at hother
    rw [hleased]
    rcases hother with hother | rfl
    · exact h.running_iff other hother
    · refine iff_of_false (by simp [hqueued]) fun hid => ?_
      obtain ⟨old, hold, heq⟩ := List.mem_map.mp (h.leased_known _ hid)
      exact hnew old hold heq

/-- A waiting attempt that gets a lease runs under it. -/
theorem acquire (h : LeaseInvariant db) {id : Id}
    (hwaiting : ∃ attempt ∈ db.attempts, attempt.attemptId = id ∧
      (attempt.status = .queued ∨ attempt.status = .paused)) {stale : Lease → Bool}
    (hstale : ∀ lease, stale lease = true → lease.attemptId = id ∧ lease.status = .active)
    {expire : Lease → Lease} (hexpire : Lease.Ends expire) {lease : Lease}
    (hactive : lease.status = .active) (hlease : lease.attemptId = id)
    (hfresh : ∀ old ∈ db.leases, old.leaseId ≠ lease.leaseId)
    {run : Attempt → Attempt} (hrun : Attempt.Sets .running run)
    (hattempts : db'.attempts =
      updateWhere (fun attempt => attempt.attemptId == id) run db.attempts)
    (hleases : db'.leases = updateWhere stale expire db.leases ++ [lease]) :
    LeaseInvariant db' := by
  obtain ⟨waiting, hmem, rfl, hstatus⟩ := hwaiting
  have hfree := h.not_leased_of_waiting hmem hstatus
  -- Nothing is stale, as the attempt has no active lease.
  have hleased : db'.leased = db.leased ++ [waiting.attemptId] := by
    unfold Db.leased
    rw [hleases, List.filter_append, List.map_append,
      filter_updateWhere_of_drop fun lease _ => by simpa using hexpire.ended lease]
    simp only [hactive, beq_self_eq_true, List.filter_cons_of_pos, List.filter_nil, List.map_cons,
      List.map_nil, hlease]
    refine congrArg (fun rows : List Lease => rows.map (·.attemptId) ++ [waiting.attemptId]) ?_
    refine List.filter_congr fun old hold => ?_
    by_cases htest : stale old = true
    · obtain ⟨hid, hold'⟩ := hstale old htest
      exact absurd (mem_leased.mpr ⟨old, hold, hid, hold'⟩) hfree
    · simp [htest]
  have hids : db'.attempts.map (·.attemptId) = db.attempts.map (·.attemptId) := by
    rw [hattempts, map_updateWhere fun attempt => (hrun.same attempt).attemptId]
  refine ⟨?_, ?_, ?_, ?_, ?_⟩
  · rw [hids]
    exact h.attempts_unique
  · rw [hleases, List.map_append, map_updateWhere fun lease => (hexpire.same lease).leaseId]
    refine nodup_concat_of_fresh h.leases_unique fun id hid => ?_
    obtain ⟨old, hold, rfl⟩ := List.mem_map.mp hid
    exact hfresh old hold
  · intro id hid
    rw [hids]
    rw [hleased, List.mem_append, List.mem_singleton] at hid
    rcases hid with hid | rfl
    · exact h.leased_known id hid
    · exact List.mem_map_of_mem hmem
  · rw [hleased]
    exact nodup_concat_of_fresh h.leased_once fun id hid heq => hfree (heq ▸ hid)
  · intro attempt' hattempt'
    rw [hattempts] at hattempt'
    obtain ⟨attempt, hattempt, rfl⟩ := mem_updateWhere.mp hattempt'
    rw [hleased, List.mem_append, List.mem_singleton]
    by_cases hid : attempt.attemptId = waiting.attemptId
    · rw [if_pos (by simpa using hid)]
      exact iff_of_true (hrun.status_eq attempt) (Or.inr ((hrun.same attempt).attemptId.trans hid))
    · rw [if_neg (by simpa using hid), h.running_iff attempt hattempt]
      exact ⟨Or.inl, fun hor => hor.resolve_right hid⟩

/-- An extended lease is as active as before. -/
theorem extend (h : LeaseInvariant db) {test : Lease → Bool} {change : Lease → Lease}
    (hsame : ∀ lease : Lease, lease.Same (change lease))
    (hstatus : ∀ lease, (change lease).status = lease.status)
    (hattempts : db'.attempts = db.attempts)
    (hleases : db'.leases = updateWhere test change db.leases) : LeaseInvariant db' := by
  have hleased : db'.leased = db.leased := by
    unfold Db.leased
    rw [hleases]
    exact map_filter_updateWhere (fun lease => by rw [hstatus])
      (fun lease => (hsame lease).attemptId) db.leases
  refine ⟨?_, ?_, ?_, ?_, ?_⟩
  · rw [hattempts]
    exact h.attempts_unique
  · rw [hleases]
    exact nodup_map_updateWhere (fun lease => (hsame lease).leaseId) h.leases_unique
  · rw [hattempts, hleased]
    exact h.leased_known
  · rw [hleased]
    exact h.leased_once
  · rw [hattempts, hleased]
    exact h.running_iff

/-- A released attempt does not run, and has no lease. -/
theorem release (h : LeaseInvariant db) {lease : Lease} (hlease : lease ∈ db.leases)
    (hactive : lease.status = .active) {release : Lease → Lease} (hrelease : Lease.Ends release)
    {status : AttemptStatus} (hstatus : status ≠ .running) {finish : Attempt → Attempt}
    (hfinish : Attempt.Sets status finish)
    (hattempts : db'.attempts =
      updateWhere (fun attempt => attempt.attemptId == lease.attemptId) finish db.attempts)
    (hleases : db'.leases = updateWhere (·.leaseId == lease.leaseId) release db.leases) :
    LeaseInvariant db' := by
  refine h.of_updates hfinish.same hrelease hattempts hleases ?_ ?_
  · intro attempt hattempt hid
    refine ⟨by rwa [hfinish.status_eq], fun hleased => ?_⟩
    obtain ⟨other, hother, hattemptId, hotherActive, htest⟩ :=
      (mem_leased_of_ends hrelease hleases).mp hleased
    have heq := h.lease_eq hother hlease hotherActive hactive
      (hattemptId.trans (eq_of_beq hid))
    simp [heq] at htest
  · intro attempt hattempt hid hleased
    obtain ⟨other, hother, hattemptId, hotherActive⟩ := mem_leased.mp hleased
    refine (mem_leased_of_ends hrelease hleases).mpr
      ⟨other, hother, hattemptId, hotherActive, ?_⟩
    rw [beq_eq_false_iff_ne] at hid ⊢
    intro hleaseId
    have heq := List.inj_on_of_nodup_map h.leases_unique hother hlease hleaseId
    exact hid (hattemptId.symm.trans (congrArg Lease.attemptId heq))

/-- The attempts of a run that is interrupted or amended stop, and lose their leases. -/
theorem suspend (h : LeaseInvariant db) {runId : Id} {expire : Lease → Lease}
    (hexpire : Lease.Ends expire) (hattempts : db'.attempts = pausedAttempts runId db.attempts)
    (hleases : db'.leases = updateWhere
      (fun lease => lease.status == .active && db.attempts.any fun attempt =>
        attempt.attemptId == lease.attemptId && attempt.runId == runId) expire db.leases) :
    LeaseInvariant db' := by
  unfold pausedAttempts at hattempts
  refine h.of_updates (by exact fun _ => ⟨rfl, rfl, rfl⟩) hexpire hattempts hleases ?_ ?_
  · intro attempt hattempt hrun
    refine ⟨by simp, fun hleased => ?_⟩
    obtain ⟨lease, hlease, hid, hactive, htest⟩ := (mem_leased_of_ends hexpire hleases).mp hleased
    simp only [Bool.and_eq_true, beq_iff_eq] at hrun
    simp only [hactive, beq_self_eq_true, Bool.true_and, List.any_eq_false, Bool.and_eq_true,
      beq_iff_eq, not_and] at htest
    exact htest attempt hattempt hid.symm hrun.1
  · intro attempt hattempt hrun hleased
    have hrunning := (h.running_iff attempt hattempt).mpr hleased
    obtain ⟨lease, hlease, hid, hactive⟩ := mem_leased.mp hleased
    refine (mem_leased_of_ends hexpire hleases).mpr ⟨lease, hlease, hid, hactive, ?_⟩
    simp only [hactive, beq_self_eq_true, Bool.true_and, List.any_eq_false, Bool.and_eq_true,
      beq_iff_eq, not_and]
    intro other hother hotherId hotherRun
    obtain rfl := h.attempt_eq hother hattempt (hotherId.trans hid)
    simp [hotherRun, hrunning] at hrun

/-- A recovered attempt ends and loses its lease. -/
theorem recover (h : LeaseInvariant db) (P : Platform) (now : Instant) (revision : ℕ)
    (claim : HostClaim) : LeaseInvariant (db.afterRecovery P now revision claim) := by
  have hends : Lease.Ends fun lease =>
      { lease with status := .revoked, releasedAt := some now } :=
    ⟨fun _ => ⟨rfl, rfl⟩, fun _ => by simp⟩
  refine h.of_updates (by exact fun _ => ⟨rfl, rfl, rfl⟩) hends rfl rfl ?_ ?_
  · intro attempt hattempt hid
    refine ⟨by simp, fun hleased => ?_⟩
    obtain ⟨lease, hlease, hattemptId, hactive, htest⟩ := (mem_leased_of_ends hends rfl).mp hleased
    simp only [Bool.and_eq_true, beq_iff_eq] at hid
    simp [hactive, hattemptId, hid.1] at htest
  · intro attempt hattempt hid hleased
    have hrunning := (h.running_iff attempt hattempt).mpr hleased
    obtain ⟨lease, hlease, hattemptId, hactive⟩ := mem_leased.mp hleased
    refine (mem_leased_of_ends hends rfl).mpr ⟨lease, hlease, hattemptId, hactive, ?_⟩
    simp [hrunning] at hid
    simp [hattemptId, hid]

end LeaseInvariant

theorem leaseInvariant_of_recoveries {now : Instant} {claims : List HostClaim}
    (h : LeaseInvariant db) (hrecoveries : Recoveries P now claims db db') :
    LeaseInvariant db' := by
  induction hrecoveries with
  | nil same => exact h.congr same.attempts same.leases
  | cons claim revision same rest ih =>
    exact ih ((h.recover P now revision claim).congr same.attempts same.leases)

theorem leaseInvariant_empty : LeaseInvariant Db.empty where
  attempts_unique := List.nodup_nil
  leases_unique := List.nodup_nil
  leased_known := by simp [Db.leased, Db.empty]
  leased_once := List.nodup_nil
  running_iff := by simp [Db.empty]

/-- Every operation keeps attempts and leases in agreement. -/
theorem leaseInvariant_step (op : Op) (h : LeaseInvariant db) :
    LeaseInvariant (step P policy db op) := by
  have hleasing := @leasing_step P policy db h.leases_unique op
  generalize step P policy db op = db' at hleasing
  cases hleasing with
  | idle _ _ hattempts hleases => exact h.congr hattempts hleases
  | registered _ _ attempt hqueued hfresh hattempts hleases =>
    exact h.register hqueued hfresh hattempts hleases
  | acquired _ _ _ p _ hwaiting now expire hexpire lease hactive hlease hfresh run hrun hattempts
      hleases =>
    refine h.acquire hwaiting (fun lease hstale => ?_) hexpire hactive hlease hfresh hrun hattempts
      hleases
    simp only [Bool.and_eq_true, beq_iff_eq] at hstale
    exact hstale.1
  | extended _ _ test extend hsame hstatus hattempts hleases =>
    exact h.extend hsame hstatus hattempts hleases
  | released _ _ _ p _ lease hlease hid hactive hrunning release hrelease finish hfinish hattempts
      hleases =>
    rw [← hid] at hleases
    refine h.release hlease hactive hrelease ?_ hfinish hattempts hleases
    cases p.terminalAttemptStatus <;> decide
  | suspended _ _ _ _ expire hexpire hattempts hleases => exact h.suspend hexpire hattempts hleases
  | recovered _ _ _ _ _ hrecoveries => exact leaseInvariant_of_recoveries h hrecoveries

end Agreement

end ResearchKernel
