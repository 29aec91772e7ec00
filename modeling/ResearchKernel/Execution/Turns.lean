import ResearchKernel.Execution.Leases

/-!
# Turns of an attempt

A running attempt stops when its lease is released, its run is interrupted or amended, or
its execution is recovered, and in no other way; an attempt that has ended does not move
again. So between two leases of one attempt there is always one of these.
-/

namespace ResearchKernel

open Foundation

/-- An operation that takes the lease of an attempt away. -/
inductive Frees (P : Platform) (policy : Policy) (attemptId : Id) (db : Db) : Op → Prop
  | released (op : ApplyOp) (accepts : op.Accepts P policy db) (p : ReleaseLease)
      (command_eq : op.request.command = .releaseLease p) (lease : Lease)
      (mem : lease ∈ db.leases) (lease_eq : lease.leaseId = p.leaseId)
      (attempt_eq : lease.attemptId = attemptId) : Frees P policy attemptId db (.apply op)
  | interrupted (op : ApplyOp) (accepts : op.Accepts P policy db) (p : Interrupt)
      (command_eq : op.request.command = .interrupt p) (attempt : Attempt)
      (mem : attempt ∈ db.attempts) (attempt_eq : attempt.attemptId = attemptId)
      (run_eq : attempt.runId = op.request.runId) : Frees P policy attemptId db (.apply op)
  | amended (op : ApplyOp) (accepts : op.Accepts P policy db) (p : AmendContract)
      (command_eq : op.request.command = .amendContract p) (attempt : Attempt)
      (mem : attempt ∈ db.attempts) (attempt_eq : attempt.attemptId = attemptId)
      (run_eq : attempt.runId = op.request.runId) : Frees P policy attemptId db (.apply op)
  | recovered (capability : VerifiedCapability) (now : Instant) (claimToken : Option Id)
      (force : Bool) (claim : HostClaim)
      (due : claim ∈ db.dueClaims capability now claimToken force)
      (attempt_eq : claim.attemptId = attemptId) :
      Frees P policy attemptId db (.recoverIncompleteHostClaims capability now claimToken force)

/-- The turns of the attempts along a run. -/
structure TakesTurns (P : Platform) (policy : Policy) (ops : List Op) : Prop where
  agree : ∀ early late, ops = early ++ late → LeasesAgree (reached P policy early)
  ended_stays : ∀ early late, ops = early ++ late →
    ∀ attempt ∈ (reached P policy early).attempts, Projection.hasEnded attempt.status = true →
      (∃ attempt' ∈ (reached P policy ops).attempts, attempt'.attemptId = attempt.attemptId) ∧
        ∀ attempt' ∈ (reached P policy ops).attempts, attempt'.attemptId = attempt.attemptId →
          attempt'.status = attempt.status
  separated : ∀ early first middle second late,
    ops = early ++ .apply first :: (middle ++ .apply second :: late) →
    ∀ p q, first.Accepts P policy (reached P policy early) →
      first.request.command = .acquireLease p →
      second.Accepts P policy (reached P policy (early ++ .apply first :: middle)) →
      second.request.command = .acquireLease q → q.attemptId = p.attemptId →
      Performs (step P policy) (reached P policy (early ++ [.apply first])) middle
        (Frees P policy p.attemptId)

section Turns

variable {P : Platform} {policy : Policy} {db db' : Db} {attempt : Attempt}

theorem exists_of_updateWhere {test : Attempt → Bool} {change : Attempt → Attempt}
    (hsame : ∀ attempt : Attempt, attempt.Same (change attempt))
    (hattempts : db'.attempts = updateWhere test change db.attempts)
    (hattempt : attempt ∈ db.attempts) :
    ∃ attempt' ∈ db'.attempts, attempt.Same attempt' ∧
      (test attempt = false → attempt'.status = attempt.status) := by
  refine ⟨if test attempt then change attempt else attempt, ?_, ?_, ?_⟩
  · rw [hattempts]
    exact mem_updateWhere.mpr ⟨attempt, hattempt, rfl⟩
  · split
    · exact hsame attempt
    · exact ⟨rfl, rfl, rfl⟩
  · intro htest
    rw [if_neg (by simp [htest])]

/-- A recovery of executions moves an attempt only if it has not ended and one of the
executions is its own. -/
theorem attempt_moves_of_recoveries {now : Instant} {claims : List HostClaim}
    (h : Recoveries P now claims db db') (hattempt : attempt ∈ db.attempts) :
    ∃ attempt' ∈ db'.attempts, attempt.Same attempt' ∧ (attempt'.status = attempt.status ∨
      Projection.hasEnded attempt.status = false ∧
        ∃ claim ∈ claims, claim.attemptId = attempt.attemptId) := by
  induction h generalizing attempt with
  | nil same => exact ⟨attempt, by rwa [same.attempts], ⟨rfl, rfl, rfl⟩, Or.inl rfl⟩
  | @cons db mid last claims claim revision same rest ih =>
    obtain ⟨next, hnext, hsame, hkept⟩ := @exists_of_updateWhere db mid attempt
      (fun attempt => attempt.attemptId == claim.attemptId &&
        (attempt.status == .queued || attempt.status == .running || attempt.status == .paused))
      (fun attempt => { attempt with status := .environmentError, endedAt := some now })
      (fun _ => ⟨rfl, rfl, rfl⟩) same.attempts hattempt
    obtain ⟨final, hfinal, hsame', hmoves⟩ := ih hnext
    refine ⟨final, hfinal, ⟨hsame'.attemptId.trans hsame.attemptId,
      hsame'.routeId.trans hsame.routeId, hsame'.runId.trans hsame.runId⟩, ?_⟩
    by_cases htest : (attempt.attemptId == claim.attemptId &&
      (attempt.status == .queued || attempt.status == .running || attempt.status == .paused)) = true
    · simp only [Bool.and_eq_true, beq_iff_eq] at htest
      refine Or.inr ⟨?_, claim, List.mem_cons_self, htest.1.symm⟩
      unfold Projection.hasEnded
      cases hstatus : attempt.status <;> simp_all
    · have hstatus := hkept (by simpa using htest)
      rcases hmoves with hmoves | ⟨hlive, other, hother, hid⟩
      · exact Or.inl (hmoves.trans hstatus)
      · rw [hstatus] at hlive
        exact Or.inr ⟨hlive, other, List.mem_cons_of_mem _ hother, hid.trans hsame.attemptId⟩

/-- An operation moves an attempt only if it has not ended, and a running attempt only by
taking its lease away. -/
theorem attempt_moves_step (h : LeaseInvariant db) (op : Op) (hattempt : attempt ∈ db.attempts) :
    ∃ attempt' ∈ (step P policy db op).attempts, attempt.Same attempt' ∧
      (attempt'.status = attempt.status ∨ Projection.hasEnded attempt.status = false ∧
        (attempt.status = .running → Frees P policy attempt.attemptId db op)) := by
  have hleasing := @leasing_step P policy db h.leases_unique op
  generalize step P policy db op = db' at hleasing
  cases hleasing with
  | idle _ _ hattempts hleases =>
    exact ⟨attempt, by rwa [hattempts], ⟨rfl, rfl, rfl⟩, Or.inl rfl⟩
  | registered _ _ new hqueued hfresh hattempts hleases =>
    refine ⟨attempt, ?_, ⟨rfl, rfl, rfl⟩, Or.inl rfl⟩
    rw [hattempts]
    exact List.mem_append_left _ hattempt
  | acquired _ _ _ p _ hwaiting now expire hexpire lease hactive hlease hfresh run hrun hattempts
      hleases =>
    obtain ⟨attempt', hattempt', hsame, hkept⟩ :=
      exists_of_updateWhere hrun.same hattempts hattempt
    refine ⟨attempt', hattempt', hsame, ?_⟩
    by_cases hid : attempt.attemptId = p.attemptId
    · obtain ⟨waiting, hmem, hwaitingId, hstatus⟩ := hwaiting
      obtain rfl := h.attempt_eq hmem hattempt (hwaitingId.trans hid.symm)
      rcases hstatus with hstatus | hstatus
      all_goals exact Or.inr ⟨by rw [hstatus]; rfl, by simp [hstatus]⟩
    · exact Or.inl (hkept (by simpa using hid))
  | extended _ _ test extend hsame hstatus hattempts hleases =>
    exact ⟨attempt, by rwa [hattempts], ⟨rfl, rfl, rfl⟩, Or.inl rfl⟩
  | released applied _ accepts p hcommand lease hlease hleaseId hactive hrunning release hrelease
      finish hfinish hattempts hleases =>
    obtain ⟨attempt', hattempt', hsame, hkept⟩ :=
      exists_of_updateWhere hfinish.same hattempts hattempt
    refine ⟨attempt', hattempt', hsame, ?_⟩
    by_cases hid : attempt.attemptId = lease.attemptId
    · obtain ⟨running, hmem, hrunningId, hstatus⟩ := hrunning
      obtain rfl := h.attempt_eq hmem hattempt (hrunningId.trans hid.symm)
      exact Or.inr ⟨by rw [hstatus]; rfl, fun _ =>
        .released applied accepts p hcommand lease hlease hleaseId hid.symm⟩
    · exact Or.inl (hkept (by simpa using hid))
  | suspended applied _ accepts hcommand expire hexpire hattempts hleases =>
    unfold pausedAttempts at hattempts
    obtain ⟨attempt', hattempt', hsame, hkept⟩ :=
      exists_of_updateWhere (by exact fun _ => ⟨rfl, rfl, rfl⟩) hattempts hattempt
    refine ⟨attempt', hattempt', hsame, ?_⟩
    by_cases hrun : attempt.runId = applied.request.runId
    · by_cases hrunning : attempt.status = .running
      · refine Or.inr ⟨by rw [hrunning]; rfl, fun _ => ?_⟩
        rcases hcommand with ⟨p, hcommand⟩ | ⟨p, hcommand⟩
        · exact .interrupted applied accepts p hcommand attempt hattempt rfl hrun
        · exact .amended applied accepts p hcommand attempt hattempt rfl hrun
      · exact Or.inl (hkept (by simp [hrunning]))
    · exact Or.inl (hkept (by simp [hrun]))
  | recovered capability now claimToken force _ hrecoveries =>
    obtain ⟨attempt', hattempt', hsame, hmoves⟩ := attempt_moves_of_recoveries hrecoveries hattempt
    refine ⟨attempt', hattempt', hsame, ?_⟩
    rcases hmoves with hmoves | ⟨hlive, claim, hclaim, hid⟩
    · exact Or.inl hmoves
    · exact Or.inr ⟨hlive, fun _ => .recovered capability now claimToken force claim hclaim hid⟩

theorem running_of_acquireLease {op : ApplyOp} (haccepts : op.Accepts P policy db)
    {p : AcquireLease} (hcommand : op.request.command = .acquireLease p) :
    ∃ attempt ∈ (step P policy db (.apply op)).attempts,
      attempt.attemptId = p.attemptId ∧ attempt.status = .running := by
  obtain ⟨acceptance⟩ := acceptance_of_accepts haccepts
  have hhandled := acceptance.handled
  rw [hcommand] at hhandled
  obtain ⟨run, -, -, -, hrun, -, -, -, -, hattempts, -⟩ :=
    tables_of_acquireLease acceptance (Guard.emits_acquireLease p _ hhandled)
  obtain ⟨waiting, hwaiting, hid, -⟩ := waiting_of_acquireLease acceptance hcommand
  refine ⟨run waiting, ?_, (hrun.same waiting).attemptId.trans hid, hrun.status_eq waiting⟩
  change run waiting ∈ (op.apply P policy db).attempts
  rw [hattempts]
  exact mem_updateWhere.mpr ⟨waiting, hwaiting, by simp [hid]⟩

theorem leaseInvariant_reached (P : Platform) (policy : Policy) (ops : List Op) :
    LeaseInvariant (reached P policy ops) :=
  @runFrom_invariant Db Op (step P policy) LeaseInvariant Db.empty leaseInvariant_empty
    (fun _ op h => leaseInvariant_step op h) ops

/-- The invariant says that the two tables agree. -/
theorem LeaseInvariant.leasesAgree (h : LeaseInvariant db) : LeasesAgree db where
  one_active := by
    intro attemptId
    have hle := List.nodup_iff_count_le_one.mp h.leased_once attemptId
    have hcount : (db.activeLeasesOf attemptId).length = db.leased.count attemptId := by
      unfold Db.activeLeasesOf Db.leased
      rw [List.count, List.countP_map, List.countP_eq_length_filter, List.filter_filter]
      rfl
    omega
  running_iff := by
    intro attempt hattempt
    rw [h.running_iff attempt hattempt, mem_leased]

theorem ended_of_run (h : LeaseInvariant db) (hattempt : attempt ∈ db.attempts)
    (hended : Projection.hasEnded attempt.status = true) (ops : List Op) :
    ∃ attempt' ∈ (runFrom (step P policy) db ops).attempts,
      attempt'.attemptId = attempt.attemptId ∧ attempt'.status = attempt.status := by
  refine (@runFrom_invariant Db Op (step P policy) (fun db => LeaseInvariant db ∧
    ∃ attempt' ∈ db.attempts, attempt'.attemptId = attempt.attemptId ∧
      attempt'.status = attempt.status) db ⟨h, attempt, hattempt, rfl, rfl⟩ ?_ ops).2
  rintro db op ⟨hdb, attempt', hattempt', hid, hstatus⟩
  refine ⟨leaseInvariant_step op hdb, ?_⟩
  obtain ⟨next, hnext, hsame, hmoves⟩ := @attempt_moves_step P policy db attempt' hdb op hattempt'
  refine ⟨next, hnext, hsame.attemptId.trans hid, ?_⟩
  rcases hmoves with hmoves | ⟨hlive, -⟩
  · exact hmoves.trans hstatus
  · rw [hstatus, hended] at hlive
    cases hlive

/-- A running attempt runs until an operation takes its lease away. -/
theorem running_of_run (h : LeaseInvariant db) (hattempt : attempt ∈ db.attempts)
    (hrunning : attempt.status = .running) {ops : List Op}
    (hkeeps : ¬ Performs (step P policy) db ops (Frees P policy attempt.attemptId)) :
    ∃ attempt' ∈ (runFrom (step P policy) db ops).attempts,
      attempt'.attemptId = attempt.attemptId ∧ attempt'.status = .running := by
  have hsteps : StepsSatisfy (step P policy)
      (fun db op => ¬ Frees P policy attempt.attemptId db op) db ops := by
    intro before op after hsplit hfrees
    exact hkeeps ⟨before, op, after, hsplit, hfrees⟩
  refine (@runFrom_invariant_of Db Op (step P policy) (fun db => LeaseInvariant db ∧
    ∃ attempt' ∈ db.attempts, attempt'.attemptId = attempt.attemptId ∧
      attempt'.status = .running) _ db ⟨h, attempt, hattempt, rfl, hrunning⟩ ?_ ops hsteps).2
  rintro db op ⟨hdb, attempt', hattempt', hid, hstatus⟩ hnot
  refine ⟨leaseInvariant_step op hdb, ?_⟩
  obtain ⟨next, hnext, hsame, hmoves⟩ := @attempt_moves_step P policy db attempt' hdb op hattempt'
  refine ⟨next, hnext, hsame.attemptId.trans hid, ?_⟩
  rcases hmoves with hmoves | ⟨-, hfrees⟩
  · exact hmoves.trans hstatus
  · rw [hid] at hfrees
    exact absurd (hfrees hstatus) hnot

/-- In every run attempts and leases agree, attempts that have ended stay so, and two leases
of one attempt are separated by an operation that takes the first away. -/
theorem takes_turns_of_reached (P : Platform) (policy : Policy) (ops : List Op) :
    TakesTurns P policy ops where
  agree := by
    intro early late _
    exact (leaseInvariant_reached P policy early).leasesAgree
  ended_stays := by
    rintro early late rfl attempt hattempt hended
    have hinvariant := leaseInvariant_reached P policy (early ++ late)
    obtain ⟨attempt', hattempt', hid, hstatus⟩ := @ended_of_run P policy _ attempt
      (leaseInvariant_reached P policy early) hattempt hended late
    rw [show runFrom (step P policy) (reached P policy early) late =
      reached P policy (early ++ late) from (runFrom_append _ _ _ _).symm] at hattempt'
    refine ⟨⟨attempt', hattempt', hid⟩, ?_⟩
    intro other hother hotherId
    rw [hinvariant.attempt_eq hother hattempt' (hotherId.trans hid.symm)]
    exact hstatus
  separated := by
    rintro early first middle second late rfl p q hfirst hcommand hsecond hcommand' hattempts
    by_contra hkeeps
    obtain ⟨running, hrunning, hid, hstatus⟩ := running_of_acquireLease hfirst hcommand
    rw [← show reached P policy (early ++ [.apply first]) = step P policy (reached P policy early)
      (.apply first) from runFrom_concat _ _ _ _] at hrunning
    rw [← hid] at hkeeps
    obtain ⟨still, hstill, hstillId, hstillStatus⟩ := running_of_run
      (leaseInvariant_reached P policy (early ++ [.apply first])) hrunning hstatus hkeeps
    rw [show runFrom (step P policy) (reached P policy (early ++ [.apply first])) middle =
      reached P policy (early ++ .apply first :: middle) by
        unfold reached
        rw [← runFrom_append, List.append_assoc, List.singleton_append]] at hstill
    obtain ⟨acceptance⟩ := acceptance_of_accepts hsecond
    obtain ⟨waiting, hwaiting, hwaitingId, hwaits⟩ := waiting_of_acquireLease acceptance hcommand'
    have hinvariant := leaseInvariant_reached P policy (early ++ .apply first :: middle)
    have heq := hinvariant.attempt_eq hwaiting hstill
      (hwaitingId.trans (hattempts.trans (hid.symm.trans hstillId.symm)))
    rw [heq, hstillStatus] at hwaits
    rcases hwaits with hwaits | hwaits
    · cases hwaits
    · cases hwaits

end Turns

end ResearchKernel
