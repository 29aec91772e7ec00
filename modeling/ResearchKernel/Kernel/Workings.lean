import ResearchKernel.Kernel.Preservation
import ResearchKernel.Kernel.Frames

/-!
# The tables of the work on a run

Routes, attempts, leases, budget events, bridges, verdicts and claims to executions, and the
runs themselves, are no part of the records. This file says for each mutation which of these tables it writes, what
the operations of the host do to them, and how an invariant of the whole database is
carried through an accepted request.
-/

namespace ResearchKernel

open Foundation

/-- The tables of the work on the runs; the revision of a run belongs to the ledger. -/
structure Workings where
  runs : List Run
  routes : List Route
  attempts : List Attempt
  leases : List Lease
  budgetEvents : List BudgetEvent
  bridges : List Bridge
  verdictEvents : List VerdictEvent
  hostClaims : List HostClaim

/-- The workings of a database. -/
def Db.workings (db : Db) : Workings where
  runs := db.body.runs
  routes := db.routes
  attempts := db.attempts
  leases := db.leases
  budgetEvents := db.budgetEvents
  bridges := db.bridges
  verdictEvents := db.verdictEvents
  hostClaims := db.hostClaims

theorem SameBody.workings {db db' : Db} (h : SameBody db db') : db'.workings = db.workings := by
  have hworkings : ∀ db : Db, db.body.workings = db.workings := fun db => by
    simp only [Db.workings, Db.body, List.map_map]
    rfl
  exact (hworkings db').symm.trans ((congrArg Db.workings h).trans (hworkings db))

/-! ## The workings that a mutation writes -/

namespace Projection

variable {ctx : ProjectionContext} {db db' : Db} {m : Mutation}

/-- The workings of the first database, with the tables that the mutation writes taken from
the second. -/
def workingsFrame (db db' : Db) : Mutation → Workings
  | .setRunStatus .. | .createDossier | .registerClaim .. =>
    { db.workings with runs := db'.body.runs }
  | .createContractVersion .. =>
    { db.workings with runs := db'.body.runs, routes := db'.routes }
  | .expireActiveLeases | .expireStaleLeases .. | .acquireLease .. | .extendLease ..
  | .releaseLease .. => { db.workings with leases := db'.leases }
  | .pauseActiveAttempts | .registerAttempt .. | .setAttemptStatus .. =>
    { db.workings with attempts := db'.attempts }
  | .registerRoute .. | .blockRoute .. => { db.workings with routes := db'.routes }
  | .appendBudgetReservation .. | .appendBudgetEvent .. =>
    { db.workings with budgetEvents := db'.budgetEvents }
  | .registerBridge .. | .migrateContractClosure .. =>
    { db.workings with bridges := db'.bridges }
  | .setClaimAxis .. => { db.workings with verdictEvents := db'.verdictEvents }
  | _ => db.workings

theorem workings_invalidateDependencyClosure (id : Option Id) :
    Gives (fun db' => db'.workings = db.workings) (invalidateDependencyClosure ctx db id) := by
  unfold invalidateDependencyClosure
  split
  · split
    · exact Gives.pure rfl
    · exact Gives.pure rfl
  · exact Gives.pure rfl

theorem workings_invalidateFromFirstFailure (id : Option Id) :
    Gives (fun db' => db'.workings = db.workings) (invalidateFromFirstFailure ctx db id) := by
  unfold invalidateFromFirstFailure
  split
  · exact workings_invalidateDependencyClosure id
  · exact Gives.pure rfl

/-- A mutation changes no other workings than those it writes. -/
theorem workings_of_apply (h : applyMutation ctx db m = some db') :
    db'.workings = workingsFrame db db' m := by
  suffices hgives : Gives (fun db' => db'.workings = workingsFrame db db' m)
      (applyMutation ctx db m) from hgives db' h
  cases m with
  | setContractStatus version status defect =>
    cases defect with
    | none => exact Gives.pure rfl
    | some p => exact Gives.pure rfl
  | setRunStatus | supersedeContract | expireActiveLeases | pauseActiveAttempts
  | approveExpansionBatch | expireStaleLeases | setAttemptStatus | extendLease | releaseLease
  | blockRoute | invalidateParentClosure | setClosure | revokeFactClosure => exact Gives.pure rfl
  | invalidateDependencyClosure id => exact workings_invalidateDependencyClosure id
  | invalidateFromFirstFailure id => exact workings_invalidateFromFirstFailure id
  | createDossier | migrateContractClosure | registerClaim | acquireLease | registerAttempt
  | recordPaperReview | appendPeerReview | appendQualityReview | recordAtomicVerification
  | registerCompositionObligation => exact Gives.bind fun _ _ => Gives.pure rfl
  | appendFailure | appendLiteratureRecord | registerBridge | recordResearchHint
  | appendBudgetEvent | appendBudgetReservation | acceptClosureWitness =>
    exact Gives.bind fun _ _ => Gives.bind fun _ _ => Gives.pure rfl
  | createContractVersion | registerClaimEdge =>
    exact Gives.bind fun _ _ => Gives.bind fun _ _ => Gives.bind fun _ _ => Gives.pure rfl
  | setClaimAxis | appendEvidence | bindExecution =>
    exact Gives.bind fun _ _ => Gives.bind fun _ _ => Gives.bind fun _ _ => Gives.bind fun _ _ =>
      Gives.pure rfl
  | appendLeanFeedback p =>
    exact Gives.bind fun _ _ => Gives.bind fun _ _ => Gives.bind fun _ _ => Gives.bind fun _ _ =>
      Gives.bind fun _ _ => Gives.pure rfl
  | registerRoute p =>
    exact Gives.bind fun _ _ => Gives.bind fun _ _ => Gives.bind fun _ _ => Gives.bind fun _ _ =>
      Gives.bind fun _ _ => Gives.bind fun _ _ => Gives.bind fun _ _ => Gives.pure rfl

variable {mutations : List Mutation}

/-- What every mutation preserves, the projection preserves; a mutation that stands only at
the head is applied to the database at the start. -/
theorem apply_preserves_db {I : Db → Prop} {last : Db} (h : apply ctx mutations db = some last)
    (hstart : I db)
    (hmutation : ∀ m ∈ mutations, ∀ before after, applyMutation ctx before m = some after →
      before = db ∨ m ∈ mutations.tail → I before → I after) : I last := by
  have hall : ∀ (rest : List Mutation) (mid : Db), apply ctx rest mid = some last → I mid →
      (∀ m ∈ rest, ∀ before after, applyMutation ctx before m = some after →
        I before → I after) → I last := by
    intro rest
    induction rest with
    | nil =>
      intro mid hmid hI _
      obtain rfl := Option.some.inj hmid
      exact hI
    | cons m rest ih =>
      intro mid hmid hI hrest
      obtain ⟨next, hnext, hlast⟩ := apply_cons_eq_some.mp hmid
      exact ih next hlast (hrest m List.mem_cons_self mid next hnext hI)
        fun m' hm' => hrest m' (List.mem_cons_of_mem _ hm')
  cases mutations with
  | nil =>
    obtain rfl := Option.some.inj h
    exact hstart
  | cons m mutations =>
    obtain ⟨mid, hmid, hrest⟩ := apply_cons_eq_some.mp h
    refine hall mutations mid hrest
      (hmutation m List.mem_cons_self db mid hmid (Or.inl rfl) hstart) ?_
    intro m' hm' before after happly
    exact hmutation m' (List.mem_cons_of_mem _ hm') before after happly (Or.inr hm')

/-- What no mutation of a projection changes is the same after it. -/
theorem apply_keeps {β : Type} {f : Db → β} {last : Db} (h : apply ctx mutations db = some last)
    (hkeep : ∀ m ∈ mutations, ∀ before after, applyMutation ctx before m = some after →
      f after = f before) : f last = f db := by
  refine apply_preserves_db (I := fun mid => f mid = f db) h rfl ?_
  intro m hm before after happly _ hbefore
  exact (hkeep m hm before after happly).trans hbefore

end Projection

/-! ## Accepted requests -/

/-- What the snapshot of a run takes from the workings. -/
structure Snapshot.Works (snapshot : Snapshot) (db : Db) : Prop where
  status_eq : (db.run? snapshot.runId).map (·.status) = some snapshot.status
  routes_eq : snapshot.routes = db.routes.filter (·.runId == snapshot.runId)
  attempts_eq : snapshot.attempts = db.attempts.filter (·.runId == snapshot.runId)
  leases_eq : snapshot.leases = db.leases.filter fun lease =>
    db.attempts.any fun attempt =>
      attempt.attemptId == lease.attemptId && attempt.runId == snapshot.runId
  bindings_eq : snapshot.bindings = db.bindings.filter (·.runId == snapshot.runId)
  budgetEvents_eq : snapshot.budgetEvents = db.budgetEvents.filter (·.runId == snapshot.runId)
  fuse_eq : snapshot.budgetFuseTripped = db.budgetEvents.any fun event =>
    event.runId == snapshot.runId && event.eventKind == .fuseTrip && !legacyBudgetEvent event

theorem snapshot_works {db : Db} {runId : Id} {snapshot : Snapshot}
    (h : db.guardSnapshot runId = some snapshot) : snapshot.Works db := by
  obtain ⟨run, hrun, h⟩ := Option.bind_eq_some_iff.mp h
  obtain rfl := Option.some.inj h
  obtain ⟨-, rfl⟩ := run?_eq_some hrun
  exact ⟨by rw [hrun]; rfl, rfl, rfl, rfl, rfl, rfl, rfl⟩

namespace Acceptance

variable {P : Platform} {policy : Policy} {db db' : Db} {op : ApplyOp}

/-- What the guard knows about an accepted request. -/
def context (acceptance : Acceptance P policy db op db') : GuardContext :=
  op.guardContext P policy acceptance.snapshot

/-- What the handler of an accepted request has decided. -/
theorem handled (acceptance : Acceptance P policy db op db') :
    Guard.handle acceptance.context op.request.command = .ok acceptance.mutations :=
  (Guard.handle_of_decide (guard_of_decide acceptance.decision_eq)).2

theorem emission (acceptance : Acceptance P policy db op db') :
    Guard.Emission acceptance.context op.request.command acceptance.mutations :=
  Guard.emission_of_handle acceptance.handled

theorem runId_eq (acceptance : Acceptance P policy db op db') :
    acceptance.snapshot.runId = op.request.runId :=
  (snapshot_isOf acceptance.snapshot_eq).2

/-- The guard decides on the workings before the request. -/
theorem works (acceptance : Acceptance P policy db op db') : acceptance.snapshot.Works db := by
  obtain ⟨rows, hstart⟩ := ensureCapability_eq _ _ acceptance.ensured
  have hworks := snapshot_works acceptance.snapshot_eq
  rw [hstart] at hworks
  exact ⟨hworks.status_eq, hworks.routes_eq, hworks.attempts_eq, hworks.leases_eq,
    hworks.bindings_eq, hworks.budgetEvents_eq, hworks.fuse_eq⟩

/-- The mutations of an accepted request lead from the body before it to the body after it. -/
theorem projects (acceptance : Acceptance P policy db op db') : ∃ start last,
    SameBody db start ∧
      Projection.apply acceptance.projection acceptance.mutations start = some last ∧
      SameBody last db' :=
  ⟨acceptance.appended, acceptance.last, acceptance.sameBody_appended, acceptance.projected,
    acceptance.sameBody_last⟩

/-- What depends on the body alone and no mutation changes is the same after a request. -/
theorem keeps (acceptance : Acceptance P policy db op db') {β : Type} {f : Db → β}
    (hbody : ∀ db db', SameBody db db' → f db' = f db)
    (hkeep : ∀ m ∈ acceptance.mutations, ∀ before after,
      Projection.applyMutation acceptance.projection before m = some after →
        f after = f before) : f db' = f db := by
  rw [hbody _ _ acceptance.sameBody_last, ← hbody _ _ acceptance.sameBody_appended]
  exact Projection.apply_keeps acceptance.projected hkeep

/-- A mutation of an accepted request, applied at one point of its projection. -/
structure Applies (acceptance : Acceptance P policy db op db') (m : Mutation) (before after : Db) :
    Prop where
  mem : m ∈ acceptance.mutations
  place : SameBody db before ∨ m ∈ acceptance.mutations.tail
  applied : Projection.applyMutation acceptance.projection before m = some after

/-- An invariant of the body holds after an accepted request when its mutations preserve it. -/
theorem preserves (acceptance : Acceptance P policy db op db') {I : Db → Prop}
    (hbody : ∀ db db', SameBody db db' → I db → I db') (hstart : I db)
    (hmutation : ∀ m before after, acceptance.Applies m before after → I before → I after) :
    I db' := by
  refine hbody _ _ acceptance.sameBody_last ?_
  refine Projection.apply_preserves_db acceptance.projected
    (hbody _ _ acceptance.sameBody_appended hstart) ?_
  intro m hm before after happly hplace hbefore
  refine hmutation m before after ⟨hm, ?_, happly⟩ hbefore
  rcases hplace with rfl | htail
  · exact Or.inl acceptance.sameBody_appended
  · exact Or.inr htail

end Acceptance

/-! ## Operations of the host -/

/-- What an attempt keeps for good. -/
structure Attempt.Same (a b : Attempt) : Prop where
  attemptId : b.attemptId = a.attemptId
  routeId : b.routeId = a.routeId
  runId : b.runId = a.runId

/-- What a lease keeps for good. -/
structure Lease.Same (a b : Lease) : Prop where
  leaseId : b.leaseId = a.leaseId
  attemptId : b.attemptId = a.attemptId

/-- What an operation does to the workings unless it is an accepted request. -/
structure HostWork (before after : Workings) : Prop where
  routes : after.routes = before.routes
  bridges : after.bridges = before.bridges
  attempts : ∃ edit : Attempt → Attempt, (∀ attempt : Attempt, attempt.Same (edit attempt)) ∧
    after.attempts = before.attempts.map edit
  leases : ∃ edit : Lease → Lease, (∀ lease : Lease, lease.Same (edit lease)) ∧
    after.leases = before.leases.map edit

/-- Workings that agree on these tables. -/
theorem HostWork.of_eq {before after : Workings} (hroutes : after.routes = before.routes)
    (hbridges : after.bridges = before.bridges) (hattempts : after.attempts = before.attempts)
    (hleases : after.leases = before.leases) : HostWork before after where
  routes := hroutes
  bridges := hbridges
  attempts := ⟨id, fun _ => ⟨rfl, rfl, rfl⟩, by rw [hattempts, List.map_id]⟩
  leases := ⟨id, fun _ => ⟨rfl, rfl⟩, by rw [hleases, List.map_id]⟩

theorem HostWork.trans {a b c : Workings} (h : HostWork a b) (h' : HostWork b c) :
    HostWork a c where
  routes := h'.routes.trans h.routes
  bridges := h'.bridges.trans h.bridges
  attempts := by
    obtain ⟨edit, hedit, heq⟩ := h.attempts
    obtain ⟨edit', hedit', heq'⟩ := h'.attempts
    refine ⟨edit' ∘ edit, fun attempt => ?_, by rw [heq', heq, List.map_map]⟩
    have hfirst := hedit attempt
    have hsecond := hedit' (edit attempt)
    exact ⟨hsecond.attemptId.trans hfirst.attemptId, hsecond.routeId.trans hfirst.routeId,
      hsecond.runId.trans hfirst.runId⟩
  leases := by
    obtain ⟨edit, hedit, heq⟩ := h.leases
    obtain ⟨edit', hedit', heq'⟩ := h'.leases
    refine ⟨edit' ∘ edit, fun lease => ?_, by rw [heq', heq, List.map_map]⟩
    have hfirst := hedit lease
    have hsecond := hedit' (edit lease)
    exact ⟨hsecond.leaseId.trans hfirst.leaseId, hsecond.attemptId.trans hfirst.attemptId⟩

theorem SameBody.hostWork {db db' : Db} (h : SameBody db db') :
    HostWork db.workings db'.workings := by
  rw [h.workings]
  exact HostWork.of_eq rfl rfl rfl rfl

section Host

variable {P : Platform} {policy : Policy} {db : Db}

theorem hostWork_createRunAtomic (new : NewRun) :
    Gives (fun db' => HostWork db.workings db'.workings) (db.createRunAtomic new) := by
  unfold Db.createRunAtomic
  split
  · exact Gives.bind fun _ _ => Gives.pure (HostWork.of_eq rfl rfl rfl rfl)
  · refine Gives.bind fun stored hstored => Gives.bind fun runs _ =>
      Gives.bind fun filled hfilled => Gives.bind fun contracts _ => Gives.pure ?_
    have hfirst : HostWork db.workings stored.1.workings :=
      (sameBody_storeFile _ _ _ _ stored hstored).hostWork
    have hsecond := (sameBody_storeCreateInputs _ _ _ filled hfilled).hostWork
    refine hfirst.trans (HostWork.trans ?_ hsecond)
    exact HostWork.of_eq rfl rfl rfl rfl

theorem hostWork_recordComponentUsage (capability : VerifiedCapability) (report : ComponentUsage) :
    Gives (fun db' => HostWork db.workings db'.workings)
      (db.recordComponentUsage P capability report) := by
  unfold Db.recordComponentUsage
  dsimp only
  split
  · exact Gives.bind fun _ _ => Gives.pure (HostWork.of_eq rfl rfl rfl rfl)
  · refine Gives.bind fun run _ => Gives.bind fun _ _ => Gives.bind fun events _ =>
      Gives.bind fun recorded hrecorded => Gives.pure ?_
    have hrecord := (sameBody_recordHostCommand _ _ _ recorded hrecorded).hostWork
    exact hrecord.trans (HostWork.of_eq rfl rfl rfl rfl)

theorem hostWork_recordHostExecution (capability : VerifiedCapability) (record : HostRecord) :
    Gives (fun db' => HostWork db.workings db'.workings)
      (db.recordHostExecution P capability record) := by
  refine Gives.bind fun rows _ => Gives.bind fun _ _ => Gives.bind fun _ _ =>
    Gives.bind fun receipts _ => Gives.bind fun events _ =>
    Gives.bind fun recorded hrecorded => Gives.pure ?_
  have hrecord := (sameBody_recordHostCommand _ _ _ recorded hrecorded).hostWork
  exact hrecord.trans (HostWork.of_eq rfl rfl rfl rfl)

/-- A recovered execution ends its attempt and revokes its lease. -/
theorem hostWork_recoverHostClaim (capability : VerifiedCapability) (now : Instant)
    (claim : HostClaim) :
    Gives (fun db' => HostWork db.workings db'.workings)
      (db.recoverHostClaim P capability now claim) := by
  refine Gives.bind fun run _ => Gives.bind fun recorded hrecorded => Gives.pure ?_
  have hrecord := (sameBody_recordHostCommand _ _ _ recorded hrecorded).hostWork
  refine hrecord.trans ⟨rfl, rfl, ⟨_, fun attempt => ?_, rfl⟩, ⟨_, fun lease => ?_, rfl⟩⟩
  · split
    · exact ⟨rfl, rfl, rfl⟩
    · exact ⟨rfl, rfl, rfl⟩
  · split
    · exact ⟨rfl, rfl⟩
    · exact ⟨rfl, rfl⟩

theorem hostWork_recoverHostClaims (capability : VerifiedCapability) (now : Instant)
    (claims : List HostClaim) (db : Db) :
    Gives (fun db' => HostWork db.workings db'.workings)
      (Db.recoverHostClaims P capability now claims db) := by
  induction claims generalizing db with
  | nil => exact Gives.pure (HostWork.of_eq rfl rfl rfl rfl)
  | cons claim claims ih =>
    refine Gives.bind fun recovered hrecovered => ?_
    intro db' hrest
    exact (hostWork_recoverHostClaim _ _ _ recovered hrecovered).trans (ih recovered db' hrest)

theorem hostWork_consumeHostLeanReceipt (capability : VerifiedCapability) (use : ReceiptUse)
    (feedbackId : Id) (toolchain : String) :
    Gives (fun db' => HostWork db.workings db'.workings)
      (db.consumeHostLeanReceipt P capability use feedbackId toolchain) := by
  refine Gives.bind fun rows _ => Gives.bind fun _ _ => Gives.bind fun source _ =>
    Gives.bind fun output _ => Gives.bind fun feedback _ => Gives.bind fun roots _ =>
    Gives.bind fun evidence _ => Gives.bind fun recorded hrecorded =>
    Gives.bind fun verified hverified => Gives.pure ?_
  have hrecord := (sameBody_recordHostCommand _ _ _ recorded hrecorded).hostWork
  refine hrecord.trans ?_
  unfold Db.setKernelVerified at hverified
  split at hverified
  · obtain rfl := Option.some.inj hverified
    exact HostWork.of_eq rfl rfl rfl rfl
  · obtain ⟨events, -, hverified⟩ := Option.bind_eq_some_iff.mp hverified
    obtain rfl := Option.some.inj hverified
    exact HostWork.of_eq rfl rfl rfl rfl

theorem hostWork_consumeHostCheckerReceipt (capability : VerifiedCapability) (use : ReceiptUse)
    (verificationId : Id) (rootKind : RootKind) :
    Gives (fun db' => HostWork db.workings db'.workings)
      (db.consumeHostCheckerReceipt P capability use verificationId rootKind) := by
  refine Gives.bind fun rows _ => Gives.bind fun _ _ => Gives.bind fun output _ =>
    Gives.bind fun roots _ => Gives.bind fun evidence _ => Gives.bind fun verifications _ =>
    Gives.bind fun recorded hrecorded => Gives.pure ?_
  have hrecord := (sameBody_recordHostCommand _ _ _ recorded hrecorded).hostWork
  exact hrecord.trans (HostWork.of_eq rfl rfl rfl rfl)

theorem hostWork_withCapability (allowed : Bool) (capability : VerifiedCapability)
    {transaction : Db → Option Db}
    (h : ∀ start : Db, Gives (fun db' => HostWork start.workings db'.workings)
      (transaction start)) :
    HostWork db.workings (db.withCapability allowed capability transaction).workings := by
  unfold Db.withCapability
  split
  · split
    · exact HostWork.of_eq rfl rfl rfl rfl
    · rename_i start hensured
      have hstart := (sameBody_ensureCapability _ _ hensured).hostWork
      refine hstart.trans ?_
      cases hend : transaction start with
      | none => exact HostWork.of_eq rfl rfl rfl rfl
      | some last => exact h start last hend
  · exact HostWork.of_eq rfl rfl rfl rfl

/-- A request that is not accepted leaves the workings alone. -/
theorem hostWork_apply (op : ApplyOp) :
    HostWork db.workings (op.apply P policy db).workings ∨ op.Accepts P policy db := by
  have hends := ends_run P policy db op
  unfold ApplyOp.apply ApplyOp.Accepts
  cases hrun : op.run P policy db with
  | mk start result =>
    rw [hrun] at hends
    cases hends with
    | denied => exact Or.inl (HostWork.of_eq rfl rfl rfl rfl)
    | failed _ hensured | repeated _ previous hensured =>
      exact Or.inl (sameBody_ensureCapability _ _ hensured).hostWork
    | rejected _ snapshot code conditions after hensured hundecided hsnapshot hdecision hrecorded =>
      exact Or.inl ((sameBody_ensureCapability _ _ hensured).trans
        (sameBody_recordCommand _ _ hrecorded)).hostWork
    | accepted after acceptance => exact Or.inr ⟨_, _, rfl⟩

/-- An operation is an accepted request, or leaves most of the workings alone. -/
theorem work_cases (op : Op) : HostWork db.workings (step P policy db op).workings ∨
    ∃ applied : ApplyOp, op = .apply applied ∧ applied.Accepts P policy db := by
  cases op with
  | create op =>
    refine Or.inl ?_
    change HostWork db.workings (op.apply P db).workings
    unfold CreateOp.apply
    split
    · split
      · split
        · exact HostWork.of_eq rfl rfl rfl rfl
        · rename_i start hensured
          refine (sameBody_ensureCapability _ _ hensured).hostWork.trans ?_
          cases hend : start.createRunAtomic (op.newRun P _) with
          | none => exact HostWork.of_eq rfl rfl rfl rfl
          | some after => exact hostWork_createRunAtomic _ _ hend
      · exact HostWork.of_eq rfl rfl rfl rfl
    · exact HostWork.of_eq rfl rfl rfl rfl
  | apply op =>
    rcases @hostWork_apply P policy db op with hwork | haccepts
    · exact Or.inl hwork
    · exact Or.inr ⟨op, rfl, haccepts⟩
  | importArtifact op =>
    refine Or.inl (hostWork_withCapability _ _ fun start => ?_)
    refine Gives.bind fun _ _ => Gives.bind fun stored hstored => Gives.pure ?_
    exact (sameBody_storeFile _ _ _ _ stored hstored).hostWork
  | recordComponentUsage capability report =>
    exact Or.inl (hostWork_withCapability _ _ fun _ => hostWork_recordComponentUsage _ _)
  | claimHostExecution capability request =>
    refine Or.inl (hostWork_withCapability _ _ fun start => ?_)
    exact Gives.bind fun _ _ => Gives.bind fun _ _ => Gives.bind fun _ _ => Gives.bind fun _ _ =>
      Gives.bind fun _ _ => Gives.bind fun _ _ => Gives.bind fun _ _ =>
      Gives.pure (HostWork.of_eq rfl rfl rfl rfl)
  | recordHostExecution capability record =>
    exact Or.inl (hostWork_withCapability _ _ fun _ => hostWork_recordHostExecution _ _)
  | heartbeatHostExecution claimToken serviceInstanceId now recoverAfter =>
    exact Or.inl (HostWork.of_eq rfl rfl rfl rfl)
  | recoverIncompleteHostClaims capability now claimToken force =>
    exact Or.inl (hostWork_withCapability _ _ fun start => hostWork_recoverHostClaims _ _ _ start)
  | consumeHostLeanReceipt capability use feedbackId toolchain =>
    exact Or.inl (hostWork_withCapability _ _ fun _ => hostWork_consumeHostLeanReceipt _ _ _ _)
  | consumeHostCheckerReceipt capability use verificationId rootKind =>
    exact Or.inl (hostWork_withCapability _ _ fun _ => hostWork_consumeHostCheckerReceipt _ _ _ _)

end Host

end ResearchKernel
