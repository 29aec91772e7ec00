import ResearchKernel.Kernel.Transitions

/-!
# What a request writes

The projection of a decision writes the body of the database alone. Every request is accepted,
or leaves all but the ledger as it was.
-/

namespace ResearchKernel

open Foundation

/-! ## The projection writes the body -/

namespace Projection

variable {ctx : ProjectionContext} {db db' : Db} {m : Mutation}

theorem sameLedger_setRunStatus (status : RunStatus) (outcome : Option Outcome) :
    Gives (SameLedger db) (setRunStatus ctx db status outcome) := by
  refine Gives.pure (sameLedger_updateRuns db fun run => ?_)
  split <;> rfl

theorem sameLedger_registerClaim (p : RegisterClaim) (closure : ClosureState) :
    Gives (SameLedger db) (registerClaim ctx db p closure) := by
  refine Gives.bind fun claims _ => Gives.pure ?_
  unfold SameLedger Db.ledger
  dsimp only
  split
  · rw [map_updateWhere fun _ => by exact rfl]
  · rfl

theorem sameLedger_createContractVersion (version : ℕ) (replacement : JsonObject) :
    Gives (SameLedger db) (createContractVersion ctx db version replacement) := by
  refine Gives.bind fun _ _ => Gives.bind fun _ _ => Gives.bind fun _ _ => Gives.pure ?_
  unfold SameLedger Db.ledger
  simp only
  rw [map_updateWhere fun _ => by exact rfl]

theorem sameLedger_invalidateDependencyClosure (id : Option Id) :
    Gives (SameLedger db) (invalidateDependencyClosure ctx db id) := by
  unfold invalidateDependencyClosure
  split
  · split
    · exact Gives.pure rfl
    · exact Gives.pure rfl
  · exact Gives.pure rfl

theorem sameLedger_invalidateFromFirstFailure (id : Option Id) :
    Gives (SameLedger db) (invalidateFromFirstFailure ctx db id) := by
  unfold invalidateFromFirstFailure
  split
  · exact sameLedger_invalidateDependencyClosure id
  · exact Gives.pure rfl

/-- No mutation writes the ledger. -/
theorem sameLedger_of_apply (h : applyMutation ctx db m = some db') : SameLedger db db' := by
  suffices hgives : Gives (SameLedger db) (applyMutation ctx db m) from hgives db' h
  cases m with
  | setContractStatus version status defect =>
    cases defect with
    | none => exact Gives.pure rfl
    | some p => exact Gives.pure rfl
  | setRunStatus status outcome => exact sameLedger_setRunStatus status outcome
  | createContractVersion version replacement =>
    exact sameLedger_createContractVersion version replacement
  | registerClaim p closure => exact sameLedger_registerClaim p closure
  | invalidateDependencyClosure id => exact sameLedger_invalidateDependencyClosure id
  | invalidateFromFirstFailure id => exact sameLedger_invalidateFromFirstFailure id
  | createDossier =>
    exact Gives.bind fun _ _ => Gives.pure (sameLedger_updateRuns db fun _ => by exact rfl)
  | supersedeContract | expireActiveLeases | pauseActiveAttempts | approveExpansionBatch
  | invalidateParentClosure | setClosure | revokeFactClosure | expireStaleLeases
  | setAttemptStatus | extendLease | releaseLease | blockRoute => exact Gives.pure rfl
  | migrateContractClosure | acquireLease | registerAttempt | recordPaperReview
  | appendPeerReview | appendQualityReview | recordAtomicVerification
  | registerCompositionObligation => exact Gives.bind fun _ _ => Gives.pure rfl
  | appendFailure | appendLiteratureRecord | registerBridge | recordResearchHint
  | appendBudgetEvent | appendBudgetReservation | acceptClosureWitness =>
    exact Gives.bind fun _ _ => Gives.bind fun _ _ => Gives.pure rfl
  | registerClaimEdge p =>
    exact Gives.bind fun _ _ => Gives.bind fun _ _ => Gives.bind fun _ _ => Gives.pure rfl
  | setClaimAxis | appendEvidence | bindExecution =>
    exact Gives.bind fun _ _ => Gives.bind fun _ _ => Gives.bind fun _ _ => Gives.bind fun _ _ =>
      Gives.pure rfl
  | appendLeanFeedback p =>
    exact Gives.bind fun _ _ => Gives.bind fun _ _ => Gives.bind fun _ _ => Gives.bind fun _ _ =>
      Gives.bind fun _ _ => Gives.pure rfl
  | registerRoute p =>
    exact Gives.bind fun _ _ => Gives.bind fun _ _ => Gives.bind fun _ _ => Gives.bind fun _ _ =>
      Gives.bind fun _ _ => Gives.bind fun _ _ => Gives.bind fun _ _ => Gives.pure rfl

/-- The projection of a decision leaves the ledger alone. -/
theorem sameLedger_of_projection {mutations : List Mutation}
    (h : apply ctx mutations db = some db') : SameLedger db db' := by
  induction mutations generalizing db with
  | nil =>
    obtain rfl := Option.some.inj h
    rfl
  | cons m mutations ih =>
    obtain ⟨mid, hmid, hrest⟩ := Option.bind_eq_some_iff.mp h
    exact (sameLedger_of_apply hmid).trans (ih hrest)

end Projection

/-! ## The transaction of an accepted request -/

/-- The steps of the transaction of an accepted request. -/
structure Acceptance (P : Platform) (policy : Policy) (db : Db) (op : ApplyOp) (db' : Db) where
  start : Db
  snapshot : Snapshot
  mutations : List Mutation
  stored : Db
  named : List (String × Id)
  written : Db
  generated : Option Id
  recorded : Db
  appended : Db
  last : Db
  allowed : op.capability.allows op.request.command.type (some op.request.runId) = true
  ensured : db.ensureCapability op.capability = some start
  undecided : start.findCommand op.request.runId op.request.requestId = none
  snapshot_eq : start.guardSnapshot op.request.runId = some snapshot
  decision_eq : op.decide P policy snapshot = .ok mutations
  stored_eq : Db.storeApplyInputs op.request.runId (snapshot.revision + 1)
    ((op.stagedIds.zip op.request.artifactInputs).map fun staged =>
      (staged.2.name, CommittedFile.ofInput staged.1 staged.2)) start [] = some (stored, named)
  written_eq : op.storeGenerated P snapshot stored = some (written, generated)
  recorded_eq : written.recordCommand (op.commandRow snapshot true
    (sortedSet (named.map Prod.snd ++ generated.toList)) none []) = some recorded
  appended_eq : recorded.appendEvent
    { eventId := op.eventId
      runId := op.request.runId
      commandId := op.commandId
      revision := snapshot.revision + 1
      command := some op.request.command
      contractVersion := some
        (op.request.command.contractVersion?.getD snapshot.currentContractVersion) } =
    some appended
  projected : Projection.apply (op.projectionContext P snapshot named generated) mutations
    appended = some last
  advanced : last.advanceRevision op.request.runId op.request.expectedRevision = some db'

/-- How the end of a transaction is reached from the database before the request. -/
inductive ApplyOp.Ends (P : Platform) (policy : Policy) (db : Db) (op : ApplyOp) :
    Db × ApplyResult → Prop
  /-- The capability is refused. -/
  | denied : Ends P policy db op (db, .raised)
  /-- An exception in the transaction. -/
  | failed (start : Db) (ensured : db.ensureCapability op.capability = some start) :
      Ends P policy db op (start, .raised)
  /-- The request was decided before. -/
  | repeated (start : Db) (previous : CommandRow)
      (ensured : db.ensureCapability op.capability = some start)
      (found : start.findCommand op.request.runId op.request.requestId = some previous)
      (same : previous.requestDigest = op.digest) : Ends P policy db op (start, .repeated)
  /-- The request is rejected. -/
  | rejected (start : Db) (snapshot : Snapshot) (code : RejectionCode)
      (conditions : List MissingCondition) (db' : Db)
      (ensured : db.ensureCapability op.capability = some start)
      (undecided : start.findCommand op.request.runId op.request.requestId = none)
      (snapshot_eq : start.guardSnapshot op.request.runId = some snapshot)
      (decision_eq : op.decide P policy snapshot = .error (.reject code conditions))
      (recorded_eq : start.recordCommand
        (op.commandRow snapshot false [] (some code) conditions) = some db') :
      Ends P policy db op (start, .rejected db')
  /-- The request is accepted. -/
  | accepted (db' : Db) (acceptance : Acceptance P policy db op db') :
      Ends P policy db op (acceptance.start, .accepted acceptance.mutations db')

section Accept

variable {P : Platform} {policy : Policy} {db db' : Db} {op : ApplyOp}

/-- The steps of an acceptance, read off the definition. -/
theorem acceptance_of_accept {start : Db} {snapshot : Snapshot} {mutations : List Mutation}
    (hallowed : op.capability.allows op.request.command.type (some op.request.runId) = true)
    (hensured : db.ensureCapability op.capability = some start)
    (hundecided : start.findCommand op.request.runId op.request.requestId = none)
    (hsnapshot : start.guardSnapshot op.request.runId = some snapshot)
    (hdecision : op.decide P policy snapshot = .ok mutations)
    (h : op.accept P snapshot mutations start = some db') :
    ∃ acceptance : Acceptance P policy db op db', acceptance.start = start ∧
      acceptance.mutations = mutations := by
  obtain ⟨⟨stored, named⟩, hstored, h⟩ := Option.bind_eq_some_iff.mp h
  obtain ⟨⟨written, generated⟩, hwritten, h⟩ := Option.bind_eq_some_iff.mp h
  obtain ⟨recorded, hrecorded, h⟩ := Option.bind_eq_some_iff.mp h
  obtain ⟨appended, happended, h⟩ := Option.bind_eq_some_iff.mp h
  obtain ⟨last, hlast, h⟩ := Option.bind_eq_some_iff.mp h
  exact ⟨{
    start := start
    snapshot := snapshot
    mutations := mutations
    stored := stored
    named := named
    written := written
    generated := generated
    recorded := recorded
    appended := appended
    last := last
    allowed := hallowed
    ensured := hensured
    undecided := hundecided
    snapshot_eq := hsnapshot
    decision_eq := hdecision
    stored_eq := hstored
    written_eq := hwritten
    recorded_eq := hrecorded
    appended_eq := happended
    projected := hlast
    advanced := h }, rfl, rfl⟩

/-- Every request ends in one of these ways. -/
theorem ends_run (P : Platform) (policy : Policy) (db : Db) (op : ApplyOp) :
    op.Ends P policy db (op.run P policy db) := by
  unfold ApplyOp.run
  split
  · rename_i hallowed
    split
    · exact .denied
    · rename_i start hensured
      unfold ApplyOp.transaction
      split
      · rename_i previous hfound
        split
        · rename_i hsame
          exact .repeated start previous hensured hfound (beq_iff_eq.mp hsame)
        · exact .failed start hensured
      · rename_i hundecided
        split
        · exact .failed start hensured
        · rename_i snapshot hsnapshot
          split
          · exact .failed start hensured
          · rename_i code conditions hdecision
            split
            · exact .failed start hensured
            · rename_i recorded hrecorded
              exact .rejected start snapshot code conditions recorded hensured hundecided
                hsnapshot hdecision hrecorded
          · rename_i mutations hdecision
            split
            · exact .failed start hensured
            · rename_i last haccept
              obtain ⟨acceptance, rfl, rfl⟩ := acceptance_of_accept hallowed hensured hundecided
                hsnapshot hdecision haccept
              exact .accepted _ acceptance
  · exact .denied

/-- An accepted request has a transaction. -/
theorem acceptance_of_accepts (h : op.Accepts P policy db) :
    Nonempty (Acceptance P policy db op (op.apply P policy db)) := by
  obtain ⟨mutations, last, hrun⟩ := h
  have hends := ends_run P policy db op
  unfold ApplyOp.apply
  cases hresult : op.run P policy db with
  | mk start result =>
    rw [hresult] at hends hrun
    subst hrun
    cases hends with
    | accepted _ acceptance => exact ⟨acceptance⟩

/-- What a request leaves that is not accepted: a capability that was seen, and at most the record
of its rejection. -/
def OnlyRecorded (db db' : Db) : Prop :=
  ∃ capabilities rows, rows.length ≤ 1 ∧ (∀ row ∈ rows, row.accepted = false) ∧
    db' = { db with capabilities := capabilities, commands := db.commands ++ rows }

/-- A request is accepted, or it leaves all else in the database as it was. -/
theorem accepted_or_only_recorded (P : Platform) (policy : Policy) (db : Db) (op : ApplyOp) :
    op.Accepts P policy db ∨ OnlyRecorded db (op.apply P policy db) := by
  have hends := ends_run P policy db op
  have hensured : ∀ capabilities, OnlyRecorded db { db with capabilities := capabilities } :=
    fun capabilities => ⟨capabilities, [], by decide, List.forall_mem_nil _, by simp⟩
  unfold ApplyOp.apply
  cases hrun : op.run P policy db with
  | mk start result =>
    rw [hrun] at hends
    cases hends with
    | denied => exact Or.inr (hensured db.capabilities)
    | failed _ h | repeated _ previous h =>
      obtain ⟨capabilities, rfl⟩ := ensureCapability_eq _ _ h
      exact Or.inr (hensured capabilities)
    | rejected _ snapshot code conditions after h hundecided hsnapshot hdecision hrecorded =>
      obtain ⟨capabilities, rfl⟩ := ensureCapability_eq _ _ h
      obtain ⟨commands, hcommands, hrecorded⟩ := Option.bind_eq_some_iff.mp hrecorded
      obtain rfl := Option.some.inj hrecorded
      obtain ⟨-, rfl⟩ := insertRow_eq_some.mp hcommands
      exact Or.inr ⟨capabilities, [_], le_rfl, List.forall_mem_singleton.mpr rfl, rfl⟩
    | accepted after acceptance => exact Or.inl ⟨_, _, congrArg Prod.snd hrun⟩

end Accept

namespace Acceptance

variable {P : Platform} {policy : Policy} {db db' : Db} {op : ApplyOp}
  (acceptance : Acceptance P policy db op db')

def projection : ProjectionContext :=
  op.projectionContext P acceptance.snapshot acceptance.named acceptance.generated

/-- The projection begins with the body on which the guard has decided. -/
theorem sameBody_appended : SameBody db acceptance.appended :=
  (sameBody_ensureCapability _ _ acceptance.ensured).trans
    ((sameBody_storeApplyInputs _ _ _ _ _ _ acceptance.stored_eq).trans
      ((sameBody_storeGenerated _ _ _ acceptance.written_eq).trans
        ((sameBody_recordCommand _ _ acceptance.recorded_eq).trans
          (sameBody_appendEvent _ _ acceptance.appended_eq))))

/-- Nothing but the revision is written after the projection. -/
theorem sameBody_last : SameBody acceptance.last db' :=
  sameBody_advanceRevision _ _ _ acceptance.advanced

/-- The projection leaves the ledger alone. -/
theorem sameLedger_last : SameLedger acceptance.appended acceptance.last :=
  Projection.sameLedger_of_projection acceptance.projected

/-- The acceptance as the invariants of the records use it. -/
theorem exists_accepted : ∃ accepted : Accepted P policy db op db',
    accepted.snapshot = acceptance.snapshot ∧ accepted.mutations = acceptance.mutations ∧
      accepted.named = acceptance.named ∧ accepted.generated = acceptance.generated ∧
      accepted.mid = acceptance.appended ∧ accepted.last = acceptance.last := by
  have hstart := sameRecords_ensureCapability _ _ acceptance.ensured
  obtain ⟨hisOf, hrunId⟩ := snapshot_isOf acceptance.snapshot_eq
  exact ⟨{
    start := acceptance.start
    snapshot := acceptance.snapshot
    mutations := acceptance.mutations
    mid := acceptance.appended
    named := acceptance.named
    generated := acceptance.generated
    last := acceptance.last
    start_same := hstart
    isOf := hisOf
    runId_eq := hrunId
    decided := guard_of_decide acceptance.decision_eq
    mid_same := acceptance.sameBody_appended.sameRecords
    projected := acceptance.projected
    last_same := acceptance.sameBody_last.sameRecords }, rfl, rfl, rfl, rfl, rfl,
    rfl⟩

end Acceptance

end ResearchKernel
