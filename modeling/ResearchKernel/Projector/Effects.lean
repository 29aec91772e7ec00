import ResearchKernel.Projector

/-!
# What the mutations change

The results of this development are about some of the tables, here called the records,
and about the pointers of the runs to their contract version and root. Most mutations
leave them alone. For the others this file says what becomes of each table, once for all
mutations; every invariant is derived from these statements.
-/

namespace ResearchKernel

open Foundation

/-- What a run points to. -/
structure RunPointer where
  runId : Id
  currentContractVersion : ℕ
  rootClaimId : Option Id

def Run.pointer (run : Run) : RunPointer where
  runId := run.runId
  currentContractVersion := run.currentContractVersion
  rootClaimId := run.rootClaimId

/-- The tables that carry verdicts and what stands behind them. -/
structure Records where
  claims : List Claim
  claimEdges : List ClaimEdge
  obligations : List Obligation
  closureWitnesses : List ClosureWitness
  evidence : List Evidence
  peerReviews : List PeerReview
  leanFeedback : List LeanFeedback
  atomicVerifications : List AtomicVerification
  hostReceipts : List HostReceipt
  contractVersions : List ContractVersion
  pointers : List RunPointer

/-- The records of a database. -/
def Db.records (db : Db) : Records where
  claims := db.claims
  claimEdges := db.claimEdges
  obligations := db.obligations
  closureWitnesses := db.closureWitnesses
  evidence := db.evidence
  peerReviews := db.peerReviews
  leanFeedback := db.leanFeedback
  atomicVerifications := db.atomicVerifications
  hostReceipts := db.hostReceipts
  contractVersions := db.contractVersions
  pointers := db.runs.map Run.pointer

/-- Two databases with the same records. -/
def SameRecords (db db' : Db) : Prop := db'.records = db.records

namespace SameRecords

variable {db db' db'' : Db}

theorem trans (h : SameRecords db db') (h' : SameRecords db' db'') : SameRecords db db'' :=
  Eq.trans h' h

theorem claims (h : SameRecords db db') : db'.claims = db.claims := congrArg Records.claims h

theorem claimEdges (h : SameRecords db db') : db'.claimEdges = db.claimEdges :=
  congrArg Records.claimEdges h

theorem obligations (h : SameRecords db db') : db'.obligations = db.obligations :=
  congrArg Records.obligations h

theorem evidence (h : SameRecords db db') : db'.evidence = db.evidence :=
  congrArg Records.evidence h

theorem peerReviews (h : SameRecords db db') : db'.peerReviews = db.peerReviews :=
  congrArg Records.peerReviews h

theorem leanFeedback (h : SameRecords db db') : db'.leanFeedback = db.leanFeedback :=
  congrArg Records.leanFeedback h

theorem atomicVerifications (h : SameRecords db db') :
    db'.atomicVerifications = db.atomicVerifications := congrArg Records.atomicVerifications h

theorem hostReceipts (h : SameRecords db db') : db'.hostReceipts = db.hostReceipts :=
  congrArg Records.hostReceipts h

theorem contractVersions (h : SameRecords db db') : db'.contractVersions = db.contractVersions :=
  congrArg Records.contractVersions h

end SameRecords

/-- An update of runs that leaves their pointers alone leaves the records alone. -/
theorem sameRecords_updateRuns (db : Db) {test : Run → Bool} {change : Run → Run}
    (h : ∀ run, (change run).pointer = run.pointer) :
    SameRecords db { db with runs := updateWhere test change db.runs } := by
  unfold SameRecords Db.records
  simp only [map_updateWhere h]

/-! ## Mutations that leave the records alone -/

/-- Whether a mutation leaves the records alone. -/
def Mutation.isIdle : Mutation → Bool
  | .setRunStatus .. | .expireActiveLeases | .pauseActiveAttempts | .createDossier
  | .appendFailure .. | .appendBudgetReservation .. | .approveExpansionBatch
  | .appendLiteratureRecord .. | .registerBridge .. | .recordResearchHint ..
  | .recordPaperReview .. | .registerRoute .. | .registerAttempt .. | .expireStaleLeases ..
  | .acquireLease .. | .setAttemptStatus .. | .extendLease .. | .releaseLease ..
  | .appendBudgetEvent .. | .blockRoute .. | .bindExecution .. => true
  | _ => false

namespace Projection

variable {ctx : ProjectionContext} {db db' : Db} {m : Mutation}

theorem sameRecords_setRunStatus (status : RunStatus) (outcome : Option Outcome) :
    Gives (SameRecords db) (setRunStatus ctx db status outcome) := by
  refine Gives.pure (sameRecords_updateRuns db fun run => ?_)
  split <;> rfl

theorem sameRecords_createDossier : Gives (SameRecords db) (createDossier ctx db) :=
  Gives.bind fun _ _ => Gives.pure (sameRecords_updateRuns db fun _ => rfl)

/-- Idle mutations leave the records alone. -/
theorem sameRecords_of_isIdle (hidle : m.isIdle = true)
    (h : applyMutation ctx db m = some db') : SameRecords db db' := by
  suffices hgives : Gives (SameRecords db) (applyMutation ctx db m) from hgives db' h
  cases m with
  | setRunStatus status outcome => exact sameRecords_setRunStatus status outcome
  | createDossier => exact sameRecords_createDossier
  | expireActiveLeases | pauseActiveAttempts | approveExpansionBatch | expireStaleLeases
  | setAttemptStatus | extendLease | releaseLease | blockRoute => exact Gives.pure rfl
  | acquireLease | registerAttempt | recordPaperReview => exact Gives.bind fun _ _ => Gives.pure rfl
  | appendFailure | appendLiteratureRecord | registerBridge | recordResearchHint
  | appendBudgetEvent | appendBudgetReservation =>
    exact Gives.bind fun _ _ => Gives.bind fun _ _ => Gives.pure rfl
  | bindExecution p =>
    exact Gives.bind fun _ _ => Gives.bind fun _ _ => Gives.bind fun _ _ => Gives.bind fun _ _ =>
      Gives.pure rfl
  | registerRoute p =>
    exact Gives.bind fun _ _ => Gives.bind fun _ _ => Gives.bind fun _ _ => Gives.bind fun _ _ =>
      Gives.bind fun _ _ => Gives.bind fun _ _ => Gives.bind fun _ _ => Gives.pure rfl
  | _ => cases hidle

/-! ## The tables that a mutation writes -/

/-- The records of the first database, with the tables that the mutation writes taken from
the second. -/
def frame (db db' : Db) : Mutation → Records
  | .setContractStatus .. | .supersedeContract .. =>
    { db.records with contractVersions := db'.contractVersions }
  | .createContractVersion .. =>
    { db.records with
      contractVersions := db'.contractVersions
      pointers := db'.records.pointers }
  | .migrateContractClosure .. =>
    { db'.records with
      hostReceipts := db.hostReceipts
      contractVersions := db.contractVersions
      pointers := db.records.pointers }
  | .invalidateDependencyClosure .. | .invalidateFromFirstFailure .. | .invalidateParentClosure ..
  | .setClosure .. | .setClaimAxis .. | .appendQualityReview .. =>
    { db.records with claims := db'.claims }
  | .appendEvidence .. => { db.records with evidence := db'.evidence }
  | .appendPeerReview .. =>
    { db.records with claims := db'.claims, peerReviews := db'.peerReviews }
  | .appendLeanFeedback .. => { db.records with leanFeedback := db'.leanFeedback }
  | .registerClaim .. => { db.records with claims := db'.claims, pointers := db'.records.pointers }
  | .registerClaimEdge .. => { db.records with claimEdges := db'.claimEdges }
  | .revokeFactClosure .. =>
    { db.records with
      claims := db'.claims
      claimEdges := db'.claimEdges
      obligations := db'.obligations
      closureWitnesses := db'.closureWitnesses
      evidence := db'.evidence }
  | .recordAtomicVerification .. =>
    { db.records with claims := db'.claims, atomicVerifications := db'.atomicVerifications }
  | .registerCompositionObligation .. => { db.records with obligations := db'.obligations }
  | .acceptClosureWitness .. =>
    { db.records with
      claims := db'.claims
      obligations := db'.obligations
      closureWitnesses := db'.closureWitnesses }
  | _ => db.records

theorem records_invalidateDependencyClosure (id : Option Id) :
    Gives (fun db' => db'.records = { db.records with claims := db'.claims })
      (invalidateDependencyClosure ctx db id) := by
  unfold invalidateDependencyClosure
  split
  · split
    · exact Gives.pure rfl
    · exact Gives.pure rfl
  · exact Gives.pure rfl

theorem records_invalidateFromFirstFailure (id : Option Id) :
    Gives (fun db' => db'.records = { db.records with claims := db'.claims })
      (invalidateFromFirstFailure ctx db id) := by
  unfold invalidateFromFirstFailure
  split
  · exact records_invalidateDependencyClosure id
  · exact Gives.pure rfl

/-- A mutation changes no other tables than those it writes. -/
theorem records_of_apply (h : applyMutation ctx db m = some db') :
    db'.records = frame db db' m := by
  suffices hgives : Gives (fun db' => db'.records = frame db db' m) (applyMutation ctx db m) from
    hgives db' h
  cases m with
  | setContractStatus version status defect =>
    cases defect with
    | none => exact Gives.pure rfl
    | some p => exact Gives.pure rfl
  | supersedeContract | invalidateParentClosure | setClosure | revokeFactClosure =>
    exact Gives.pure rfl
  | createContractVersion | registerClaimEdge =>
    exact Gives.bind fun _ _ => Gives.bind fun _ _ => Gives.bind fun _ _ => Gives.pure rfl
  | migrateContractClosure | appendQualityReview | appendPeerReview | registerClaim
  | recordAtomicVerification | registerCompositionObligation =>
    exact Gives.bind fun _ _ => Gives.pure rfl
  | invalidateDependencyClosure id => exact records_invalidateDependencyClosure id
  | invalidateFromFirstFailure id => exact records_invalidateFromFirstFailure id
  | setClaimAxis | appendEvidence =>
    exact Gives.bind fun _ _ => Gives.bind fun _ _ => Gives.bind fun _ _ => Gives.bind fun _ _ =>
      Gives.pure rfl
  | appendLeanFeedback p =>
    exact Gives.bind fun _ _ => Gives.bind fun _ _ => Gives.bind fun _ _ => Gives.bind fun _ _ =>
      Gives.bind fun _ _ => Gives.pure rfl
  | acceptClosureWitness p closure =>
    exact Gives.bind fun _ _ => Gives.bind fun _ _ => Gives.pure rfl
  | _ => exact fun db' h => sameRecords_of_isIdle rfl h

end Projection

end ResearchKernel
