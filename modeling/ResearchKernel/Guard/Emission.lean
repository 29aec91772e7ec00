import ResearchKernel.Guard.Decide

/-!
# What an accepted command emits

The mutations of an accepted command tell which command it was. A mutation that writes a
verdict, a claim, an edge, evidence or a closure witness comes from one command only, and
that command emits little else, so its checks hold of the database that is written.
-/

namespace ResearchKernel

open Foundation

namespace Guard

def amendment (version : ℕ) (replacement : JsonObject) (affected : List Id) : List Mutation :=
  [.expireActiveLeases, .pauseActiveAttempts, .supersedeContract version,
    .createContractVersion (version + 1) replacement,
    .migrateContractClosure (version + 1) affected, .setRunStatus .isOpen none]

/-- What the emission of a mutation says about the command and about all it emits. -/
def Emitted (context : GuardContext) (command : Command) (mutations : List Mutation) :
    Mutation → Prop
  | .setClaimAxis p value =>
    command = .promoteClaim p ∧ mutations = [.setClaimAxis p value] ∧
      handlePromoteClaim context p = .ok mutations
  | .recordAtomicVerification p update =>
    command = .verifyAtomicClaim p ∧ mutations = [.recordAtomicVerification p update] ∧
      handleVerifyAtomicClaim context p = .ok mutations
  | .appendPeerReview p profile =>
    command = .recordPeerReview p ∧ mutations = [.appendPeerReview p profile] ∧
      handleRecordPeerReview context p = .ok mutations
  | .acceptClosureWitness p closure =>
    command = .submitClosureWitness p ∧ mutations = [.acceptClosureWitness p closure] ∧
      validateClosureWitness context.platform context.snapshot p context.policy = .ok closure
  | .registerClaim p closure =>
    command = .registerClaim p ∧ mutations = [.registerClaim p closure] ∧
      handleRegisterClaim context p = .ok mutations
  | .registerClaimEdge p =>
    command = .registerClaimEdge p ∧
      mutations = [.registerClaimEdge p, .invalidateParentClosure p.toClaimId] ∧
      handleRegisterClaimEdge context p = .ok mutations
  | .appendEvidence p =>
    command = .submitEvidence p ∧ mutations = [.appendEvidence p] ∧
      handleSubmitEvidence context p = .ok mutations
  | .revokeFactClosure id =>
    ∃ p, command = .revokeFact p ∧ id = p.factId ∧ mutations = [.revokeFactClosure p.factId] ∧
      handleRevokeFact context p = .ok mutations
  | .registerCompositionObligation p =>
    command = .registerCompositionObligation p ∧
      mutations = [.registerCompositionObligation p, .setClosure p.parentClaimId .isOpen] ∧
      handleRegisterCompositionObligation context p = .ok mutations
  | .setClosure id value =>
    ∃ p, command = .registerCompositionObligation p ∧ id = p.parentClaimId ∧ value = .isOpen ∧
      mutations = [.registerCompositionObligation p, .setClosure p.parentClaimId .isOpen] ∧
      handleRegisterCompositionObligation context p = .ok mutations
  | .createContractVersion _ _ =>
    ∃ p affected, command = .amendContract p ∧
      mutations = amendment context.version p.replacementContract affected
  | .migrateContractClosure _ _ =>
    ∃ p affected, command = .amendContract p ∧
      mutations = amendment context.version p.replacementContract affected
  | .setRunStatus status outcome =>
    status = .closed → ∃ p, command = .finalize p ∧ outcome = some p.outcome
  | _ => True

section Handlers

variable {context : GuardContext}

theorem emits_amendContract (p : AmendContract) :
    Yields (fun ms => ∃ contract, context.snapshot.contract? = some contract ∧
        ms = amendment context.version p.replacementContract
          ((contract.defectEvidence.map (·.affectedClaimIds)).getD []))
      (handleAmendContract context p) := by
  unfold handleAmendContract
  refine Yields.bind fun contract hcontract => ?_
  have hfound := (Option.filter_eq_some_iff.mp (orReject_eq_ok.mp hcontract)).1
  repeat refine Yields.bind fun _ _ => ?_
  exact Yields.pure ⟨contract, hfound, rfl⟩

theorem emits_submitEvidence (p : SubmitEvidence) :
    Yields (fun ms => ms = [.appendEvidence p]) (handleSubmitEvidence context p) := by
  unfold handleSubmitEvidence
  repeat refine Yields.bind fun _ _ => ?_
  exact Yields.pure rfl

theorem emits_recordPeerReview (p : RecordPeerReview) :
    Yields (fun ms => ∃ profile, ms = [.appendPeerReview p profile])
      (handleRecordPeerReview context p) := by
  unfold handleRecordPeerReview
  repeat refine Yields.bind fun _ _ => ?_
  exact Yields.pure ⟨_, rfl⟩

theorem emits_recordFailure (p : RecordFailure) :
    Yields (fun ms =>
        ms = [.appendFailure p, .invalidateDependencyClosure p.firstFailedObligationId])
      (handleRecordFailure context p) := by
  unfold handleRecordFailure
  repeat refine Yields.bind fun _ _ => ?_
  exact Yields.pure rfl

theorem emits_recordLeanFeedback (p : RecordLeanFeedback) :
    Yields (fun ms =>
        ms = [.appendLeanFeedback p, .invalidateFromFirstFailure p.firstFailedObligationId])
      (handleRecordLeanFeedback context p) := by
  unfold handleRecordLeanFeedback
  repeat refine Yields.bind fun _ _ => ?_
  refine Yields.ite (fun _ => ?_) (fun _ => ?_)
  · repeat refine Yields.bind fun _ _ => ?_
    exact Yields.pure rfl
  · repeat refine Yields.bind fun _ _ => ?_
    exact Yields.pure rfl

theorem emits_registerClaim (p : RegisterClaim) :
    Yields (fun ms => ∃ closure, ms = [.registerClaim p closure])
      (handleRegisterClaim context p) := by
  unfold handleRegisterClaim
  repeat refine Yields.bind fun _ _ => ?_
  exact Yields.pure ⟨_, rfl⟩

theorem emits_registerClaimEdge (p : RegisterClaimEdge) :
    Yields (fun ms => ms = [.registerClaimEdge p, .invalidateParentClosure p.toClaimId])
      (handleRegisterClaimEdge context p) := by
  unfold handleRegisterClaimEdge
  repeat refine Yields.bind fun _ _ => ?_
  exact Yields.pure rfl

theorem emits_revokeFact (p : RevokeFact) :
    Yields (fun ms => ms = [.revokeFactClosure p.factId]) (handleRevokeFact context p) := by
  unfold handleRevokeFact
  repeat refine Yields.bind fun _ _ => ?_
  exact Yields.pure rfl

theorem emits_verifyAtomicClaim (p : VerifyAtomicClaim) :
    Yields (fun ms => ∃ update, ms = [.recordAtomicVerification p update])
      (handleVerifyAtomicClaim context p) := by
  unfold handleVerifyAtomicClaim
  repeat refine Yields.bind fun _ _ => ?_
  refine Yields.ite (fun _ => ?_) (fun _ => ?_)
  · repeat refine Yields.bind fun _ _ => ?_
    exact Yields.pure ⟨_, rfl⟩
  · dsimp only
    split
    · exact Yields.error
    all_goals
      repeat refine Yields.bind fun _ _ => ?_
      exact Yields.pure ⟨_, rfl⟩

theorem emits_registerCompositionObligation (p : RegisterCompositionObligation) :
    Yields (fun ms =>
        ms = [.registerCompositionObligation p, .setClosure p.parentClaimId .isOpen])
      (handleRegisterCompositionObligation context p) := by
  unfold handleRegisterCompositionObligation
  repeat refine Yields.bind fun _ _ => ?_
  exact Yields.pure rfl

theorem emits_promoteClaim (p : PromoteClaim) :
    Yields (fun ms => ∃ value, ms = [.setClaimAxis p value]) (handlePromoteClaim context p) := by
  unfold handlePromoteClaim
  repeat refine Yields.bind fun _ _ => ?_
  exact Yields.pure ⟨_, rfl⟩

theorem emits_submitClosureWitness (p : SubmitClosureWitness) :
    Yields (fun ms => ∃ closure, ms = [.acceptClosureWitness p closure] ∧
        validateClosureWitness context.platform context.snapshot p context.policy = .ok closure)
      (handleSubmitClosureWitness context p) := by
  unfold handleSubmitClosureWitness
  exact Yields.bind fun closure hclosure => Yields.pure ⟨closure, rfl, hclosure⟩

theorem emits_finalize (p : Finalize) :
    Yields (fun ms => ms = [.setRunStatus .closed (some p.outcome), .createDossier])
      (handleFinalize context p) := by
  unfold handleFinalize
  repeat refine Yields.bind fun _ _ => ?_
  exact Yields.pure rfl

theorem emits_freezeContract (p : FreezeContract) :
    Yields (fun ms => ms = [.setContractStatus context.version .frozen none])
      (handleFreezeContract context p) := by
  unfold handleFreezeContract
  repeat refine Yields.bind fun _ _ => ?_
  exact Yields.pure rfl

theorem emits_startRun (p : StartRun) :
    Yields (fun ms => ms = [.setRunStatus .running none]) (handleStartRun context p) := by
  unfold handleStartRun
  repeat refine Yields.bind fun _ _ => ?_
  exact Yields.pure rfl

theorem emits_interrupt (p : Interrupt) :
    Yields (fun ms => ms = [.expireActiveLeases, .setRunStatus .paused none, .pauseActiveAttempts])
      (handleInterrupt context p) := by
  unfold handleInterrupt
  repeat refine Yields.bind fun _ _ => ?_
  exact Yields.pure rfl

theorem emits_resume (p : Resume) :
    Yields (fun ms => ms = [.setRunStatus .running none]) (handleResume context p) := by
  unfold handleResume
  repeat refine Yields.bind fun _ _ => ?_
  exact Yields.pure rfl

theorem emits_proposeContractDefect (p : ProposeContractDefect) :
    Yields (fun ms => ms =
        [.setContractStatus context.version .defectProposed (some p),
          .setRunStatus .paused none])
      (handleProposeContractDefect context p) := by
  unfold handleProposeContractDefect
  repeat refine Yields.bind fun _ _ => ?_
  exact Yields.pure rfl

theorem emits_requestExpansion (p : RequestExpansion) :
    Yields (fun ms => ms = [.appendBudgetReservation p, .approveExpansionBatch])
      (handleRequestExpansion context p) := by
  unfold handleRequestExpansion
  repeat refine Yields.bind fun _ _ => ?_
  exact Yields.pure rfl

theorem emits_recordQualityReview (p : RecordQualityReview) :
    Yields (fun ms => ms = [.appendQualityReview p]) (handleRecordQualityReview context p) := by
  unfold handleRecordQualityReview
  repeat refine Yields.bind fun _ _ => ?_
  exact Yields.pure rfl

theorem emits_recordLiterature (p : RecordLiterature) :
    Yields (fun ms => ms = [.appendLiteratureRecord p]) (handleRecordLiterature context p) := by
  unfold handleRecordLiterature
  repeat refine Yields.bind fun _ _ => ?_
  exact Yields.pure rfl

theorem emits_registerBridge (p : RegisterBridge) :
    Yields (fun ms => ∃ forward reverse, ms = [.registerBridge p forward reverse])
      (handleRegisterBridge context p) := by
  unfold handleRegisterBridge
  repeat refine Yields.bind fun _ _ => ?_
  exact Yields.pure ⟨_, _, rfl⟩

theorem emits_recordResearchHint (p : RecordResearchHint) :
    Yields (fun ms => ms = [.recordResearchHint p]) (handleRecordResearchHint p) := by
  unfold handleRecordResearchHint
  repeat refine Yields.bind fun _ _ => ?_
  exact Yields.pure rfl

theorem emits_recordPaperReview (p : RecordPaperReview) :
    Yields (fun ms => ms = [.recordPaperReview p]) (handleRecordPaperReview context p) := by
  unfold handleRecordPaperReview
  repeat refine Yields.bind fun _ _ => ?_
  exact Yields.pure rfl

theorem emits_registerRoute (p : RegisterRoute) :
    Yields (fun ms => ms = [.registerRoute p]) (handleRegisterRoute context p) := by
  unfold handleRegisterRoute
  repeat refine Yields.bind fun _ _ => ?_
  exact Yields.pure rfl

theorem emits_registerAttempt (p : RegisterAttempt) :
    Yields (fun ms => ms = [.registerAttempt p]) (handleRegisterAttempt context p) := by
  unfold handleRegisterAttempt
  repeat refine Yields.bind fun _ _ => ?_
  exact Yields.pure rfl

theorem emits_acquireLease (p : AcquireLease) :
    Yields (fun ms => ms =
        [.expireStaleLeases p.attemptId, .acquireLease p,
          .setAttemptStatus (.attempt p.attemptId) .running])
      (handleAcquireLease context p) := by
  unfold handleAcquireLease
  repeat refine Yields.bind fun _ _ => ?_
  exact Yields.pure rfl

theorem emits_heartbeatLease (p : HeartbeatLease) :
    Yields (fun ms => ms = [.extendLease p.leaseId p.extendSeconds])
      (handleHeartbeatLease context p) := by
  unfold handleHeartbeatLease
  repeat refine Yields.bind fun _ _ => ?_
  exact Yields.pure rfl

theorem emits_releaseLease (p : ReleaseLease) :
    Yields (fun ms => ms =
        [.releaseLease p.leaseId,
          .setAttemptStatus (.leased p.leaseId) p.terminalAttemptStatus.toStatus])
      (handleReleaseLease context p) := by
  unfold handleReleaseLease
  repeat refine Yields.bind fun _ _ => ?_
  exact Yields.pure rfl

theorem emits_recordBudget (p : RecordBudget) :
    Yields (fun ms => ms =
        .appendBudgetEvent p ::
          if p.eventKind == .fuseTrip then [.blockRoute p.routeId, .setRunStatus .paused none]
          else [])
      (handleRecordBudget context p) := by
  unfold handleRecordBudget
  repeat refine Yields.bind fun _ _ => ?_
  exact Yields.pure rfl

theorem emits_bindExecution (p : BindExecution) :
    Yields (fun ms => ms = [.bindExecution p]) (handleBindExecution context p) := by
  unfold handleBindExecution
  repeat refine Yields.bind fun _ _ => ?_
  exact Yields.pure rfl

end Handlers

section Decision

variable {context : GuardContext} {command : Command} {mutations : List Mutation}
  {expectedRevision : ℕ}

/-- The mutations of an accepted command. -/
inductive Emission (context : GuardContext) : Command → List Mutation → Prop
  | freezeContract (p : FreezeContract) :
      Emission context (.freezeContract p) [.setContractStatus context.version .frozen none]
  | startRun (p : StartRun) : Emission context (.startRun p) [.setRunStatus .running none]
  | amendContract (p : AmendContract) (contract : ContractVersion)
      (found : context.snapshot.contract? = some contract) :
      Emission context (.amendContract p) (amendment context.version p.replacementContract
        ((contract.defectEvidence.map (·.affectedClaimIds)).getD []))
  | interrupt (p : Interrupt) : Emission context (.interrupt p)
      [.expireActiveLeases, .setRunStatus .paused none, .pauseActiveAttempts]
  | resume (p : Resume) : Emission context (.resume p) [.setRunStatus .running none]
  | finalize (p : Finalize) : Emission context (.finalize p)
      [.setRunStatus .closed (some p.outcome), .createDossier]
  | submitEvidence (p : SubmitEvidence) :
      Emission context (.submitEvidence p) [.appendEvidence p]
  | recordFailure (p : RecordFailure) : Emission context (.recordFailure p)
      [.appendFailure p, .invalidateDependencyClosure p.firstFailedObligationId]
  | requestExpansion (p : RequestExpansion) : Emission context (.requestExpansion p)
      [.appendBudgetReservation p, .approveExpansionBatch]
  | proposeContractDefect (p : ProposeContractDefect) :
      Emission context (.proposeContractDefect p)
        [.setContractStatus context.version .defectProposed (some p), .setRunStatus .paused none]
  | recordPeerReview (p : RecordPeerReview) (profile : JsonObject) :
      Emission context (.recordPeerReview p) [.appendPeerReview p profile]
  | recordQualityReview (p : RecordQualityReview) :
      Emission context (.recordQualityReview p) [.appendQualityReview p]
  | recordLiterature (p : RecordLiterature) :
      Emission context (.recordLiterature p) [.appendLiteratureRecord p]
  | registerBridge (p : RegisterBridge) (forward reverse : BridgeStatus) :
      Emission context (.registerBridge p) [.registerBridge p forward reverse]
  | recordLeanFeedback (p : RecordLeanFeedback) : Emission context (.recordLeanFeedback p)
      [.appendLeanFeedback p, .invalidateFromFirstFailure p.firstFailedObligationId]
  | registerClaim (p : RegisterClaim) (closure : ClosureState) :
      Emission context (.registerClaim p) [.registerClaim p closure]
  | registerClaimEdge (p : RegisterClaimEdge) : Emission context (.registerClaimEdge p)
      [.registerClaimEdge p, .invalidateParentClosure p.toClaimId]
  | revokeFact (p : RevokeFact) : Emission context (.revokeFact p) [.revokeFactClosure p.factId]
  | recordResearchHint (p : RecordResearchHint) :
      Emission context (.recordResearchHint p) [.recordResearchHint p]
  | recordPaperReview (p : RecordPaperReview) :
      Emission context (.recordPaperReview p) [.recordPaperReview p]
  | verifyAtomicClaim (p : VerifyAtomicClaim) (update : AxisUpdate) :
      Emission context (.verifyAtomicClaim p) [.recordAtomicVerification p update]
  | registerRoute (p : RegisterRoute) : Emission context (.registerRoute p) [.registerRoute p]
  | registerCompositionObligation (p : RegisterCompositionObligation) :
      Emission context (.registerCompositionObligation p)
        [.registerCompositionObligation p, .setClosure p.parentClaimId .isOpen]
  | submitClosureWitness (p : SubmitClosureWitness) (closure : ClosureState)
      (valid : validateClosureWitness context.platform context.snapshot p context.policy =
        .ok closure) :
      Emission context (.submitClosureWitness p) [.acceptClosureWitness p closure]
  | promoteClaim (p : PromoteClaim) (value : AxisValue) :
      Emission context (.promoteClaim p) [.setClaimAxis p value]
  | registerAttempt (p : RegisterAttempt) :
      Emission context (.registerAttempt p) [.registerAttempt p]
  | acquireLease (p : AcquireLease) : Emission context (.acquireLease p)
      [.expireStaleLeases p.attemptId, .acquireLease p,
        .setAttemptStatus (.attempt p.attemptId) .running]
  | heartbeatLease (p : HeartbeatLease) :
      Emission context (.heartbeatLease p) [.extendLease p.leaseId p.extendSeconds]
  | releaseLease (p : ReleaseLease) : Emission context (.releaseLease p)
      [.releaseLease p.leaseId,
        .setAttemptStatus (.leased p.leaseId) p.terminalAttemptStatus.toStatus]
  | recordBudget (p : RecordBudget) : Emission context (.recordBudget p)
      (.appendBudgetEvent p ::
        if p.eventKind == .fuseTrip then [.blockRoute p.routeId, .setRunStatus .paused none]
        else [])
  | bindExecution (p : BindExecution) :
      Emission context (.bindExecution p) [.bindExecution p]

/-- An accepted command emits the mutations of its kind. -/
theorem emission_of_handle (h : handle context command = .ok mutations) :
    Emission context command mutations := by
  cases command with
  | amendContract p =>
    obtain ⟨contract, hfound, rfl⟩ := emits_amendContract p mutations h
    exact .amendContract p contract hfound
  | recordPeerReview p =>
    obtain ⟨profile, rfl⟩ := emits_recordPeerReview p mutations h
    exact .recordPeerReview p profile
  | registerBridge p =>
    obtain ⟨forward, reverse, rfl⟩ := emits_registerBridge p mutations h
    exact .registerBridge p forward reverse
  | registerClaim p =>
    obtain ⟨closure, rfl⟩ := emits_registerClaim p mutations h
    exact .registerClaim p closure
  | verifyAtomicClaim p =>
    obtain ⟨update, rfl⟩ := emits_verifyAtomicClaim p mutations h
    exact .verifyAtomicClaim p update
  | submitClosureWitness p =>
    obtain ⟨closure, rfl, hvalid⟩ := emits_submitClosureWitness p mutations h
    exact .submitClosureWitness p closure hvalid
  | promoteClaim p =>
    obtain ⟨value, rfl⟩ := emits_promoteClaim p mutations h
    exact .promoteClaim p value
  | freezeContract p => exact emits_freezeContract p mutations h ▸ .freezeContract p
  | startRun p => exact emits_startRun p mutations h ▸ .startRun p
  | interrupt p => exact emits_interrupt p mutations h ▸ .interrupt p
  | resume p => exact emits_resume p mutations h ▸ .resume p
  | finalize p => exact emits_finalize p mutations h ▸ .finalize p
  | submitEvidence p => exact emits_submitEvidence p mutations h ▸ .submitEvidence p
  | recordFailure p => exact emits_recordFailure p mutations h ▸ .recordFailure p
  | requestExpansion p => exact emits_requestExpansion p mutations h ▸ .requestExpansion p
  | proposeContractDefect p =>
    exact emits_proposeContractDefect p mutations h ▸ .proposeContractDefect p
  | recordQualityReview p => exact emits_recordQualityReview p mutations h ▸ .recordQualityReview p
  | recordLiterature p => exact emits_recordLiterature p mutations h ▸ .recordLiterature p
  | recordLeanFeedback p => exact emits_recordLeanFeedback p mutations h ▸ .recordLeanFeedback p
  | registerClaimEdge p => exact emits_registerClaimEdge p mutations h ▸ .registerClaimEdge p
  | revokeFact p => exact emits_revokeFact p mutations h ▸ .revokeFact p
  | recordResearchHint p => exact emits_recordResearchHint p mutations h ▸ .recordResearchHint p
  | recordPaperReview p => exact emits_recordPaperReview p mutations h ▸ .recordPaperReview p
  | registerRoute p => exact emits_registerRoute p mutations h ▸ .registerRoute p
  | registerCompositionObligation p =>
    exact emits_registerCompositionObligation p mutations h ▸ .registerCompositionObligation p
  | registerAttempt p => exact emits_registerAttempt p mutations h ▸ .registerAttempt p
  | acquireLease p => exact emits_acquireLease p mutations h ▸ .acquireLease p
  | heartbeatLease p => exact emits_heartbeatLease p mutations h ▸ .heartbeatLease p
  | releaseLease p => exact emits_releaseLease p mutations h ▸ .releaseLease p
  | recordBudget p => exact emits_recordBudget p mutations h ▸ .recordBudget p
  | bindExecution p => exact emits_bindExecution p mutations h ▸ .bindExecution p

/-- Whether a mutation says nothing about the command: it may come from several commands, or
nothing needs to be known about the one it comes from. -/
def isPlain : Mutation → Bool
  | .setClaimAxis _ _ | .recordAtomicVerification _ _ | .appendPeerReview _ _
  | .acceptClosureWitness _ _ | .registerClaim _ _ | .registerClaimEdge _ | .appendEvidence _
  | .revokeFactClosure _ | .registerCompositionObligation _ | .setClosure _ _
  | .createContractVersion _ _ | .migrateContractClosure _ _ => false
  | .setRunStatus status _ => status != .closed
  | _ => true

theorem emitted_of_isPlain {m : Mutation} (h : isPlain m = true) :
    Emitted context command mutations m := by
  cases m with
  | setRunStatus status outcome =>
    intro hclosed
    simp [isPlain, hclosed] at h
  | _ => first | exact trivial | cases h

theorem emitted_of_all_isPlain (h : mutations.all isPlain = true) :
    ∀ m ∈ mutations, Emitted context command mutations m :=
  fun m hm => emitted_of_isPlain (List.all_eq_true.mp h m hm)

/-- What the mutations of an accepted command say about it. -/
theorem emitted_of_handle (h : handle context command = .ok mutations) :
    ∀ m ∈ mutations, Emitted context command mutations m := by
  cases emission_of_handle h with
  | amendContract p contract found => simp [amendment, Emitted]
  | submitEvidence | recordPeerReview | registerClaim | registerClaimEdge | revokeFact
  | verifyAtomicClaim | registerCompositionObligation | promoteClaim =>
    simpa [Emitted, handle] using h
  | submitClosureWitness p closure valid => simpa [Emitted] using valid
  | finalize p => simp [Emitted]
  | recordBudget p =>
    refine emitted_of_all_isPlain ?_
    split <;> rfl
  | _ => exact emitted_of_all_isPlain rfl

/-- An accepted command passed its checks of scope and was accepted by its handler. -/
theorem handle_of_decide (h : decide context command expectedRevision = .ok mutations) :
    scopeCheck context command = .ok () ∧ handle context command = .ok mutations := by
  unfold Guard.decide at h
  obtain ⟨-, -, h⟩ := bind_eq_ok.mp h
  obtain ⟨-, -, h⟩ := bind_eq_ok.mp h
  obtain ⟨-, -, h⟩ := bind_eq_ok.mp h
  obtain ⟨⟨⟩, hscope, hhandle⟩ := bind_eq_ok.mp h
  exact ⟨hscope, hhandle⟩

/-- The version that an accepted command names is the current one. -/
theorem version_of_scopeCheck (h : scopeCheck context command = .ok ()) {version : ℕ}
    (hversion : scopedVersion? command = some version) : version = context.version := by
  unfold scopeCheck at h
  simp only [bind_eq_ok, rejectIf_eq_ok, hversion, Option.any_some] at h
  obtain ⟨-, hcurrent, -⟩ := h
  simpa using hcurrent

end Decision

end Guard

end ResearchKernel
