import ResearchKernel.Kernel.Bodies

/-!
# The transitions of the machine

Every operation of the kernel does one of six things to the records: nothing, the
creation of a run, the projection of an accepted command, the recording of a receipt, or
the consumption of a receipt, of a Lean replay or of a checker. The invariants of the
machine are proved transition by transition.
-/

namespace ResearchKernel

open Foundation

/-! ## Operations that leave the records alone -/

section Frames

variable {P : Platform} {db db' : Db}

theorem sameRecords_ensureCapability (capability : VerifiedCapability) :
    Gives (SameRecords db) (db.ensureCapability capability) :=
  fun _ h => (sameBody_ensureCapability capability _ h).sameRecords

theorem sameRecords_recordHostCommand (row : CommandRow) (eventId : Id) (version : Option ℕ) :
    Gives (SameRecords db) (db.recordHostCommand row eventId version) :=
  fun _ h => (sameBody_recordHostCommand row eventId version _ h).sameRecords

theorem sameRecords_recordComponentUsage (capability : VerifiedCapability)
    (report : ComponentUsage) :
    Gives (SameRecords db) (db.recordComponentUsage P capability report) := by
  unfold Db.recordComponentUsage
  dsimp only
  split
  · exact Gives.bind fun _ _ => Gives.pure rfl
  · refine Gives.bind fun run _ => Gives.bind fun _ _ => Gives.bind fun events _ =>
      Gives.bind fun recorded hrecorded => Gives.pure ?_
    have hledger := sameRecords_recordHostCommand _ _ _ recorded hrecorded
    refine hledger.trans ?_
    split
    · rfl
    · exact sameRecords_updateRuns recorded fun _ => rfl

theorem sameRecords_claimHostExecution (request : HostClaimRequest) :
    Gives (SameRecords db) (db.claimHostExecution request) :=
  Gives.bind fun _ _ => Gives.bind fun _ _ => Gives.bind fun _ _ => Gives.bind fun _ _ =>
    Gives.bind fun _ _ => Gives.bind fun _ _ => Gives.bind fun _ _ => Gives.pure rfl

theorem sameRecords_recoverHostClaim (capability : VerifiedCapability) (now : Instant)
    (claim : HostClaim) : Gives (SameRecords db) (db.recoverHostClaim P capability now claim) := by
  refine Gives.bind fun run _ => Gives.bind fun recorded hrecorded => Gives.pure ?_
  exact (sameRecords_recordHostCommand _ _ _ recorded hrecorded).trans rfl

theorem sameRecords_recoverHostClaims (capability : VerifiedCapability) (now : Instant)
    (claims : List HostClaim) (db : Db) :
    Gives (SameRecords db) (Db.recoverHostClaims P capability now claims db) := by
  induction claims generalizing db with
  | nil => exact Gives.pure rfl
  | cons claim claims ih =>
    refine Gives.bind fun recovered hrecovered => ?_
    intro db' hrest
    exact (sameRecords_recoverHostClaim _ _ _ recovered hrecovered).trans (ih recovered db' hrest)

end Frames

/-! ## Operations that write the records -/

section Writes

variable {P : Platform} {db db' : Db}

/-- What a recorded execution does to the records: a receipt is added that nobody has
consumed. -/
theorem records_recordHostExecution (capability : VerifiedCapability) (record : HostRecord) :
    Gives (fun db' => ∃ blockReasons,
        (∀ old ∈ db.hostReceipts, old.receiptId ≠ (record.receipt blockReasons).receiptId) ∧
        db'.records =
          { db.records with hostReceipts := db.hostReceipts ++ [record.receipt blockReasons] })
      (db.recordHostExecution P capability record) := by
  refine Gives.bind fun rows _ => Gives.bind fun _ _ => Gives.bind fun _ _ =>
    Gives.bind fun receipts hreceipts => Gives.bind fun events _ =>
    Gives.bind fun recorded hrecorded => Gives.pure ?_
  obtain ⟨blockReasons, hfresh, heq⟩ : ∃ reasons,
      (∀ old ∈ db.hostReceipts, HostReceipt.clash (record.receipt reasons) old = false) ∧
        receipts = db.hostReceipts ++ [record.receipt reasons] :=
    ⟨_, (insertRow_eq_some.mp hreceipts).1, (insertRow_eq_some.mp hreceipts).2⟩
  have hledger : recorded.records = db.records :=
    sameRecords_recordHostCommand _ _ _ recorded hrecorded
  refine ⟨blockReasons, fun old hold hid => ?_, ?_⟩
  · have hclash := hfresh old hold
    simp [HostReceipt.clash, hid] at hclash
  · change { recorded.records with hostReceipts := receipts } = _
    rw [hledger, heq]

theorem run?_eq_some {runId : Id} {run : Run} (h : db.run? runId = some run) :
    run ∈ db.runs ∧ run.runId = runId := by
  unfold Db.run? at h
  exact ⟨List.mem_of_find?_eq_some h, by simpa using List.find?_some h⟩

/-- The rows of a receipt are rows of the records that belong together. -/
structure ReceiptRows.FoundIn (rows : ReceiptRows) (records : Records) (receiptId : Id) :
    Prop where
  receipt_mem : rows.receipt ∈ records.hostReceipts
  receiptId_eq : rows.receipt.receiptId = receiptId
  pointer_mem : rows.run.pointer ∈ records.pointers
  claim_mem : rows.claim ∈ records.claims
  claimId_eq : rows.claim.claimId = rows.receipt.claimId
  runId_eq : rows.run.runId = rows.receipt.runId

theorem foundIn_of_receiptRows? {rows : ReceiptRows} {receiptId : Id}
    (h : db.receiptRows? receiptId = some rows) : rows.FoundIn db.records receiptId := by
  obtain ⟨receipt, hreceipt, h⟩ := Option.bind_eq_some_iff.mp h
  obtain ⟨run, hrun, h⟩ := Option.bind_eq_some_iff.mp h
  obtain ⟨route, hroute, h⟩ := Option.bind_eq_some_iff.mp h
  obtain ⟨claim, hclaim, h⟩ := Option.bind_eq_some_iff.mp h
  obtain ⟨attempt, hattempt, h⟩ := Option.bind_eq_some_iff.mp h
  obtain rfl := Option.some.inj h
  have hreceiptId := List.find?_some hreceipt
  have hrunId := run?_eq_some hrun
  have hclaimId := List.find?_some hclaim
  exact
    { receipt_mem := List.mem_of_find?_eq_some hreceipt
      receiptId_eq := beq_iff_eq.mp hreceiptId
      pointer_mem := List.mem_map_of_mem hrunId.1
      claim_mem := List.mem_of_find?_eq_some hclaim
      claimId_eq := beq_iff_eq.mp hclaimId
      runId_eq := hrunId.2 }

/-- The claims after the consumption of a Lean receipt. -/
def kernelVerifiedClaims (rows : ReceiptRows) (claims : List Claim) : List Claim :=
  if rows.claim.machineVerdict == .kernelVerified then claims
  else updateWhere (·.claimId == rows.receipt.claimId)
    (fun claim => { claim with machineVerdict := .kernelVerified }) claims

/-- The receipts after the consumption of one by feedback. -/
def consumedByFeedback (receiptId feedbackId : Id) (now : Instant) (receipts : List HostReceipt) :
    List HostReceipt :=
  updateWhere (fun row => row.receiptId == receiptId && row.consumedByFeedbackId.isNone)
    (fun row => { row with
      consumedByFeedbackId := some feedbackId
      consumedAt := some now }) receipts

/-- The receipts after the consumption of one by a verification. -/
def consumedByVerification (receiptId verificationId : Id) (now : Instant)
    (receipts : List HostReceipt) : List HostReceipt :=
  updateWhere
    (fun row => row.receiptId == receiptId && row.consumedByFeedbackId.isNone &&
      row.consumedByVerificationId.isNone)
    (fun row => { row with
      consumedByVerificationId := some verificationId
      checkerConsumedAt := some now }) receipts

theorem records_setKernelVerified (rows : ReceiptRows) (capabilityId : Id) (use : ReceiptUse) :
    Gives (fun db' => db'.records =
        { db.records with claims := kernelVerifiedClaims rows db.claims })
      (db.setKernelVerified P rows capabilityId use) := by
  unfold Db.setKernelVerified kernelVerifiedClaims
  split
  · exact Gives.pure rfl
  · exact Gives.bind fun _ _ => Gives.pure rfl

/-- Evidence of a type that comes from a receipt. -/
def HostReceipt.Supplies (receipt : HostReceipt) (type : EvidenceType) (evidence : Evidence) :
    Prop :=
  ∃ evidenceId rootId artifactId commandId scope provenance,
    evidence =
      receiptEvidence receipt evidenceId rootId artifactId commandId type scope provenance

/-- What the consumption of a Lean receipt does to the records. -/
structure LeanConsumption (before after : Records) (use : ReceiptUse) (feedbackId : Id) where
  rows : ReceiptRows
  toolchain : String
  sourceId : Id
  outputId : Id
  evidence : Evidence
  found : rows.FoundIn before use.receiptId
  eligible : rows.leanEligible use toolchain = true
  supplies : rows.receipt.Supplies .leanReplay evidence
  feedback_fresh : ∀ feedback ∈ before.leanFeedback, feedback.leanFeedbackId ≠ feedbackId
  after_eq : after = { before with
    claims := kernelVerifiedClaims rows before.claims
    leanFeedback := before.leanFeedback ++
      [replayFeedback rows.receipt feedbackId sourceId outputId toolchain]
    evidence := before.evidence ++ [evidence]
    hostReceipts :=
      consumedByFeedback use.receiptId feedbackId use.ledger.now before.hostReceipts }

theorem leanConsumption_of_consume (capability : VerifiedCapability) (use : ReceiptUse)
    (feedbackId : Id) (toolchain : String) :
    Gives (fun db' => Nonempty (LeanConsumption db.records db'.records use feedbackId))
      (db.consumeHostLeanReceipt P capability use feedbackId toolchain) := by
  refine Gives.bind fun rows hrows => Gives.bind fun _ heligible =>
    Gives.bind fun source _ => Gives.bind fun output _ => Gives.bind fun feedback hfeedback =>
    Gives.bind fun roots _ => Gives.bind fun evidence hevidence =>
    Gives.bind fun recorded hrecorded => Gives.bind fun verified hverified => Gives.pure ?_
  obtain ⟨hfresh, rfl⟩ := insertRow_eq_some.mp hfeedback
  obtain ⟨item, hsupplies, rfl⟩ : ∃ item, rows.receipt.Supplies .leanReplay item ∧
      evidence = db.evidence ++ [item] :=
    ⟨_, ⟨_, _, _, _, _, _, rfl⟩, (insertRow_eq_some.mp hevidence).2⟩
  have hledger : recorded.records = db.records :=
    sameRecords_recordHostCommand _ _ _ recorded hrecorded
  have hclaims := records_setKernelVerified _ _ _ verified hverified
  have hreceipts : verified.hostReceipts = db.hostReceipts := by
    have := congrArg Records.hostReceipts hclaims
    exact this.trans (congrArg Records.hostReceipts hledger)
  refine ⟨{
    rows := rows
    toolchain := toolchain
    sourceId := source.artifactId
    outputId := output.artifactId
    evidence := item
    found := foundIn_of_receiptRows? hrows
    eligible := require_eq_some.mp heligible
    supplies := hsupplies
    feedback_fresh := ?_
    after_eq := ?_ }⟩
  · intro old hold heq
    have hclash := hfresh old hold
    simp [LeanFeedback.clash, replayFeedback, heq] at hclash
  · change { verified.records with
      leanFeedback := db.leanFeedback ++
        [replayFeedback rows.receipt feedbackId source.artifactId output.artifactId toolchain]
      evidence := db.evidence ++ [item]
      hostReceipts := consumedByFeedback use.receiptId feedbackId use.ledger.now
        verified.hostReceipts } = _
    rw [hclaims, hreceipts, hledger, show recorded.claims = db.claims from
      congrArg Records.claims hledger]
    rfl

/-- What the consumption of a checker receipt does to the records. -/
structure CheckerConsumption (before after : Records) (use : ReceiptUse) (verificationId : Id)
    where
  rows : ReceiptRows
  evidence : Evidence
  verification : AtomicVerification
  found : rows.FoundIn before use.receiptId
  eligible : rows.checkerEligible use = true
  supplies : rows.receipt.Supplies .checkerCertificate evidence
  verification_eq : ∃ evidenceId capabilityId, verification =
    checkerVerification rows.receipt verificationId evidenceId capabilityId use.ledger.now
  verification_fresh : ∀ old ∈ before.atomicVerifications, old.verificationId ≠ verificationId
  after_eq : after = { before with
    claims := updateWhere (·.claimId == rows.receipt.claimId)
      (fun claim => { claim with
        machineVerdict := .certificateVerified
        semanticVerdict := .tested }) before.claims
    evidence := before.evidence ++ [evidence]
    atomicVerifications := before.atomicVerifications ++ [verification]
    hostReceipts := consumedByVerification use.receiptId verificationId use.ledger.now
      before.hostReceipts }

theorem checkerConsumption_of_consume (capability : VerifiedCapability) (use : ReceiptUse)
    (verificationId : Id) (rootKind : RootKind) :
    Gives (fun db' => Nonempty (CheckerConsumption db.records db'.records use verificationId))
      (db.consumeHostCheckerReceipt P capability use verificationId rootKind) := by
  refine Gives.bind fun rows hrows => Gives.bind fun _ heligible =>
    Gives.bind fun output _ => Gives.bind fun roots _ => Gives.bind fun evidence hevidence =>
    Gives.bind fun verifications hverifications => Gives.bind fun recorded hrecorded =>
    Gives.pure ?_
  obtain ⟨item, hsupplies, rfl⟩ : ∃ item, rows.receipt.Supplies .checkerCertificate item ∧
      evidence = db.evidence ++ [item] :=
    ⟨_, ⟨_, _, _, _, _, _, rfl⟩, (insertRow_eq_some.mp hevidence).2⟩
  obtain ⟨hfresh, rfl⟩ := insertRow_eq_some.mp hverifications
  have hledger : recorded.records = db.records :=
    sameRecords_recordHostCommand _ _ _ recorded hrecorded
  refine ⟨{
    rows := rows
    evidence := item
    verification := checkerVerification rows.receipt verificationId
      (hostRecoveryUuid P use.receiptId "checker-evidence") capability.capabilityId use.ledger.now
    found := foundIn_of_receiptRows? hrows
    eligible := require_eq_some.mp heligible
    supplies := hsupplies
    verification_eq := ⟨_, _, rfl⟩
    verification_fresh := ?_
    after_eq := ?_ }⟩
  · intro old hold heq
    have hclash := hfresh old hold
    simp [AtomicVerification.clash, checkerVerification, heq] at hclash
  · change { recorded.records with
      claims := updateWhere (·.claimId == rows.receipt.claimId)
        (fun claim => { claim with
          machineVerdict := .certificateVerified
          semanticVerdict := .tested }) recorded.claims
      evidence := db.evidence ++ [item]
      atomicVerifications := db.atomicVerifications ++
        [checkerVerification rows.receipt verificationId
          (hostRecoveryUuid P use.receiptId "checker-evidence") capability.capabilityId
          use.ledger.now]
      hostReceipts := consumedByVerification use.receiptId verificationId use.ledger.now
        recorded.hostReceipts } = _
    rw [show recorded.claims = db.claims from congrArg Records.claims hledger,
      show recorded.hostReceipts = db.hostReceipts from congrArg Records.hostReceipts hledger,
      hledger]
    rfl

/-- The draft of the first contract version of a run. -/
def draftContract (new : NewRun) (contractArtifactId : Id) : ContractVersion where
  runId := new.runId
  version := 1
  status := .draft
  contractArtifactId := contractArtifactId
  contract := new.contract
  statementHash := new.contractFile.sha256
  defectType := none
  defectEvidence := none

/-- What the creation of a run does to the records. -/
structure RunCreation (before after : Records) where
  new : NewRun
  contractArtifactId : Id
  run_fresh : ∀ pointer ∈ before.pointers, pointer.runId ≠ new.runId
  contract_fresh : ∀ contract ∈ before.contractVersions,
    ¬ (contract.runId = new.runId ∧ contract.version = 1)
  after_eq : after = { before with
    contractVersions := before.contractVersions ++ [draftContract new contractArtifactId]
    pointers := before.pointers ++
      [{ runId := new.runId, currentContractVersion := 1, rootClaimId := none }] }

theorem runCreation_of_create (new : NewRun) :
    Gives (fun db' => SameRecords db db' ∨ Nonempty (RunCreation db.records db'.records))
      (db.createRunAtomic new) := by
  unfold Db.createRunAtomic
  split
  · exact Gives.bind fun _ _ => Gives.pure (Or.inl rfl)
  · refine Gives.bind fun stored hstored => Gives.bind fun runs hruns =>
      Gives.bind fun filled hfilled => Gives.bind fun contracts hcontracts =>
      Gives.pure (Or.inr ?_)
    have hfile : stored.1.records = db.records :=
      (sameBody_storeFile _ _ _ _ stored hstored).sameRecords
    obtain ⟨hrun, rfl⟩ := insertRow_eq_some.mp hruns
    have hinputs := (sameBody_storeCreateInputs _ _ _ filled hfilled).sameRecords
    have hcontractRows : filled.contractVersions = db.contractVersions :=
      hinputs.contractVersions.trans (congrArg Records.contractVersions hfile)
    obtain ⟨hcontract, rfl⟩ := insertRow_eq_some.mp hcontracts
    refine ⟨{
      new := new
      contractArtifactId := stored.2
      run_fresh := ?_
      contract_fresh := ?_
      after_eq := ?_ }⟩
    · intro pointer hpointer heq
      rw [← hfile] at hpointer
      obtain ⟨run, hmem, rfl⟩ := List.mem_map.mp hpointer
      have hclash := hrun run hmem
      have hid : run.runId = new.runId := heq
      simp [Run.clash, hid] at hclash
    · rintro contract hmem ⟨hid, hversion⟩
      have hclash := hcontract contract (hcontractRows ▸ hmem)
      simp [ContractVersion.clash, hid, hversion] at hclash
    · have hfilledRecords : filled.records = { db.records with
          pointers := db.records.pointers ++
            [{ runId := new.runId, currentContractVersion := 1, rootClaimId := none }] } := by
        rw [show filled.records = _ from hinputs, ← hfile]
        unfold Db.records
        simp only [List.map_append]
        rfl
      change { filled.records with
        contractVersions := filled.contractVersions ++ [draftContract new stored.2] } = _
      rw [hcontractRows, hfilledRecords]
      rfl

end Writes

/-! ## The transitions -/

/-- What a snapshot of a run takes from the database. -/
structure Snapshot.IsOf (snapshot : Snapshot) (db : Db) : Prop where
  pointer_mem : (⟨snapshot.runId, snapshot.currentContractVersion, snapshot.rootClaimId⟩ :
    RunPointer) ∈ db.records.pointers
  contracts_eq : snapshot.contracts = db.contractVersions.filter (·.runId == snapshot.runId)
  claims_eq : snapshot.claims = db.claims.filter (·.runId == snapshot.runId)
  peerReviews_eq : snapshot.peerReviews = db.peerReviews.filter (·.runId == snapshot.runId)
  edges_eq : snapshot.edges = db.claimEdges.filter (·.runId == snapshot.runId)
  obligations_eq : snapshot.obligations = db.obligations.filter (·.runId == snapshot.runId)
  closureWitnesses_eq :
    snapshot.closureWitnesses = db.closureWitnesses.filter (·.runId == snapshot.runId)
  evidence_eq : snapshot.evidence = db.evidenceViews snapshot.runId
  leanFeedback_eq : snapshot.leanFeedback = db.leanFeedback.filter (·.runId == snapshot.runId)
  hostReceipts_eq : snapshot.hostReceipts = db.hostReceipts.filter (·.runId == snapshot.runId)
  atomicVerifications_eq : snapshot.atomicVerifications =
    (db.atomicVerifications.filter (·.runId == snapshot.runId)).insertionSort
      AtomicVerification.earlier

theorem snapshot_isOf {db : Db} {runId : Id} {snapshot : Snapshot}
    (h : db.guardSnapshot runId = some snapshot) :
    snapshot.IsOf db ∧ snapshot.runId = runId := by
  obtain ⟨run, hrun, h⟩ := Option.bind_eq_some_iff.mp h
  obtain rfl := Option.some.inj h
  obtain ⟨hmem, hid⟩ := run?_eq_some hrun
  subst hid
  refine ⟨⟨?_, rfl, rfl, rfl, rfl, rfl, rfl, rfl, rfl, rfl, rfl⟩, rfl⟩
  exact List.mem_map.mpr ⟨run, hmem, rfl⟩

/-- An accepted command: decided on a snapshot of a database with the same records, and
projected on such a database. -/
structure Accepted (P : Platform) (policy : Policy) (db : Db) (op : ApplyOp) (db' : Db) where
  start : Db
  snapshot : Snapshot
  mutations : List Mutation
  mid : Db
  named : List (String × Id)
  generated : Option Id
  last : Db
  start_same : SameRecords db start
  isOf : snapshot.IsOf start
  runId_eq : snapshot.runId = op.request.runId
  decided : Guard.decide (op.guardContext P policy snapshot) op.request.command
    op.request.expectedRevision = .ok mutations
  mid_same : SameRecords db mid
  projected : Projection.apply (op.projectionContext P snapshot named generated) mutations mid =
    some last
  last_same : SameRecords last db'

/-- Whether a request is accepted. -/
def ApplyOp.Accepts (op : ApplyOp) (P : Platform) (policy : Policy) (db : Db) : Prop :=
  ∃ mutations db', (op.run P policy db).2 = .accepted mutations db'

/-- Whether a transaction ends with an accepted request. -/
def ApplyResult.isAccepted : ApplyResult → Bool
  | .accepted _ _ => true
  | _ => false

theorem ApplyOp.accepts_iff {op : ApplyOp} {P : Platform} {policy : Policy} {db : Db} :
    op.Accepts P policy db ↔ (op.run P policy db).2.isAccepted = true := by
  unfold ApplyOp.Accepts ApplyResult.isAccepted
  cases (op.run P policy db).2 <;> simp

instance (op : ApplyOp) (P : Platform) (policy : Policy) (db : Db) :
    Decidable (op.Accepts P policy db) :=
  decidable_of_iff _ ApplyOp.accepts_iff.symm

/-- A condition on the requests that are accepted; other operations satisfy it. -/
def OnAccepted (P : Platform) (policy : Policy) (cond : Db → ApplyOp → Prop) (db : Db) : Op → Prop
  | .apply op => op.Accepts P policy db → cond db op
  | _ => True

/-- What an operation does to the records. -/
inductive Transition (P : Platform) (policy : Policy) (db : Db) : Op → Db → Prop
  | idle (op : Op) (db' : Db) (same : SameRecords db db') : Transition P policy db op db'
  | created (op : CreateOp) (db' : Db) (creation : RunCreation db.records db'.records) :
      Transition P policy db (.create op) db'
  | applied (op : ApplyOp) (db' : Db) (accepts : op.Accepts P policy db)
      (accepted : Accepted P policy db op db') : Transition P policy db (.apply op) db'
  | recorded (capability : VerifiedCapability) (record : HostRecord) (db' : Db)
      (blockReasons : List String)
      (fresh : ∀ old ∈ db.hostReceipts, old.receiptId ≠ (record.receipt blockReasons).receiptId)
      (records_eq : db'.records =
        { db.records with hostReceipts := db.hostReceipts ++ [record.receipt blockReasons] }) :
      Transition P policy db (.recordHostExecution capability record) db'
  | leanConsumed (capability : VerifiedCapability) (use : ReceiptUse) (feedbackId : Id)
      (toolchain : String) (db' : Db)
      (consumption : LeanConsumption db.records db'.records use feedbackId) :
      Transition P policy db (.consumeHostLeanReceipt capability use feedbackId toolchain) db'
  | checkerConsumed (capability : VerifiedCapability) (use : ReceiptUse) (verificationId : Id)
      (rootKind : RootKind) (db' : Db)
      (consumption : CheckerConsumption db.records db'.records use verificationId) :
      Transition P policy db (.consumeHostCheckerReceipt capability use verificationId rootKind) db'

section Steps

variable {P : Platform} {policy : Policy} {db : Db}

/-- An operation of the host ends where its transaction ends, or with the same records. -/
theorem withCapability_cases (db : Db) (allowed : Bool) (capability : VerifiedCapability)
    (transaction : Db → Option Db) :
    SameRecords db (db.withCapability allowed capability transaction) ∨
      ∃ start, db.ensureCapability capability = some start ∧
        transaction start = some (db.withCapability allowed capability transaction) := by
  unfold Db.withCapability
  split
  · split
    · exact Or.inl rfl
    · rename_i start hstart
      have hsame := sameRecords_ensureCapability capability start hstart
      cases hend : transaction start with
      | none => exact Or.inl hsame
      | some last => exact Or.inr ⟨start, hstart, by simpa using hend⟩
  · exact Or.inl rfl

/-- An operation of the host whose transaction leaves the records alone does so. -/
theorem sameRecords_withCapability (allowed : Bool) (capability : VerifiedCapability)
    {transaction : Db → Option Db} (h : ∀ start, Gives (SameRecords start) (transaction start)) :
    SameRecords db (db.withCapability allowed capability transaction) := by
  rcases withCapability_cases db allowed capability transaction with hsame | ⟨start, hstart, hend⟩
  · exact hsame
  · exact (sameRecords_ensureCapability _ start hstart).trans (h start _ hend)

variable {op : ApplyOp} {snapshot : Snapshot} {mutations : List Mutation}

/-- The part of an accepted request before its projection leaves the records alone. -/
theorem accepted_of_accept {start db' : Db} (hstart : SameRecords db start)
    (hisOf : snapshot.IsOf start) (hrunId : snapshot.runId = op.request.runId)
    (hdecided : Guard.decide (op.guardContext P policy snapshot) op.request.command
      op.request.expectedRevision = .ok mutations)
    (h : op.accept P snapshot mutations start = some db') :
    Nonempty (Accepted P policy db op db') := by
  obtain ⟨⟨stored, named⟩, hstored, h⟩ := Option.bind_eq_some_iff.mp h
  obtain ⟨⟨written, generated⟩, hwritten, h⟩ := Option.bind_eq_some_iff.mp h
  obtain ⟨recorded, hrecorded, h⟩ := Option.bind_eq_some_iff.mp h
  obtain ⟨appended, happended, h⟩ := Option.bind_eq_some_iff.mp h
  obtain ⟨last, hlast, h⟩ := Option.bind_eq_some_iff.mp h
  have hmid : SameBody start appended :=
    (sameBody_storeApplyInputs _ _ _ _ _ _ hstored).trans
      ((sameBody_storeGenerated _ _ _ hwritten).trans
        ((sameBody_recordCommand _ _ hrecorded).trans (sameBody_appendEvent _ _ happended)))
  exact ⟨{
    start := start
    snapshot := snapshot
    mutations := mutations
    mid := appended
    named := named
    generated := generated
    last := last
    start_same := hstart
    isOf := hisOf
    runId_eq := hrunId
    decided := hdecided
    mid_same := hstart.trans hmid.sameRecords
    projected := hlast
    last_same := (sameBody_advanceRevision _ _ db' h).sameRecords }⟩

/-- The decision on an accepted request is that of the guard. -/
theorem guard_of_decide (h : op.decide P policy snapshot = .ok mutations) :
    Guard.decide (op.guardContext P policy snapshot) op.request.command
      op.request.expectedRevision = .ok mutations := by
  unfold ApplyOp.decide at h
  split at h
  · cases h
  · obtain ⟨decided, hdecided, h⟩ := bind_eq_ok.mp h
    obtain ⟨-, -, h⟩ := bind_eq_ok.mp h
    rw [hdecided, pure_eq_ok.mp h]

/-- How the end of a transaction is related to the database before the request. -/
def ApplyResult.Fits (P : Platform) (policy : Policy) (db : Db) (op : ApplyOp) :
    ApplyResult → Prop
  | .raised => True
  | .repeated => True
  | .rejected db' => SameRecords db db'
  | .accepted _ db' => Nonempty (Accepted P policy db op db')

/-- An accepted transaction is an accepted command; any other leaves the records alone. -/
theorem fits_transaction (op : ApplyOp) {start : Db} (hstart : SameRecords db start) :
    (op.transaction P policy start).Fits P policy db op := by
  unfold ApplyOp.transaction
  split
  · split <;> trivial
  · split
    · trivial
    · rename_i snapshot hsnapshot
      obtain ⟨hisOf, hrunId⟩ := snapshot_isOf hsnapshot
      split
      · trivial
      · split
        · trivial
        · rename_i recorded hrecorded
          exact hstart.trans (sameBody_recordCommand _ recorded hrecorded).sameRecords
      · rename_i mutations hmutations
        split
        · trivial
        · rename_i db' haccept
          exact accepted_of_accept hstart hisOf hrunId (guard_of_decide hmutations) haccept

/-- The end of a request fits the database before it, and its transaction begins with the
same records. -/
theorem fits_run (P : Platform) (policy : Policy) (db : Db) (op : ApplyOp) :
    SameRecords db (op.run P policy db).1 ∧ (op.run P policy db).2.Fits P policy db op := by
  unfold ApplyOp.run
  split
  · split
    · exact ⟨rfl, trivial⟩
    · rename_i start hensure
      have hstart := sameRecords_ensureCapability op.capability start hensure
      exact ⟨hstart, fits_transaction op hstart⟩
  · exact ⟨rfl, trivial⟩

theorem accepted_of_accepts (h : op.Accepts P policy db) :
    Nonempty (Accepted P policy db op (op.apply P policy db)) := by
  obtain ⟨mutations, db', hrun⟩ := h
  have hfits := (fits_run P policy db op).2
  unfold ApplyOp.apply
  cases hends : op.run P policy db with
  | mk start result =>
    rw [hends] at hrun hfits
    subst hrun
    exact hfits

/-- A request leaves the records alone, or is an accepted command. -/
theorem apply_cases (op : ApplyOp) :
    SameRecords db (op.apply P policy db) ∨ op.Accepts P policy db := by
  obtain ⟨hstart, hfits⟩ := fits_run P policy db op
  unfold ApplyOp.apply ApplyOp.Accepts
  cases hrun : op.run P policy db with
  | mk start result =>
    rw [hrun] at hstart hfits
    cases result with
    | raised | repeated => exact Or.inl hstart
    | rejected db' => exact Or.inl hfits
    | accepted mutations db' => exact Or.inr ⟨mutations, db', rfl⟩

/-- A request to create a run leaves the records alone, or creates one. -/
theorem create_cases (op : CreateOp) :
    SameRecords db (op.apply P db) ∨
      Nonempty (RunCreation db.records (op.apply P db).records) := by
  unfold CreateOp.apply
  split
  · split
    · split
      · exact Or.inl rfl
      · rename_i start hstart
        have hsame := sameRecords_ensureCapability op.capability start hstart
        cases hend : start.createRunAtomic (op.newRun P _) with
        | none => exact Or.inl hsame
        | some db' =>
          rcases runCreation_of_create _ db' hend with hidle | creation
          · exact Or.inl (hsame.trans hidle)
          · rw [show start.records = db.records from hsame] at creation
            exact Or.inr creation
    · exact Or.inl rfl
  · exact Or.inl rfl

/-- Every operation is one of the transitions. -/
theorem transition_step (op : Op) : Transition P policy db op (step P policy db op) := by
  cases op with
  | create op =>
    rcases create_cases op with hsame | ⟨⟨creation⟩⟩
    · exact .idle _ _ hsame
    · exact .created op _ creation
  | apply op =>
    rcases apply_cases op with hsame | haccepts
    · exact .idle _ _ hsame
    · obtain ⟨accepted⟩ := accepted_of_accepts haccepts
      exact .applied op _ haccepts accepted
  | importArtifact op =>
    refine .idle _ _ (sameRecords_withCapability _ _ fun start => ?_)
    refine Gives.bind fun _ _ => Gives.bind fun stored hstored => Gives.pure ?_
    exact (sameBody_storeFile _ _ _ _ stored hstored).sameRecords
  | recordComponentUsage capability report =>
    exact .idle _ _ (sameRecords_withCapability _ _ fun _ => sameRecords_recordComponentUsage _ _)
  | claimHostExecution capability request =>
    exact .idle _ _ (sameRecords_withCapability _ _ fun _ => sameRecords_claimHostExecution _)
  | heartbeatHostExecution claimToken serviceInstanceId now recoverAfter => exact .idle _ _ rfl
  | recoverIncompleteHostClaims capability now claimToken force =>
    exact .idle _ _ (sameRecords_withCapability _ _ fun start =>
      sameRecords_recoverHostClaims _ _ _ start)
  | recordHostExecution capability record =>
    rcases withCapability_cases db _ _ _ with hsame | ⟨start, hensured, hend⟩
    · exact .idle _ _ hsame
    · have hstart := sameRecords_ensureCapability _ start hensured
      obtain ⟨blockReasons, hfresh, heq⟩ := records_recordHostExecution _ _ _ hend
      rw [hstart.hostReceipts] at hfresh
      rw [show start.records = db.records from hstart, hstart.hostReceipts] at heq
      exact .recorded capability record _ blockReasons hfresh heq
  | consumeHostLeanReceipt capability use feedbackId toolchain =>
    rcases withCapability_cases db _ _ _ with hsame | ⟨start, hensured, hend⟩
    · exact .idle _ _ hsame
    · have hstart := sameRecords_ensureCapability _ start hensured
      obtain ⟨consumption⟩ := leanConsumption_of_consume _ _ _ _ _ hend
      rw [show start.records = db.records from hstart] at consumption
      exact .leanConsumed capability use feedbackId toolchain _ consumption
  | consumeHostCheckerReceipt capability use verificationId rootKind =>
    rcases withCapability_cases db _ _ _ with hsame | ⟨start, hensured, hend⟩
    · exact .idle _ _ hsame
    · have hstart := sameRecords_ensureCapability _ start hensured
      obtain ⟨consumption⟩ := checkerConsumption_of_consume _ _ _ _ _ hend
      rw [show start.records = db.records from hstart] at consumption
      exact .checkerConsumed capability use verificationId rootKind _ consumption

end Steps

end ResearchKernel
