import ResearchKernel.Canonical.Agreement
import ResearchKernel.Execution.Service
import ResearchKernel.Guard.Specs
import ResearchKernel.Kernel.Preservation

/-!
# Machine authority

A machine verdict is written by promotion, by atomic verification and by the consumption
of a receipt. In all of them a consumed host receipt about the exact statement of the
claim stands behind it, and no later operation takes it away.
-/

namespace ResearchKernel

open Foundation

/-- A receipt of an eligible execution that completed for the exact statement of a claim. -/
structure HostReceipt.CompletedFor (receipt : HostReceipt) (claim : Claim) : Prop where
  claimId : receipt.claimId = claim.claimId
  statementHash : receipt.statementHash = claim.statementHash
  eligible : receipt.authorityEligible = true
  completed : receipt.status = "COMPLETED"
  exitCode : receipt.exitCode = some 0

/-- A replay of the claim was consumed by feedback that reports its success. -/
def Records.ReplayBacked (records : Records) (claim : Claim) : Prop :=
  ∃ receipt ∈ records.hostReceipts, receipt.CompletedFor claim ∧
    receipt.adapterName = "lean-replay" ∧ ∃ feedback ∈ records.leanFeedback,
      receipt.consumedByFeedbackId = some feedback.leanFeedbackId ∧
        feedback.feedbackKind = .replayPass

/-- A check of the claim was consumed by an accepted verification. -/
def Records.CheckerBacked (records : Records) (claim : Claim) : Prop :=
  ∃ receipt ∈ records.hostReceipts, receipt.CompletedFor claim ∧
    ∃ verification ∈ records.atomicVerifications,
      receipt.consumedByVerificationId = some verification.verificationId ∧
        verification.backend = .deterministicChecker ∧ verification.verdict = .accepted

/-- What stands behind a machine verdict of a claim. -/
def Records.VerdictBacked (records : Records) (claim : Claim) : MachineVerdict → Prop
  | .kernelVerified => records.ReplayBacked claim
  | .certificateVerified => records.CheckerBacked claim
  | _ => True

/-- Every machine verdict has its receipt. -/
def Records.MachineAuthority (records : Records) : Prop :=
  ∀ claim ∈ records.claims, records.VerdictBacked claim claim.machineVerdict

/-! ## Later records keep what stands behind a verdict -/

/-- What is never changed of a receipt: all but its consumption, and a consumption once
it is recorded. -/
structure HostReceipt.Persists (a b : HostReceipt) : Prop where
  claimId : b.claimId = a.claimId
  statementHash : b.statementHash = a.statementHash
  eligible : b.authorityEligible = a.authorityEligible
  status : b.status = a.status
  exitCode : b.exitCode = a.exitCode
  adapterName : b.adapterName = a.adapterName
  feedback : ∀ id, a.consumedByFeedbackId = some id → b.consumedByFeedbackId = some id
  verification : ∀ id, a.consumedByVerificationId = some id → b.consumedByVerificationId = some id

theorem HostReceipt.Persists.refl (receipt : HostReceipt) : receipt.Persists receipt :=
  ⟨rfl, rfl, rfl, rfl, rfl, rfl, fun _ h => h, fun _ h => h⟩

theorem HostReceipt.Persists.trans {a b c : HostReceipt} (h : a.Persists b) (h' : b.Persists c) :
    a.Persists c where
  claimId := h'.claimId.trans h.claimId
  statementHash := h'.statementHash.trans h.statementHash
  eligible := h'.eligible.trans h.eligible
  status := h'.status.trans h.status
  exitCode := h'.exitCode.trans h.exitCode
  adapterName := h'.adapterName.trans h.adapterName
  feedback := fun id hid => h'.feedback id (h.feedback id hid)
  verification := fun id hid => h'.verification id (h.verification id hid)

theorem HostReceipt.CompletedFor.persists {receipt receipt' : HostReceipt} {claim claim' : Claim}
    (h : receipt.CompletedFor claim) (hreceipt : receipt.Persists receipt')
    (hclaim : claim.SameStatement claim') : receipt'.CompletedFor claim' where
  claimId := hreceipt.claimId.trans (h.claimId.trans hclaim.claimId.symm)
  statementHash := hreceipt.statementHash.trans (h.statementHash.trans hclaim.statementHash.symm)
  eligible := hreceipt.eligible.trans h.eligible
  completed := hreceipt.status.trans h.completed
  exitCode := hreceipt.exitCode.trans h.exitCode

/-- The receipts, the feedback and the verifications of the first records are in the second. -/
structure Records.Grows (records records' : Records) : Prop where
  receipts : Kept HostReceipt.Persists records.hostReceipts records'.hostReceipts
  feedback : Kept LeanFeedback.Same records.leanFeedback records'.leanFeedback
  verifications :
    Kept AtomicVerification.Same records.atomicVerifications records'.atomicVerifications

section Growth

variable {records records' records'' : Records} {claim claim' : Claim}

theorem Records.Grows.trans (h : records.Grows records') (h' : records'.Grows records'') :
    records.Grows records'' where
  receipts := h.receipts.trans (fun _ _ _ => HostReceipt.Persists.trans) h'.receipts
  feedback := h.feedback.trans (fun _ _ _ => LeanFeedback.Same.trans) h'.feedback
  verifications := h.verifications.trans (fun _ _ _ => AtomicVerification.Same.trans)
    h'.verifications

theorem Records.ReplayBacked.grows (h : records.ReplayBacked claim)
    (hgrows : records.Grows records') (hclaim : claim.SameStatement claim') :
    records'.ReplayBacked claim' := by
  obtain ⟨receipt, hreceipt, hcompleted, hadapter, feedback, hfeedback, hconsumed, hkind⟩ := h
  obtain ⟨receipt', hmem, hpersists⟩ := hgrows.receipts receipt hreceipt
  obtain ⟨feedback', hmem', hsame⟩ := hgrows.feedback feedback hfeedback
  refine ⟨receipt', hmem, hcompleted.persists hpersists hclaim,
    hpersists.adapterName.trans hadapter, feedback', hmem', ?_, ?_⟩
  · rw [hpersists.feedback _ hconsumed, hsame]
  · rw [hsame]
    exact hkind

theorem Records.CheckerBacked.grows (h : records.CheckerBacked claim)
    (hgrows : records.Grows records') (hclaim : claim.SameStatement claim') :
    records'.CheckerBacked claim' := by
  obtain ⟨receipt, hreceipt, hcompleted, verification, hverification, hconsumed, hbackend,
    hverdict⟩ := h
  obtain ⟨receipt', hmem, hpersists⟩ := hgrows.receipts receipt hreceipt
  obtain ⟨verification', hmem', hsame⟩ := hgrows.verifications verification hverification
  refine ⟨receipt', hmem, hcompleted.persists hpersists hclaim, verification', hmem', ?_, ?_, ?_⟩
  · rw [hpersists.verification _ hconsumed, hsame]
  · rw [hsame]
    exact hbackend
  · rw [hsame]
    exact hverdict

theorem Records.VerdictBacked.grows {verdict : MachineVerdict}
    (h : records.VerdictBacked claim verdict) (hgrows : records.Grows records')
    (hclaim : claim.SameStatement claim') : records'.VerdictBacked claim' verdict := by
  cases verdict with
  | kernelVerified => exact Records.ReplayBacked.grows h hgrows hclaim
  | certificateVerified => exact Records.CheckerBacked.grows h hgrows hclaim
  | _ => trivial

end Growth

/-! ## Trusted evidence -/

section Accepted

variable {P : Platform} {policy : Policy} {db db' : Db} {op : ApplyOp}

variable {claim : Claim} {version : ℕ}

theorem completedFor_of_grantsAuthority {receipt : HostReceipt} {runId : Id}
    (h : receipt.grantsAuthority runId claim version = true) :
    receipt.CompletedFor claim := by
  obtain ⟨heligible, -, -, hclaim, -, hhash, hstatus, hexit⟩ :=
    HostReceipt.grantsAuthority_iff.mp h
  exact ⟨hclaim, hhash, heligible, hstatus, hexit⟩

theorem replayBacked_of_trusted (accepted : Accepted P policy db op db') {item : EvidenceView}
    (h : machineEvidenceIsTrusted accepted.snapshot item claim version .leanReplay = true) :
    db.records.ReplayBacked claim := by
  obtain ⟨receipt, hreceipt, feedback, hfeedback, hadapter, hgrants, hconsumed, hkind⟩ :=
    receipt_of_trusted_lean h
  rw [accepted.hostReceipts_eq] at hreceipt
  rw [accepted.leanFeedback_eq] at hfeedback
  exact ⟨receipt, (List.mem_filter.mp hreceipt).1, completedFor_of_grantsAuthority hgrants,
    hadapter, feedback, (List.mem_filter.mp hfeedback).1, hconsumed, hkind⟩

theorem checkerBacked_of_trusted (accepted : Accepted P policy db op db') {item : EvidenceView}
    (h : machineEvidenceIsTrusted accepted.snapshot item claim version .checkerCertificate =
      true) : db.records.CheckerBacked claim := by
  obtain ⟨receipt, hreceipt, verification, hverification, hgrants, hconsumed, hbackend,
    hverdict⟩ := receipt_of_trusted_checker h
  rw [accepted.hostReceipts_eq] at hreceipt
  exact ⟨receipt, (List.mem_filter.mp hreceipt).1, completedFor_of_grantsAuthority hgrants,
    verification, accepted.mem_atomicVerifications hverification, hconsumed, hbackend, hverdict⟩

variable {m : Mutation} {before after : Db}

/-- Mutations neither lose receipts nor feedback nor verifications. -/
theorem grows_of_apply {ctx : ProjectionContext}
    (h : Projection.applyMutation ctx before m = some after) :
    before.records.Grows after.records where
  receipts := by
    have hreceipts : after.hostReceipts = before.hostReceipts := by
      have hframe := congrArg Records.hostReceipts (Projection.records_of_apply h)
      cases m <;> exact hframe
    change Kept _ before.hostReceipts after.hostReceipts
    rw [hreceipts]
    exact Kept.refl HostReceipt.Persists.refl _
  feedback := Projection.kept_leanFeedback h
  verifications := Projection.kept_atomicVerifications h

/-- How a mutation may write a machine verdict. -/
def WritesVerdict (m : Mutation) (id : Id) (verdict : MachineVerdict) : Prop :=
  (∃ p : PromoteClaim, m = .setClaimAxis p (.machine verdict) ∧ id = p.claimId) ∨
    ∃ (p : VerifyAtomicClaim) (update : AxisUpdate),
      m = .recordAtomicVerification p update ∧ id = p.claimId ∧ update.machine = some verdict

theorem machineVerdict_of_change {claim' : Claim} (h : Projection.ClaimChange m claim claim') :
    claim'.machineVerdict = claim.machineVerdict ∨
      WritesVerdict m claim.claimId claim'.machineVerdict := by
  cases h with
  | promoted p value claim hid =>
    cases value with
    | machine verdict => exact Or.inr (Or.inl ⟨p, rfl, hid⟩)
    | _ => exact Or.inl rfl
  | verified p update claim hid =>
    cases hmachine : update.machine with
    | none => exact Or.inl (by simp [Claim.update, hmachine])
    | some verdict =>
      refine Or.inr (Or.inr ⟨p, update, rfl, hid, ?_⟩)
      simp [Claim.update, hmachine]
  | _ => exact Or.inl rfl

/-- A verdict that an accepted command writes is backed by the records it was decided on. -/
theorem verdictBacked_of_writes (hunique : db.records.UniqueClaims)
    (accepted : Accepted P policy db op db') (happlies : accepted.Applies m before after)
    (hclaim : claim ∈ before.claims) {verdict : MachineVerdict}
    (hwrites : WritesVerdict m claim.claimId verdict) :
    before.records.VerdictBacked claim verdict := by
  rcases hwrites with ⟨p, rfl, hid⟩ | ⟨p, update, rfl, hid, hupdate⟩
  · obtain ⟨-, hsingle, hhandle⟩ := happlies.emitted
    have hsame := happlies.records_of_single hsingle
    rw [hsingle] at hhandle
    obtain ⟨promotion⟩ := Guard.promotion_of_handle hhandle
    obtain ⟨hmem, -, hfound⟩ := accepted.claim_of_lookup promotion.claim_eq
    have hold : claim ∈ db.records.claims := hsame ▸ hclaim
    have heq : claim = promotion.claim := hunique.eq hold hmem (hid.trans hfound.symm)
    obtain ⟨item, type, htrusted, hcases⟩ :=
      Guard.trusted_of_machinePromotion promotion.checked
    rw [hsame, heq]
    rcases hcases with ⟨rfl, rfl⟩ | ⟨rfl, rfl⟩
    · exact replayBacked_of_trusted accepted htrusted
    · exact checkerBacked_of_trusted accepted htrusted
  · obtain ⟨-, hsingle, hhandle⟩ := happlies.emitted
    have hsame := happlies.records_of_single hsingle
    rw [hsingle] at hhandle
    obtain ⟨target, htarget, hbacked⟩ := Guard.updateBacked_of_handle hhandle
    obtain ⟨hmem, -, hfound, -, -⟩ := accepted.claim_of_current htarget
    have hold : claim ∈ db.records.claims := hsame ▸ hclaim
    have heq : claim = target := hunique.eq hold hmem (hid.trans hfound.symm)
    rw [hsame, heq]
    rcases hbacked with rfl | ⟨rfl, item, htrusted⟩ | ⟨rfl, item, htrusted⟩ | ⟨rfl, -⟩
    · cases hupdate
    · obtain rfl := Option.some.inj hupdate
      exact replayBacked_of_trusted accepted htrusted
    · obtain rfl := Option.some.inj hupdate
      exact checkerBacked_of_trusted accepted htrusted
    · cases hupdate

/-- A mutation of an accepted command keeps machine authority. -/
theorem machineAuthority_of_applies (hunique : db.records.UniqueClaims)
    (accepted : Accepted P policy db op db') (happlies : accepted.Applies m before after)
    (h : before.records.MachineAuthority) :
    after.records.MachineAuthority := by
  intro claim' hclaim'
  have hgrows := grows_of_apply happlies.applied
  rcases Projection.exists_claim_of_apply happlies.applied hclaim' with
    ⟨claim, hclaim, hchange⟩ | hnew
  · rcases machineVerdict_of_change hchange with hkept | hwrites
    · rw [hkept]
      exact (h claim hclaim).grows hgrows hchange.sameStatement
    · have hbacked := verdictBacked_of_writes hunique accepted happlies hclaim hwrites
      exact hbacked.grows hgrows hchange.sameStatement
  · cases m with
    | registerClaim p closure =>
      obtain rfl := List.mem_singleton.mp hnew
      trivial
    | _ => cases hnew

end Accepted

/-! ## Consumption of receipts -/

section Consumption

variable {before after : Records}

theorem persists_consumedByFeedback (receiptId feedbackId : Id) (now : Instant)
    (receipts : List HostReceipt) :
    Kept HostReceipt.Persists receipts (consumedByFeedback receiptId feedbackId now receipts) := by
  refine Kept.updateWhere HostReceipt.Persists.refl (fun row htest => ?_) receipts
  simp only [Bool.and_eq_true, Option.isNone_iff_eq_none] at htest
  refine ⟨rfl, rfl, rfl, rfl, rfl, rfl, fun id hid => ?_, fun id hid => hid⟩
  rw [htest.2] at hid
  cases hid

theorem persists_consumedByVerification (receiptId verificationId : Id) (now : Instant)
    (receipts : List HostReceipt) :
    Kept HostReceipt.Persists receipts
      (consumedByVerification receiptId verificationId now receipts) := by
  refine Kept.updateWhere HostReceipt.Persists.refl (fun row htest => ?_) receipts
  simp only [Bool.and_eq_true, Option.isNone_iff_eq_none] at htest
  refine ⟨rfl, rfl, rfl, rfl, rfl, rfl, fun id hid => hid, fun id hid => ?_⟩
  rw [htest.2] at hid
  cases hid

variable {use : ReceiptUse} {feedbackId : Id}

theorem LeanConsumption.grows (consumption : LeanConsumption before after use feedbackId) :
    before.Grows after := by
  rw [consumption.after_eq]
  exact
    { receipts := persists_consumedByFeedback _ _ _ _
      feedback := Kept.append LeanFeedback.Same.refl _ _
      verifications := Kept.refl AtomicVerification.Same.refl _ }

variable {verificationId : Id}

theorem CheckerConsumption.grows
    (consumption : CheckerConsumption before after use verificationId) : before.Grows after := by
  rw [consumption.after_eq]
  exact
    { receipts := persists_consumedByVerification _ _ _ _
      feedback := Kept.refl LeanFeedback.Same.refl _
      verifications := Kept.append AtomicVerification.Same.refl _ _ }

theorem ReceiptRows.completedFor {rows : ReceiptRows} {receiptId : Id}
    (hfound : rows.FoundIn before receiptId) (heligible : rows.eligible = true) :
    rows.receipt.CompletedFor rows.claim := by
  simp only [ReceiptRows.eligible, Bool.and_eq_true, beq_iff_eq] at heligible
  obtain ⟨⟨⟨⟨⟨⟨⟨⟨heligible, hstatus⟩, hexit⟩, -⟩, -⟩, -⟩, -⟩, hhash⟩, -⟩ := heligible
  exact ⟨hfound.claimId_eq.symm, hhash, heligible, hstatus, hexit⟩

/-- The consumed replay backs its claim. -/
theorem LeanConsumption.backed (consumption : LeanConsumption before after use feedbackId)
    {claim : Claim} (hclaim : consumption.rows.claim.SameStatement claim) :
    after.ReplayBacked claim := by
  have heligible := consumption.eligible
  simp only [ReceiptRows.leanEligible, Bool.and_eq_true, beq_iff_eq, Option.isNone_iff_eq_none]
    at heligible
  obtain ⟨⟨⟨⟨⟨⟨⟨-, hunused⟩, hadapter⟩, heligible⟩, -⟩, -⟩, -⟩, -⟩ := heligible
  have hfound := consumption.found
  have hcompleted := ReceiptRows.completedFor hfound heligible
  have hreceipts := congrArg Records.hostReceipts consumption.after_eq
  have hfeedback := congrArg Records.leanFeedback consumption.after_eq
  refine ⟨{ consumption.rows.receipt with
      consumedByFeedbackId := some feedbackId
      consumedAt := some use.ledger.now }, ?_, ?_, hadapter,
    replayFeedback consumption.rows.receipt feedbackId consumption.sourceId consumption.outputId
      consumption.toolchain, ?_, rfl, rfl⟩
  · rw [hreceipts]
    refine mem_updateWhere.mpr ⟨consumption.rows.receipt, hfound.receipt_mem, ?_⟩
    rw [if_pos]
    simp [hfound.receiptId_eq, hunused]
  · exact ⟨hcompleted.claimId.trans hclaim.claimId.symm,
      hcompleted.statementHash.trans hclaim.statementHash.symm, hcompleted.eligible,
      hcompleted.completed, hcompleted.exitCode⟩
  · rw [hfeedback]
    exact List.mem_append_right _ (List.mem_singleton.mpr rfl)

/-- The consumed check backs its claim. -/
theorem CheckerConsumption.backed (consumption : CheckerConsumption before after use verificationId)
    {claim : Claim} (hclaim : consumption.rows.claim.SameStatement claim) :
    after.CheckerBacked claim := by
  have heligible := consumption.eligible
  simp only [ReceiptRows.checkerEligible, Bool.and_eq_true, Option.isNone_iff_eq_none]
    at heligible
  obtain ⟨⟨⟨-, hfeedback⟩, hverification⟩, heligible⟩ := heligible
  have hfound := consumption.found
  have hcompleted := ReceiptRows.completedFor hfound heligible
  obtain ⟨evidenceId, capabilityId, heq⟩ := consumption.verification_eq
  have hreceipts := congrArg Records.hostReceipts consumption.after_eq
  have hverifications := congrArg Records.atomicVerifications consumption.after_eq
  refine ⟨{ consumption.rows.receipt with
      consumedByVerificationId := some verificationId
      checkerConsumedAt := some use.ledger.now }, ?_, ?_, consumption.verification, ?_, ?_⟩
  · rw [hreceipts]
    refine mem_updateWhere.mpr ⟨consumption.rows.receipt, hfound.receipt_mem, ?_⟩
    rw [if_pos]
    simp [hfound.receiptId_eq, hfeedback, hverification]
  · exact ⟨hcompleted.claimId.trans hclaim.claimId.symm,
      hcompleted.statementHash.trans hclaim.statementHash.symm, hcompleted.eligible,
      hcompleted.completed, hcompleted.exitCode⟩
  · rw [hverifications]
    exact List.mem_append_right _ (List.mem_singleton.mpr rfl)
  · rw [heq]
    exact ⟨rfl, rfl, rfl⟩

theorem LeanConsumption.machineAuthority (consumption : LeanConsumption before after use feedbackId)
    (hunique : before.UniqueClaims) (h : before.MachineAuthority) : after.MachineAuthority := by
  intro claim' hclaim'
  obtain ⟨claim, hclaim, rfl | ⟨hid, rfl⟩⟩ := consumption.exists_claim hclaim'
  · exact (h claim' hclaim).grows consumption.grows (Claim.SameStatement.refl claim')
  · obtain rfl := hunique.eq hclaim consumption.found.claim_mem hid
    exact consumption.backed ⟨rfl, rfl, rfl, rfl⟩

theorem CheckerConsumption.machineAuthority
    (consumption : CheckerConsumption before after use verificationId)
    (hunique : before.UniqueClaims) (h : before.MachineAuthority) : after.MachineAuthority := by
  intro claim' hclaim'
  obtain ⟨claim, hclaim, rfl | ⟨hid, rfl⟩⟩ := consumption.exists_claim hclaim'
  · exact (h claim' hclaim).grows consumption.grows (Claim.SameStatement.refl claim')
  · obtain rfl := hunique.eq hclaim consumption.found.claim_mem hid
    exact consumption.backed ⟨rfl, rfl, rfl, rfl⟩

end Consumption

/-! ## Runs -/

theorem Records.Grows.refl (records : Records) : records.Grows records where
  receipts := Kept.refl HostReceipt.Persists.refl _
  feedback := Kept.refl LeanFeedback.Same.refl _
  verifications := Kept.refl AtomicVerification.Same.refl _

/-- No operation loses receipts, feedback or verifications. -/
theorem grows_step {P : Platform} {policy : Policy} (db : Db) (op : Op) :
    db.records.Grows (step P policy db op).records := by
  have hrefl := Records.Grows.refl
  generalize hnext : step P policy db op = db'
  have transition : Transition P policy db op db' := hnext ▸ transition_step op
  cases transition with
  | idle op db' same =>
    rw [show db'.records = db.records from same]
    exact hrefl _
  | created op db' creation =>
    have hgrows := hrefl db.records
    rw [creation.after_eq]
    exact ⟨hgrows.receipts, hgrows.feedback, hgrows.verifications⟩
  | recorded capability record db' reasons fresh heq =>
    rw [heq]
    exact
      { receipts := Kept.append HostReceipt.Persists.refl _ _
        feedback := Kept.refl LeanFeedback.Same.refl _
        verifications := Kept.refl AtomicVerification.Same.refl _ }
  | applied op db' accepts accepted =>
    refine accepted.preserves (I := fun records => db.records.Grows records) (hrefl _) ?_
    intro m before after happlies hbefore
    exact hbefore.trans (grows_of_apply happlies.applied)
  | leanConsumed capability use feedbackId toolchain db' consumption
  | checkerConsumed capability use verificationId rootKind db' consumption =>
    exact consumption.grows

/-- Along every run claims keep their statements, and no receipt, feedback or verification that a
machine verdict rests on is lost. -/
theorem records_kept_of_reached (P : Platform) (policy : Policy) (early late : List Op) :
    Kept Claim.SameStatement (reached P policy early).claims
        (reached P policy (early ++ late)).claims ∧
      (reached P policy early).records.Grows (reached P policy (early ++ late)).records := by
  refine runFrom_stays (I := fun db : Db =>
    Kept Claim.SameStatement (reached P policy early).claims db.records.claims ∧
      (reached P policy early).records.Grows db.records)
    ⟨Kept.refl Claim.SameStatement.refl _, .refl _⟩
    (fun ops op ih => ⟨?_, ih.2.trans (grows_step _ op)⟩) late
  refine ih.1.trans (fun _ _ _ => Claim.SameStatement.trans) ?_
  rcases @step_cases P policy (reached P policy ops) op with frame | ⟨op, rfl, -, ⟨accepted⟩⟩
  · exact frame.keeps_claims
  · refine accepted.preserves (I := fun records => Kept Claim.SameStatement _ records.claims)
      (Kept.refl Claim.SameStatement.refl _) fun m before after happlies h => ?_
    exact h.trans (fun _ _ _ => Claim.SameStatement.trans)
      (Projection.kept_claims_of_apply happlies.applied)

/-- Every operation keeps machine authority. -/
theorem machineAuthority_step {P : Platform} {policy : Policy} {db : Db} (op : Op)
    (hunique : db.records.UniqueClaims) (h : db.records.MachineAuthority) :
    (step P policy db op).records.MachineAuthority := by
  have hgrows := @grows_step P policy db op
  have hsame : (step P policy db op).records.claims = db.records.claims →
      (step P policy db op).records.MachineAuthority := by
    intro hclaims claim hclaim
    rw [hclaims] at hclaim
    exact (h claim hclaim).grows hgrows (Claim.SameStatement.refl claim)
  generalize hnext : step P policy db op = db' at hsame
  have transition : Transition P policy db op db' := hnext ▸ transition_step op
  cases transition with
  | idle op db' same => exact hsame same.claims
  | created op db' creation =>
    have hclaims := congrArg Records.claims creation.after_eq
    exact hsame hclaims
  | recorded capability record db' reasons fresh heq =>
    have hclaims := congrArg Records.claims heq
    exact hsame hclaims
  | applied op db' accepts accepted =>
    exact accepted.preserves h fun m before after happlies hbefore =>
      machineAuthority_of_applies hunique accepted happlies hbefore
  | leanConsumed capability use feedbackId toolchain db' consumption
  | checkerConsumed capability use verificationId rootKind db' consumption =>
    exact consumption.machineAuthority hunique h

/-- Machine authority cannot be forged: in every reached database, a claim that is verified
by the Lean kernel has a consumed replay receipt, and a claim with a verified certificate a
consumed checker receipt. -/
theorem machine_authority_of_reached (P : Platform) (policy : Policy) (ops : List Op) :
    ∀ claim ∈ (reached P policy ops).claims,
      (claim.machineVerdict = .kernelVerified →
        (reached P policy ops).records.ReplayBacked claim) ∧
      (claim.machineVerdict = .certificateVerified →
        (reached P policy ops).records.CheckerBacked claim) := by
  have hauthority : (reached P policy ops).records.UniqueClaims ∧
      (reached P policy ops).records.MachineAuthority := by
    refine reached_invariant (fun records => records.UniqueClaims ∧ records.MachineAuthority)
      ⟨List.nodup_nil, fun claim hclaim => by cases hclaim⟩ (fun db op h => ?_) ops
    exact ⟨uniqueClaims_step op h.1, machineAuthority_step op h.1 h.2⟩
  intro claim hclaim
  have hbacked := hauthority.2 claim hclaim
  constructor
  · intro hverdict
    rw [hverdict] at hbacked
    exact hbacked
  · intro hverdict
    rw [hverdict] at hbacked
    exact hbacked

/-! ## A run of the machine -/

namespace Sample

/-- A contract with the fields that the wire schema requires. -/
def contract : JsonObject :=
  [("allowed_dependencies", .arr []), ("amendment_policy", .obj []), ("boundary_rules", .obj []),
    ("budget_policy", .obj []), ("definitions", .arr []), ("exact_negation", .str "N"),
    ("forbidden_information", .arr []), ("literature_cutoff_date", .str "2026-01-01"),
    ("literature_scope", .obj []), ("non_claims", .arr []), ("objects", .arr [.obj []]),
    ("quantifiers", .arr [.obj []]), ("randomness_rules", .obj []),
    ("semantic_review_policy", .obj []), ("source_refs", .arr []),
    ("stable_project_id", .str "p"), ("statement", .str "S"), ("stop_rules", .arr [.obj []]),
    ("success_certificate_types", .arr [.str "c"]), ("tie_rules", .obj [])]

def contractHash : Digest := "421dbfcf7f0c8bddb4f29f2d3e0ad2e79a27c797fbff2683cbc12be4e369ef89"

/-- The digest of the statement of the lemma. -/
def lemmaHash : Digest := "501de105c6d227b714781bc7bdbb0e9f490ff287c05e66e1ca84a34cb92cf8a2"

/-- The SHA-256 digests of the texts that the runs below hash, by the length of the text. -/
def digests : List (ℕ × Digest) :=
  [(437, contractHash), (13, lemmaHash),
    (48, "429e0000ec7edc7dc2f127b93e274eeb105a56921511feb83418c759634eb019"),
    (479, "45151d200246c22c5fe16ad601633cffa9be34268a470a6fa834a4c8735ae906"),
    (492, "9292920ba967d1e87c0b1836d5a0d2cbdc907352be7d3fede5a1c409887c6250"),
    (659, "c39736402aa9dea701dc0918f40028dc14b4e838961cc90667d9c4d668f3ba4d"),
    (672, "a5370d4c7305a2c600b21808b67d821c583084529f5b00055a8af5a245350536"),
    (449, "dec01b4dd15db9260a39d69432ad18f51b3b6e89aa9fe5343efd2f16298663a7"),
    (53, "5b6f95fddd70d8e1f4d66f37dcff2748b7af03c44e093ed5ed5508a72207f6b8"),
    (51, "224d66150b261c3078e005f3d1f1f00a6d7910d146cfd58c6440d733c47734ea"),
    (457, "ba4a2995332544db7eb228e7e07d3a91def9ff1bc668217697f43471db3bcde1"),
    (453, "2a1b27a65ca3c9ff01c5cf0e09b2dbb0533567f2ec43f65a540a31448d406cb1")]

/-- The identifiers that are derived from the one receipt of the runs below. -/
def derivedIds : List (String × Id) :=
  [("rk:host-recovery:80000000-0000-4000-8000-000000000000:lean-evidence-root",
      "663caa45-f281-5636-a3bf-113e389f1bdb"),
    ("rk:host-recovery:80000000-0000-4000-8000-000000000000:lean-evidence",
      "c0dc3d31-0f7b-516e-9dcd-30f8b47fdafa"),
    ("rk:host-recovery:80000000-0000-4000-8000-000000000000:lean-verdict",
      "203da8d6-22ab-58dc-8338-8eb703e61116"),
    ("rk:host-recovery:80000000-0000-4000-8000-000000000000:checker-evidence-root",
      "e5c41149-6ed4-5b13-a6c0-f87d867912cc"),
    ("rk:host-recovery:80000000-0000-4000-8000-000000000000:checker-evidence",
      "dbbc663c-e406-5480-8f15-1df7bdaf0440")]

/-- The platform, as far as the runs below use it. -/
def platform : Platform where
  nfc := id
  sha256 text := (digests.lookup text.length).getD ""
  hmacSha256 _ _ := ""
  uuid5 name := (derivedIds.lookup name).getD ""
  repr _ := ""
  parseInt _ := none

/-- A policy under which the host replays Lean proofs. -/
def policy : Policy where
  adapterProfiles :=
    [("lean-replay", [("1", { environmentProfileIds := ["lean"], sourceCommits := [] })])]
  budgetControllerCapabilityIds := []

/-- A capability for everything, in every run. -/
def capability : VerifiedCapability where
  capabilityId := "c0000000-0000-4000-8000-000000000000"
  subjectId := "main"
  issuer := "host"
  allowedActions := ["*"]
  runScope := ["*"]
  issuedAt := some 0
  expiresAt := some 1000000000

def run : Id := "10000000-0000-4000-8000-000000000000"

def contractArtifact : Id := "20000000-0000-4000-8000-000000000000"

def lemmaArtifact : Id := "30000000-0000-4000-8000-000000000000"

/-- The root of the run. -/
def root : Id := "40000000-0000-4000-8000-000000000000"

def lemmaId : Id := "50000000-0000-4000-8000-000000000000"

/-- The digest under which the requests below are recorded. -/
def requestDigest : Digest := "ad00000000000000000000000000000000000000000000000000000000000000"

/-- The creation of a run, together with a file that states the lemma. -/
def create : Op := .create
  { request :=
      { requestId := "a0000000-0000-4000-8000-000000000000"
        contract := contract
        artifactInputs :=
          [{ name := "lemma"
             sha256 := lemmaHash
             byteCount := 13
             mediaType := "application/json" }] }
    capability := capability
    digest := requestDigest
    now := 0
    inspection := .passed
    runId := run
    contractId := contractArtifact
    stagedIds := [lemmaArtifact] }

/-- The identifier with the given first two characters. -/
def idOf (kind : Char) (n : ℕ) : Id :=
  String.ofList [kind, hexDigit n] ++ "000000-0000-4000-8000-000000000000"

/-- A request at the given revision of the run, with the identifiers of the rows it makes. -/
def request (revision : ℕ) (command : Command) (newIds : List Id)
    (inputs : List ArtifactInput := []) : ApplyOp where
  request :=
    { requestId := idOf 'a' (revision + 1)
      runId := run
      expectedRevision := revision
      command := command
      artifactInputs := inputs }
  capability := capability
  digest := requestDigest
  now := 0
  inspection := .passed
  commandId := idOf 'b' revision
  eventId := idOf 'e' revision
  stagedIds := inputs.zipIdx.map fun input => idOf 'd' (revision + input.2)
  generatedId := idOf 'f' revision
  dossier := none
  newId n := newIds.getD n ""

/-- The root states the contract. -/
def registerRoot : Command := .registerClaim
  { contractVersion := 1
    claimKind := .root
    stableLabel := "root"
    statementArtifactId := contractArtifact
    statementHash := contractHash
    normalizedStatement := contract }

/-- The contract is frozen. -/
def freeze : Command := .freezeContract
  { contractVersion := 1
    completenessCheckArtifactId := contractArtifact }

/-- A run with its root and a frozen contract. -/
def frozen : List Op :=
  [create, .apply (request 0 registerRoot [root]), .apply (request 1 freeze [])]

/-- A lemma with a statement of its own. -/
def registerLemma : Command := .registerClaim
  { contractVersion := 1
    claimKind := .lemmaClaim
    stableLabel := "lemma"
    statementArtifactId := lemmaArtifact
    statementHash := lemmaHash
    normalizedStatement := [("lemma", .str "A")] }

/-- A check that a reviewer signs. -/
def signedCheck : Json := .obj
  [("passed", .bool true), ("status", .str "HUMAN_ATTESTED"), ("conclusion", .str "correct"),
    ("evidence_refs", .arr [.str "proof"])]

/-- An accepting review of the exact statement of a claim, which names an author and may be
about a selected subgraph. -/
def review (claimId : Id) (statementHash : Digest) (author : String)
    (subgraphDigest : Option Digest := none) : RecordPeerReview where
  claimId := claimId
  contractVersion := 1
  statementHash := statementHash
  selectedSubgraphDigest := subgraphDigest
  reviewArtifactId := contractArtifact
  verdict := .accept
  checklist :=
    [("proof_checked", signedCheck), ("scope_checked", signedCheck), ("blind_review", .bool true),
      ("semantic_attestation", .bool true),
      ("six_parts", .obj (partNames.map fun name => (name, signedCheck)))]
  sourceGraph := [("author_subject_ids", .arr [.str author])]
  verifierAttestation :=
    [("artifact_sha256", .str contractHash),
      ("verifier_identity_id", .str capability.capabilityId),
      ("verifier_subject_id", .str capability.subjectId), ("promotion_eligible", .bool true),
      ("authority", .str "HUMAN_ATTESTED"), ("claim_id", .str claimId),
      ("contract_version", .int 1), ("statement_hash", .str statementHash),
      ("verdict", .str "ACCEPT"),
      ("selected_subgraph_digest", Json.ofText? subgraphDigest)]

/-- The review of the sample run. -/
def reviewId : Id := "90000000-0000-4000-8000-000000000000"

/-- A logical edge from the lemma to the root, by definition. -/
def registerEdge (direction : Direction) : Command := .registerClaimEdge
  { contractVersion := 1
    fromClaimId := lemmaId
    toClaimId := root
    edgeKind := .implies
    direction := direction
    justificationKind := .definitional
    justificationRef := contractArtifact }

def edge : Id := "51000000-0000-4000-8000-000000000000"

/-- A run with an edge between the lemma and the root. -/
def connected (direction : Direction) : List Op :=
  frozen ++
    [.apply (request 2 registerLemma [lemmaId]),
      .apply (request 3 (registerEdge direction) [edge])]

def startRun : Command := .startRun
  { contractVersion := 1
    literaturePlanArtifactId := contractArtifact
    budgetPolicy := [("global", .obj [("CPU_SECOND", .int 1)])] }

def registerRoute : Command := .registerRoute
  { contractVersion := 1
    targetClaimId := root
    label := "route"
    representation := "lean"
    toolFamily := "lean"
    approachRoot := [("label", .str "approach")]
    budgetPolicy := [("attempts", .int 1)] }

def route : Id := "60000000-0000-4000-8000-000000000000"

def attempt : Id := "70000000-0000-4000-8000-000000000000"

/-- The binding of the attempt. -/
def binding : Id := "71000000-0000-4000-8000-000000000000"

/-- The nonce of the binding. -/
def nonce : Id := "72000000-0000-4000-8000-000000000000"

/-- The lease of the attempt. -/
def lease : Id := "74000000-0000-4000-8000-000000000000"

/-- The receipt of the execution. -/
def receipt : Id := "80000000-0000-4000-8000-000000000000"

def registerAttempt : Command := .registerAttempt
  { routeId := route
    ordinal := 1
    isolationEpoch := 0
    workRelpath := "work"
    allowedWriteSet := ["out"]
    inputSnapshotDigest := contractHash }

/-- The attempt is bound to the replay of Lean proofs. -/
def bindExecution : Command := .bindExecution
  { routeId := route
    attemptId := attempt
    adapterName := "lean-replay"
    adapterVersion := "1"
    sourceCommit := none
    environmentProfileId := "lean"
    invocationArtifactId := contractArtifact
    externalIds := [] }

/-- The attempt runs under a lease. -/
def acquireLease : Command := .acquireLease
  { attemptId := attempt
    holderId := "worker"
    ttlSeconds := 60 }

/-- The scope in which the host executes the attempt. -/
def scope : HostScope where
  runId := run
  routeId := route
  attemptId := attempt
  bindingId := binding
  claimId := root
  contractVersion := 1
  statementHash := contractHash
  environmentProfileId := "lean"
  adapterName := "lean-replay"
  adapterVersion := "1"
  sourceCommit := none
  invocationNonce := nonce
  inputSnapshotDigest := contractHash
  invocationArtifactSha256 := contractHash

def claimExecution : Op := .claimHostExecution capability
  { scope := scope
    claimToken := "73000000-0000-4000-8000-000000000000"
    requestHash := requestDigest
    component := "replay"
    serviceInstanceId := "service"
    now := 0
    recoverAfter := 1000 }

/-- The host records that the replay has passed. -/
def recordExecution (revision : ℕ) : Op := .recordHostExecution capability
  { scope := scope
    expectedScope := scope
    result :=
      { receiptId := receipt
        receiptNonce := nonce
        serviceInstanceId := "service"
        toolchain := some "4"
        binarySha256 := none
        requestHash := requestDigest
        resultHash := requestDigest
        sourceSha256 := some contractHash
        outputSha256 := some lemmaHash
        dependencyClosureDigest := some requestDigest
        status := "COMPLETED"
        exitCode := some 0
        wallTimeMs := 0
        providerUsage := []
        payloadText := []
        signature := "signature" }
    ledger :=
      { commandId := idOf 'b' revision
        eventId := idOf 'e' revision
        now := 0 }
    budgetLimits := [("WALL_SECOND", 1)]
    claimToken := "73000000-0000-4000-8000-000000000000"
    authorityBlockReasons := [] }

/-- The receipt is consumed by feedback. -/
def consumeReceipt (revision : ℕ) : Op := .consumeHostLeanReceipt capability
  { receiptId := receipt
    ledger :=
      { commandId := idOf 'b' revision
        eventId := idOf 'e' revision
        now := 0 }
    expectedSignature := "signature"
    expectedPayload := [] } "81000000-0000-4000-8000-000000000000" "4"

/-- A run in which the host has executed the replay of a proof of the root. -/
def executed : List Op :=
  frozen ++
    [.apply (request 2 startRun []),
      .apply (request 3 registerRoute ["61000000-0000-4000-8000-000000000000", route]),
      .apply (request 4 registerAttempt [attempt]),
      .apply (request 5 bindExecution [binding, nonce]),
      .apply (request 6 acquireLease [lease]), claimExecution, recordExecution 7]

/-- The root is verified by the replay of its proof. -/
def verified : List Op := executed ++ [consumeReceipt 8]

/-- An independent review of the root. -/
def reviewed : List Op :=
  frozen ++ [.apply (request 2 (.recordPeerReview (review root contractHash "author")) [reviewId])]

def promotedByOther : List Op :=
  frozen ++
    [.apply (request 2 registerLemma [lemmaId]),
      .apply (request 3 (.recordPeerReview (review lemmaId lemmaHash "author")) [reviewId]),
      .apply (request 4 (.promoteClaim
        { claimId := root
          targetAxis := .peer
          targetValue := .accepted
          evidenceIds := [reviewId]
          closureWitnessId := none }) ["91000000-0000-4000-8000-000000000000"])]

/-- A review of the root by its author. -/
def selfReviewed : List Op :=
  frozen ++ [.apply (request 2 (.recordPeerReview (review root contractHash "main")) [reviewId])]

/-- A search that has found the exact statement of the root. -/
def recordLiterature : Command := .recordLiterature
  { contractVersion := 1
    claimId := some root
    status := .literatureHit
    relation := some .equivalent
    scope := [("assumptions_exact", .bool true)]
    queryFamilies := ["exact", "equivalent", "stronger", "weaker", "counterexample"].map
      fun family => [("family", .str family)]
    queryLogArtifactId := contractArtifact
    referenceArtifactId := some contractArtifact
    assessmentArtifactId := contractArtifact }

def literatureRecord : Id := "92000000-0000-4000-8000-000000000000"

/-- The root is promoted to previously known. -/
def promoteKnown : Command := .promoteClaim
  { claimId := root
    targetAxis := .route
    targetValue := .previouslyKnown
    evidenceIds := [literatureRecord]
    closureWitnessId := none }

/-- A run whose root is previously known. -/
def known : List Op :=
  frozen ++
    [.apply (request 2 recordLiterature [literatureRecord]),
      .apply (request 3 promoteKnown ["93000000-0000-4000-8000-000000000000"])]

/-- The root is revoked. -/
def revokeRoot : Command := .revokeFact
  { contractVersion := 1
    factId := root
    reason := "withdrawn" }

/-- A run whose root is previously known and then revoked. -/
def knownRevoked : List Op := known ++ [.apply (request 4 revokeRoot [])]

/-- The run is finalized with its root as the terminal claim. -/
def finalize (outcome : Outcome) : Finalize where
  outcome := outcome
  terminalClaimIds := [root]
  openObligationIds := []
  dossierSpec := []

/-- The request to finalize the run, with the dossier that is built for it. -/
def finalizeRequest (revision : ℕ) (outcome : Outcome) : ApplyOp :=
  { request revision (.finalize (finalize outcome)) [] with
    dossier := some
      { artifactId := "94000000-0000-4000-8000-000000000000"
        sha256 := "2d711642b726b04401627ca9fbac32f5c8530fb1903cc4db02258717921a4881"
        byteCount := 1
        mediaType := "application/zip" } }

/-- A counterexample that only its submitter vouches for. -/
def submitCounterexample : Command := .submitEvidence
  { claimId := root
    contractVersion := 1
    statementHash := contractHash
    evidenceType := .counterexample
    evidenceStrength := .hardMachine
    artifactInputNames := ["counterexample"]
    scope := [("claim_id", .str root), ("contract_version", .int 1),
      ("statement_hash", .str contractHash)]
    provenance := [("actor", .str "worker"), ("checker_replay_passed", .bool true),
      ("exact_negation_checked", .bool true)]
    evidenceRoot :=
      { rootKind := .checker
        originArtifactInputName := none
        originArtifactId := none
        verifierProfileId := none } }

/-- The request that submits the counterexample, with its file. -/
def submission (revision : ℕ) : ApplyOp :=
  request revision submitCounterexample
    ["95000000-0000-4000-8000-000000000000", "96000000-0000-4000-8000-000000000000"]
    [{ name := "counterexample"
       sha256 := "a1fce4363854ff888cff4b8e7875d600c2682390412a8cf79b37d0b11148b0fa"
       byteCount := 1
       mediaType := "text/plain" }]

/-- A run with a submitted counterexample. -/
def submitted : List Op := frozen ++ [.apply (submission 2)]

def checkerUse : ReceiptUse where
  receiptId := receipt
  ledger :=
    { commandId := idOf 'b' 8
      eventId := idOf 'e' 8
      now := 0 }
  expectedSignature := "signature"
  expectedPayload := []

/-- The verification that consumes the receipt. -/
def verification : Id := "82000000-0000-4000-8000-000000000000"

/-- A checker certificate of the root is consumed before the counterexample is submitted. -/
def checked : List Op :=
  executed ++
    [.consumeHostCheckerReceipt capability checkerUse verification .checker,
      .apply (request 9 (.releaseLease
        { leaseId := lease
          holderId := "worker"
          terminalAttemptStatus := .succeeded }) []),
      .apply (submission 10)]

def selectedLemma : Json := .obj
  [("claim_id", .str lemmaId), ("contract_version", .int 1), ("statement_hash", .str lemmaHash)]

/-- A subgraph with the lemma alone and the given obligations. -/
def subgraph (obligations : List Json) : JsonObject :=
  [("bridges", .arr []), ("claims", .arr [selectedLemma]), ("contract_version", .int 1),
    ("cuts", .arr []), ("edges", .arr []), ("obligations", .arr obligations),
    ("parent", selectedLemma), ("run_id", .str run), ("schema", .str "rk.cgraph.v1")]

def obligation : Id := "52000000-0000-4000-8000-000000000000"

/-- The obligation as selected, where its first part is said to be attested. -/
def selectedObligation : Json := .obj
  [("closure_theorem_ref", .str "theorem"), ("composition_rule", .str "HUMAN_ARGUMENT"),
    ("coverage", .obj [("ref", .str "argument"), ("status", .str "HUMAN_ATTESTED")]),
    ("obligation_id", .str obligation)]

/-- An obligation of the lemma, whose first part is open. -/
def registerObligation : Command := .registerCompositionObligation
  { contractVersion := 1
    parentClaimId := lemmaId
    childClaimIds := [root]
    parts :=
      { coverage := ⟨"argument", .isOpen⟩
        compatibility := ⟨"argument", .humanAttested⟩
        invariant := ⟨"argument", .humanAttested⟩
        progress := ⟨"argument", .humanAttested⟩
        boundary := ⟨"argument", .humanAttested⟩
        simultaneousChoice := ⟨"argument", .humanAttested⟩ }
    compositionRule := .humanArgument
    closureTheoremRef := "theorem" }

/-- A closure of the lemma by the review. -/
def closureWitness (obligations : List Json) (digest : Digest) (discharged : List Id) :
    SubmitClosureWitness where
  parentClaimId := lemmaId
  contractVersion := 1
  selectedSubgraph := subgraph obligations
  selectedSubgraphDigest := digest
  dischargedObligationIds := discharged
  openObligationIds := []
  edgeJustifications := []
  bridgeDependencyIds := []
  compositionMode := .peer
  verificationRefs := []
  humanAttestationReviewIds := [reviewId]

/-- The digest of the subgraph without obligations. -/
def plainDigest : Digest := "9292920ba967d1e87c0b1836d5a0d2cbdc907352be7d3fede5a1c409887c6250"

/-- A closure of the lemma, which has no obligations. -/
def plainWitness : SubmitClosureWitness := closureWitness [] plainDigest []

/-- A run in which the subgraph without obligations is reviewed. -/
def plainReviewed : List Op :=
  frozen ++
    [.apply (request 2 registerLemma [lemmaId]),
      .apply (request 3 (.recordPeerReview (review lemmaId lemmaHash "author" (some plainDigest)))
        [reviewId])]

/-- The digest of the subgraph with the obligation. -/
def obligedDigest : Digest := "a5370d4c7305a2c600b21808b67d821c583084529f5b00055a8af5a245350536"

/-- A closure of the lemma that relabels the open part of its obligation. -/
def relabellingWitness : SubmitClosureWitness :=
  closureWitness [selectedObligation] obligedDigest [obligation]

/-- A run in which the lemma has an obligation and the subgraph with it is reviewed. -/
def obliged : List Op :=
  frozen ++
    [.apply (request 2 registerLemma [lemmaId]),
      .apply (request 3 registerObligation [obligation]),
      .apply (request 4 (.recordPeerReview (review lemmaId lemmaHash "author" (some obligedDigest)))
        [reviewId])]

/-- The closure witness. -/
def witness : Id := "53000000-0000-4000-8000-000000000000"

/-- A run in which a witness closes the lemma. -/
def closed : List Op :=
  plainReviewed ++ [.apply (request 4 (.submitClosureWitness plainWitness) [witness])]

/-- The lemma is promoted to closed by its witness. -/
def promoteClosure : Command := .promoteClaim
  { claimId := lemmaId
    targetAxis := .closure
    targetValue := .closedHuman
    evidenceIds := []
    closureWitnessId := some witness }

/-- A run in which a further obligation reopens the lemma and a promotion closes it again. -/
def reclosed : List Op :=
  closed ++
    [.apply (request 5 registerObligation [obligation]),
      .apply (request 6 promoteClosure ["54000000-0000-4000-8000-000000000000"])]

/-- The lemma is revoked. -/
def revokeLemma : Command := .revokeFact
  { contractVersion := 1
    factId := lemmaId
    reason := "withdrawn" }

/-- What the guard decides on in the runs below. -/
def guardContext (snapshot : Snapshot) : GuardContext where
  platform := platform
  policy := policy
  capability := capability
  now := 0
  snapshot := snapshot
  inputNames := []

/-- An edge in reverse, which is stored from the root to the lemma. -/
def reversedEdge : RegisterClaimEdge where
  contractVersion := 1
  fromClaimId := root
  toClaimId := lemmaId
  edgeKind := .implies
  direction := .reverse
  justificationKind := .definitional
  justificationRef := contractArtifact

def bridge : Id := "55000000-0000-4000-8000-000000000000"

/-- A bridge from the root to the lemma, valid in this direction alone. -/
def registerBridge : Command := .registerBridge
  { bridgeId := none
    contractVersion := 1
    sourceClaimId := root
    targetClaimId := lemmaId
    directionality := .oneWayValid
    forwardObligations := [[("status", .str "CHECKED")]]
    reverseObligations := []
    bridgeSpec := Guard.bridgeSpecFields.map fun field => (field, .str "given")
    targetAuditReviewId := some reviewId
    backtranslationArtifactId := some contractArtifact }

def registerBridgeEdge (direction : Direction) : Command := .registerClaimEdge
  { contractVersion := 1
    fromClaimId := root
    toClaimId := lemmaId
    edgeKind := .implies
    direction := direction
    justificationKind := .bridge
    justificationRef := bridge }

/-- A run with an edge that the bridge justifies. -/
def bridged (direction : Direction) : List Op :=
  frozen ++
    [.apply (request 2 registerLemma [lemmaId]),
      .apply (request 3 (.recordPeerReview (review lemmaId lemmaHash "author")) [reviewId]),
      .apply (request 4 registerBridge [bridge]),
      .apply (request 5 (registerBridgeEdge direction) [edge])]

/-- An obligation of the root, whose first part is open. -/
def registerRootObligation : Command := .registerCompositionObligation
  { contractVersion := 1
    parentClaimId := root
    childClaimIds := [lemmaId]
    parts :=
      { coverage := ⟨"argument", .isOpen⟩
        compatibility := ⟨"argument", .humanAttested⟩
        invariant := ⟨"argument", .humanAttested⟩
        progress := ⟨"argument", .humanAttested⟩
        boundary := ⟨"argument", .humanAttested⟩
        simultaneousChoice := ⟨"argument", .humanAttested⟩ }
    compositionRule := .humanArgument
    closureTheoremRef := "theorem" }

def rootObligation : Id := "56000000-0000-4000-8000-000000000000"

/-- A run in which the lemma has an obligation, and the root does if it is asked for. -/
def pending (withRoot : Bool) : List Op :=
  connected .forward ++
    (if withRoot then [.apply (request 4 registerRootObligation [rootObligation])] else []) ++
    [.apply (request (if withRoot then 5 else 4) registerObligation [obligation])]

/-- A failure of the environment, which may name a claim and an obligation. -/
def recordFailure (claimId obligationId : Option Id) : Command := .recordFailure
  { routeId := none
    claimId := claimId
    failureKind := .environmentFailure
    normalizedFingerprint := contractHash
    firstFailedObligationId := obligationId
    evidenceArtifactId := none }

/-- The failure in a run whose claims have obligations. -/
def failure (withRoot : Bool) (claimId obligationId : Option Id) : ApplyOp :=
  request (if withRoot then 6 else 5) (recordFailure claimId obligationId) []

/-- Evidence about the lemma. -/
def submitLemmaEvidence : Command := .submitEvidence
  { claimId := lemmaId
    contractVersion := 1
    statementHash := lemmaHash
    evidenceType := .counterexample
    evidenceStrength := .hardMachine
    artifactInputNames := ["counterexample"]
    scope := [("claim_id", .str lemmaId), ("contract_version", .int 1),
      ("statement_hash", .str lemmaHash)]
    provenance := [("actor", .str "worker")]
    evidenceRoot :=
      { rootKind := .checker
        originArtifactInputName := none
        originArtifactId := none
        verifierProfileId := none } }

/-- The evidence about the lemma. -/
def lemmaEvidence : Id := "96000000-0000-4000-8000-000000000000"

def amendmentReview : RecordPeerReview :=
  { review root contractHash "author" with
    checklist :=
      (review root contractHash "author").checklist ++
        [("amendment_approved", .bool true), ("amendment_role", .str "CONTRACT_OWNER")] }

/-- The contract is said to be defective at the lemma. -/
def proposeDefect : Command := .proposeContractDefect
  { contractVersion := 1
    defectType := "scope"
    evidenceRefs := [lemmaEvidence]
    affectedClaimIds := [lemmaId]
    proposedPatchArtifactId := contractArtifact }

/-- The contract is amended by another budget. -/
def amendContract : Command := .amendContract
  { baseVersion := 1
    replacementContract := contract.map fun entry =>
      if entry.1 == "budget_policy" then (entry.1, .obj [("attempts", .int 1)]) else entry
    patchArtifactId := contractArtifact
    approvals := [reviewId]
    impactAnalysisArtifactId := contractArtifact }

/-- A run with a verified root, which may have an obligation, and a defect at the lemma. -/
def defective (withObligation : Bool) : List Op :=
  verified ++
    [.apply (request 9 registerLemma [lemmaId]),
      .apply (request 10 (if withObligation then registerRootObligation else registerObligation)
        [rootObligation]),
      .apply (request 11 submitLemmaEvidence
        ["95000000-0000-4000-8000-000000000000", lemmaEvidence]
        [{ name := "counterexample"
           sha256 := "a1fce4363854ff888cff4b8e7875d600c2682390412a8cf79b37d0b11148b0fa"
           byteCount := 1
           mediaType := "text/plain" }]),
      .apply (request 12 (.recordPeerReview amendmentReview) [reviewId]),
      .apply (request 13 proposeDefect [])]

def amendment : ApplyOp :=
  request 14 amendContract ["57000000-0000-4000-8000-000000000000"]

/-- What the sample runs lead to in the graph of claims. -/
@[mk_iff]
structure GraphOutcomes : Prop where
  /-- In the connected run the lemma can be revoked. -/
  lemma_revoked : (request 4 revokeLemma []).Accepts platform policy
    (reached platform policy (connected .forward))
  /-- The guard lets the edge in reverse pass. -/
  reversed_passes : ((reached platform policy (connected .forward)).guardSnapshot run).any
    (fun snapshot => !Guard.edgeWouldCycle (guardContext snapshot) reversedEdge) = true
  /-- The stored edge leads back along the edge in reverse. -/
  reversed_aborts : (reachableFrom ((reached platform policy (connected .forward)).storedArcs run)
    [lemmaId]).contains root = true
  /-- The edges of the connected run go forward. -/
  connected_forward : ∀ edge ∈ (reached platform policy (connected .forward)).claimEdges,
    edge.direction = .forward
  /-- A bridge that is valid one way justifies an edge in both directions. -/
  bridged_both_ways : ∃ edge ∈ (reached platform policy (bridged .bidirectional)).claimEdges,
    edge.status = .active ∧ edge.justificationKind = .bridge ∧
      ∃ bridge ∈ (reached platform policy (bridged .bidirectional)).bridges,
        bridge.bridgeId = edge.justificationRef ∧ bridge.directionality = .oneWayValid ∧
          ∃ arc ∈ edge.arcs, arc ≠ (bridge.sourceClaimId, bridge.targetClaimId)
  /-- The bridge justifies an edge that goes one way. -/
  bridged_one_way : ∃ edge ∈ (reached platform policy (bridged .forward)).claimEdges,
    edge.status = .active ∧ edge.justificationKind = .bridge ∧
      ∃ bridge ∈ (reached platform policy (bridged .forward)).bridges,
        bridge.bridgeId = edge.justificationRef ∧ bridge.directionality = .oneWayValid
  /-- A failure at the obligation of the lemma is accepted. -/
  failure_accepted : (failure true none (some obligation)).Accepts platform policy
    (reached platform policy (pending true))
  /-- The root is downstream of the lemma, and stays open. -/
  failure_stops : ∃ row ∈ (reached platform policy (pending true)).obligations,
    row.obligationId = obligation ∧
      ∃ claim ∈ ((failure true none (some obligation)).apply platform policy
        (reached platform policy (pending true))).claims,
        claim.closureState = .isOpen ∧ claim.claimId ≠ row.parentClaimId ∧
          ∃ edge ∈ (reached platform policy (pending true)).claimEdges, edge.status = .active ∧
            edge.edgeKind.isLogical = true ∧ (row.parentClaimId, claim.claimId) ∈ edge.arcs
  /-- A failure at the root that names no obligation is accepted. -/
  unnamed_accepted : (failure true (some root) none).Accepts platform policy
    (reached platform policy (pending true))
  /-- It withdraws the closure of the lemma. -/
  unnamed_spreads : ∃ claim ∈ (reached platform policy (pending true)).claims,
    claim.claimId ≠ root ∧ ∃ claim' ∈ ((failure true (some root) none).apply platform policy
      (reached platform policy (pending true))).claims,
      claim'.claimId = claim.claimId ∧ claim'.closureState ≠ claim.closureState
  /-- No edge leads away from the root. -/
  root_last : ∀ edge ∈ (reached platform policy (pending true)).claimEdges,
    ∀ arc ∈ edge.arcs, arc.1 ≠ root
  /-- Without an obligation of the root the failure is accepted as well. -/
  fallen_accepted : (failure false none (some obligation)).Accepts platform policy
    (reached platform policy (pending false))
  /-- Then only the lemma has a closure to lose. -/
  only_lemma_open : ∃ row ∈ (reached platform policy (pending false)).obligations,
    row.obligationId = obligation ∧ ∀ claim ∈ (reached platform policy (pending false)).claims,
      claim.claimId = row.parentClaimId ∨ claim.closureState = .notRequired ∨
        claim.closureState = .invalidated

instance : Decidable GraphOutcomes := decidable_of_iff _ (graphOutcomes_iff).symm

/-- The sample runs in the graph of claims, evaluated. -/
theorem graphOutcomes : GraphOutcomes := by decide +kernel

/-- Whether evidence that is trusted before an amendment, or not, is about a claim that the
amendment carries over. -/
def carriesEvidence (type : EvidenceType) (trusted : Bool) (before after : Snapshot) : Bool :=
  before.claims.any fun claim => after.claims.any fun claim' =>
    claim'.claimId == claim.claimId && claim'.lifecycleStatus == .active &&
      claim'.contractVersion == after.currentContractVersion &&
      before.evidence.any fun item => after.evidence.any fun item' =>
        item.claimId == claim.claimId && item'.evidenceId == item.evidenceId &&
          machineEvidenceIsTrusted before item claim before.currentContractVersion type == trusted

/-- What the amendments of the sample runs lead to. -/
@[mk_iff]
structure AmendmentOutcomes : Prop where
  /-- The contract can be amended. -/
  amended : ∀ withObligation, amendment.Accepts platform policy
    (reached platform policy (defective withObligation))
  /-- The root is carried over and nothing is required of it. -/
  root_carried : ∀ withObligation, ((amendment.apply platform policy
    (reached platform policy (defective withObligation))).guardSnapshot run).any (fun after =>
      after.claims.any (fun claim => claim.claimId == root && claim.lifecycleStatus == .active &&
        claim.contractVersion == after.currentContractVersion) &&
      (requiredObligationIds after root after.currentContractVersion).isEmpty) = true
  /-- The root had an obligation. -/
  root_obliged : ∃ row ∈ (reached platform policy (defective true)).obligations,
    row.parentClaimId = root ∧ row.status ≠ .invalidated
  /-- The root had none. -/
  root_unobliged : ∀ row ∈ (reached platform policy (defective false)).obligations,
    row.parentClaimId ≠ root
  /-- The evidence of the replay is trusted before the amendment, as a replay. -/
  trust_lost : ((reached platform policy (defective false)).guardSnapshot run).any (fun before =>
    ((amendment.apply platform policy (reached platform policy
      (defective false))).guardSnapshot run).any (carriesEvidence .leanReplay true before)) = true
  /-- It is not, as a certificate. -/
  trust_kept : ((reached platform policy (defective false)).guardSnapshot run).any (fun before =>
    ((amendment.apply platform policy (reached platform policy
      (defective false))).guardSnapshot run).any
        (carriesEvidence .checkerCertificate false before)) = true

instance : Decidable AmendmentOutcomes := decidable_of_iff _ (amendmentOutcomes_iff).symm

/-- The sample runs with an amendment, evaluated. -/
theorem amendmentOutcomes : AmendmentOutcomes := by decide +kernel

/-- A policy with a limit on the time of an execution, which a controller watches over. -/
def budgetPolicy : Policy :=
  { policy with
    budgetControllerCapabilityIds := [capability.capabilityId]
    globalBudgetLimits := some [("WALL_SECOND", 1)]
    routeShareDenominator := some 1 }

/-- A route asks for a further batch of all the time there is. -/
def requestExpansion : Command := .requestExpansion
  { routeId := route
    reservation := [("WALL_SECOND", .int 1)]
    noveltyDelta := [("objects", .arr [.str "x"])]
    expectedInformationGain := 1
    decisionIds := ["d"] }

/-- A run in which a route asks for the same batch twice. -/
def expanded : List Op :=
  frozen ++
    [.apply (request 2 startRun []),
      .apply (request 3 registerRoute ["61000000-0000-4000-8000-000000000000", route]),
      .apply (request 4 recordLiterature [literatureRecord]),
      .apply (request 5 requestExpansion ["62000000-0000-4000-8000-000000000000"]),
      .apply (request 6 requestExpansion ["63000000-0000-4000-8000-000000000000"])]

/-- The controller trips the fuse of the run. -/
def tripFuse : Command := .recordBudget
  { routeId := some route
    attemptId := none
    eventKind := .fuseTrip
    resourceKind := .wallSecond
    amountMicrounits := some 0
    unit := "microunit"
    providerUsage := [("component", .str "controller")] }

/-- A run whose fuse is tripped. -/
def tripped : List Op :=
  frozen ++
    [.apply (request 2 startRun []),
      .apply (request 3 registerRoute ["61000000-0000-4000-8000-000000000000", route]),
      .apply (request 4 registerLemma [lemmaId]),
      .apply (request 5 submitLemmaEvidence
        ["95000000-0000-4000-8000-000000000000", lemmaEvidence]
        [{ name := "counterexample"
           sha256 := "a1fce4363854ff888cff4b8e7875d600c2682390412a8cf79b37d0b11148b0fa"
           byteCount := 1
           mediaType := "text/plain" }]),
      .apply (request 6 (.recordPeerReview amendmentReview) [reviewId]),
      .apply (request 7 tripFuse ["62000000-0000-4000-8000-000000000000"])]

def registerAmendedRoot : Command := .registerClaim
  { contractVersion := 2
    claimKind := .root
    stableLabel := "amended"
    statementArtifactId := idOf 'f' 9
    statementHash := "dec01b4dd15db9260a39d69432ad18f51b3b6e89aa9fe5343efd2f16298663a7"
    normalizedStatement := contract.map fun entry =>
      if entry.1 == "budget_policy" then (entry.1, .obj [("attempts", .int 1)]) else entry }

/-- The contract is amended after the fuse has been tripped. -/
def amendedTripped : List Op :=
  [.apply (request 8 proposeDefect []),
    .apply (request 9 amendContract ["57000000-0000-4000-8000-000000000000"]),
    .apply (request 10 registerAmendedRoot ["58000000-0000-4000-8000-000000000000"])]

def startAmended : ApplyOp := request 11 (.startRun
  { contractVersion := 2
    literaturePlanArtifactId := contractArtifact
    budgetPolicy := [("global", .obj [("CPU_SECOND", .int 1)])] }) []

/-- An execution that takes longer than the limit allows. -/
def overspend : Op := match recordExecution 7 with
  | .recordHostExecution capability record => .recordHostExecution capability
      { record with result := { record.result with wallTimeMs := 1 } }
  | op => op

/-- A run in which the host has executed the attempt over its limit. -/
def overspent : List Op := executed.dropLast ++ [overspend]

/-- What the sample runs lead to in the budget. -/
@[mk_iff]
structure BudgetOutcomes : Prop where
  /-- The two batches are reserved, one over the limit. -/
  reserved_twice : Db.sumAmounts [.reservation]
    ((reached platform budgetPolicy expanded).countedEvents run .wallSecond) = 2
  /-- Nothing of them is given back. -/
  none_refunded : Db.sumAmounts [.refund]
    ((reached platform budgetPolicy expanded).countedEvents run .wallSecond) = 0
  /-- The controller has tripped the fuse. -/
  fuse_tripped : (reached platform budgetPolicy tripped).budgetEvents.any (fun event =>
    event.runId == run && event.eventKind == .fuseTrip && !legacyBudgetEvent event) = true
  /-- The amended run starts. -/
  amended_starts : startAmended.Accepts platform budgetPolicy
    (reached platform budgetPolicy (tripped ++ amendedTripped))
  /-- The execution has spent more than its limit. -/
  overspent_actual : 1 < Db.sumAmounts [.actual]
    ((reached platform budgetPolicy overspent).countedEvents run .wallSecond)

instance : Decidable BudgetOutcomes := decidable_of_iff _ (budgetOutcomes_iff).symm

/-- The sample runs with a budget, evaluated. -/
theorem budgetOutcomes : BudgetOutcomes := by decide +kernel

/-- The declarations that the replay of the sample has audited. -/
def auditedDeclarations : JsonObject :=
  [("theorem", .obj [("owner", .str "target_module"), ("type", .str "True")])]

/-- The digest of the audited declarations. -/
def auditDigest : Digest := "224d66150b261c3078e005f3d1f1f00a6d7910d146cfd58c6440d733c47734ea"

/-- The payload of a receipt as a service signs it. -/
def signedPayload : JsonObject :=
  [("adapter_name", .str "lean-replay"), ("adapter_version", .str "1"),
    ("attempt_id", .str attempt), ("axiom_dependencies", .arr []), ("binary_sha256", .null),
    ("binding_id", .str binding), ("claim_id", .str root), ("contract_version", .int 1),
    ("declaration_audit", .obj auditedDeclarations), ("declaration_module", .str "Main"),
    ("declaration_type_digest", .str auditDigest),
    ("dependency_closure_digest", .str requestDigest), ("environment_digest", .str requestDigest),
    ("environment_profile_id", .str "lean"),
    ("execution_mode", .str "reproducible/authoritative"), ("exit_code", .int 0),
    ("input_snapshot_digest", .str requestDigest), ("kernel_verdict", .str "REPLAY_PASS"),
    ("mount_digest", .str requestDigest), ("output_sha256", .str lemmaHash),
    ("process_digest", .str requestDigest), ("provider_usage", .obj []),
    ("receipt_id", .str receipt), ("receipt_nonce", .str nonce),
    ("request_hash", .str requestDigest), ("result_hash", .str requestDigest),
    ("route_id", .str route), ("run_id", .str run),
    ("schema_version", .str "rk.host_execution_receipt.v1"),
    ("service_instance_id", .str "service"), ("source_commit", .null),
    ("source_sha256", .str contractHash), ("statement_hash", .str contractHash),
    ("status", .str "COMPLETED"), ("tool_digest", .str requestDigest), ("toolchain", .str "4"),
    ("wall_time_ms", .int 0)]

/-- The signature of the payload under the key of the service. -/
def payloadSignature : String := "d0929303efee0ad2e9231cf2344769391e5f777140f6a3e432fb8a81dc7cd9cc"

/-- The platform with the one signature that the service checks. -/
def servicePlatform : Platform := { platform with hmacSha256 := fun _ _ => payloadSignature }

/-- `json.loads`, on the text of the payload. -/
def loads (text : List Char) : Option JsonObject :=
  if text = dumps (.obj signedPayload) then some signedPayload else none

/-- A service that replays the proof of the root. -/
def service : HostService where
  key := List.range 32
  capability := capability
  profiles :=
    [("lean-replay",
      [("toolchain", .str "4"), ("allowed_axioms", .arr []),
        ("dependency_closure_sha256", .str requestDigest),
        ("expected_declaration_module", .str "Main"),
        ("expected_declaration_types", .obj [("theorem", .str "True")])])]
  dependencyClosureDigest _ := some (some requestDigest)

/-- The host records that the replay has passed, with the payload that the service signs. -/
def recordSigned : Op := match recordExecution 7 with
  | .recordHostExecution capability record => .recordHostExecution capability
      { record with
        result := { record.result with
          payloadText := dumps (.obj signedPayload)
          signature := payloadSignature } }
  | op => op

/-- A run with a receipt that the service has signed. -/
def signed : List Op := executed.dropLast ++ [recordSigned]

/-- The service consumes the receipt. -/
def consumeSigned : Option Op :=
  service.consumeLeanReplay servicePlatform loads (reached servicePlatform policy signed) receipt
    "81000000-0000-4000-8000-000000000000"
    { commandId := idOf 'b' 8
      eventId := idOf 'e' 8
      now := 0 }

/-- A contract that names a case twice. -/
def repetitiveContract : JsonObject := contract.map fun entry =>
  if entry.1 == "boundary_rules" then
    (entry.1, .obj [("case_ids", .arr [.str "a", .str "a"])])
  else entry

/-- The creation of a run with that contract. -/
def createRepetitive : Op := .create
  { request :=
      { requestId := "a0000000-0000-4000-8000-000000000000"
        contract := repetitiveContract
        artifactInputs := [] }
    capability := capability
    digest := requestDigest
    now := 0
    inspection := .passed
    runId := run
    contractId := contractArtifact
    stagedIds := [] }

/-- The root states that contract. -/
def registerRepetitive : Command := .registerClaim
  { contractVersion := 1
    claimKind := .root
    stableLabel := "root"
    statementArtifactId := contractArtifact
    statementHash := "ba4a2995332544db7eb228e7e07d3a91def9ff1bc668217697f43471db3bcde1"
    normalizedStatement := repetitiveContract }

/-- Which contracts of the sample runs are in order. -/
@[mk_iff]
structure ContractOutcomes : Prop where
  /-- The contract of the sample run is. -/
  frozen_inOrder : ∃ contract ∈ (reached platform policy frozen).contractVersions,
    inOrder platform none (.obj contract.contract) = true
  /-- The one that names a case twice is not. -/
  repetitive_disordered : ∃ contract ∈
    (reached platform policy [createRepetitive]).contractVersions,
    inOrder platform none (.obj contract.contract) = false
  /-- The root that states it is refused. -/
  repetitive_refused : ¬ (request 0 registerRepetitive [root]).Accepts platform policy
    (reached platform policy [createRepetitive])

instance : Decidable ContractOutcomes := decidable_of_iff _ (contractOutcomes_iff).symm

/-- The sample runs with a contract in order or not, evaluated. -/
theorem contractOutcomes : ContractOutcomes := by decide +kernel

/-- What the services of the sample runs do. -/
@[mk_iff]
structure HostOutcomes : Prop where
  /-- No receipt is consumed before the service does it. -/
  signed_unconsumed : ∀ op ∈ signed, op.isConsumption = false
  /-- The service issues the consumption of the receipt. -/
  consumption_issued : consumeSigned.isSome = true
  /-- The receipt is consumed by it. -/
  signed_consumed : ∃ row ∈
    (reached servicePlatform policy (signed ++ consumeSigned.toList)).hostReceipts,
    row.receiptId = receipt ∧ row.consumedByFeedbackId.isSome = true

instance : Decidable HostOutcomes := decidable_of_iff _ (hostOutcomes_iff).symm

/-- The sample runs with a service, evaluated. -/
theorem hostOutcomes : HostOutcomes := by decide +kernel

/-- What the sample runs lead to. -/
@[mk_iff]
structure Outcomes : Prop where
  /-- The root is verified by the replay. -/
  root_verified : ∃ claim ∈ (reached platform policy verified).claims,
    claim.machineVerdict = .kernelVerified
  /-- The independent review accepts the root and attests its meaning. -/
  root_reviewed : ∃ claim ∈ (reached platform policy reviewed).claims,
    claim.peerVerdict = .accepted ∧ claim.semanticVerdict = .humanAttested
  /-- The root is accepted by the review of the lemma. -/
  promoted_by_other : ∃ claim ∈ (reached platform policy promotedByOther).claims,
    claim.claimId = root ∧ claim.peerVerdict = .accepted
  /-- Nobody has reviewed the root that is accepted so. -/
  unreviewed : ∀ review ∈ (reached platform policy promotedByOther).peerReviews,
    review.claimId ≠ root
  /-- The review by the author attests the meaning of the root. -/
  attested_by_author : ∃ claim ∈ (reached platform policy selfReviewed).claims,
    claim.semanticVerdict = .humanAttested
  /-- The review by the author is not independent. -/
  dependent : ∀ review ∈ (reached platform policy selfReviewed).peerReviews,
    independenceProfileIsIndependent review.independenceProfile = false
  /-- The known root can be finalized. -/
  known_finalized : (finalizeRequest 4 .previouslyKnown).Accepts platform policy
    (reached platform policy known)
  /-- So can the revoked one. -/
  revoked_finalized : (finalizeRequest 5 .previouslyKnown).Accepts platform policy
    (reached platform policy knownRevoked)
  /-- The revoked root is not active. -/
  root_revoked : ∀ claim ∈ (reached platform policy knownRevoked).claims,
    claim.lifecycleStatus ≠ .active
  /-- The submitted counterexample can be finalized. -/
  submitted_finalized : (finalizeRequest 3 .disproved).Accepts platform policy
    (reached platform policy submitted)
  /-- No receipt is behind the submitted counterexample. -/
  no_receipt : (reached platform policy submitted).hostReceipts.isEmpty = true
  /-- The checked counterexample can be finalized. -/
  checked_finalized : (finalizeRequest 11 .disproved).Accepts platform policy
    (reached platform policy checked)
  /-- The execution has a receipt for the root. -/
  root_executed : ∃ row ∈ (reached platform policy executed).hostReceipts,
    row.receiptId = receipt ∧ row.claimId = root
  /-- The receipt can be consumed by a checker. -/
  consumes_check : (((reached platform policy executed).ensureCapability capability).bind
    fun start => start.consumeHostCheckerReceipt platform capability checkerUse verification
      .checker).isSome = true
  /-- The witness without obligations is valid. -/
  plain_valid : ((reached platform policy plainReviewed).guardSnapshot run).any (fun snapshot =>
    (validateClosureWitness platform snapshot plainWitness policy).toBool) = true
  /-- So is the witness that relabels an open part and selects no child. -/
  relabelling_valid : ((reached platform policy obliged).guardSnapshot run).any (fun snapshot =>
    (validateClosureWitness platform snapshot relabellingWitness policy).toBool &&
      (requiredObligationIds snapshot lemmaId 1).contains obligation &&
      (snapshot.obligation? obligation).any fun registered =>
        registered.parts.coverage.status == .isOpen && registered.childClaimIds == [root]) = true
  /-- The lemma has no obligation before it is closed. -/
  no_obligation : (reached platform policy plainReviewed).obligations = []
  /-- The witness closes the lemma. -/
  lemma_closed : ∃ claim ∈ (reached platform policy closed).claims, claim.closureState.isClosed = true
  /-- The promotion closes the lemma although it has an obligation. -/
  lemma_reclosed : ∃ claim ∈ (reached platform policy reclosed).claims,
    claim.closureState.isClosed = true ∧
      ∃ obligation ∈ (reached platform policy reclosed).obligations,
        obligation.parentClaimId = claim.claimId ∧ obligation.status ≠ .invalidated
  /-- No witness discharges an obligation there. -/
  undischarged : ∀ witness ∈ (reached platform policy reclosed).closureWitnesses,
    witness.dischargedObligations = []
  /-- The edge in both directions is registered. -/
  edge_connected : ∃ edge ∈ (reached platform policy (connected .bidirectional)).claimEdges,
    edge.status = .active ∧ edge.edgeKind.isLogical = true ∧ edge.direction = .bidirectional
  /-- What the sample runs lead to in the graph of claims. -/
  graph : GraphOutcomes
  /-- What the amendments of the sample runs lead to. -/
  amendment : AmendmentOutcomes
  /-- What the sample runs lead to in the budget. -/
  budget : BudgetOutcomes
  /-- What the services of the sample runs do. -/
  host : HostOutcomes
  /-- Which contracts of the sample runs are in order. -/
  contracts : ContractOutcomes

instance : Decidable Outcomes := decidable_of_iff _ (outcomes_iff).symm

/-- The sample runs, evaluated once. -/
theorem outcomes : Outcomes := by
  -- the groups are left out here: what is evaluated is held until a declaration is done
  rw [outcomes_iff]
  simp only [graphOutcomes, amendmentOutcomes, budgetOutcomes, hostOutcomes, contractOutcomes,
    and_true]
  decide +kernel

end Sample

/-- In the run of the sample the root is verified, and the receipt of its replay stands
behind the verdict. -/
theorem machine_authority_of_verified :
    ∃ claim ∈ (reached Sample.platform Sample.policy Sample.verified).claims,
      claim.machineVerdict = .kernelVerified ∧
        (reached Sample.platform Sample.policy Sample.verified).records.ReplayBacked claim := by
  obtain ⟨claim, hclaim, hverdict⟩ := Sample.outcomes.root_verified
  have hbacked := machine_authority_of_reached Sample.platform Sample.policy Sample.verified
    claim hclaim
  exact ⟨claim, hclaim, hverdict, hbacked.1 hverdict⟩

end ResearchKernel
