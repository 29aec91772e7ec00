import ResearchKernel.Snapshot

/-!
# Trusted machine evidence

One validator decides whether a piece of machine evidence carries authority. Evidence by
itself carries none: it must lead to a host receipt of the same run, claim, contract
version and statement, that was eligible and completed, and that has been consumed.
-/

namespace ResearchKernel

open Foundation

/-- Whether a text that may be absent is there and not empty. -/
def hasText (text : Option String) : Bool := (text.getD "") != ""

/-- The kinds of roots that may stand behind machine evidence of a type. -/
def expectedRoots : EvidenceType → Option (List RootKind)
  | .leanReplay => some [.leanKernel]
  | .checkerCertificate => some [.checker, .enumeration]
  | _ => none

/-- Whether a receipt is eligible and completed in the scope of a claim. -/
def HostReceipt.grantsAuthority (receipt : HostReceipt) (runId : Id) (target : Claim)
    (contractVersion : ℕ) : Bool :=
  receipt.authorityEligible && receipt.blockReasons.isEmpty && receipt.runId == runId &&
    receipt.claimId == target.claimId && receipt.contractVersion == contractVersion &&
    receipt.statementHash == target.statementHash && receipt.status == "COMPLETED" &&
    receipt.exitCode == some 0

/-- The first accepted checker verification that rests on a piece of evidence. -/
def checkerVerification? (snapshot : Snapshot) (evidence : EvidenceView) (target : Claim) :
    Option AtomicVerification :=
  snapshot.atomicVerifications.find? fun item =>
    item.claimId == target.claimId && item.verificationRef == some evidence.evidenceId &&
      item.backend == .deterministicChecker && item.verdict == .accepted

/-- Whether a receipt consumed by the checker verification stands behind the evidence. -/
def checkerReceiptExists (snapshot : Snapshot) (evidence : EvidenceView) (target : Claim)
    (contractVersion : ℕ) : Bool :=
  match checkerVerification? snapshot evidence target with
  | none => false
  | some verification =>
    verification.verificationId != "" &&
      (distinctRows (·.receiptId) snapshot.hostReceipts).any fun receipt =>
        receipt.grantsAuthority snapshot.runId target contractVersion &&
          receipt.consumedByVerificationId == some verification.verificationId &&
          receipt.checkerConsumedAt.isSome

/-- The receipt that a feedback record names in its diagnostic. -/
def feedbackReceipt? (snapshot : Snapshot) (record : LeanFeedback) : Option HostReceipt :=
  (record.diagnostic.get "host_receipt_id").text?.bind snapshot.receipt?

/-- Whether a feedback record and its receipt stand behind the evidence. -/
def feedbackSupports (snapshot : Snapshot) (evidence : EvidenceView) (output : Artifact)
    (target : Claim) (contractVersion : ℕ) (record : LeanFeedback) : Bool :=
  match feedbackReceipt? snapshot record with
  | none => false
  | some receipt =>
    receipt.adapterName == "lean-replay" &&
      receipt.grantsAuthority snapshot.runId target contractVersion &&
      hasText receipt.dependencyClosureDigest &&
      receipt.consumedByFeedbackId == some record.leanFeedbackId &&
      record.feedbackKind == .replayPass && record.claimId == target.claimId &&
      record.contractVersion == contractVersion &&
      record.outputArtifactId == evidence.artifactId &&
      receipt.outputSha256 == some output.sha256 && receipt.consumedAt.isSome

/-- Whether the evidence itself has the right type, strength, status, scope and root. -/
def evidenceInScope (snapshot : Snapshot) (evidence : EvidenceView) (target : Claim)
    (contractVersion : ℕ) (expectedType : EvidenceType) : Bool :=
  match expectedRoots evidence.evidenceType with
  | none => false
  | some roots =>
    evidence.evidenceType == expectedType && evidence.evidenceStrength == .hardMachine &&
      evidence.ingestStatus == .accepted && evidence.runId == snapshot.runId &&
      evidence.claimId == target.claimId && evidence.contractVersion == contractVersion &&
      evidence.statementHash == target.statementHash && roots.contains evidence.rootKind

/-- Accept only a host receipt that is already scoped and consumed. -/
def machineEvidenceIsTrusted (snapshot : Snapshot) (evidence : EvidenceView) (target : Claim)
    (contractVersion : ℕ) (expectedType : EvidenceType) : Bool :=
  evidenceInScope snapshot evidence target contractVersion expectedType &&
    match snapshot.artifact? evidence.artifactId with
    | none => false
    | some output =>
      output.ingestState == .committed &&
        if evidence.evidenceType == .checkerCertificate then
          checkerReceiptExists snapshot evidence target contractVersion
        else
          (distinctRows (·.leanFeedbackId) snapshot.leanFeedback).any fun record =>
            feedbackSupports snapshot evidence output target contractVersion record

section Inversion

variable {snapshot : Snapshot} {evidence : EvidenceView} {target : Claim} {contractVersion : ℕ}

theorem HostReceipt.grantsAuthority_iff {receipt : HostReceipt} {runId : Id} :
    receipt.grantsAuthority runId target contractVersion = true ↔
      receipt.authorityEligible = true ∧ receipt.blockReasons = [] ∧ receipt.runId = runId ∧
        receipt.claimId = target.claimId ∧ receipt.contractVersion = contractVersion ∧
        receipt.statementHash = target.statementHash ∧ receipt.status = "COMPLETED" ∧
        receipt.exitCode = some 0 := by
  simp only [HostReceipt.grantsAuthority, Bool.and_eq_true, List.isEmpty_iff, beq_iff_eq, and_assoc]

/-- Trusted Lean evidence leads to a consumed receipt of a replay of the claim. -/
theorem receipt_of_trusted_lean
    (h : machineEvidenceIsTrusted snapshot evidence target contractVersion .leanReplay = true) :
    ∃ receipt ∈ snapshot.hostReceipts, ∃ record ∈ snapshot.leanFeedback,
      receipt.adapterName = "lean-replay" ∧
        receipt.grantsAuthority snapshot.runId target contractVersion = true ∧
        receipt.consumedByFeedbackId = some record.leanFeedbackId ∧
        record.feedbackKind = .replayPass := by
  simp only [machineEvidenceIsTrusted, Bool.and_eq_true] at h
  obtain ⟨hscope, hmatch⟩ := h
  have htype : evidence.evidenceType = .leanReplay := by
    unfold evidenceInScope at hscope
    split at hscope
    · cases hscope
    · simp only [Bool.and_eq_true, beq_iff_eq] at hscope
      exact hscope.1.1.1.1.1.1.1
  split at hmatch
  · cases hmatch
  · rw [htype] at hmatch
    simp only [Bool.and_eq_true, beq_iff_eq, reduceCtorEq, ↓reduceIte, List.any_eq_true] at hmatch
    obtain ⟨-, record, hrecord, hsupport⟩ := hmatch
    have hmem := mem_of_mem_distinctRows hrecord
    unfold feedbackSupports at hsupport
    split at hsupport
    · cases hsupport
    · rename_i receipt hfound
      obtain ⟨id, -, hreceipt⟩ := Option.bind_eq_some_iff.mp hfound
      simp only [Bool.and_eq_true, beq_iff_eq] at hsupport
      obtain ⟨⟨⟨⟨⟨⟨⟨⟨⟨hadapter, hgrants⟩, -⟩, hconsumed⟩, hkind⟩, -⟩, -⟩, -⟩, -⟩, -⟩ := hsupport
      exact ⟨receipt, (mem_of_lookup_records hreceipt).1, record, hmem, hadapter, hgrants,
        hconsumed, hkind⟩

/-- Trusted checker evidence leads to a receipt consumed by an accepted verification. -/
theorem receipt_of_trusted_checker
    (h : machineEvidenceIsTrusted snapshot evidence target contractVersion .checkerCertificate =
      true) :
    ∃ receipt ∈ snapshot.hostReceipts, ∃ verification ∈ snapshot.atomicVerifications,
      receipt.grantsAuthority snapshot.runId target contractVersion = true ∧
        receipt.consumedByVerificationId = some verification.verificationId ∧
        verification.backend = .deterministicChecker ∧ verification.verdict = .accepted := by
  simp only [machineEvidenceIsTrusted, Bool.and_eq_true] at h
  obtain ⟨hscope, hmatch⟩ := h
  have htype : evidence.evidenceType = .checkerCertificate := by
    unfold evidenceInScope at hscope
    split at hscope
    · cases hscope
    · simp only [Bool.and_eq_true, beq_iff_eq] at hscope
      exact hscope.1.1.1.1.1.1.1
  split at hmatch
  · cases hmatch
  · simp only [htype, beq_self_eq_true, ↓reduceIte, Bool.and_eq_true] at hmatch
    have hexists := hmatch.2
    unfold checkerReceiptExists at hexists
    split at hexists
    · cases hexists
    · rename_i verification hfound
      simp only [Bool.and_eq_true, List.any_eq_true, beq_iff_eq] at hexists
      obtain ⟨-, receipt, hreceipt, ⟨hgrants, hconsumed⟩, -⟩ := hexists
      have hmem := List.mem_of_find?_eq_some hfound
      have htest := List.find?_some hfound
      simp only [Bool.and_eq_true, beq_iff_eq] at htest
      exact ⟨receipt, mem_of_mem_distinctRows hreceipt, verification, hmem, hgrants, hconsumed,
        htest.1.2, htest.2⟩

end Inversion

end ResearchKernel
