import ResearchKernel.Finalization.Disproof
import ResearchKernel.Kernel.Moves

/-!
# One execution for each attempt

The right to execute an attempt is claimed once, and the claim is settled once: a result is
recorded for it, or it is recovered with an unknown result. Claiming, recording, extending
and recovering are separate transactions of different processes; this file follows the
claims and the receipts through all of them, in any order.
-/

namespace ResearchKernel

open Foundation

/-- Whether a receipt has been consumed. -/
def HostReceipt.isConsumed (receipt : HostReceipt) : Bool :=
  receipt.consumedByFeedbackId.isSome || receipt.consumedByVerificationId.isSome

/-- The receipt that an operation would consume. -/
def Op.consumedReceipt? : Op → Option Id
  | .consumeHostLeanReceipt _ use _ _ => some use.receiptId
  | .consumeHostCheckerReceipt _ use _ _ => some use.receiptId
  | _ => none

/-- What holds of claims and receipts in a state. -/
structure ExecutedOnce (db : Db) : Prop where
  one_claim : ∀ attemptId, (db.hostClaims.filter (·.attemptId == attemptId)).length ≤ 1
  settled_iff : ∀ claim ∈ db.hostClaims,
    claim.completedAt.isSome = true ↔ claim.recoveryState ≠ .pending
  one_receipt : ∀ attemptId, (db.hostReceipts.filter (·.attemptId == attemptId)).length ≤ 1
  receipt_completed : ∀ receipt ∈ db.hostReceipts, ∃ claim ∈ db.hostClaims,
    claim.attemptId = receipt.attemptId ∧ claim.recoveryState = .completed
  fused_unrecorded : ∀ claim ∈ db.hostClaims, claim.recoveryState = .unknownFused →
    ∀ receipt ∈ db.hostReceipts, receipt.attemptId ≠ claim.attemptId
  one_consumer : ∀ receipt ∈ db.hostReceipts,
    ¬ (receipt.consumedByFeedbackId.isSome = true ∧
      receipt.consumedByVerificationId.isSome = true)

/-- What holds of claims and receipts along a run. -/
structure OneShot (P : Platform) (policy : Policy) (ops : List Op) : Prop where
  always : ∀ early late, ops = early ++ late → ExecutedOnce (reached P policy early)
  settled_stays : ∀ early late, ops = early ++ late →
    ∀ claim ∈ (reached P policy early).hostClaims, claim.recoveryState ≠ .pending →
      (∃ claim' ∈ (reached P policy ops).hostClaims, claim'.attemptId = claim.attemptId) ∧
        ∀ claim' ∈ (reached P policy ops).hostClaims, claim'.attemptId = claim.attemptId →
          claim'.recoveryState = claim.recoveryState
  consumed_stays : ∀ early late, ops = early ++ late →
    ∀ receipt ∈ (reached P policy early).hostReceipts, receipt.isConsumed = true →
      receipt ∈ (reached P policy ops).hostReceipts
  consumed_once : ∀ before op after, ops = before ++ op :: after →
    ∀ receipt ∈ (reached P policy before).hostReceipts, receipt.isConsumed = true →
      op.consumedReceipt? = some receipt.receiptId →
      SameBody (reached P policy before) (step P policy (reached P policy before) op)

/-- What every operation keeps of claims and receipts. -/
structure HostInvariant (db : Db) : Prop where
  claims_unique : (db.hostClaims.map (·.attemptId)).Nodup
  settled_iff : ∀ claim ∈ db.hostClaims,
    claim.completedAt.isSome = true ↔ claim.recoveryState ≠ .pending
  attempts_unique : (db.hostReceipts.map (·.attemptId)).Nodup
  receipts_unique : (db.hostReceipts.map (·.receiptId)).Nodup
  receipt_completed : ∀ receipt ∈ db.hostReceipts, ∃ claim ∈ db.hostClaims,
    claim.attemptId = receipt.attemptId ∧ claim.recoveryState = .completed

/-- An operation consumes a receipt only as its verdict says. -/
def FitsVerdict (loads : List Char → Option JsonObject) (db : Db) : Op → Prop
  | .consumeHostLeanReceipt _ use _ _ => ∀ receipt ∈ db.hostReceipts,
    receipt.receiptId = use.receiptId → receipt.kernelVerdict loads = some "REPLAY_PASS"
  | .consumeHostCheckerReceipt _ use _ _ => ∀ receipt ∈ db.hostReceipts,
    receipt.receiptId = use.receiptId → receipt.kernelVerdict loads = some "CERTIFICATE_PASS"
  | _ => True

/-- Receipts are consumed as their verdicts say. -/
def VerdictsFit (loads : List Char → Option JsonObject) (db : Db) : Prop :=
  ∀ receipt ∈ db.hostReceipts,
    (receipt.consumedByFeedbackId.isSome = true →
      receipt.kernelVerdict loads = some "REPLAY_PASS") ∧
    (receipt.consumedByVerificationId.isSome = true →
      receipt.kernelVerdict loads = some "CERTIFICATE_PASS")

/-- What an operation does to claims and receipts. -/
inductive Hosting (db : Db) : Op → Db → Prop
  | idle (op : Op) (db' : Db) (claims_eq : db'.hostClaims = db.hostClaims)
      (receipts_eq : db'.hostReceipts = db.hostReceipts) : Hosting db op db'
  | claimed (op : Op) (db' : Db) (claim : HostClaim) (begins : claim.Begins db)
      (claims_eq : db'.hostClaims = db.hostClaims ++ [claim])
      (receipts_eq : db'.hostReceipts = db.hostReceipts) : Hosting db op db'
  | recorded (op : Op) (db' : Db) (receipt : HostReceipt) (token : Id) (now : Instant)
      (claimed : ∃ claim ∈ db.hostClaims, claim.attemptId = receipt.attemptId ∧
        claim.claimToken = token ∧ claim.completedAt = none)
      (fresh : ∀ old ∈ db.hostReceipts, HostReceipt.clash receipt old = false)
      (unconsumed : receipt.isConsumed = false)
      (claims_eq : db'.hostClaims = updateWhere
        (fun claim => claim.attemptId == receipt.attemptId && claim.claimToken == token &&
          claim.completedAt.isNone)
        (fun claim => { claim with completedAt := some now, recoveryState := .completed })
        db.hostClaims)
      (receipts_eq : db'.hostReceipts = db.hostReceipts ++ [receipt]) : Hosting db op db'
  | extended (op : Op) (db' : Db) (test : HostClaim → Bool) (now recoverAfter : Instant)
      (pending : ∀ claim, test claim = true → claim.recoveryState = .pending)
      (claims_eq : db'.hostClaims = updateWhere test
        (fun claim => { claim with heartbeatAt := now, recoverAfter := recoverAfter })
        db.hostClaims)
      (receipts_eq : db'.hostReceipts = db.hostReceipts) : Hosting db op db'
  | recovered (op : Op) (db' : Db) (ids : List Id) (now : Instant)
      (pending : ∀ id ∈ ids, ∃ claim ∈ db.hostClaims, claim.attemptId = id ∧
        claim.recoveryState = .pending)
      (claims_eq : db'.hostClaims = updateWhere (fun row => ids.contains row.attemptId)
        (fun row => { row with completedAt := some now, recoveryState := .unknownFused })
        db.hostClaims)
      (receipts_eq : db'.hostReceipts = db.hostReceipts) : Hosting db op db'
  | leanConsumed (capability : VerifiedCapability) (use : ReceiptUse) (feedbackId : Id)
      (toolchain : String) (db' : Db) (claims_eq : db'.hostClaims = db.hostClaims)
      (receipts_eq : db'.hostReceipts =
        consumedByFeedback use.receiptId feedbackId use.ledger.now db.hostReceipts) :
      Hosting db (.consumeHostLeanReceipt capability use feedbackId toolchain) db'
  | checkerConsumed (capability : VerifiedCapability) (use : ReceiptUse) (verificationId : Id)
      (rootKind : RootKind) (db' : Db) (claims_eq : db'.hostClaims = db.hostClaims)
      (receipts_eq : db'.hostReceipts =
        consumedByVerification use.receiptId verificationId use.ledger.now db.hostReceipts) :
      Hosting db (.consumeHostCheckerReceipt capability use verificationId rootKind) db'

section Tables

variable {P : Platform} {policy : Policy} {db db' : Db}

theorem SameBody.hostClaims (h : SameBody db db') : db'.hostClaims = db.hostClaims :=
  congrArg Workings.hostClaims h.workings

theorem SameBody.hostReceipts (h : SameBody db db') : db'.hostReceipts = db.hostReceipts :=
  h.sameRecords.hostReceipts

/-- An accepted request leaves claims and receipts alone. -/
theorem Acceptance.host_eq {op : ApplyOp} (acceptance : Acceptance P policy db op db') :
    db'.hostClaims = db.hostClaims ∧ db'.hostReceipts = db.hostReceipts := by
  constructor
  · refine acceptance.keeps (f := Db.hostClaims) (fun _ _ hbody => hbody.hostClaims) ?_
    intro m _ before after happly
    have hframe := congrArg Workings.hostClaims (Projection.workings_of_apply happly)
    cases m <;> exact hframe
  · exact acceptance.keeps (f := Db.hostReceipts) (fun _ _ hbody => hbody.hostReceipts)
      fun m _ before after happly => hostReceipts_of_apply happly

/-- Recoveries settle the claims of their list and leave the receipts alone. -/
theorem host_of_recoveries {now : Instant} {claims : List HostClaim}
    (h : Recoveries P now claims db db') :
    db'.hostReceipts = db.hostReceipts ∧
      db'.hostClaims = updateWhere (fun row => (claims.map (·.attemptId)).contains row.attemptId)
        (fun row => { row with completedAt := some now, recoveryState := .unknownFused })
        db.hostClaims := by
  induction h with
  | nil same =>
    refine ⟨same.hostReceipts, ?_⟩
    rw [same.hostClaims]
    unfold updateWhere
    simp
  | cons claim revision same rest ih =>
    obtain ⟨hreceipts, hclaims⟩ := ih
    refine ⟨hreceipts.trans same.hostReceipts, ?_⟩
    rw [hclaims, same.hostClaims]
    unfold Db.afterRecovery updateWhere
    rw [List.map_map]
    refine List.map_congr_left fun row _ => ?_
    by_cases hrow : row.attemptId = claim.attemptId
    · simp [hrow]
    · simp [hrow]

theorem pending_of_due {capability : VerifiedCapability} {now : Instant} {claimToken : Option Id}
    {force : Bool} {claim : HostClaim}
    (h : claim ∈ db.dueClaims capability now claimToken force) :
    claim ∈ db.hostClaims ∧ claim.recoveryState = .pending := by
  unfold Db.dueClaims at h
  obtain ⟨hsorted, -⟩ := List.mem_filter.mp h
  obtain ⟨hmem, htest⟩ := List.mem_filter.mp ((List.mem_insertionSort _).mp hsorted)
  simp only [Bool.and_eq_true, beq_iff_eq] at htest
  exact ⟨hmem, htest.1.1⟩

/-- Every operation is one of these. -/
theorem hosting_step (op : Op) : Hosting db op (step P policy db op) := by
  have hmove := @move_step P policy db op
  generalize step P policy db op = db' at hmove
  cases hmove with
  | idle _ _ same | created _ _ run contract begins same
  | reported _ report _ revision overruns overruns_eq same =>
    exact .idle _ _ same.hostClaims same.hostReceipts
  | applied applied _ accepts acceptance =>
    exact .idle _ _ acceptance.host_eq.1 acceptance.host_eq.2
  | claimed _ _ _ claim begins same =>
    exact .claimed _ _ claim begins same.hostClaims same.hostReceipts
  | recorded _ record _ revision reasons usage usage_eq hclaimed fresh same =>
    refine .recorded _ _ (record.receipt reasons) record.claimToken record.ledger.now ?_ fresh rfl
      same.hostClaims same.hostReceipts
    obtain ⟨claim, hclaim, htest⟩ := List.any_eq_true.mp hclaimed
    simp only [Bool.and_eq_true, beq_iff_eq, Option.isNone_iff_eq_none] at htest
    exact ⟨claim, hclaim, htest.1.1.1, htest.1.2, htest.2⟩
  | beaten claimToken serviceInstanceId now recoverAfter =>
    refine .extended _ _ _ now recoverAfter ?_ rfl rfl
    intro claim htest
    simp only [Bool.and_eq_true, beq_iff_eq] at htest
    exact htest.1.2
  | recovered capability now claimToken force _ recoveries =>
    obtain ⟨hreceipts, hclaims⟩ := host_of_recoveries recoveries
    refine .recovered _ _ _ now ?_ hclaims hreceipts
    intro id hid
    obtain ⟨claim, hclaim, rfl⟩ := List.mem_map.mp hid
    obtain ⟨hmem, hpending⟩ := pending_of_due hclaim
    exact ⟨claim, hmem, rfl, hpending⟩
  | leanConsumed capability use feedbackId toolchain _ rows _ _ _ verified _ _ verified_eq same =>
    obtain ⟨verdicts, claims, rfl⟩ := setKernelVerified_eq rows _ _ verified verified_eq
    exact .leanConsumed capability use feedbackId toolchain _ same.hostClaims same.hostReceipts
  | checkerConsumed capability use verificationId rootKind _ rows _ _ _ _ _ same =>
    exact .checkerConsumed capability use verificationId rootKind _ same.hostClaims
      same.hostReceipts

end Tables

/-! ## Claims are settled once -/

section Settling

variable {P : Platform} {policy : Policy} {db db' : Db}

namespace HostInvariant

theorem claim_eq (h : HostInvariant db) {a b : HostClaim} (ha : a ∈ db.hostClaims)
    (hb : b ∈ db.hostClaims) (hid : a.attemptId = b.attemptId) : a = b :=
  List.inj_on_of_nodup_map h.claims_unique ha hb hid

theorem receipt_eq (h : HostInvariant db) {a b : HostReceipt} (ha : a ∈ db.hostReceipts)
    (hb : b ∈ db.hostReceipts) (hid : a.receiptId = b.receiptId) : a = b :=
  List.inj_on_of_nodup_map h.receipts_unique ha hb hid

theorem congr (h : HostInvariant db) (hclaims : db'.hostClaims = db.hostClaims)
    (hreceipts : db'.hostReceipts = db.hostReceipts) : HostInvariant db' := by
  refine ⟨?_, ?_, ?_, ?_, ?_⟩
  · rw [hclaims]
    exact h.claims_unique
  · rw [hclaims]
    exact h.settled_iff
  · rw [hreceipts]
    exact h.attempts_unique
  · rw [hreceipts]
    exact h.receipts_unique
  · rw [hclaims, hreceipts]
    exact h.receipt_completed

/-- An update of pending claims keeps the invariant, when receipts stay as they are. -/
theorem of_updateWhere (h : HostInvariant db) {test : HostClaim → Bool}
    {change : HostClaim → HostClaim} (hid : ∀ claim, (change claim).attemptId = claim.attemptId)
    (htest : ∀ claim ∈ db.hostClaims, test claim = true → claim.recoveryState = .pending)
    (hchange : ∀ claim ∈ db.hostClaims, test claim = true →
      ((change claim).completedAt.isSome = true ↔ (change claim).recoveryState ≠ .pending))
    (hclaims : db'.hostClaims = updateWhere test change db.hostClaims)
    (hreceipts : db'.hostReceipts = db.hostReceipts) : HostInvariant db' where
  claims_unique := by
    rw [hclaims]
    exact nodup_map_updateWhere hid h.claims_unique
  settled_iff := by
    intro claim' hclaim'
    rw [hclaims] at hclaim'
    obtain ⟨claim, hclaim, rfl⟩ := mem_updateWhere.mp hclaim'
    split
    · rename_i hrow
      exact hchange claim hclaim hrow
    · exact h.settled_iff claim hclaim
  attempts_unique := by
    rw [hreceipts]
    exact h.attempts_unique
  receipts_unique := by
    rw [hreceipts]
    exact h.receipts_unique
  receipt_completed := by
    intro receipt hreceipt
    rw [hreceipts] at hreceipt
    obtain ⟨claim, hclaim, hattempt, hcompleted⟩ := h.receipt_completed receipt hreceipt
    refine ⟨claim, ?_, hattempt, hcompleted⟩
    rw [hclaims]
    refine mem_updateWhere.mpr ⟨claim, hclaim, if_neg fun hrow => ?_⟩
    rw [htest claim hclaim hrow] at hcompleted
    cases hcompleted

/-- A new claim is pending, and no receipt is there for it. -/
theorem claim (h : HostInvariant db) {claim : HostClaim} (hbegins : claim.Begins db)
    (hclaims : db'.hostClaims = db.hostClaims ++ [claim])
    (hreceipts : db'.hostReceipts = db.hostReceipts) : HostInvariant db' where
  claims_unique := by
    rw [hclaims, List.map_append]
    refine nodup_concat_of_fresh h.claims_unique fun id hid heq => ?_
    obtain ⟨old, hold, rfl⟩ := List.mem_map.mp hid
    have hclash := hbegins.fresh old hold
    simp [HostClaim.clash, heq] at hclash
  settled_iff := by
    intro other hother
    rw [hclaims, List.mem_append, List.mem_singleton] at hother
    rcases hother with hother | rfl
    · exact h.settled_iff other hother
    · simp [hbegins.incomplete, hbegins.pending]
  attempts_unique := by
    rw [hreceipts]
    exact h.attempts_unique
  receipts_unique := by
    rw [hreceipts]
    exact h.receipts_unique
  receipt_completed := by
    intro receipt hreceipt
    rw [hreceipts] at hreceipt
    obtain ⟨old, hold, hattempt, hcompleted⟩ := h.receipt_completed receipt hreceipt
    refine ⟨old, ?_, hattempt, hcompleted⟩
    rw [hclaims]
    exact List.mem_append_left _ hold

theorem pending_of_incomplete (h : HostInvariant db) {claim : HostClaim}
    (hclaim : claim ∈ db.hostClaims) (hincomplete : claim.completedAt = none) :
    claim.recoveryState = .pending := by
  by_contra hsettled
  have hsome := (h.settled_iff claim hclaim).mpr hsettled
  simp [hincomplete] at hsome

/-- A recorded result completes its claim. -/
theorem record (h : HostInvariant db) {receipt : HostReceipt} {token : Id} {now : Instant}
    (hclaimed : ∃ claim ∈ db.hostClaims, claim.attemptId = receipt.attemptId ∧
      claim.claimToken = token ∧ claim.completedAt = none)
    (hfresh : ∀ old ∈ db.hostReceipts, HostReceipt.clash receipt old = false)
    (hclaims : db'.hostClaims = updateWhere
      (fun claim => claim.attemptId == receipt.attemptId && claim.claimToken == token &&
        claim.completedAt.isNone)
      (fun claim => { claim with completedAt := some now, recoveryState := .completed })
      db.hostClaims)
    (hreceipts : db'.hostReceipts = db.hostReceipts ++ [receipt]) : HostInvariant db' := by
  -- Without the new receipt this is an update of pending claims.
  have hsettled : HostInvariant { db with hostClaims := db'.hostClaims } := by
    refine h.of_updateWhere (by exact fun _ => rfl) ?_ ?_ hclaims rfl
    · intro claim hclaim htest
      simp only [Bool.and_eq_true, Option.isNone_iff_eq_none] at htest
      exact h.pending_of_incomplete hclaim htest.2
    · simp
  have hnew : ∀ old ∈ db.hostReceipts,
      old.attemptId ≠ receipt.attemptId ∧ old.receiptId ≠ receipt.receiptId := by
    intro old hold
    have hclash := hfresh old hold
    constructor
    · intro heq
      simp [HostReceipt.clash, heq] at hclash
    · intro heq
      simp [HostReceipt.clash, heq] at hclash
  refine ⟨hsettled.claims_unique, hsettled.settled_iff, ?_, ?_, ?_⟩
  · rw [hreceipts, List.map_append]
    refine nodup_concat_of_fresh h.attempts_unique fun id hid => ?_
    obtain ⟨old, hold, rfl⟩ := List.mem_map.mp hid
    exact (hnew old hold).1
  · rw [hreceipts, List.map_append]
    refine nodup_concat_of_fresh h.receipts_unique fun id hid => ?_
    obtain ⟨old, hold, rfl⟩ := List.mem_map.mp hid
    exact (hnew old hold).2
  · intro other hother
    rw [hreceipts, List.mem_append, List.mem_singleton] at hother
    rcases hother with hother | rfl
    · exact hsettled.receipt_completed other hother
    · obtain ⟨claim, hclaim, hattempt, htoken, hincomplete⟩ := hclaimed
      refine ⟨{ claim with completedAt := some now, recoveryState := .completed }, ?_, hattempt,
        rfl⟩
      rw [hclaims]
      exact mem_updateWhere.mpr ⟨claim, hclaim, by simp [hattempt, htoken, hincomplete]⟩

/-- A consumption keeps the identifiers of receipts. -/
theorem consume (h : HostInvariant db) {test : HostReceipt → Bool}
    {change : HostReceipt → HostReceipt}
    (hid : ∀ receipt, (change receipt).receiptId = receipt.receiptId)
    (hattempt : ∀ receipt, (change receipt).attemptId = receipt.attemptId)
    (hclaims : db'.hostClaims = db.hostClaims)
    (hreceipts : db'.hostReceipts = updateWhere test change db.hostReceipts) :
    HostInvariant db' where
  claims_unique := by
    rw [hclaims]
    exact h.claims_unique
  settled_iff := by
    rw [hclaims]
    exact h.settled_iff
  attempts_unique := by
    rw [hreceipts]
    exact nodup_map_updateWhere hattempt h.attempts_unique
  receipts_unique := by
    rw [hreceipts]
    exact nodup_map_updateWhere hid h.receipts_unique
  receipt_completed := by
    intro receipt' hreceipt'
    rw [hreceipts] at hreceipt'
    rw [hclaims]
    obtain ⟨receipt, hreceipt, rfl⟩ := mem_updateWhere.mp hreceipt'
    split
    · rw [hattempt]
      exact h.receipt_completed receipt hreceipt
    · exact h.receipt_completed receipt hreceipt

end HostInvariant

theorem hostInvariant_empty : HostInvariant Db.empty where
  claims_unique := List.nodup_nil
  settled_iff := by simp [Db.empty]
  attempts_unique := List.nodup_nil
  receipts_unique := List.nodup_nil
  receipt_completed := by simp [Db.empty]

theorem pending_of_recovered (h : HostInvariant db) {ids : List Id}
    (hpending : ∀ id ∈ ids, ∃ claim ∈ db.hostClaims, claim.attemptId = id ∧
      claim.recoveryState = .pending) {claim : HostClaim} (hclaim : claim ∈ db.hostClaims)
    (hid : ids.contains claim.attemptId = true) : claim.recoveryState = .pending := by
  obtain ⟨due, hdue, hattempt, hstate⟩ := hpending _ (List.contains_iff_mem.mp hid)
  rwa [h.claim_eq hdue hclaim hattempt] at hstate

/-- Every operation keeps the invariant. -/
theorem hostInvariant_step (op : Op) (h : HostInvariant db) :
    HostInvariant (step P policy db op) := by
  have hhosting := @hosting_step P policy db op
  generalize step P policy db op = db' at hhosting
  cases hhosting with
  | idle _ _ hclaims hreceipts =>
    exact h.congr hclaims hreceipts
  | claimed _ _ claim hbegins hclaims hreceipts => exact h.claim hbegins hclaims hreceipts
  | recorded _ _ receipt token now hclaimed hfresh hunconsumed hclaims hreceipts =>
    exact h.record hclaimed hfresh hclaims hreceipts
  | extended _ _ test now recoverAfter hpending hclaims hreceipts =>
    exact h.of_updateWhere (by exact fun _ => rfl) (fun claim _ => hpending claim)
      (by exact fun claim hclaim _ => h.settled_iff claim hclaim) hclaims hreceipts
  | recovered _ _ ids now hpending hclaims hreceipts =>
    refine h.of_updateWhere (by exact fun _ => rfl) ?_ (by simp) hclaims hreceipts
    exact fun claim hclaim hid => pending_of_recovered h hpending hclaim hid
  | leanConsumed _ _ _ _ _ hclaims hreceipts | checkerConsumed _ _ _ _ _ hclaims hreceipts =>
    exact h.consume (by exact fun _ => rfl) (by exact fun _ => rfl) hclaims hreceipts

/-- A claim that has been settled is not written again. -/
theorem settled_step (h : HostInvariant db) (op : Op) {claim : HostClaim}
    (hclaim : claim ∈ db.hostClaims) (hsettled : claim.recoveryState ≠ .pending) :
    claim ∈ (step P policy db op).hostClaims := by
  have hkept : ∀ {test : HostClaim → Bool} {change : HostClaim → HostClaim}, test claim = false →
      claim ∈ updateWhere test change db.hostClaims := by
    intro test change htest
    exact mem_updateWhere.mpr ⟨claim, hclaim, if_neg (by simp [htest])⟩
  have hhosting := @hosting_step P policy db op
  generalize step P policy db op = db' at hhosting
  cases hhosting with
  | idle _ _ hclaims | leanConsumed _ _ _ _ _ hclaims | checkerConsumed _ _ _ _ _ hclaims =>
    rwa [hclaims]
  | claimed _ _ new hbegins hclaims hreceipts =>
    rw [hclaims]
    exact List.mem_append_left _ hclaim
  | recorded _ _ receipt token now hclaimed hfresh hunconsumed hclaims hreceipts =>
    rw [hclaims]
    refine hkept ?_
    have hcompleted := (h.settled_iff claim hclaim).mpr hsettled
    simp [Option.isNone_eq_false_iff.mpr hcompleted]
  | extended _ _ test now recoverAfter hpending hclaims hreceipts =>
    rw [hclaims]
    refine hkept ?_
    by_contra htest
    exact hsettled (hpending claim (by simpa using htest))
  | recovered _ _ ids now hpending hclaims hreceipts =>
    rw [hclaims]
    refine hkept ?_
    by_contra hid
    exact hsettled (pending_of_recovered h hpending hclaim (by simpa using hid))

end Settling

/-! ## Receipts are consumed once -/

section Consuming

variable {P : Platform} {policy : Policy} {loads : List Char → Option JsonObject} {db db' : Db}

/-- A receipt stays with its payload. -/
theorem receipt_step (op : Op) {receipt : HostReceipt} (hreceipt : receipt ∈ db.hostReceipts) :
    ∃ receipt' ∈ (step P policy db op).hostReceipts, receipt'.receiptId = receipt.receiptId ∧
      receipt'.payloadText = receipt.payloadText := by
  have hupdated : ∀ {test : HostReceipt → Bool} {change : HostReceipt → HostReceipt},
      (∀ receipt, (change receipt).receiptId = receipt.receiptId ∧
        (change receipt).payloadText = receipt.payloadText) →
      ∃ receipt' ∈ updateWhere test change db.hostReceipts,
        receipt'.receiptId = receipt.receiptId ∧ receipt'.payloadText = receipt.payloadText := by
    intro test change hchange
    refine ⟨_, mem_updateWhere.mpr ⟨receipt, hreceipt, rfl⟩, ?_⟩
    split
    · exact hchange receipt
    · exact ⟨rfl, rfl⟩
  have hhosting := @hosting_step P policy db op
  generalize step P policy db op = db' at hhosting
  cases hhosting with
  | idle _ _ hclaims hreceipts | claimed _ _ new hbegins hclaims hreceipts
  | extended _ _ test now recoverAfter hpending hclaims hreceipts
  | recovered _ _ ids now hpending hclaims hreceipts =>
    exact ⟨receipt, by rwa [hreceipts], rfl, rfl⟩
  | recorded _ _ new token now hclaimed hfresh hunconsumed hclaims hreceipts =>
    refine ⟨receipt, ?_, rfl, rfl⟩
    rw [hreceipts]
    exact List.mem_append_left _ hreceipt
  | leanConsumed _ use feedbackId _ _ hclaims hreceipts
  | checkerConsumed _ use verificationId _ _ hclaims hreceipts =>
    rw [hreceipts]
    exact hupdated (by exact fun _ => ⟨rfl, rfl⟩)

theorem hostInvariant_reached (P : Platform) (policy : Policy) (ops : List Op) :
    HostInvariant (reached P policy ops) :=
  @runFrom_invariant Db Op (step P policy) HostInvariant Db.empty hostInvariant_empty
    (fun _ op h => hostInvariant_step op h) ops

variable {receipt : HostReceipt}

/-- The verdict of a receipt does not change along a run. -/
theorem kernelVerdict_of_run {early late : List Op} {receipt' : HostReceipt}
    (hreceipt : receipt ∈ (reached P policy early).hostReceipts)
    (hreceipt' : receipt' ∈ (reached P policy (early ++ late)).hostReceipts)
    (hid : receipt'.receiptId = receipt.receiptId) :
    receipt'.kernelVerdict loads = receipt.kernelVerdict loads := by
  have hstays : ∃ kept ∈ (reached P policy (early ++ late)).hostReceipts,
      kept.receiptId = receipt.receiptId ∧ kept.payloadText = receipt.payloadText := by
    refine runFrom_stays (I := fun db : Db => ∃ kept ∈ db.hostReceipts,
      kept.receiptId = receipt.receiptId ∧ kept.payloadText = receipt.payloadText)
      ⟨receipt, hreceipt, rfl, rfl⟩ ?_ late
    rintro _ op ⟨kept, hkept, hkeptId, hpayload⟩
    obtain ⟨next, hnext, hnextId, hnextPayload⟩ := receipt_step op hkept
    exact ⟨next, hnext, hnextId.trans hkeptId, hnextPayload.trans hpayload⟩
  obtain ⟨kept, hkept, hkeptId, hpayload⟩ := hstays
  have heq := (hostInvariant_reached P policy (early ++ late)).receipt_eq hreceipt' hkept
    (hid.trans hkeptId.symm)
  unfold HostReceipt.kernelVerdict
  rw [heq, hpayload]

/-- What the services of the host issue fits the verdicts. -/
theorem fitsVerdict_of_servedBy {ops : List Op} (h : ServedBy P policy loads ops) :
    StepsSatisfy (step P policy) (FitsVerdict loads) Db.empty ops := by
  intro before op after hsplit
  cases op with
  | consumeHostLeanReceipt capability use feedbackId toolchain =>
    obtain ⟨early, late, rfl, hissued⟩ := h before _ after hsplit rfl
    obtain ⟨read, hread, hreadId, hverdict⟩ := issued_lean hissued
    intro receipt hreceipt hid
    exact (kernelVerdict_of_run hread hreceipt (hid.trans hreadId.symm)).trans hverdict
  | consumeHostCheckerReceipt capability use verificationId rootKind =>
    obtain ⟨early, late, rfl, hissued⟩ := h before _ after hsplit rfl
    obtain ⟨read, hread, hreadId, hverdict⟩ := issued_checker hissued
    intro receipt hreceipt hid
    exact (kernelVerdict_of_run hread hreceipt (hid.trans hreadId.symm)).trans hverdict
  | _ => trivial

/-- Receipts keep being consumed as their verdicts say. -/
theorem verdictsFit_step {op : Op} (hfits : FitsVerdict loads db op) (h : VerdictsFit loads db) :
    VerdictsFit loads (step P policy db op) := by
  have hhosting := @hosting_step P policy db op
  generalize step P policy db op = db' at hhosting
  intro receipt' hreceipt'
  cases hhosting with
  | idle _ _ hclaims hreceipts | claimed _ _ new hbegins hclaims hreceipts
  | extended _ _ test now recoverAfter hpending hclaims hreceipts
  | recovered _ _ ids now hpending hclaims hreceipts => exact h receipt' (hreceipts ▸ hreceipt')
  | recorded _ _ new token now hclaimed hfresh hunconsumed hclaims hreceipts =>
    rw [hreceipts, List.mem_append, List.mem_singleton] at hreceipt'
    rcases hreceipt' with hreceipt' | rfl
    · exact h receipt' hreceipt'
    · simp only [HostReceipt.isConsumed, Bool.or_eq_false_iff] at hunconsumed
      simp [hunconsumed.1, hunconsumed.2]
  | leanConsumed _ use feedbackId _ _ hclaims hreceipts =>
    rw [hreceipts] at hreceipt'
    obtain ⟨receipt, hreceipt, rfl⟩ := mem_updateWhere.mp hreceipt'
    split
    · rename_i htest
      simp only [Bool.and_eq_true, beq_iff_eq] at htest
      exact ⟨fun _ => hfits receipt hreceipt htest.1, (h receipt hreceipt).2⟩
    · exact h receipt hreceipt
  | checkerConsumed _ use verificationId _ _ hclaims hreceipts =>
    rw [hreceipts] at hreceipt'
    obtain ⟨receipt, hreceipt, rfl⟩ := mem_updateWhere.mp hreceipt'
    split
    · rename_i htest
      simp only [Bool.and_eq_true, beq_iff_eq] at htest
      exact ⟨(h receipt hreceipt).1, fun _ => hfits receipt hreceipt htest.1.1⟩
    · exact h receipt hreceipt

theorem VerdictsFit.one_consumer (h : VerdictsFit loads db) (hreceipt : receipt ∈ db.hostReceipts) :
    ¬ (receipt.consumedByFeedbackId.isSome = true ∧
      receipt.consumedByVerificationId.isSome = true) := by
  rintro ⟨hfeedback, hverification⟩
  have hreplay := (h receipt hreceipt).1 hfeedback
  rw [(h receipt hreceipt).2 hverification] at hreplay
  exact absurd (Option.some.inj hreplay) (by decide)

theorem feedback_of_fits (h : VerdictsFit loads db) {capability : VerifiedCapability}
    {use : ReceiptUse} {feedbackId : Id} {toolchain : String} (hfits : FitsVerdict loads db
      (.consumeHostLeanReceipt capability use feedbackId toolchain))
    (hreceipt : receipt ∈ db.hostReceipts) (hid : receipt.receiptId = use.receiptId)
    (hconsumed : receipt.isConsumed = true) : receipt.consumedByFeedbackId.isSome = true := by
  unfold HostReceipt.isConsumed at hconsumed
  rw [Bool.or_eq_true] at hconsumed
  refine hconsumed.resolve_right fun hverification => ?_
  have hcertificate := (h receipt hreceipt).2 hverification
  rw [hfits receipt hreceipt hid] at hcertificate
  exact absurd (Option.some.inj hcertificate) (by decide)

/-- A consumed receipt is not written again. -/
theorem consumed_step {op : Op} (hfits : FitsVerdict loads db op) (h : VerdictsFit loads db)
    (hreceipt : receipt ∈ db.hostReceipts) (hconsumed : receipt.isConsumed = true) :
    receipt ∈ (step P policy db op).hostReceipts := by
  have hhosting := @hosting_step P policy db op
  generalize step P policy db op = db' at hhosting
  cases hhosting with
  | idle _ _ hclaims hreceipts | claimed _ _ new hbegins hclaims hreceipts
  | extended _ _ test now recoverAfter hpending hclaims hreceipts
  | recovered _ _ ids now hpending hclaims hreceipts => rwa [hreceipts]
  | recorded _ _ new token now hclaimed hfresh hunconsumed hclaims hreceipts =>
    rw [hreceipts]
    exact List.mem_append_left _ hreceipt
  | leanConsumed _ use feedbackId _ _ hclaims hreceipts =>
    rw [hreceipts]
    refine mem_updateWhere.mpr ⟨receipt, hreceipt, if_neg fun htest => ?_⟩
    simp only [Bool.and_eq_true, beq_iff_eq, Option.isNone_iff_eq_none] at htest
    have hfeedback := feedback_of_fits h hfits hreceipt htest.1 hconsumed
    simp [htest.2] at hfeedback
  | checkerConsumed _ use verificationId _ _ hclaims hreceipts =>
    rw [hreceipts]
    refine mem_updateWhere.mpr ⟨receipt, hreceipt, if_neg fun htest => ?_⟩
    simp only [Bool.and_eq_true, Option.isNone_iff_eq_none] at htest
    simp [HostReceipt.isConsumed, htest.1.2, htest.2] at hconsumed

/-- The receipt that a consumption joins. -/
theorem receiptRows?_eq_some {receiptId : Id} {rows : ReceiptRows}
    (h : db.receiptRows? receiptId = some rows) :
    rows.receipt ∈ db.hostReceipts ∧ rows.receipt.receiptId = receiptId := by
  obtain ⟨receipt, hreceipt, h⟩ := Option.bind_eq_some_iff.mp h
  obtain ⟨run, -, h⟩ := Option.bind_eq_some_iff.mp h
  obtain ⟨route, -, h⟩ := Option.bind_eq_some_iff.mp h
  obtain ⟨claim, -, h⟩ := Option.bind_eq_some_iff.mp h
  obtain ⟨attempt, -, h⟩ := Option.bind_eq_some_iff.mp h
  cases Option.some.inj h
  exact ⟨List.mem_of_find?_eq_some hreceipt, by simpa using List.find?_some hreceipt⟩

/-- A second consumption of a receipt changes nothing. -/
theorem sameBody_of_consumed (hinvariant : HostInvariant db) {op : Op}
    (hfits : FitsVerdict loads db op) (h : VerdictsFit loads db)
    (hreceipt : receipt ∈ db.hostReceipts) (hconsumed : receipt.isConsumed = true)
    (hop : op.consumedReceipt? = some receipt.receiptId) :
    SameBody db (step P policy db op) := by
  have hmove := @move_step P policy db op
  generalize step P policy db op = db' at hmove
  cases hmove with
  | idle _ _ same => exact same
  | leanConsumed capability use feedbackId toolchain _ rows _ _ _ verified hrows heligible _ same =>
    exfalso
    obtain ⟨hmem, hid⟩ := receiptRows?_eq_some hrows
    have hreceiptId : receipt.receiptId = use.receiptId := (Option.some.inj hop).symm
    have heq := hinvariant.receipt_eq hmem hreceipt (hid.trans hreceiptId.symm)
    have hfeedback := feedback_of_fits h hfits hreceipt hreceiptId hconsumed
    unfold ReceiptRows.leanEligible at heligible
    simp only [Bool.and_eq_true, Option.isNone_iff_eq_none, heq] at heligible
    simp [heligible.1.1.1.1.1.1.2] at hfeedback
  | checkerConsumed capability use verificationId rootKind _ rows _ _ _ hrows heligible same =>
    exfalso
    obtain ⟨hmem, hid⟩ := receiptRows?_eq_some hrows
    have heq := hinvariant.receipt_eq hmem hreceipt (hid.trans (Option.some.inj hop))
    unfold ReceiptRows.checkerEligible at heligible
    simp only [Bool.and_eq_true, Option.isNone_iff_eq_none, heq] at heligible
    simp [HostReceipt.isConsumed, heligible.1.1.2, heligible.1.2] at hconsumed
  | created | applied | reported | claimed | recorded | beaten | recovered => cases hop

theorem verdictsFit_reached {ops : List Op}
    (h : StepsSatisfy (step P policy) (FitsVerdict loads) Db.empty ops) :
    VerdictsFit loads (reached P policy ops) :=
  @runFrom_invariant_of Db Op (step P policy) (VerdictsFit loads) (FitsVerdict loads) Db.empty
    (by simp [VerdictsFit, Db.empty]) (fun _ _ hfit hop => verdictsFit_step hop hfit) ops h

/-- Rows with distinct keys have at most one row for each key. -/
theorem length_filter_le_one {ρ : Type} {column : ρ → Id} {rows : List ρ}
    (h : (rows.map column).Nodup) (id : Id) :
    (rows.filter fun row => column row == id).length ≤ 1 := by
  have hle := List.nodup_iff_count_le_one.mp h id
  rw [List.count, List.countP_map, List.countP_eq_length_filter] at hle
  exact hle

theorem executedOnce (hinvariant : HostInvariant db) (hfit : VerdictsFit loads db) :
    ExecutedOnce db where
  one_claim := length_filter_le_one hinvariant.claims_unique
  settled_iff := hinvariant.settled_iff
  one_receipt := length_filter_le_one hinvariant.attempts_unique
  receipt_completed := hinvariant.receipt_completed
  fused_unrecorded := by
    intro claim hclaim hfused receipt hreceipt hattempt
    obtain ⟨completed, hcompleted, hid, hstate⟩ := hinvariant.receipt_completed receipt hreceipt
    rw [hinvariant.claim_eq hcompleted hclaim (hid.trans hattempt), hfused] at hstate
    cases hstate
  one_consumer := fun _ hreceipt => hfit.one_consumer hreceipt

/-- In every run in which receipts are consumed by services of the host, each attempt is
executed at most once, its claim is settled once, and its receipt is consumed once. -/
theorem one_shot_of_served (P : Platform) (policy : Policy)
    (loads : List Char → Option JsonObject) (ops : List Op) (h : ServedBy P policy loads ops) :
    OneShot P policy ops := by
  have hsteps := fitsVerdict_of_servedBy h
  refine ⟨?_, ?_, ?_, ?_⟩
  · rintro early late rfl
    exact executedOnce (hostInvariant_reached P policy early) (verdictsFit_reached hsteps.left)
  · rintro early late rfl claim hclaim hsettled
    have hstays : claim ∈ (reached P policy (early ++ late)).hostClaims := by
      unfold reached
      rw [runFrom_append]
      refine (@runFrom_invariant Db Op (step P policy)
        (fun db => HostInvariant db ∧ claim ∈ db.hostClaims) _
        ⟨hostInvariant_reached P policy early, hclaim⟩ ?_ late).2
      exact fun db op hdb => ⟨hostInvariant_step op hdb.1, settled_step hdb.1 op hdb.2 hsettled⟩
    refine ⟨⟨claim, hstays, rfl⟩, ?_⟩
    intro claim' hclaim' hid
    rw [(hostInvariant_reached P policy (early ++ late)).claim_eq hclaim' hstays hid]
  · rintro early late rfl receipt hreceipt hconsumed
    -- The steps of the later part satisfy the condition from where the first part ends.
    have hlate : StepsSatisfy (step P policy) (FitsVerdict loads) (reached P policy early) late := by
      intro before op after hsplit
      have hop := hsteps (early ++ before) op after (by simp [hsplit])
      rwa [runFrom_append] at hop
    unfold reached
    rw [runFrom_append]
    refine (@runFrom_invariant_of Db Op (step P policy)
      (fun db => VerdictsFit loads db ∧ receipt ∈ db.hostReceipts) (FitsVerdict loads) _
      ⟨verdictsFit_reached hsteps.left, hreceipt⟩ ?_ late hlate).2
    exact fun db op hdb hop =>
      ⟨verdictsFit_step hop hdb.1, consumed_step hop hdb.1 hdb.2 hconsumed⟩
  · rintro before op after rfl receipt hreceipt hconsumed hop
    exact sameBody_of_consumed (hostInvariant_reached P policy before)
      (hsteps before op after rfl) (verdictsFit_reached hsteps.left) hreceipt hconsumed hop

end Consuming

/-- A run in which nothing is consumed, followed by what a service issues in its last state. -/
theorem servedBy_append_issued {P : Platform} {policy : Policy}
    {loads : List Char → Option JsonObject} {ops : List Op} {issued : Option Op}
    (hops : ∀ op ∈ ops, op.isConsumption = false)
    (hissued : ∀ op ∈ issued, Issued P loads (reached P policy ops) op) :
    ServedBy P policy loads (ops ++ issued.toList) := by
  intro before op after hsplit hconsumption
  have hmem : op ∈ ops ++ issued.toList := by simp [hsplit]
  have hnotops : op ∉ ops := by
    intro hop
    rw [hops op hop] at hconsumption
    cases hconsumption
  -- The operation is the issued one, so all that stands before it is the run.
  have hop : op ∈ issued := by simpa [hnotops] using hmem
  have hbefore : before = ops := by
    rw [Option.mem_def.mp hop, Option.toList_some] at hsplit
    rcases List.append_eq_append_iff.mp hsplit with ⟨rest, hrest, hlast⟩ | ⟨rest, hrest, hlast⟩
    · cases rest with
      | nil => simpa using hrest
      | cons first rest => simp at hlast
    · cases rest with
      | nil => simpa using hrest.symm
      | cons first rest =>
        obtain ⟨rfl, -⟩ := List.cons.inj hlast
        exact absurd (by simp [hrest]) hnotops
  exact ⟨ops, [], by simpa using hbefore, hissued op hop⟩

/-- In the run of the sample the service consumes the receipt that it has signed, once. -/
theorem one_shot_of_signed :
    OneShot Sample.servicePlatform Sample.policy (Sample.signed ++ Sample.consumeSigned.toList) ∧
      ∃ row ∈ (reached Sample.servicePlatform Sample.policy
        (Sample.signed ++ Sample.consumeSigned.toList)).hostReceipts,
        row.receiptId = Sample.receipt ∧ row.consumedByFeedbackId.isSome = true := by
  have hserved : ServedBy Sample.servicePlatform Sample.policy Sample.loads
      (Sample.signed ++ Sample.consumeSigned.toList) :=
    servedBy_append_issued Sample.outcomes.host.signed_unconsumed
      fun _ hop => .lean Sample.service _ _ _ _ hop
  exact ⟨one_shot_of_served _ _ _ _ hserved, Sample.outcomes.host.signed_consumed⟩

end ResearchKernel
