import ResearchKernel.Product.ClaimLineage

/-!
# Attempts that submit again

An attempt submits one claim. When it submits again, the store finds the claim by the attempt and
compares the digest of its statement. So a second submission with the same statement is answered
with the stored claim, whatever facts, evidence or labels it names.
-/

namespace ResearchKernel.Product.Claims

open Foundation

/-! ## What a submission is about -/

/-- Two submissions of one attempt. -/
structure SameAttempt (a b : ClaimSubmission) : Prop where
  runId : a.runId = b.runId
  workerRunId : a.workerRunId = b.workerRunId
  attemptId : a.attemptId = b.attemptId

/-- Two submissions that say the same. -/
structure SameContent (P : Platform) (a b : ClaimSubmission) : Prop where
  statement : a.normalizedStatement P = b.normalizedStatement P
  claimKind : a.claimKind = b.claimKind
  predecessorFactIds : a.predecessorFactIds = b.predecessorFactIds
  evidence : a.proofOrEvidenceArtifacts = b.proofOrEvidenceArtifacts
  sourceBinding : a.sourceBindingArtifact = b.sourceBindingArtifact
  workItemId : a.workItemId = b.workItemId
  routeId : a.routeId = b.routeId
  supersedesClaimId : a.supersedesClaimId = b.supersedesClaimId
  stableLabel : a.stableLabel = b.stableLabel

/-- Whether a row is the claim of an attempt. -/
def ofAttempt (submission : ClaimSubmission) (row : ProductClaim) : Bool :=
  row.runId == submission.runId && row.workerRunId == submission.workerRunId &&
    row.attemptId == submission.attemptId

/-- A claim as it was submitted: what verdicts and repairs write is taken away. -/
def ProductClaim.asSubmitted (row : ProductClaim) : ProductClaim :=
  { row with
    kernelRevisionDecided := none
    lifecycle := .pendingVerification
    authorityClass := .researchHistory
    promotionEligible := false
    supersededByClaimId := none
    repairFeedback := none
    validationId := none
    kernelReceiptId := none
    kernelEventId := none
    updatedAt := row.createdAt }

/-- The tables have the claim of a submission, with its facts and its evidence, and no other claim
of the attempt. -/
structure Stores (P : Platform) (submission : ClaimSubmission) (claimId : Id) (s : ClaimLedger) :
    Prop where
  ids : (s.claims.map ProductClaim.claimId).Nodup
  row : ∃ row ∈ s.claims, ∃ subjectId created,
    row.asSubmitted = newClaim P submission subjectId claimId created
  single : ∀ row ∈ s.claims, ofAttempt submission row = true → row.claimId = claimId
  predecessors : predecessorFactIds s claimId = submission.predecessorFactIds
  evidence : evidenceArtifacts s claimId = submission.proofOrEvidenceArtifacts

/-! ## The tables keep a claim -/

section Tables

variable {P : Platform} {s s' : ClaimLedger} {submission : ClaimSubmission}
  {subjectId claimId : Id} {now : Stamp}

/-- Every claim has an attempt of its own, and facts and evidence belong to claims. -/
structure Filed (s : ClaimLedger) : Prop where
  lineage : Lineage s
  attempts : s.claims.Pairwise fun a b =>
    ¬(a.runId = b.runId ∧ a.workerRunId = b.workerRunId ∧ a.attemptId = b.attemptId)
  evidence : ∀ row ∈ s.evidence, ∃ claim ∈ s.claims, claim.claimId = row.claimId

/-- The tables after a submission that adds a claim. -/
structure Added (P : Platform) (s : ClaimLedger) (submission : ClaimSubmission)
    (subjectId claimId : Id) (now : Stamp) (s' : ClaimLedger) : Prop where
  submitted : Submitted P s submission subjectId claimId now s'
  fresh : ∀ row ∈ s.claims, ofAttempt submission row = false
  predecessors : s'.predecessors = s.predecessors ++
    submission.predecessorFactIds.mapIdx fun ordinal factId => ⟨claimId, factId, ordinal⟩
  evidence : s'.evidence = s.evidence ++
    submission.proofOrEvidenceArtifacts.mapIdx fun ordinal binding => ⟨claimId, ordinal, binding⟩

theorem added_of_submit {record : ClaimRecord}
    (h : submit P s submission subjectId claimId now = .ok (record, s')) :
    s' = s ∨ Added P s submission subjectId claimId now s' := by
  have hspec := submit_spec h
  obtain ⟨_, -, h⟩ := bind_eq_ok.mp h
  split at h
  · obtain ⟨_, -, h⟩ := bind_eq_ok.mp h
    obtain ⟨_, -, h⟩ := bind_eq_ok.mp h
    cases pure_eq_ok.mp h
    exact Or.inl rfl
  · rename_i hnone
    obtain ⟨_, -, h⟩ := bind_eq_ok.mp h
    obtain ⟨_, -, h⟩ := bind_eq_ok.mp h
    obtain ⟨_, -, h⟩ := bind_eq_ok.mp h
    obtain ⟨claims, -, h⟩ := bind_eq_ok.mp h
    obtain ⟨predecessors, hpredecessors, h⟩ := bind_eq_ok.mp h
    obtain ⟨evidence, hevidence, h⟩ := bind_eq_ok.mp h
    obtain ⟨claims', -, h⟩ := bind_eq_ok.mp h
    obtain ⟨_, -, h⟩ := bind_eq_ok.mp h
    cases pure_eq_ok.mp h
    refine hspec.imp_right fun hsubmitted => ⟨hsubmitted, fun row hrow => ?_,
      eq_append_of_insertRows (orReject_eq_ok.mp hpredecessors),
      eq_append_of_insertRows (orReject_eq_ok.mp hevidence)⟩
    exact Bool.eq_false_iff.mpr (List.find?_eq_none.mp hnone row hrow)

variable {ρ : Type}

/-- Rows that are numbered in the order of some values are read back in that order. -/
theorem map_insertionSort_mapIdx {α : Type} {mk : ℕ → α → ρ} {ordinal : ρ → ℕ} {value : ρ → α}
    (hordinal : ∀ i a, ordinal (mk i a) = i) (hvalue : ∀ i a, value (mk i a) = a) (xs : List α) :
    ((xs.mapIdx mk).insertionSort (ordinal · ≤ ordinal ·)).map value = xs := by
  have hsorted : (xs.mapIdx mk).Pairwise (ordinal · ≤ ordinal ·) := by
    rw [List.pairwise_iff_getElem]
    intro i j hi hj hlt
    rw [List.getElem_mapIdx, List.getElem_mapIdx, hordinal, hordinal]
    exact Nat.le_of_lt hlt
  rw [hsorted.insertionSort_eq]
  refine List.ext_getElem (by simp) fun i hi hi' => ?_
  rw [List.getElem_map, List.getElem_mapIdx, hvalue]

theorem filter_append_of_fresh {owner : ρ → Id} {old new : List ρ}
    (hold : ∀ row ∈ old, owner row ≠ claimId) (hnew : ∀ row ∈ new, owner row = claimId) :
    (old ++ new).filter (owner · == claimId) = new := by
  have hnone : old.filter (owner · == claimId) = [] :=
    List.filter_eq_nil_iff.mpr fun row hrow heq => hold row hrow (beq_iff_eq.mp heq)
  have hall : new.filter (owner · == claimId) = new :=
    List.filter_eq_self.mpr fun row hrow => beq_iff_eq.mpr (hnew row hrow)
  rw [List.filter_append, hnone, hall, List.nil_append]

theorem filter_append_of_other {owner : ρ → Id} {old new : List ρ}
    (hnew : ∀ row ∈ new, owner row ≠ claimId) :
    (old ++ new).filter (owner · == claimId) = old.filter (owner · == claimId) := by
  have hnone : new.filter (owner · == claimId) = [] :=
    List.filter_eq_nil_iff.mpr fun row hrow heq => hnew row hrow (beq_iff_eq.mp heq)
  rw [List.filter_append, hnone, List.append_nil]

/-- A submission that adds a claim stores it. -/
theorem Filed.stores (hs : Filed s) (h : Added P s submission subjectId claimId now s') :
    Stores P submission claimId s' := by
  have hfresh := h.submitted.fresh
  have hclaims := h.submitted.claims
  refine ⟨(lineage_submitted hs.lineage h.submitted).ids, ?_, ?_, ?_, ?_⟩
  · have hlast := List.mem_append_right s.claims
      (List.mem_singleton_self (newClaim P submission subjectId claimId now))
    rw [hclaims]
    refine ⟨_, mem_updateWhere.mpr ⟨_, hlast, rfl⟩, subjectId, now, ?_⟩
    split <;> rfl
  · intro row hrow hattempt
    rw [hclaims] at hrow
    obtain ⟨old, hold, rfl⟩ := mem_updateWhere.mp hrow
    have hsame : ofAttempt submission old = true := by
      split at hattempt <;> exact hattempt
    rcases List.mem_append.mp hold with hold | hnew
    · rw [h.fresh old hold] at hsame
      cases hsame
    · obtain rfl := List.mem_singleton.mp hnew
      split <;> rfl
  · have howned : ∀ row ∈ s.predecessors, row.claimId ≠ claimId := by
      intro row hrow heq
      obtain ⟨claim, hclaim, -, -, hid, -⟩ := hs.lineage.facts row.claimId row.factId
        ⟨row, hrow, rfl, rfl⟩
      exact hfresh claim hclaim (hid.trans heq)
    rw [predecessorFactIds, h.predecessors, filter_append_of_fresh howned]
    · exact map_insertionSort_mapIdx (fun _ _ => rfl) (fun _ _ => rfl) _
    · intro row hrow
      obtain ⟨ordinal, -, rfl⟩ := List.mem_mapIdx.mp hrow
      rfl
  · have howned : ∀ row ∈ s.evidence, row.claimId ≠ claimId := by
      intro row hrow heq
      obtain ⟨claim, hclaim, hid⟩ := hs.evidence row hrow
      exact hfresh claim hclaim (hid.trans heq)
    rw [evidenceArtifacts, h.evidence, filter_append_of_fresh howned]
    · exact map_insertionSort_mapIdx (fun _ _ => rfl) (fun _ _ => rfl) _
    · intro row hrow
      obtain ⟨ordinal, -, rfl⟩ := List.mem_mapIdx.mp hrow
      rfl

/-- Columns that verdicts and repairs leave alone are those of the rows as they were submitted. -/
theorem asSubmitted_updateWhere (test : ProductClaim → Bool) {change : ProductClaim → ProductClaim}
    (hchange : ∀ row, (change row).asSubmitted = row.asSubmitted) (row : ProductClaim) :
    (if test row then change row else row).asSubmitted = row.asSubmitted := by
  split
  · exact hchange row
  · rfl

/-- The claim of a row as it was submitted is that of the row. -/
theorem ofAttempt_congr (first : ClaimSubmission) {a b : ProductClaim}
    (h : a.asSubmitted = b.asSubmitted) :
    ofAttempt first a = ofAttempt first b ∧ a.claimId = b.claimId := by
  have hrun : a.runId = b.runId :=
    show a.asSubmitted.runId = b.asSubmitted.runId from congrArg ProductClaim.runId h
  have hworker : a.workerRunId = b.workerRunId :=
    show a.asSubmitted.workerRunId = b.asSubmitted.workerRunId from congrArg ProductClaim.workerRunId h
  have hattempt : a.attemptId = b.attemptId :=
    show a.asSubmitted.attemptId = b.asSubmitted.attemptId from congrArg ProductClaim.attemptId h
  have hid : a.claimId = b.claimId :=
    show a.asSubmitted.claimId = b.asSubmitted.claimId from congrArg ProductClaim.claimId h
  refine ⟨?_, hid⟩
  rw [ofAttempt, ofAttempt, hrun, hworker, hattempt]

/-- A claim is kept where no claim of its attempt is added. -/
theorem Stores.keeps {first : ClaimSubmission} (h : Stores P first claimId s)
    (hids : (s'.claims.map ProductClaim.claimId).Nodup)
    (hkept : ∀ row ∈ s.claims, ∃ row' ∈ s'.claims, row'.asSubmitted = row.asSubmitted)
    (hback : ∀ row' ∈ s'.claims, ofAttempt first row' = true →
      ∃ row ∈ s.claims, row'.asSubmitted = row.asSubmitted)
    (hpredecessors : predecessorFactIds s' claimId = predecessorFactIds s claimId)
    (hevidence : evidenceArtifacts s' claimId = evidenceArtifacts s claimId) :
    Stores P first claimId s' := by
  obtain ⟨row, hrow, subjectId, created, hnew⟩ := h.row
  obtain ⟨row', hrow', hsame⟩ := hkept row hrow
  refine ⟨hids, ⟨row', hrow', subjectId, created, hsame.trans hnew⟩, ?_,
    hpredecessors.trans h.predecessors, hevidence.trans h.evidence⟩
  intro other hother hattempt
  obtain ⟨old, hold, heq⟩ := hback other hother hattempt
  obtain ⟨hsame, hid⟩ := ofAttempt_congr first heq
  rw [hid]
  exact h.single old hold (hsame ▸ hattempt)

theorem Stores.ofAttempt {first : ClaimSubmission} (h : Stores P first claimId s) :
    ∃ row ∈ s.claims, row.claimId = claimId ∧ ofAttempt first row = true ∧
      row.statementDigest = first.statementDigest P := by
  obtain ⟨row, hrow, subjectId, created, hnew⟩ := h.row
  have hself : row.asSubmitted =
      (newClaim P first subjectId claimId created).asSubmitted := hnew.trans rfl
  obtain ⟨hattempt, hid⟩ := ofAttempt_congr first hself
  refine ⟨row, hrow, hid, hattempt.trans ?_, congrArg ProductClaim.statementDigest hnew⟩
  simp [Claims.ofAttempt, newClaim]

/-- Another claim that is added is of another attempt. -/
theorem Stores.added {first : ClaimSubmission} (h : Stores P first claimId s) (hs : Filed s)
    {newId : Id} (hadded : Added P s submission subjectId newId now s') :
    Stores P first claimId s' := by
  obtain ⟨stored, hstored, hid, hattempt, -⟩ := h.ofAttempt
  have hother : newId ≠ claimId := fun heq => hadded.submitted.fresh stored hstored (hid.trans heq.symm)
  have hclaims := hadded.submitted.claims
  have hsuperseded : ∀ row, (superseded newId now row).asSubmitted = row.asSubmitted := fun _ => rfl
  have hsame := asSubmitted_updateWhere (marks submission.supersedesClaimId) hsuperseded
  refine h.keeps (lineage_submitted hs.lineage hadded.submitted).ids ?_ ?_ ?_ ?_
  · intro row hrow
    rw [hclaims]
    exact ⟨_, mem_updateWhere.mpr ⟨row, List.mem_append_left _ hrow, rfl⟩, hsame row⟩
  · intro row' hrow' hfirst
    rw [hclaims] at hrow'
    obtain ⟨row, hrow, rfl⟩ := mem_updateWhere.mp hrow'
    rcases List.mem_append.mp hrow with hold | hnew
    · exact ⟨row, hold, hsame row⟩
    · -- A new claim of the attempt would not have been added, for the stored one is found.
      obtain rfl := List.mem_singleton.mp hnew
      rw [(ofAttempt_congr first (hsame _)).1] at hfirst
      have hfresh := hadded.fresh stored hstored
      simp only [Claims.ofAttempt, newClaim, Bool.and_eq_true, beq_iff_eq] at hfirst hattempt
      simp [Claims.ofAttempt, hattempt, hfirst] at hfresh
  · rw [predecessorFactIds, predecessorFactIds, hadded.predecessors, filter_append_of_other]
    intro row hrow
    obtain ⟨ordinal, -, rfl⟩ := List.mem_mapIdx.mp hrow
    exact hother
  · rw [evidenceArtifacts, evidenceArtifacts, hadded.evidence, filter_append_of_other]
    intro row hrow
    obtain ⟨ordinal, -, rfl⟩ := List.mem_mapIdx.mp hrow
    exact hother

/-- A verdict leaves the claim as it was submitted. -/
theorem Stores.verdict {first : ClaimSubmission} (h : Stores P first claimId s) (hs : Filed s)
    {receipt : KernelVerdictReceipt} {record : ClaimRecord}
    (hverdict : recordKernelVerdict s receipt now = .ok (record, s')) :
    Stores P first claimId s' := by
  obtain ⟨claim, -, -, hclaims, hpredecessors, hevidence, -⟩ := recordKernelVerdict_spec hverdict
  have hdecided : ∀ row, (decided receipt now row).asSubmitted = row.asSubmitted := fun _ => rfl
  have hsame := asSubmitted_updateWhere (·.claimId == receipt.claimId) hdecided
  refine h.keeps (hs.lineage.verdict hverdict).ids ?_ ?_ ?_ ?_
  · intro row hrow
    rw [hclaims]
    exact ⟨_, mem_updateWhere.mpr ⟨row, hrow, rfl⟩, hsame row⟩
  · intro row' hrow' _
    rw [hclaims] at hrow'
    obtain ⟨row, hrow, rfl⟩ := mem_updateWhere.mp hrow'
    exact ⟨row, hrow, hsame row⟩
  · rw [predecessorFactIds, predecessorFactIds, hpredecessors]
  · rw [evidenceArtifacts, evidenceArtifacts, hevidence]

end Tables

/-! ## Runs -/

section Runs

variable {P : Platform} {s s' : ClaimLedger}

variable {subjectId claimId : Id}

theorem Filed.added {submission : ClaimSubmission} {now : Stamp} (hs : Filed s)
    (h : Added P s submission subjectId claimId now s') : Filed s' := by
  have hclaims := h.submitted.claims
  refine ⟨lineage_submitted hs.lineage h.submitted, ?_, ?_⟩
  · rw [hclaims, updateWhere, List.pairwise_map]
    have happended : (s.claims ++ [newClaim P submission subjectId claimId now]).Pairwise
        fun a b => ¬(a.runId = b.runId ∧ a.workerRunId = b.workerRunId ∧
          a.attemptId = b.attemptId) := by
      refine List.pairwise_append.mpr ⟨hs.attempts, List.pairwise_singleton _ _, ?_⟩
      intro row hrow new hnew hsame
      obtain rfl := List.mem_singleton.mp hnew
      have hfresh := h.fresh row hrow
      simp only [newClaim] at hsame
      simp [ofAttempt, hsame] at hfresh
    refine happended.imp fun {a b} hab => ?_
    split <;> split <;> exact hab
  · intro row hrow
    rw [h.evidence, List.mem_append] at hrow
    rw [hclaims]
    rcases hrow with hold | hnew
    · obtain ⟨claim, hclaim, hid⟩ := hs.evidence row hold
      refine ⟨_, mem_updateWhere.mpr ⟨claim, List.mem_append_left _ hclaim, rfl⟩, ?_⟩
      split <;> exact hid
    · obtain ⟨ordinal, -, rfl⟩ := List.mem_mapIdx.mp hnew
      have hlast := List.mem_append_right s.claims
        (List.mem_singleton_self (newClaim P submission subjectId claimId now))
      refine ⟨_, mem_updateWhere.mpr ⟨_, hlast, rfl⟩, ?_⟩
      split <;> rfl

theorem Filed.verdict {receipt : KernelVerdictReceipt} {now : Stamp} {record : ClaimRecord}
    (hs : Filed s) (h : recordKernelVerdict s receipt now = .ok (record, s')) : Filed s' := by
  obtain ⟨claim, -, -, hclaims, -, hevidence, -⟩ := recordKernelVerdict_spec h
  refine ⟨hs.lineage.verdict h, ?_, ?_⟩
  · rw [hclaims, updateWhere, List.pairwise_map]
    refine hs.attempts.imp fun {a b} hab => ?_
    split <;> split <;> exact hab
  · intro row hrow
    rw [hevidence] at hrow
    obtain ⟨claim, hclaim, hid⟩ := hs.evidence row hrow
    rw [hclaims]
    refine ⟨_, mem_updateWhere.mpr ⟨claim, hclaim, rfl⟩, ?_⟩
    split <;> exact hid

/-- What a step does: nothing, or it adds a claim, or it records a verdict. -/
theorem step_cases (P : Platform) (s : ClaimLedger) (op : ClaimOp) :
    step P s op = s ∨
      (∃ submission subjectId claimId now, Added P s submission subjectId claimId now (step P s op)) ∨
      ∃ receipt now record, recordKernelVerdict s receipt now = .ok (record, step P s op) := by
  cases op with
  | submit submission subjectId claimId now =>
    rw [step]
    cases h : checkedSubmit P s submission subjectId claimId now with
    | error error => exact Or.inl rfl
    | ok result =>
      rcases added_of_submit (checkedSubmit_eq_ok h) with heq | hadded
      · exact Or.inl heq
      · exact Or.inr (Or.inl ⟨submission, subjectId, claimId, now, hadded⟩)
  | verdict receipt now =>
    rw [step]
    cases h : recordKernelVerdict s receipt now with
    | error error => exact Or.inl rfl
    | ok result => exact Or.inr (Or.inr ⟨receipt, now, result.1, h⟩)

theorem filed_step (hs : Filed s) (op : ClaimOp) : Filed (step P s op) := by
  rcases step_cases P s op with heq | ⟨submission, subjectId, claimId, now, hadded⟩ |
    ⟨receipt, now, record, hverdict⟩
  · rw [heq]
    exact hs
  · exact hs.added hadded
  · exact hs.verdict hverdict

theorem filed_reached (P : Platform) (history : List ClaimOp) : Filed (reached P history) := by
  have hstart : Filed {} := ⟨lineage_reached P [], List.Pairwise.nil,
    fun _ hrow => absurd hrow List.not_mem_nil⟩
  exact runFrom_invariant hstart (fun _ op hs => filed_step hs op) history

theorem stores_step {first : ClaimSubmission} (hs : Filed s) (h : Stores P first claimId s)
    (op : ClaimOp) : Stores P first claimId (step P s op) := by
  rcases step_cases P s op with heq | ⟨submission, subjectId, newId, now, hadded⟩ |
    ⟨receipt, now, record, hverdict⟩
  · rw [heq]
    exact h
  · exact h.added hs hadded
  · exact h.verdict hs hverdict

theorem stores_reached (P : Platform) (before later : List ClaimOp) {first : ClaimSubmission}
    {now : Stamp} (h : Added P (reached P before) first subjectId claimId now s') :
    Stores P first claimId (runFrom (step P) s' later) := by
  have hstart := filed_reached P before
  have hkeeps : ∀ s op, Filed s ∧ Stores P first claimId s →
      Filed (step P s op) ∧ Stores P first claimId (step P s op) :=
    fun s op hs => ⟨filed_step hs.1 op, stores_step hs.1 hs.2 op⟩
  exact (runFrom_invariant ⟨hstart.added h, hstart.stores h⟩ hkeeps later).2

/-- Along every history an attempt has one claim at most, and a claim stays as submitted. -/
theorem claims_kept_of_history (P : Platform) (early late : List ClaimOp) :
    Filed (reached P (early ++ late)) ∧
      Kept (fun a b : ProductClaim => b.asSubmitted = a.asSubmitted) (reached P early).claims
        (reached P (early ++ late)).claims := by
  let keeps (a b : ProductClaim) : Prop := b.asSubmitted = a.asSubmitted
  have hrefl : ∀ row, keeps row row := fun _ => rfl
  refine ⟨filed_reached P _, runFrom_stays
    (I := fun s : ClaimLedger => Kept keeps (reached P early).claims s.claims)
    (Kept.refl hrefl _) (fun ops op h => ?_) late⟩
  refine h.trans (fun _ _ _ hab hbc => Eq.trans hbc hab) ?_
  rcases step_cases P (reached P ops) op with heq | ⟨_, _, _, _, hadded⟩ | ⟨_, _, _, hverdict⟩
  · exact heq ▸ Kept.refl hrefl _
  · refine hadded.submitted.claims ▸ fun row hrow => ?_
    exact ⟨_, mem_updateWhere.mpr ⟨row, List.mem_append_left _ hrow, rfl⟩,
      asSubmitted_updateWhere _ (by exact fun _ => rfl) row⟩
  · obtain ⟨_, -, -, hclaims, -⟩ := recordKernelVerdict_spec hverdict
    exact hclaims ▸ Kept.updateWhere hrefl (by exact fun _ _ => rfl) _

end Runs

/-! ## Submitting again -/

section Again

variable {P : Platform} {s : ClaimLedger} {first second : ClaimSubmission} {claimId : Id}

/-- Whether a second submission is answered with the stored claim if it says the same, and is
refused otherwise, and changes nothing. -/
structure Idempotent (P : Platform) (s : ClaimLedger) (first second : ClaimSubmission)
    (claimId subjectId newId : Id) (now : Stamp) : Prop where
  same : SameContent P first second → ∃ record, get s claimId = .ok record ∧
    submit P s second subjectId newId now = .ok (record, s)
  other : ¬SameContent P first second →
    ∃ message, submit P s second subjectId newId now = .error (.conflict message)
  unchanged : step P s (.submit second subjectId newId now) = s

/-- A second submission goes by the digest of its statement. -/
theorem submit_again (hstored : Stores P first claimId s) (hattempt : SameAttempt first second)
    {subjectId : Id} (hsubject : subjectId ≠ "") (newId : Id) (now : Stamp) :
    ∃ record, get s claimId = .ok record ∧
      submit P s second subjectId newId now =
        if first.statementDigest P = second.statementDigest P then .ok (record, s)
        else .error (.conflict "one attempt cannot submit more than one Claim") := by
  obtain ⟨row, hrow, hid, hfirst, hdigest'⟩ := hstored.ofAttempt
  have hkey : ∀ row, ofAttempt second row = ofAttempt first row := by
    intro row
    rw [ofAttempt, ofAttempt, hattempt.runId, hattempt.workerRunId, hattempt.attemptId]
  have hsome : (s.claims.find? (ofAttempt second)).isSome :=
    List.find?_isSome.mpr ⟨row, hrow, (hkey row).trans hfirst⟩
  obtain ⟨existing, hfound⟩ := Option.isSome_iff_exists.mp hsome
  have hexisting := List.mem_of_find?_eq_some hfound
  have hsameId := hstored.single existing hexisting
    ((hkey existing).symm.trans (List.find?_some hfound))
  obtain rfl := List.inj_on_of_nodup_map hstored.ids hexisting hrow (hsameId.trans hid.symm)
  obtain ⟨record, hrecord⟩ : ∃ record, get s claimId = .ok record := by
    have hread := find?_of_nodup hstored.ids hrow
    rw [hid] at hread
    exact ⟨_, get_eq_ok.mpr ⟨existing, hread, rfl⟩⟩
  refine ⟨record, hrecord, ?_⟩
  have hfind : (s.claims.find? fun row => row.runId == second.runId &&
      row.workerRunId == second.workerRunId && row.attemptId == second.attemptId) =
        some existing := hfound
  rw [submit, rejectIf_bind_of_passes (beq_false_of_ne hsubject), hfind]
  dsimp only
  by_cases hdigest : first.statementDigest P = second.statementDigest P
  · have hpasses : (existing.statementDigest != second.statementDigest P) = false := by
      rw [hdigest', hdigest, bne_self_eq_false]
    rw [if_pos hdigest, rejectIf_bind_of_passes hpasses, hid, hrecord]
    rfl
  · rw [if_neg hdigest, rejectIf_bind (bne_iff_ne.mpr fun heq => hdigest (hdigest'.symm.trans heq))]

/-- A second submission of an attempt is answered with the stored claim if it says the same, and is
refused otherwise, if and only if it says the same or its statement has another digest. -/
theorem resubmission_idempotent_iff (P : Platform) {s : ClaimLedger} {first second : ClaimSubmission}
    {claimId : Id} (hstored : Stores P first claimId s) (hattempt : SameAttempt first second)
    {subjectId : Id} (hsubject : subjectId ≠ "") (newId : Id) (now : Stamp) :
    Idempotent P s first second claimId subjectId newId now ↔
      SameContent P first second ∨ first.statementDigest P ≠ second.statementDigest P := by
  obtain ⟨record, hrecord, hsubmit⟩ := submit_again hstored hattempt hsubject newId now
  have hunchanged : step P s (.submit second subjectId newId now) = s := by
    rw [step]
    cases hchecked : checkedSubmit P s second subjectId newId now with
    | error error => rfl
    | ok result =>
      have hresult := checkedSubmit_eq_ok hchecked
      rw [hsubmit] at hresult
      split_ifs at hresult
      cases hresult
      rfl
  constructor
  · intro h
    by_contra hneither
    rw [not_or, not_not] at hneither
    obtain ⟨message, herror⟩ := h.other hneither.1
    rw [hsubmit, if_pos hneither.2] at herror
    cases herror
  · rintro (hsame | hdigest)
    · have hdigest : first.statementDigest P = second.statementDigest P := by
        rw [ClaimSubmission.statementDigest, ClaimSubmission.statementDigest, hsame.statement]
      rw [if_pos hdigest] at hsubmit
      exact ⟨fun _ => ⟨record, hrecord, hsubmit⟩, fun hother => absurd hsame hother, hunchanged⟩
    · rw [if_neg hdigest] at hsubmit
      refine ⟨fun hsame => absurd ?_ hdigest, fun _ => ⟨_, hsubmit⟩, hunchanged⟩
      rw [ClaimSubmission.statementDigest, ClaimSubmission.statementDigest, hsame.statement]

end Again

/-! ## An attempt with other evidence -/

namespace Sample

/-- A platform whose digests tell texts apart. -/
def tellingPlatform : Platform := { Product.Sample.platform with sha256 := String.ofList }

def artifact (artifactId : Id) : ClaimArtifactBinding := ⟨artifactId, Product.Sample.digest, 3, "text/plain"⟩

/-- A submission with some evidence. -/
def submission (artifactId : Id) : ClaimSubmission where
  runId := "RUN"
  contractVersion := 1
  kernelRevision := 0
  statement := "1 + 1 = 2"
  claimKind := .lemma_
  proofOrEvidenceArtifacts := [artifact artifactId]
  predecessorFactIds := []
  sourceBindingArtifact := artifact "SOURCE"
  workItemId := "WORK"
  workerRunId := "WORKER"
  attemptId := "ATTEMPT"

/-- The tables after the first submission. -/
def ledger : ClaimLedger where
  claims := [newClaim tellingPlatform (submission "PROOF") "SUBJECT" "CLAIM" "2026-01-01T00:00:00Z"]
  evidence := [⟨"CLAIM", 0, artifact "PROOF"⟩]

theorem stores_ledger : Stores tellingPlatform (submission "PROOF") "CLAIM" ledger := by
  have hsubmit : (submit tellingPlatform {} (submission "PROOF") "SUBJECT" "CLAIM"
      "2026-01-01T00:00:00Z").toOption.map Prod.snd = some ledger := by decide
  obtain ⟨result, hresult, hledger⟩ := Option.map_eq_some_iff.mp hsubmit
  have hadded := (added_of_submit (eq_ok_of_toOption hresult)).resolve_left (by rw [hledger]; decide)
  rw [hledger] at hadded
  exact stores_reached tellingPlatform [] [] hadded

end Sample

/-- The same submission again. -/
theorem resubmission_idempotent_iff_of_same :
    Idempotent Sample.tellingPlatform Sample.ledger (Sample.submission "PROOF")
      (Sample.submission "PROOF") "CLAIM" "SUBJECT" "OTHER" "2026-01-01T00:01:00Z" :=
  (resubmission_idempotent_iff Sample.tellingPlatform Sample.stores_ledger ⟨rfl, rfl, rfl⟩
    (by decide) "OTHER" "2026-01-01T00:01:00Z").mpr
    (Or.inl ⟨rfl, rfl, rfl, rfl, rfl, rfl, rfl, rfl, rfl⟩)

/-- A second submission with other evidence is answered with the stored claim, whose evidence is the
first. -/
theorem other_evidence_answered :
    ¬SameContent Sample.tellingPlatform (Sample.submission "PROOF") (Sample.submission "OTHER") ∧
      ((submit Sample.tellingPlatform Sample.ledger (Sample.submission "OTHER") "SUBJECT" "CLAIM-2"
        "2026-01-01T00:01:00Z").toOption.map fun result =>
          (result.1.claimId, result.1.evidenceArtifacts, result.2)) =
        some ("CLAIM", [Sample.artifact "PROOF"], Sample.ledger) := by
  refine ⟨fun hsame => absurd hsame.evidence (by decide), by decide⟩

end ResearchKernel.Product.Claims
