import ResearchKernel.Guard.Emission

/-!
# What the handlers check

For each handler whose checks carry an invariant, the conjunction of the checks that an
accepted command has passed.
-/

namespace ResearchKernel

open Foundation

namespace Guard

variable {context : GuardContext} {mutations : List Mutation}

/-! ## Promotion -/

/-- What an accepted promotion has passed. -/
structure Promotion (context : GuardContext) (p : PromoteClaim) (value : AxisValue) where
  claim : Claim
  claim_eq : context.snapshot.claim? p.claimId = some claim
  active : claim.lifecycleStatus = .active
  frozen : context.snapshot.contractStatus? = some .frozen
  value_eq : axisValue p.targetAxis p.targetValue = some value
  checked : checkPromotion context p claim value = .ok ()

theorem promotion_of_handle {p : PromoteClaim} {value : AxisValue}
    (h : handlePromoteClaim context p = .ok [.setClaimAxis p value]) :
    Nonempty (Promotion context p value) := by
  obtain ⟨claim, hclaim, h⟩ := bind_eq_ok.mp h
  obtain ⟨⟨⟩, hactive, h⟩ := bind_eq_ok.mp h
  obtain ⟨value', hvalue', h⟩ := bind_eq_ok.mp h
  obtain ⟨⟨⟩, -, h⟩ := bind_eq_ok.mp h
  obtain ⟨⟨⟩, hchecked, h⟩ := bind_eq_ok.mp h
  have hvalue := pure_eq_ok.mp h
  simp only [List.cons.injEq, Mutation.setClaimAxis.injEq, true_and, and_true] at hvalue
  subst hvalue
  simp only [rejectIf_eq_ok, Bool.or_eq_false_iff, bne_eq_false_iff_eq] at hactive
  exact ⟨{
    claim := claim
    claim_eq := orReject_eq_ok.mp hclaim
    active := hactive.1
    frozen := hactive.2
    value_eq := orReject_eq_ok.mp hvalue'
    checked := hchecked }⟩

/-- Cited evidence is looked up in the snapshot, and there is some. -/
theorem exists_of_citedEvidence {claim : Claim} {ids : List Id} {evidence : List EvidenceView}
    (h : citedEvidence context claim ids = .ok evidence) : ∃ item, item ∈ evidence := by
  obtain ⟨found, -, h⟩ := bind_eq_ok.mp h
  obtain ⟨⟨⟩, hsome, h⟩ := bind_eq_ok.mp h
  obtain ⟨⟨⟩, -, h⟩ := bind_eq_ok.mp h
  obtain rfl := pure_eq_ok.mp h
  simp only [rejectIf_eq_ok, Bool.or_eq_false_iff, List.isEmpty_eq_false_iff] at hsome
  exact List.exists_mem_of_ne_nil _ hsome.1

/-- A machine promotion rests on trusted evidence about the claim. -/
theorem trusted_of_machinePromotion {p : PromoteClaim} {claim : Claim} {value : MachineVerdict}
    (h : checkPromotion context p claim (.machine value) = .ok ()) :
    ∃ item type, machineEvidenceIsTrusted context.snapshot item claim context.version type = true ∧
      (value = .kernelVerified ∧ type = .leanReplay ∨
        value = .certificateVerified ∧ type = .checkerCertificate) := by
  obtain ⟨evidence, hevidence, h⟩ := bind_eq_ok.mp h
  obtain ⟨item, hitem⟩ := exists_of_citedEvidence hevidence
  simp only [rejectIf_eq_ok, Bool.not_eq_false', machinePromotion] at h
  cases value with
  | kernelVerified =>
    have hall := List.all_eq_true.mp h item hitem
    exact ⟨item, .leanReplay, (Bool.and_eq_true_iff.mp hall).1, Or.inl ⟨rfl, rfl⟩⟩
  | certificateVerified =>
    have hall := List.all_eq_true.mp h item hitem
    exact ⟨item, .checkerCertificate, (Bool.and_eq_true_iff.mp hall).1, Or.inr ⟨rfl, rfl⟩⟩
  | _ => cases h

/-! ## Atomic verification -/

/-- Whether the axis update of a verification is backed by what the snapshot holds. -/
def UpdateBacked (context : GuardContext) (claim : Claim) (update : AxisUpdate) : Prop :=
  update = {} ∨
  (update = { machine := some .kernelVerified, semantic := some .tested } ∧
    ∃ item, machineEvidenceIsTrusted context.snapshot item claim context.version .leanReplay =
      true) ∨
  (update = { machine := some .certificateVerified, semantic := some .tested } ∧
    ∃ item, machineEvidenceIsTrusted context.snapshot item claim context.version
      .checkerCertificate = true) ∨
  (update = { peer := some .accepted, semantic := some .humanAttested } ∧
    ∃ id review, context.snapshot.review? id = some review ∧ review.claimId = claim.claimId ∧
      review.promotionEligible = true)

theorem updateBacked_of_handle {p : VerifyAtomicClaim} {update : AxisUpdate}
    (h : handleVerifyAtomicClaim context p = .ok [.recordAtomicVerification p update]) :
    ∃ claim, context.currentClaim? p.claimId = some claim ∧
      UpdateBacked context claim update := by
  have hyields : Yields (fun ms => ∃ claim update, ms = [.recordAtomicVerification p update] ∧
      context.currentClaim? p.claimId = some claim ∧ UpdateBacked context claim update)
      (handleVerifyAtomicClaim context p) := by
    unfold handleVerifyAtomicClaim
    refine Yields.bind fun _ _ => Yields.bind fun claim hclaim => ?_
    have hcurrent := (Option.filter_eq_some_iff.mp (orReject_eq_ok.mp hclaim)).1
    refine Yields.ite (fun _ => ?_) (fun _ => ?_)
    · exact Yields.bind fun _ _ => Yields.pure ⟨claim, {}, rfl, hcurrent, Or.inl rfl⟩
    · dsimp only
      split
      · exact Yields.error
      · refine Yields.bind fun _ htrusted => Yields.pure ⟨claim, _, rfl, hcurrent, ?_⟩
        simp only [rejectIf_eq_ok, Bool.not_eq_false', Option.any_eq_true] at htrusted
        obtain ⟨item, -, htrusted⟩ := htrusted
        exact Or.inr (Or.inl ⟨rfl, item, htrusted⟩)
      · refine Yields.bind fun _ htrusted => Yields.pure ⟨claim, _, rfl, hcurrent, ?_⟩
        simp only [rejectIf_eq_ok, Bool.not_eq_false', Option.any_eq_true] at htrusted
        obtain ⟨item, -, htrusted⟩ := htrusted
        exact Or.inr (Or.inr (Or.inl ⟨rfl, item, htrusted⟩))
      · refine Yields.bind fun _ hreview => Yields.pure ⟨claim, _, rfl, hcurrent, ?_⟩
        simp only [rejectIf_eq_ok, Bool.not_eq_false', Option.any_eq_true, Bool.and_eq_true,
          beq_iff_eq] at hreview
        obtain ⟨review, hfound, ⟨hclaimId, hverdict⟩, hindependent⟩ := hreview
        refine Or.inr (Or.inr (Or.inr ⟨rfl, _, review, hfound, hclaimId, ?_⟩))
        simp [PeerReview.promotionEligible, hverdict, hindependent]
  obtain ⟨claim, update', heq, hcurrent, hbacked⟩ := hyields _ h
  simp only [List.cons.injEq, Mutation.recordAtomicVerification.injEq, true_and, and_true] at heq
  subst heq
  exact ⟨claim, hcurrent, hbacked⟩

/-! ## Reviews -/

/-- Whether a review is blind and its reviewer is not among the authors that it names. -/
def ReviewManaged (P : Platform) (subjectId : Id) (p : RecordPeerReview) : Prop :=
  ∃ authors, iterate (p.sourceGraph.getOr "author_subject_ids" (.arr [])) = .ok authors ∧
    (p.checklist.get "blind_review").isTrue = true ∧ subjectId ∉ authors.map (·.toText P)

/-- The profile that the host derives is that of a managed review exactly when the review
is blind and by somebody else. -/
theorem reviewed_of_handle {p : RecordPeerReview} {profile : JsonObject}
    (h : handleRecordPeerReview context p = .ok [.appendPeerReview p profile]) :
    ∃ claim managed, context.snapshot.claim? p.claimId = some claim ∧
      p.statementHash = claim.statementHash ∧ profile = derivedProfile context p managed ∧
      (managed = true ↔ ReviewManaged context.platform context.capability.subjectId p) := by
  obtain ⟨claim, hclaim, h⟩ := bind_eq_ok.mp h
  obtain ⟨⟨⟩, -, h⟩ := bind_eq_ok.mp h
  obtain ⟨artifact, -, h⟩ := bind_eq_ok.mp h
  obtain ⟨⟨⟩, -, h⟩ := bind_eq_ok.mp h
  obtain ⟨authors, hauthors, h⟩ := bind_eq_ok.mp h
  obtain ⟨⟨⟩, -, h⟩ := bind_eq_ok.mp h
  obtain ⟨⟨⟩, -, h⟩ := bind_eq_ok.mp h
  have hprofile := pure_eq_ok.mp h
  simp only [List.cons.injEq, Mutation.appendPeerReview.injEq, true_and, and_true] at hprofile
  obtain ⟨hfound, hhash⟩ := Option.filter_eq_some_iff.mp (orReject_eq_ok.mp hclaim)
  obtain ⟨names, hnames, htexts⟩ := bind_eq_ok.mp hauthors
  have htexts := pure_eq_ok.mp htexts
  refine ⟨claim, managedReview context p authors, hfound, beq_iff_eq.mp hhash, hprofile.symm, ?_⟩
  simp only [managedReview, Bool.and_eq_true, Bool.not_eq_true', List.contains_eq_mem,
    decide_eq_false_iff_not]
  constructor
  · rintro ⟨hblind, hother⟩
    exact ⟨names, hnames, hblind, htexts ▸ hother⟩
  · rintro ⟨names', hnames', hblind, hother⟩
    rw [hnames] at hnames'
    obtain rfl := Except.ok.inj hnames'
    exact ⟨hblind, htexts ▸ hother⟩

@[simp] theorem managed_derivedProfile (p : RecordPeerReview) (managed : Bool) :
    (JsonObject.get (derivedProfile context p managed) "managed_human").isTrue = managed := by
  cases managed <;> rfl

theorem independent_derivedProfile (p : RecordPeerReview) :
    independenceProfileIsIndependent (derivedProfile context p true) = true := by
  rfl

/-! ## Claims, evidence and obligations -/

theorem contract_of_registerRoot {p : RegisterClaim}
    (h : handleRegisterClaim context p = .ok mutations) (hroot : p.claimKind = .root) :
    ∃ contract, context.snapshot.contract? = some contract ∧
      p.statementHash = contract.statementHash := by
  obtain ⟨⟨⟩, -, h⟩ := bind_eq_ok.mp h
  obtain ⟨contract, hcontract, h⟩ := bind_eq_ok.mp h
  obtain ⟨⟨⟩, -, h⟩ := bind_eq_ok.mp h
  obtain ⟨⟨⟩, hmatches, -⟩ := bind_eq_ok.mp h
  simp only [rejectIf_eq_ok, Bool.or_eq_false_iff, hroot, beq_self_eq_true, Bool.true_and,
    Bool.not_eq_false', rootMatchesContract, Bool.and_eq_true, beq_iff_eq] at hmatches
  exact ⟨contract, (Option.filter_eq_some_iff.mp (orReject_eq_ok.mp hcontract)).1,
    hmatches.1.2.1.2⟩

theorem open_of_registerClaim {p : RegisterClaim} {closure : ClosureState}
    (h : handleRegisterClaim context p = .ok [.registerClaim p closure]) :
    closure.isClosed = false := by
  obtain ⟨⟨⟩, -, h⟩ := bind_eq_ok.mp h
  obtain ⟨contract, -, h⟩ := bind_eq_ok.mp h
  obtain ⟨⟨⟩, -, h⟩ := bind_eq_ok.mp h
  obtain ⟨⟨⟩, -, h⟩ := bind_eq_ok.mp h
  have hclosure := pure_eq_ok.mp h
  simp only [List.cons.injEq, Mutation.registerClaim.injEq, true_and, and_true] at hclosure
  rw [← hclosure]
  split <;> rfl

/-- Submitted evidence is about the statement of an active claim of the current version. -/
theorem current_of_submitEvidence {p : SubmitEvidence}
    (h : handleSubmitEvidence context p = .ok mutations) :
    ∃ claim, context.currentClaim? p.claimId = some claim ∧
      p.statementHash = claim.statementHash := by
  obtain ⟨⟨⟩, hcurrent, -⟩ := bind_eq_ok.mp h
  simp only [rejectIf_eq_ok, Bool.not_eq_false'] at hcurrent
  split at hcurrent
  · rename_i claim hclaim
    exact ⟨claim, hclaim, beq_iff_eq.mp hcurrent⟩
  · cases hcurrent

/-- A revoked fact is an active claim of the current version. -/
theorem current_of_revokeFact {p : RevokeFact} (h : handleRevokeFact context p = .ok mutations) :
    ∃ claim, context.currentClaim? p.factId = some claim := by
  obtain ⟨⟨⟩, -, h⟩ := bind_eq_ok.mp h
  obtain ⟨⟨⟩, hcurrent, -⟩ := bind_eq_ok.mp h
  simp only [rejectIf_eq_ok, Option.isNone_eq_false_iff, Option.isSome_iff_exists] at hcurrent
  exact hcurrent

theorem current_of_registerObligation {p : RegisterCompositionObligation}
    (h : handleRegisterCompositionObligation context p = .ok mutations) :
    ∃ claim, context.currentClaim? p.parentClaimId = some claim := by
  obtain ⟨⟨⟩, hcurrent, -⟩ := bind_eq_ok.mp h
  simp only [rejectIf_eq_ok, List.any_cons, Bool.or_eq_false_iff, Option.isNone_eq_false_iff,
    Option.isSome_iff_exists] at hcurrent
  exact hcurrent.1

/-! ## Finalization -/

/-- What an accepted finalization has passed. -/
structure Finalized (context : GuardContext) (p : Finalize) where
  terminals : List Claim
  terminals_eq : p.terminalClaimIds.mapM context.snapshot.claim? = some terminals
  exact_of_authority : isAuthorityOutcome p.outcome = true →
    rootTerminalIsExact context terminals = true
  supported : outcomeUnsupported context p.outcome terminals = false

theorem finalized_of_handle {p : Finalize} (h : handleFinalize context p = .ok mutations) :
    Nonempty (Finalized context p) := by
  obtain ⟨⟨⟩, -, h⟩ := bind_eq_ok.mp h
  obtain ⟨⟨⟩, -, h⟩ := bind_eq_ok.mp h
  obtain ⟨terminals, hterminals, h⟩ := bind_eq_ok.mp h
  obtain ⟨⟨⟩, hexact, h⟩ := bind_eq_ok.mp h
  obtain ⟨⟨⟩, hsupported, -⟩ := bind_eq_ok.mp h
  refine ⟨{
    terminals := terminals
    terminals_eq := orReject_eq_ok.mp hterminals
    exact_of_authority := fun hauthority => ?_
    supported := rejectIf_eq_ok.mp hsupported }⟩
  simpa [hauthority] using rejectIf_eq_ok.mp hexact

/-- The terminal claim of an authority-bearing finalization is the root of the run. -/
theorem Finalized.root_of_authority {p : Finalize} (finalized : Finalized context p)
    (hauthority : isAuthorityOutcome p.outcome = true) :
    ∃ root, finalized.terminals = [root] ∧ p.terminalClaimIds = [root.claimId] ∧
      context.snapshot.claim? root.claimId = some root ∧
      context.snapshot.rootClaimId = some root.claimId := by
  have hexact := finalized.exact_of_authority hauthority
  unfold rootTerminalIsExact at hexact
  split at hexact
  · rename_i root rootId hterminals hrootId
    simp only [Bool.and_eq_true, beq_iff_eq] at hexact
    have hmap := finalized.terminals_eq
    rw [hterminals] at hmap
    obtain ⟨id, rest, hfound, hrest, hids⟩ := List.forall₂_cons_right_iff.mp (mapM_eq_some.mp hmap)
    obtain rfl := List.forall₂_nil_right_iff.mp hrest
    have hid : root.claimId = id := (mem_of_lookup_records hfound).2
    exact ⟨root, hterminals, by rw [hids, hid], by rw [hid]; exact hfound,
      by rw [hrootId, hexact.1.2]⟩
  · cases hexact

end Guard

end ResearchKernel
