import ResearchKernel.Authority.Machine
import ResearchKernel.Composition.Validated

/-!
# Peer authority and semantic attestation

An accepting peer verdict and a human attestation of the meaning should both rest on a
recorded review of the claim itself, by a managed and independent reviewer. Promotion
takes reviews of other claims as well, a review attests the meaning also when it is not
managed, and a hybrid closure attests it without any review where the policy asks for
none. In runs without such steps the reviews are there.
-/

namespace ResearchKernel

open Foundation

/-- An accepting review of the exact statement of the claim by an independent reviewer. -/
def Records.Attested (records : Records) (claim : Claim) : Prop :=
  ∃ review ∈ records.peerReviews, review.verdict = .accept ∧
    independenceProfileIsIndependent review.independenceProfile = true ∧
    review.claimId = claim.claimId ∧ review.statementHash = claim.statementHash

/-- Every attestation of the meaning has its review. -/
def Records.SemanticAuthority (records : Records) : Prop :=
  ∀ claim ∈ records.claims, claim.semanticVerdict = .humanAttested → records.Attested claim

/-! ## Reviews are about existing claims -/

/-- Every review is about the exact statement of a claim. -/
def Records.ReviewsScoped (records : Records) : Prop :=
  ∀ review ∈ records.peerReviews, ∃ claim ∈ records.claims,
    claim.claimId = review.claimId ∧ claim.statementHash = review.statementHash

section Records

variable {records records' : Records} {claim claim' : Claim}

theorem Records.ReviewsScoped.statementHash_eq (h : records.ReviewsScoped)
    (hunique : records.UniqueClaims) {review : PeerReview} (hreview : review ∈ records.peerReviews)
    (hclaim : claim ∈ records.claims) (hid : review.claimId = claim.claimId) :
    review.statementHash = claim.statementHash := by
  obtain ⟨other, hother, hotherId, hhash⟩ := h review hreview
  have heq : other = claim := hunique.eq hother hclaim (hotherId.trans hid)
  rw [← hhash, heq]

theorem attested_of_eligible (hscoped : records.ReviewsScoped) (hunique : records.UniqueClaims)
    {review : PeerReview} (hreview : review ∈ records.peerReviews)
    (heligible : review.promotionEligible = true) (hclaim : claim ∈ records.claims)
    (hid : review.claimId = claim.claimId) : records.Attested claim := by
  simp only [PeerReview.promotionEligible, Bool.and_eq_true, beq_iff_eq] at heligible
  exact ⟨review, hreview, heligible.2, heligible.1, hid,
    hscoped.statementHash_eq hunique hreview hclaim hid⟩

theorem Records.Attested.grows (h : records.Attested claim)
    (hreviews : Kept PeerReview.Same records.peerReviews records'.peerReviews)
    (hclaim : claim.SameStatement claim') : records'.Attested claim' := by
  obtain ⟨review, hreview, hverdict, hindependent, hid, hhash⟩ := h
  obtain ⟨review', hreview', hsame⟩ := hreviews review hreview
  refine ⟨review', hreview', ?_⟩
  rw [hsame]
  exact ⟨hverdict, hindependent, hid.trans hclaim.claimId.symm,
    hhash.trans hclaim.statementHash.symm⟩

theorem Records.Attested.of_eq (h : records.Attested claim)
    (hreviews : records'.peerReviews = records.peerReviews)
    (hclaim : claim.SameStatement claim') : records'.Attested claim' :=
  h.grows (hreviews ▸ Kept.refl PeerReview.Same.refl _) hclaim

theorem Records.ReviewsScoped.of_kept (h : records.ReviewsScoped)
    (hclaims : Kept Claim.SameStatement records.claims records'.claims)
    (hreviews : records'.peerReviews = records.peerReviews) : records'.ReviewsScoped := by
  intro review hreview
  rw [hreviews] at hreview
  obtain ⟨claim, hclaim, hid, hhash⟩ := h review hreview
  obtain ⟨claim', hclaim', hsame⟩ := hclaims claim hclaim
  exact ⟨claim', hclaim', hsame.claimId.trans hid, hsame.statementHash.trans hhash⟩

end Records

section Accepted

variable {P : Platform} {policy : Policy} {db db' : Db} {op : ApplyOp}

/-- Mutations of accepted commands keep the reviews scoped. -/
theorem reviewsScoped_of_applies (accepted : Accepted P policy db op db') {m : Mutation}
    {before after : Db} (happlies : accepted.Applies m before after)
    (h : before.records.ReviewsScoped) : after.records.ReviewsScoped := by
  have hclaims := Projection.kept_claims_of_apply happlies.applied
  intro review hreview
  rcases (Projection.reviews_of_apply happlies.applied).2 review hreview with
    ⟨old, hold, hsame⟩ | ⟨p, profile, rfl, -, hid, hhash, -, -⟩
  · obtain ⟨claim, hclaim, hid, hhash⟩ := h old hold
    obtain ⟨claim', hclaim', hstatement⟩ := hclaims claim hclaim
    refine ⟨claim', hclaim', ?_⟩
    rw [hsame]
    exact ⟨hstatement.claimId.trans hid, hstatement.statementHash.trans hhash⟩
  · obtain ⟨-, hsingle, hhandle⟩ := happlies.emitted
    rw [hsingle] at hhandle
    obtain ⟨claim, managed, hfound, hmatch, -, -⟩ := Guard.reviewed_of_handle hhandle
    obtain ⟨hmem, -, hclaimId⟩ := accepted.claim_of_lookup hfound
    have hbefore : claim ∈ before.records.claims := by
      rw [happlies.records_of_single hsingle]
      exact hmem
    obtain ⟨claim', hclaim', hstatement⟩ := hclaims claim hbefore
    refine ⟨claim', hclaim', ?_, ?_⟩
    · rw [hstatement.claimId, hclaimId, hid]
    · rw [hstatement.statementHash, ← hmatch, hhash]

end Accepted

variable {P : Platform} {policy : Policy} {db : Db}

/-- Every operation keeps the reviews scoped. -/
theorem reviewsScoped_step (op : Op) (h : db.records.ReviewsScoped) :
    (step P policy db op).records.ReviewsScoped := by
  rcases @step_cases P policy db op with frame | ⟨op, rfl, -, ⟨accepted⟩⟩
  · exact h.of_kept frame.keeps_claims frame.peerReviews
  · exact accepted.preserves h fun m before after happlies hbefore =>
      reviewsScoped_of_applies accepted happlies hbefore

/-! ## What the paths to a verdict give -/

/-- A promotion cites an eligible review of the promoted claim. -/
def CitesReview (db : Db) (p : PromoteClaim) : Prop :=
  ∃ review ∈ db.peerReviews, review.reviewId ∈ p.evidenceIds ∧ review.claimId = p.claimId ∧
    review.promotionEligible = true

section Paths

variable {P : Platform} {policy : Policy} {db db' : Db} {op : ApplyOp}
  {accepted : Accepted P policy db op db'} {before after : Db} {claim claim' : Claim}

theorem attested_of_promotion (hunique : db.records.UniqueClaims)
    (hscoped : db.records.ReviewsScoped) {p : PromoteClaim} {value : AxisValue}
    (happlies : accepted.Applies (.setClaimAxis p value) before after)
    (hclaim : claim ∈ before.claims) (hid : claim.claimId = p.claimId)
    (hcites : CitesReview db p) : before.records.Attested claim := by
  obtain ⟨-, hsingle, -⟩ := happlies.emitted
  have hsame := happlies.records_of_single hsingle
  obtain ⟨review, hreview, -, hreviewId, heligible⟩ := hcites
  have hold : claim ∈ db.records.claims := hsame ▸ hclaim
  rw [hsame]
  exact attested_of_eligible hscoped hunique hreview heligible hold (hreviewId.trans hid.symm)

/-- A verification by a managed peer. -/
theorem attested_of_verification (hunique : db.records.UniqueClaims)
    (hscoped : db.records.ReviewsScoped) {p : VerifyAtomicClaim} {update : AxisUpdate}
    (happlies : accepted.Applies (.recordAtomicVerification p update) before after)
    (hclaim : claim ∈ before.claims) (hid : claim.claimId = p.claimId)
    (hpeer : update.peer.isSome = true ∨ update.semantic = some .humanAttested) :
    before.records.Attested claim := by
  obtain ⟨-, hsingle, hhandle⟩ := happlies.emitted
  have hsame := happlies.records_of_single hsingle
  rw [hsingle] at hhandle
  obtain ⟨target, htarget, hbacked⟩ := Guard.updateBacked_of_handle hhandle
  obtain ⟨hmem, -, hfound, -, -⟩ := accepted.claim_of_current htarget
  have hold : claim ∈ db.records.claims := hsame ▸ hclaim
  obtain rfl : claim = target := hunique.eq hold hmem (hid.trans hfound.symm)
  rw [hsame]
  rcases hbacked with rfl | ⟨rfl, -⟩ | ⟨rfl, -⟩ | ⟨rfl, id, review, hlookup, hreviewId, heligible⟩
  · simp at hpeer
  · simp at hpeer
  · simp at hpeer
  · have hreview := (accepted.review_of_lookup hlookup).1
    exact attested_of_eligible hscoped hunique hreview heligible hold hreviewId

/-- A managed review attests its claim. -/
theorem attested_of_review (hunique : db.records.UniqueClaims) {p : RecordPeerReview}
    {profile : JsonObject} (happlies : accepted.Applies (.appendPeerReview p profile) before after)
    (hclaim : claim ∈ before.claims) (hid : claim.claimId = p.claimId)
    (hstatement : claim.SameStatement claim') (hverdict : p.verdict = .accept)
    (hmanaged : (JsonObject.get profile "managed_human").isTrue = true) :
    after.records.Attested claim' := by
  obtain ⟨-, hsingle, hhandle⟩ := happlies.emitted
  have hsame := happlies.records_of_single hsingle
  rw [hsingle] at hhandle
  obtain ⟨target, managed, hfound, hhash, rfl, -⟩ := Guard.reviewed_of_handle hhandle
  obtain ⟨hmem, -, htargetId⟩ := accepted.claim_of_lookup hfound
  have hold : claim ∈ db.records.claims := hsame ▸ hclaim
  obtain rfl : claim = target := hunique.eq hold hmem (hid.trans htargetId.symm)
  rw [Guard.managed_derivedProfile] at hmanaged
  subst hmanaged
  obtain ⟨review, hreview, hreviewId, hreviewHash, hreviewVerdict, hprofile⟩ :=
    Projection.exists_newReview happlies.applied
  refine ⟨review, hreview, hreviewVerdict.trans hverdict, ?_, ?_, ?_⟩
  · rw [hprofile]
    exact Guard.independent_derivedProfile p
  · rw [hreviewId, hstatement.claimId, hid]
  · rw [hreviewHash, hstatement.statementHash, hhash]

/-- A closure by reviews rests on a review of the parent. -/
theorem attested_of_witness (hunique : db.records.UniqueClaims)
    (hscoped : db.records.ReviewsScoped) {p : SubmitClosureWitness} {closure : ClosureState}
    (happlies : accepted.Applies (.acceptClosureWitness p closure) before after)
    (hclaim : claim ∈ before.claims) (hid : claim.claimId = p.parentClaimId)
    (hclosure : closure = .closedHuman ∨ closure = .closedHybrid)
    (hthreshold : p.compositionMode = .hybrid → ∀ parent, 1 ≤ closureThreshold policy parent) :
    before.records.Attested claim := by
  obtain ⟨-, hsingle, hvalid⟩ := happlies.emitted
  have hsame := happlies.records_of_single hsingle
  obtain ⟨validated⟩ := validated_of_validate hvalid
  have hmode : p.compositionMode = .peer ∨
      p.compositionMode = .hybrid ∧ 1 ≤ closureThreshold policy validated.parent := by
    have heq := validated.closure_eq
    cases hmode : p.compositionMode with
    | machine =>
      rw [hmode] at heq
      rcases hclosure with rfl | rfl
      · cases heq
      · cases heq
    | peer => exact Or.inl rfl
    | hybrid => exact Or.inr ⟨rfl, hthreshold hmode _⟩
  obtain ⟨id, review, hlookup, hreviewId, heligible⟩ := validated.exists_review hmode
  have hreview := (accepted.review_of_lookup hlookup).1
  have hold : claim ∈ db.records.claims := hsame ▸ hclaim
  rw [hsame]
  exact attested_of_eligible hscoped hunique hreview heligible hold (hreviewId.trans hid.symm)

end Paths

/-! ## Peer verdicts -/

section Peer

variable {P : Platform} {policy : Policy} {db db' : Db} {op : ApplyOp}
  {accepted : Accepted P policy db op db'} {m : Mutation} {before after : Db}

end Peer

/-- What a step has to respect so that attestations of the meaning have reviews: a review
that attests is managed, a promotion to attested cites a review of its claim, and a hybrid
closure is made under a policy that asks for reviews. -/
def AttestsSoundly (P : Platform) (policy : Policy) (db : Db) (op : ApplyOp) : Prop :=
  match op.request.command with
  | .recordPeerReview p => p.verdict = .accept →
    (p.checklist.get "semantic_attestation").isTrue = true →
    Guard.ReviewManaged P op.capability.subjectId p
  | .promoteClaim p =>
    axisValue p.targetAxis p.targetValue = some (.semantic .humanAttested) → CitesReview db p
  | .submitClosureWitness p => p.compositionMode = .hybrid →
    1 ≤ policy.peerClosureReviewers.getD (policy.peerReviewThreshold.getD 1)
  | _ => True

/-- A policy that asks for a review asks for one to close any parent. -/
theorem one_le_closureThreshold
    (h : 1 ≤ policy.peerClosureReviewers.getD (policy.peerReviewThreshold.getD 1))
    (parent : Claim) : 1 ≤ closureThreshold policy parent := by
  unfold closureThreshold
  cases hclosure : policy.peerClosureReviewers with
  | some reviewers => simpa [hclosure] using h
  | none =>
    rw [hclosure, Option.getD_none] at h
    rw [Option.getD_none]
    cases hthreshold : policy.peerReviewThreshold with
    | some threshold => simpa [hthreshold] using h
    | none =>
      rw [Option.getD_none]
      split <;> omega

section Semantic

variable {P : Platform} {policy : Policy} {db db' : Db} {op : ApplyOp}
  {accepted : Accepted P policy db op db'} {m : Mutation} {before after : Db}

/-- A claim whose meaning a mutation attests has its review. -/
theorem attested_of_semanticVerdict (hunique : db.records.UniqueClaims)
    (hscoped : db.records.ReviewsScoped) (hsound : AttestsSoundly P policy db op)
    (happlies : accepted.Applies m before after) {claim claim' : Claim}
    (hclaim : claim ∈ before.claims) (hchange : Projection.ClaimChange m claim claim')
    (hverdict : claim'.semanticVerdict = .humanAttested) :
    claim.semanticVerdict = .humanAttested ∨ after.records.Attested claim' := by
  have hreviews := (Projection.reviews_of_apply happlies.applied).1
  have hstatement := hchange.sameStatement
  cases hchange with
  | promoted p value claim hid =>
    cases value with
    | semantic verdict =>
      obtain rfl : verdict = .humanAttested := hverdict
      obtain ⟨hcommand, hsingle, hhandle⟩ := happlies.emitted
      rw [hsingle] at hhandle
      obtain ⟨promotion⟩ := Guard.promotion_of_handle hhandle
      simp only [AttestsSoundly, hcommand] at hsound
      have hattested := attested_of_promotion hunique hscoped happlies hclaim hid
        (hsound promotion.value_eq)
      exact Or.inr (hattested.grows hreviews hstatement)
    | _ => exact Or.inl hverdict
  | verified p update claim hid =>
    cases hsemantic : update.semantic with
    | none =>
      refine Or.inl ?_
      simpa [Claim.update, hsemantic] using hverdict
    | some verdict =>
      obtain rfl : verdict = .humanAttested := by simpa [Claim.update, hsemantic] using hverdict
      have hattested := attested_of_verification hunique hscoped happlies hclaim hid
        (Or.inr hsemantic)
      exact Or.inr (hattested.grows hreviews hstatement)
  | reviewed p profile claim hid =>
    by_cases hattests :
      p.verdict = .accept ∧ (JsonObject.get p.checklist "semantic_attestation").isTrue = true
    · obtain ⟨hcommand, hsingle, hhandle⟩ := happlies.emitted
      rw [hsingle] at hhandle
      obtain ⟨target, managed, -, -, hprofile, hiff⟩ := Guard.reviewed_of_handle hhandle
      simp only [AttestsSoundly, hcommand] at hsound
      have hmanaged : managed = true := hiff.mpr (hsound hattests.1 hattests.2)
      refine Or.inr (attested_of_review hunique happlies hclaim hid hstatement hattests.1 ?_)
      rw [hprofile, Guard.managed_derivedProfile, hmanaged]
    · refine Or.inl ?_
      have hnone : (Projection.reviewUpdate p profile).semantic = none := by
        unfold Projection.reviewUpdate
        simp only [Bool.and_eq_true, beq_iff_eq]
        rw [if_neg hattests]
      simpa [Claim.update, hnone] using hverdict
  | closed p closure claim hid =>
    by_cases hclosure : closure = .closedHuman ∨ closure = .closedHybrid
    · obtain ⟨hcommand, -, -⟩ := happlies.emitted
      simp only [AttestsSoundly, hcommand] at hsound
      have hattested := attested_of_witness hunique hscoped happlies hclaim hid hclosure
        fun hmode parent => one_le_closureThreshold (hsound hmode) parent
      exact Or.inr (hattested.grows hreviews hstatement)
    · refine Or.inl ?_
      simpa [Projection.closeClaim, hclosure] using hverdict
  | _ => exact Or.inl hverdict

/-- A mutation of an accepted command keeps semantic authority. -/
theorem semanticAuthority_of_applies (hunique : db.records.UniqueClaims)
    (hscoped : db.records.ReviewsScoped) (hsound : AttestsSoundly P policy db op)
    (happlies : accepted.Applies m before after) (h : before.records.SemanticAuthority) :
    after.records.SemanticAuthority := by
  intro claim' hclaim' hverdict
  rcases Projection.exists_claim_of_apply happlies.applied hclaim' with
    ⟨claim, hclaim, hchange⟩ | hnew
  · rcases attested_of_semanticVerdict hunique hscoped hsound happlies hclaim hchange hverdict with
      hold | hattested
    · have hreviews := (Projection.reviews_of_apply happlies.applied).1
      exact (h claim hclaim hold).grows hreviews hchange.sameStatement
    · exact hattested
  · cases m with
    | registerClaim p closure =>
      obtain rfl := List.mem_singleton.mp hnew
      cases hverdict
    | _ => cases hnew

end Semantic

theorem semanticAuthority_step (op : Op) (hunique : db.records.UniqueClaims)
    (hscoped : db.records.ReviewsScoped)
    (hsound : OnAccepted P policy (AttestsSoundly P policy) db op)
    (h : db.records.SemanticAuthority) : (step P policy db op).records.SemanticAuthority := by
  rcases @step_cases P policy db op with frame | ⟨op, rfl, haccepts, ⟨accepted⟩⟩
  · intro claim' hclaim' hverdict
    obtain ⟨claim, hclaim, hchange⟩ := frame.exists_claim hclaim'
    rcases hchange.semantic with hsame | htested
    · rw [hsame] at hverdict
      exact (h claim hclaim hverdict).of_eq frame.peerReviews hchange.sameStatement
    · rw [htested] at hverdict
      cases hverdict
  · exact accepted.preserves h fun m before after happlies hbefore =>
      semanticAuthority_of_applies hunique hscoped (hsound haccepts) happlies hbefore

/-- A review that is not managed attests the meaning of no claim, where its step attests
soundly. -/
theorem attested_before_of_unmanaged {op : ApplyOp} {p : RecordPeerReview}
    (hcommand : op.request.command = .recordPeerReview p)
    (hunmanaged : ¬ Guard.ReviewManaged P op.capability.subjectId p)
    (hsound : OnAccepted P policy (AttestsSoundly P policy) db (.apply op)) :
    ∀ claim' ∈ (step P policy db (.apply op)).claims, claim'.semanticVerdict = .humanAttested →
      ∃ claim ∈ db.claims, claim.claimId = claim'.claimId ∧
        claim.semanticVerdict = .humanAttested := by
  have hstart : ∀ claim' ∈ db.records.claims, claim'.semanticVerdict = .humanAttested →
      ∃ claim ∈ db.claims, claim.claimId = claim'.claimId ∧
        claim.semanticVerdict = .humanAttested :=
    fun claim hclaim hverdict => ⟨claim, hclaim, rfl, hverdict⟩
  rcases @apply_cases P policy db op with hsame | haccepts
  · intro claim' hclaim'
    have hclaims : (step P policy db (.apply op)).claims = db.claims := hsame.claims
    rw [hclaims] at hclaim'
    exact hstart claim' hclaim'
  · have hattests := hsound haccepts
    simp only [AttestsSoundly, hcommand] at hattests
    obtain ⟨accepted⟩ := accepted_of_accepts haccepts
    have hhandle := accepted.handled
    rw [hcommand] at hhandle
    obtain ⟨profile, hmutations⟩ := Guard.emits_recordPeerReview p _ hhandle
    refine accepted.preserves (I := fun records => ∀ claim' ∈ records.claims,
      claim'.semanticVerdict = .humanAttested → ∃ claim ∈ db.claims,
        claim.claimId = claim'.claimId ∧ claim.semanticVerdict = .humanAttested) hstart ?_
    intro m before after happlies hbefore claim' hclaim' hverdict
    have hm := happlies.mem
    rw [hmutations, List.mem_singleton] at hm
    subst hm
    rcases Projection.exists_claim_of_apply happlies.applied hclaim' with
      ⟨claim, hclaim, hchange⟩ | hnew
    · have hid := hchange.sameStatement.claimId
      have hold : claim.semanticVerdict = .humanAttested := by
        cases hchange with
        | reviewed p profile claim hid =>
          have hnone : (Projection.reviewUpdate p profile).semantic = none := by
            unfold Projection.reviewUpdate
            simp only [Bool.and_eq_true, beq_iff_eq]
            rw [if_neg]
            rintro ⟨haccept, hattestation⟩
            exact hunmanaged (hattests haccept hattestation)
          simpa [Claim.update, hnone] using hverdict
        | _ => exact hverdict
      obtain ⟨first, hfirst, hfirstId, hfirstVerdict⟩ := hbefore claim hclaim hold
      exact ⟨first, hfirst, hfirstId.trans hid.symm, hfirstVerdict⟩
    · cases hnew

/-- Semantic attestation requires an independent human in every run whose steps attest
soundly, and there a review that is not managed attests nothing. -/
theorem semantic_attestation_of_sound (P : Platform) (policy : Policy) (ops : List Op)
    (hsound : StepsSatisfy (step P policy) (OnAccepted P policy (AttestsSoundly P policy))
      Db.empty ops) :
    (∀ claim ∈ (reached P policy ops).claims, claim.semanticVerdict = .humanAttested →
      (reached P policy ops).records.Attested claim) ∧
    ∀ first op rest p, ops = first ++ Op.apply op :: rest →
      op.request.command = .recordPeerReview p →
      ¬ Guard.ReviewManaged P op.capability.subjectId p →
      ∀ claim' ∈ (reached P policy (first ++ [.apply op])).claims,
        claim'.semanticVerdict = .humanAttested →
        ∃ claim ∈ (reached P policy first).claims, claim.claimId = claim'.claimId ∧
          claim.semanticVerdict = .humanAttested := by
  constructor
  · have hinv : (reached P policy ops).records.UniqueClaims ∧
        (reached P policy ops).records.ReviewsScoped ∧
        (reached P policy ops).records.SemanticAuthority := by
      refine reached_invariant_of
        (fun records => records.UniqueClaims ∧ records.ReviewsScoped ∧ records.SemanticAuthority)
        ⟨List.nodup_nil, List.forall_mem_nil _, List.forall_mem_nil _⟩ (fun db op h hstep => ?_)
        hsound
      obtain ⟨hunique, hscoped, hauthority⟩ := h
      exact ⟨uniqueClaims_step op hunique, reviewsScoped_step op hscoped,
        semanticAuthority_step op hunique hscoped hstep hauthority⟩
    exact hinv.2.2
  · intro first op rest p hsplit hcommand hunmanaged claim' hclaim' hverdict
    unfold reached at hclaim'
    rw [runFrom_concat] at hclaim'
    exact attested_before_of_unmanaged hcommand hunmanaged (hsound first (.apply op) rest hsplit)
      claim' hclaim' hverdict

/-- In the sample run the independent review of the root stands behind its attestation. -/
theorem semantic_attestation_of_reviewed :
    ∃ claim ∈ (reached Sample.platform Sample.policy Sample.reviewed).claims,
      claim.semanticVerdict = .humanAttested ∧
        (reached Sample.platform Sample.policy Sample.reviewed).records.Attested claim := by
  have hmanaged : Guard.ReviewManaged Sample.platform Sample.capability.subjectId
      (Sample.review Sample.root Sample.contractHash "author") :=
    ⟨[.str "author"], rfl, rfl, by simp [Json.toText, Sample.capability]⟩
  have hsound : StepsSatisfy (step Sample.platform Sample.policy)
      (OnAccepted Sample.platform Sample.policy (AttestsSoundly Sample.platform Sample.policy))
      Db.empty Sample.reviewed := by
    refine StepsSatisfy.of_forall ?_
    simp only [Sample.reviewed, Sample.frozen, Sample.create, Sample.request, Sample.registerRoot,
      Sample.freeze, OnAccepted, AttestsSoundly, List.cons_append, List.nil_append,
      List.forall_mem_cons]
    exact ⟨fun _ => trivial, fun _ _ => trivial, fun _ _ => trivial,
      fun _ _ _ _ => hmanaged, List.forall_mem_nil _⟩
  obtain ⟨claim, hclaim, -, hverdict⟩ := Sample.outcomes.root_reviewed
  have hreviewed := semantic_attestation_of_sound Sample.platform Sample.policy Sample.reviewed
    hsound
  exact ⟨claim, hclaim, hverdict, hreviewed.1 claim hclaim hverdict⟩

theorem not_semanticAuthority_of_dependent
    (hclaim : ∃ claim ∈ db.claims, claim.semanticVerdict = .humanAttested)
    (hreviews : ∀ review ∈ db.peerReviews,
      independenceProfileIsIndependent review.independenceProfile = false) :
    ¬ ∀ claim ∈ db.claims, claim.semanticVerdict = .humanAttested → db.records.Attested claim := by
  obtain ⟨claim, hclaim, hverdict⟩ := hclaim
  intro h
  obtain ⟨review, hreview, -, hindependent, -⟩ := h claim hclaim hverdict
  have hdependent := hreviews review hreview
  rw [hdependent] at hindependent
  cases hindependent

/-- The review of the root by its author attests its meaning. -/
theorem attested_by_author :
    ¬ ∀ claim ∈ (reached Sample.platform Sample.policy Sample.selfReviewed).claims,
      claim.semanticVerdict = .humanAttested →
        (reached Sample.platform Sample.policy Sample.selfReviewed).records.Attested claim :=
  not_semanticAuthority_of_dependent Sample.outcomes.attested_by_author Sample.outcomes.dependent

end ResearchKernel
