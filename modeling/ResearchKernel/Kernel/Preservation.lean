import ResearchKernel.Guard.Emission
import ResearchKernel.Kernel.Transitions
import ResearchKernel.Projector.Rows

/-!
# Rules for invariants

An invariant of the records is proved for the projection of accepted commands mutation
by mutation. The first mutation of a command is applied to the records on which the guard
has decided, so its case may use what the guard has checked.
-/

namespace ResearchKernel

open Foundation

namespace Projection

variable {ctx : ProjectionContext} {db last : Db} {mutations : List Mutation}

/-- The projection of a list begins with that of its first mutation. -/
theorem apply_cons_eq_some {m : Mutation} : apply ctx (m :: mutations) db = some last ↔
    ∃ mid, applyMutation ctx db m = some mid ∧ apply ctx mutations mid = some last :=
  Option.bind_eq_some_iff

/-- A concatenation is projected one part after the other. -/
theorem apply_append_eq_some {first second : List Mutation} :
    apply ctx (first ++ second) db = some last ↔
      ∃ mid, apply ctx first db = some mid ∧ apply ctx second mid = some last := by
  induction first generalizing db with
  | nil => exact ⟨fun h => ⟨db, rfl, h⟩, fun ⟨mid, hmid, h⟩ => Option.some.inj hmid ▸ h⟩
  | cons m first ih =>
    rw [List.cons_append]
    simp only [apply_cons_eq_some, ih]
    constructor
    · rintro ⟨next, hnext, mid, hmid, hlast⟩
      exact ⟨mid, ⟨next, hnext, hmid⟩, hlast⟩
    · rintro ⟨mid, ⟨next, hnext, hmid⟩, hlast⟩
      exact ⟨next, hnext, mid, hmid, hlast⟩

theorem apply_preserves_of_all {I : Records → Prop} (h : apply ctx mutations db = some last)
    (hstart : I db.records)
    (hmutation : ∀ m ∈ mutations, ∀ before after, applyMutation ctx before m = some after →
      I before.records → I after.records) : I last.records := by
  induction mutations generalizing db with
  | nil =>
    obtain rfl := Option.some.inj h
    exact hstart
  | cons m mutations ih =>
    obtain ⟨mid, hmid, hrest⟩ := apply_cons_eq_some.mp h
    have hnext : I mid.records := hmutation m List.mem_cons_self db mid hmid hstart
    exact ih hrest hnext fun m' hm' => hmutation m' (List.mem_cons_of_mem _ hm')

/-- What every mutation preserves, the projection preserves; a mutation that stands only at
the head is applied to the records at the start. -/
theorem apply_preserves {I : Records → Prop} (h : apply ctx mutations db = some last)
    (hstart : I db.records)
    (hmutation : ∀ m ∈ mutations, ∀ before after, applyMutation ctx before m = some after →
      before.records = db.records ∨ m ∈ mutations.tail → I before.records → I after.records) :
    I last.records := by
  cases mutations with
  | nil =>
    obtain rfl := Option.some.inj h
    exact hstart
  | cons m mutations =>
    obtain ⟨mid, hmid, hrest⟩ := apply_cons_eq_some.mp h
    have hnext : I mid.records :=
      hmutation m List.mem_cons_self db mid hmid (Or.inl rfl) hstart
    refine apply_preserves_of_all hrest hnext fun m' hm' before after happly => ?_
    exact hmutation m' (List.mem_cons_of_mem _ hm') before after happly (Or.inr hm')

end Projection

/-- Whether a mutation carries claims over to a new contract version. -/
def Mutation.migrates : Mutation → Bool
  | .migrateContractClosure .. => true
  | _ => false

namespace Projection

variable {ctx : ProjectionContext} {db last : Db}

variable {replacement : JsonObject}

/-- A new contract version leaves its run without a root. -/
theorem unrooted_createContractVersion {version : ℕ}
    (h : applyMutation ctx db (.createContractVersion version replacement) = some last) :
    ∀ pointer ∈ last.records.pointers, pointer.runId = ctx.runId → pointer.rootClaimId = none := by
  intro pointer hpointer hrun
  rw [pointers_of_apply h] at hpointer
  obtain ⟨old, -, rfl⟩ := List.mem_map.mp hpointer
  rw [movePointer_runId] at hrun
  simp [movePointer, hrun]

/-- What holds at the start of an amendment and is preserved by each of its mutations holds
at its end. Its migration is applied after the run has lost its root. -/
theorem amendment_preserves {I : Records → Prop} {version : ℕ} {affected : List Id}
    (h : apply ctx (Guard.amendment version replacement affected) db = some last)
    (hstart : I db.records)
    (hmutation : ∀ m ∈ Guard.amendment version replacement affected, ∀ before after,
      applyMutation ctx before m = some after →
      before.records = db.records ∨ m ∈ (Guard.amendment version replacement affected).tail →
      (m.migrates = true → ∀ pointer ∈ before.records.pointers, pointer.runId = ctx.runId →
        pointer.rootClaimId = none) → I before.records → I after.records) :
    I last.records := by
  obtain ⟨db₁, h₁, h⟩ := apply_cons_eq_some.mp h
  obtain ⟨db₂, h₂, h⟩ := apply_cons_eq_some.mp h
  obtain ⟨db₃, h₃, h⟩ := apply_cons_eq_some.mp h
  obtain ⟨db₄, h₄, h⟩ := apply_cons_eq_some.mp h
  obtain ⟨db₅, h₅, h⟩ := apply_cons_eq_some.mp h
  obtain ⟨db₆, h₆, h⟩ := apply_cons_eq_some.mp h
  obtain rfl := Option.some.inj h
  have hidle : ∀ m : Mutation, m.migrates = false → ∀ before : Db, m.migrates = true →
      ∀ pointer ∈ before.records.pointers, pointer.runId = ctx.runId →
        pointer.rootClaimId = none := by
    intro m hno before hyes
    rw [hno] at hyes
    cases hyes
  have hi₁ := hmutation _ (by simp [Guard.amendment]) _ _ h₁ (Or.inl rfl) (hidle _ rfl _) hstart
  have hi₂ := hmutation _ (by simp [Guard.amendment]) _ _ h₂ (Or.inr (by simp [Guard.amendment]))
    (hidle _ rfl _) hi₁
  have hi₃ := hmutation _ (by simp [Guard.amendment]) _ _ h₃ (Or.inr (by simp [Guard.amendment]))
    (hidle _ rfl _) hi₂
  have hi₄ := hmutation _ (by simp [Guard.amendment]) _ _ h₄ (Or.inr (by simp [Guard.amendment]))
    (hidle _ rfl _) hi₃
  have hi₅ := hmutation _ (by simp [Guard.amendment]) _ _ h₅ (Or.inr (by simp [Guard.amendment]))
    (fun _ => unrooted_createContractVersion h₄) hi₄
  exact hmutation _ (by simp [Guard.amendment]) _ _ h₆ (Or.inr (by simp [Guard.amendment]))
    (hidle _ rfl _) hi₅

end Projection

namespace Accepted

variable {P : Platform} {policy : Policy} {db db' : Db} {op : ApplyOp}

/-- What the guard knows about an accepted command. -/
def context (accepted : Accepted P policy db op db') : GuardContext :=
  op.guardContext P policy accepted.snapshot

/-- The context in which an accepted command is projected. -/
def projection (accepted : Accepted P policy db op db') : ProjectionContext :=
  op.projectionContext P accepted.snapshot accepted.named accepted.generated

/-- A mutation of an accepted command, applied at one point of its projection. The migration
of an amendment is applied after the run has lost its root. -/
structure Applies (accepted : Accepted P policy db op db') (m : Mutation) (before after : Db) :
    Prop where
  mem : m ∈ accepted.mutations
  emitted : Guard.Emitted accepted.context op.request.command accepted.mutations m
  place : before.records = db.records ∨ m ∈ accepted.mutations.tail
  unrooted : m.migrates = true → ∀ pointer ∈ before.records.pointers,
    pointer.runId = op.request.runId → pointer.rootClaimId = none
  applied : Projection.applyMutation accepted.projection before m = some after

section Rules

variable (accepted : Accepted P policy db op db')

theorem handled : Guard.handle accepted.context op.request.command = .ok accepted.mutations :=
  (Guard.handle_of_decide accepted.decided).2

theorem version_eq {version : ℕ} (h : Guard.scopedVersion? op.request.command = some version) :
    version = accepted.snapshot.currentContractVersion :=
  Guard.version_of_scopeCheck (Guard.handle_of_decide accepted.decided).1 h

/-- An invariant holds after an accepted command when its mutations preserve it. -/
theorem preserves {I : Records → Prop} (hstart : I db.records)
    (hmutation : ∀ m before after, accepted.Applies m before after → I before.records →
      I after.records) : I db'.records := by
  rw [show db'.records = accepted.last.records from accepted.last_same]
  have hmid : accepted.mid.records = db.records := accepted.mid_same
  rw [← hmid] at hstart
  have hemitted := Guard.emitted_of_handle accepted.handled
  by_cases hmigrates : ∃ m ∈ accepted.mutations, m.migrates = true
  · obtain ⟨m, hm, hmigrates⟩ := hmigrates
    obtain ⟨version, replacement, affected, hall⟩ : ∃ version replacement affected,
        accepted.mutations = Guard.amendment version replacement affected := by
      cases m with
      | migrateContractClosure version affected =>
        obtain ⟨p, affected, -, hall⟩ := hemitted _ hm
        exact ⟨_, _, affected, hall⟩
      | _ => cases hmigrates
    have hprojected := accepted.projected
    rw [hall] at hprojected
    refine Projection.amendment_preserves hprojected hstart
      fun m hm before after happly hplace hunrooted => ?_
    rw [← hall] at hm hplace
    exact hmutation m before after
      ⟨hm, hemitted m hm, hplace.imp_left fun hfirst => hfirst.trans hmid, hunrooted, happly⟩
  · refine Projection.apply_preserves accepted.projected hstart
      fun m hm before after happly hplace => ?_
    exact hmutation m before after
      ⟨hm, hemitted m hm, hplace.imp_left fun hfirst => hfirst.trans hmid,
        fun h => absurd ⟨m, hm, h⟩ hmigrates, happly⟩

/-! ## The snapshot of an accepted command -/

theorem claims_eq :
    accepted.snapshot.claims = db.claims.filter (·.runId == op.request.runId) := by
  rw [accepted.isOf.claims_eq, accepted.start_same.claims, accepted.runId_eq]

theorem peerReviews_eq :
    accepted.snapshot.peerReviews = db.peerReviews.filter (·.runId == op.request.runId) := by
  rw [accepted.isOf.peerReviews_eq, accepted.start_same.peerReviews, accepted.runId_eq]

theorem edges_eq :
    accepted.snapshot.edges = db.claimEdges.filter (·.runId == op.request.runId) := by
  rw [accepted.isOf.edges_eq, accepted.start_same.claimEdges, accepted.runId_eq]

theorem obligations_eq :
    accepted.snapshot.obligations = db.obligations.filter (·.runId == op.request.runId) := by
  rw [accepted.isOf.obligations_eq, accepted.start_same.obligations, accepted.runId_eq]

theorem leanFeedback_eq :
    accepted.snapshot.leanFeedback = db.leanFeedback.filter (·.runId == op.request.runId) := by
  rw [accepted.isOf.leanFeedback_eq, accepted.start_same.leanFeedback, accepted.runId_eq]

theorem hostReceipts_eq :
    accepted.snapshot.hostReceipts = db.hostReceipts.filter (·.runId == op.request.runId) := by
  rw [accepted.isOf.hostReceipts_eq, accepted.start_same.hostReceipts, accepted.runId_eq]

theorem contracts_eq :
    accepted.snapshot.contracts = db.contractVersions.filter (·.runId == op.request.runId) := by
  rw [accepted.isOf.contracts_eq, accepted.start_same.contractVersions, accepted.runId_eq]

theorem pointer_mem : (⟨op.request.runId, accepted.snapshot.currentContractVersion,
    accepted.snapshot.rootClaimId⟩ : RunPointer) ∈ db.records.pointers := by
  have hmem := accepted.isOf.pointer_mem
  rw [show accepted.start.records = db.records from accepted.start_same, accepted.runId_eq] at hmem
  exact hmem

theorem mem_atomicVerifications {verification : AtomicVerification}
    (h : verification ∈ accepted.snapshot.atomicVerifications) :
    verification ∈ db.atomicVerifications := by
  rw [accepted.isOf.atomicVerifications_eq, List.mem_insertionSort,
    accepted.start_same.atomicVerifications] at h
  exact (List.mem_filter.mp h).1

theorem claim_of_lookup {id : Id} {claim : Claim} (h : accepted.snapshot.claim? id = some claim) :
    claim ∈ db.claims ∧ claim.runId = op.request.runId ∧ claim.claimId = id := by
  obtain ⟨hmem, hid⟩ := mem_of_lookup_records h
  rw [accepted.claims_eq, List.mem_filter] at hmem
  exact ⟨hmem.1, beq_iff_eq.mp hmem.2, hid⟩

theorem claim_of_current {id : Id} {claim : Claim}
    (h : accepted.context.currentClaim? id = some claim) :
    claim ∈ db.claims ∧ claim.runId = op.request.runId ∧ claim.claimId = id ∧
      claim.contractVersion = accepted.snapshot.currentContractVersion ∧
      claim.lifecycleStatus = .active := by
  obtain ⟨hlookup, hcurrent⟩ := GuardContext.currentClaim?_eq_some.mp h
  obtain ⟨hmem, hrun, hid⟩ := accepted.claim_of_lookup hlookup
  obtain ⟨-, hversion, hactive⟩ := GuardContext.isCurrent_iff.mp hcurrent
  exact ⟨hmem, hrun, hid, hversion, hactive⟩

theorem review_of_lookup {id : Id} {review : PeerReview}
    (h : accepted.snapshot.review? id = some review) :
    review ∈ db.peerReviews ∧ review.runId = op.request.runId := by
  obtain ⟨hmem, -⟩ := mem_of_lookup_records h
  rw [accepted.peerReviews_eq, List.mem_filter] at hmem
  exact ⟨hmem.1, beq_iff_eq.mp hmem.2⟩

end Rules

variable {accepted : Accepted P policy db op db'} {m : Mutation}

/-- A mutation that stands only at the head is applied to the records on which the guard
decided. -/
theorem Applies.records_of_head {before after : Db} (h : accepted.Applies m before after)
    {rest : List Mutation} (hall : accepted.mutations = m :: rest) (hrest : m ∉ rest) :
    before.records = db.records := by
  rcases h.place with hfirst | htail
  · exact hfirst
  · rw [hall] at htail
    exact absurd htail hrest

/-- The only mutation of a command is applied to the records on which the guard decided. -/
theorem Applies.records_of_single {before after : Db} (h : accepted.Applies m before after)
    (hsingle : accepted.mutations = [m]) :
    before.records = db.records :=
  h.records_of_head hsingle List.not_mem_nil

/-- A command with one mutation applies it to the records on which the guard decided. -/
theorem applies_of_single (accepted : Accepted P policy db op db')
    (hsingle : accepted.mutations = [m]) :
    ∃ before after, accepted.Applies m before after ∧ before.records = db.records ∧
      db'.records = after.records := by
  have hprojected := accepted.projected
  rw [hsingle] at hprojected
  obtain ⟨after, happly, hlast⟩ := Projection.apply_cons_eq_some.mp hprojected
  have hafter : after = accepted.last := Option.some.inj hlast
  have hmem : m ∈ accepted.mutations := by rw [hsingle]; exact List.mem_singleton.mpr rfl
  have hmid : accepted.mid.records = db.records := accepted.mid_same
  refine ⟨accepted.mid, after, ⟨hmem, Guard.emitted_of_handle accepted.handled m hmem,
    Or.inl hmid, fun hmigrates => ?_, happly⟩, hmid, hafter ▸ accepted.last_same⟩
  have hemitted := Guard.emitted_of_handle accepted.handled m hmem
  cases m with
  | migrateContractClosure version affected =>
    obtain ⟨p, affected, -, hall⟩ := hemitted
    rw [hsingle] at hall
    cases hall
  | _ => cases hmigrates

end Accepted

variable {P : Platform} {policy : Policy}

/-- What holds of the empty records and is preserved by every operation holds of every
reached database. -/
theorem reached_invariant (I : Records → Prop) (hempty : I Db.empty.records)
    (hstep : ∀ db op, I db.records → I (step P policy db op).records) (ops : List Op) :
    I (reached P policy ops).records := by
  have hrun := @runFrom_invariant Db Op (step P policy) (fun db => I db.records) Db.empty hempty
    hstep ops
  exact hrun

/-- What holds of the empty records and is preserved by every operation that satisfies a
condition holds after every run whose operations satisfy it. -/
theorem reached_invariant_of (I : Records → Prop) {cond : Db → Op → Prop}
    (hempty : I Db.empty.records)
    (hstep : ∀ db op, I db.records → cond db op → I (step P policy db op).records) {ops : List Op}
    (hcond : StepsSatisfy (step P policy) cond Db.empty ops) :
    I (reached P policy ops).records := by
  have hrun := @runFrom_invariant_of Db Op (step P policy) (fun db => I db.records) cond Db.empty
    hempty hstep ops hcond
  exact hrun

/-! ## Claims under the consumption of receipts -/

section Consumption

variable {before after : Records}

/-- A claim after the consumption of a replay. -/
theorem LeanConsumption.exists_claim {use : ReceiptUse} {feedbackId : Id}
    (consumption : LeanConsumption before after use feedbackId) {claim' : Claim}
    (h : claim' ∈ after.claims) :
    ∃ claim ∈ before.claims, claim' = claim ∨
      claim.claimId = consumption.rows.claim.claimId ∧
        claim' = { claim with machineVerdict := .kernelVerified } := by
  have hclaims : after.claims = kernelVerifiedClaims consumption.rows before.claims :=
    congrArg Records.claims consumption.after_eq
  rw [hclaims] at h
  unfold kernelVerifiedClaims at h
  split at h
  · exact ⟨claim', h, Or.inl rfl⟩
  · obtain ⟨claim, hclaim, rfl⟩ := mem_updateWhere.mp h
    refine ⟨claim, hclaim, ?_⟩
    split
    · rename_i htest
      exact Or.inr ⟨(beq_iff_eq.mp htest).trans consumption.found.claimId_eq.symm, rfl⟩
    · exact Or.inl rfl

/-- A claim after the consumption of a check. -/
theorem CheckerConsumption.exists_claim {use : ReceiptUse} {verificationId : Id}
    (consumption : CheckerConsumption before after use verificationId) {claim' : Claim}
    (h : claim' ∈ after.claims) :
    ∃ claim ∈ before.claims, claim' = claim ∨
      claim.claimId = consumption.rows.claim.claimId ∧
        claim' = { claim with
          machineVerdict := .certificateVerified
          semanticVerdict := .tested } := by
  have hclaims := congrArg Records.claims consumption.after_eq
  rw [hclaims] at h
  obtain ⟨claim, hclaim, rfl⟩ := mem_updateWhere.mp h
  refine ⟨claim, hclaim, ?_⟩
  split
  · rename_i htest
    exact Or.inr ⟨(beq_iff_eq.mp htest).trans consumption.found.claimId_eq.symm, rfl⟩
  · exact Or.inl rfl

end Consumption

/-! ## What the operations of the host leave alone -/

/-- What the operations of the host may make of a claim. -/
structure Claim.HostChange (a b : Claim) : Prop where
  eq : b = { a with machineVerdict := b.machineVerdict, semanticVerdict := b.semanticVerdict }
  semantic : b.semanticVerdict = a.semanticVerdict ∨ b.semanticVerdict = .tested

theorem Claim.HostChange.refl (claim : Claim) : claim.HostChange claim := ⟨rfl, Or.inl rfl⟩

theorem Claim.HostChange.sameStatement {a b : Claim} (h : a.HostChange b) : a.SameStatement b := by
  rw [h.eq]
  exact ⟨rfl, rfl, rfl, rfl⟩

/-- What an operation leaves alone unless it is an accepted command. -/
structure HostFrame (before after : Records) : Prop where
  claims : ∃ edit : Claim → Claim, (∀ claim : Claim, claim.HostChange (edit claim)) ∧
    after.claims = before.claims.map edit
  claimEdges : after.claimEdges = before.claimEdges
  obligations : after.obligations = before.obligations
  closureWitnesses : after.closureWitnesses = before.closureWitnesses
  peerReviews : after.peerReviews = before.peerReviews
  evidence : ∃ added : List Evidence,
    (∀ item ∈ added, item.evidenceType ≠ .counterexample ∧
      ∃ claim ∈ before.claims, claim.claimId = item.claimId ∧
        claim.statementHash = item.statementHash ∧ claim.lifecycleStatus = .active) ∧
    after.evidence = before.evidence ++ added
  runs : after.pointers = before.pointers ∧ after.contractVersions = before.contractVersions ∨
    Nonempty (RunCreation before after)

section Frame

variable {before after : Records}

theorem hostChange_ite {test : Claim → Bool} {change : Claim → Claim}
    (h : ∀ claim : Claim, claim.HostChange (change claim)) (claim : Claim) :
    claim.HostChange (if test claim = true then change claim else claim) := by
  split
  · exact h claim
  · exact Claim.HostChange.refl claim

theorem ReceiptRows.supplied_active {rows : ReceiptRows} {receiptId : Id} {type : EvidenceType}
    {item : Evidence} (hfound : rows.FoundIn before receiptId) (heligible : rows.eligible = true)
    (hsupplies : rows.receipt.Supplies type item) :
    item.evidenceType = type ∧ ∃ claim ∈ before.claims, claim.claimId = item.claimId ∧
      claim.statementHash = item.statementHash ∧ claim.lifecycleStatus = .active := by
  simp only [ReceiptRows.eligible, Bool.and_eq_true, beq_iff_eq] at heligible
  obtain ⟨_, _, _, _, _, _, rfl⟩ := hsupplies
  exact ⟨rfl, rows.claim, hfound.claim_mem, hfound.claimId_eq, heligible.1.2.symm,
    heligible.1.1.1.2⟩

theorem LeanConsumption.hostFrame {use : ReceiptUse} {feedbackId : Id}
    (consumption : LeanConsumption before after use feedbackId) : HostFrame before after := by
  obtain ⟨rows, _, _, _, item, hfound, heligible, hsupplies, -, rfl⟩ := consumption
  simp only [ReceiptRows.leanEligible, Bool.and_eq_true] at heligible
  have hitem := ReceiptRows.supplied_active hfound heligible.1.1.1.1.2 hsupplies
  have hchange : ∀ claim : Claim,
      claim.HostChange { claim with machineVerdict := .kernelVerified } :=
    fun claim => ⟨rfl, Or.inl rfl⟩
  refine ⟨?_, rfl, rfl, rfl, rfl, ⟨[item], ?_, rfl⟩, Or.inl ⟨rfl, rfl⟩⟩
  · change ∃ edit : Claim → Claim, _ ∧ kernelVerifiedClaims rows before.claims = _
    unfold kernelVerifiedClaims
    split
    · exact ⟨id, Claim.HostChange.refl, (List.map_id _).symm⟩
    · exact ⟨_, hostChange_ite hchange, rfl⟩
  · intro other hother
    obtain rfl := List.mem_singleton.mp hother
    exact ⟨by simp [hitem.1], hitem.2⟩

theorem CheckerConsumption.hostFrame {use : ReceiptUse} {verificationId : Id}
    (consumption : CheckerConsumption before after use verificationId) :
    HostFrame before after := by
  obtain ⟨rows, item, _, hfound, heligible, hsupplies, -, -, rfl⟩ := consumption
  simp only [ReceiptRows.checkerEligible, Bool.and_eq_true] at heligible
  have hitem := ReceiptRows.supplied_active hfound heligible.2 hsupplies
  have hchange : ∀ claim : Claim, claim.HostChange
      { claim with machineVerdict := .certificateVerified, semanticVerdict := .tested } :=
    fun claim => ⟨rfl, Or.inr rfl⟩
  refine ⟨⟨_, hostChange_ite hchange, rfl⟩, rfl, rfl, rfl, rfl, ⟨[item], ?_, rfl⟩,
    Or.inl ⟨rfl, rfl⟩⟩
  intro other hother
  obtain rfl := List.mem_singleton.mp hother
  exact ⟨by simp [hitem.1], hitem.2⟩

/-- Records that agree on these tables. -/
theorem HostFrame.of_eq (hclaims : after.claims = before.claims)
    (hedges : after.claimEdges = before.claimEdges)
    (hobligations : after.obligations = before.obligations)
    (hwitnesses : after.closureWitnesses = before.closureWitnesses)
    (hreviews : after.peerReviews = before.peerReviews)
    (hevidence : after.evidence = before.evidence)
    (hruns : after.pointers = before.pointers ∧
        after.contractVersions = before.contractVersions ∨
      Nonempty (RunCreation before after)) : HostFrame before after where
  claims := ⟨id, Claim.HostChange.refl, by rw [hclaims, List.map_id]⟩
  claimEdges := hedges
  obligations := hobligations
  closureWitnesses := hwitnesses
  peerReviews := hreviews
  evidence := ⟨[], List.forall_mem_nil _, by rw [hevidence, List.append_nil]⟩
  runs := hruns

theorem HostFrame.exists_claim (h : HostFrame before after) {claim' : Claim}
    (hclaim' : claim' ∈ after.claims) : ∃ claim ∈ before.claims, claim.HostChange claim' := by
  obtain ⟨edit, hedit, heq⟩ := h.claims
  rw [heq] at hclaim'
  obtain ⟨claim, hclaim, rfl⟩ := List.mem_map.mp hclaim'
  exact ⟨claim, hclaim, hedit claim⟩

/-- Every claim before an operation of the host is still there after it. -/
theorem HostFrame.exists_claim_after (h : HostFrame before after) {claim : Claim}
    (hclaim : claim ∈ before.claims) : ∃ claim' ∈ after.claims, claim.HostChange claim' := by
  obtain ⟨edit, hedit, heq⟩ := h.claims
  refine ⟨edit claim, ?_, hedit claim⟩
  rw [heq]
  exact List.mem_map_of_mem hclaim

theorem HostFrame.keeps_claims (h : HostFrame before after) :
    Kept Claim.SameStatement before.claims after.claims := by
  intro claim hclaim
  obtain ⟨claim', hclaim', hchange⟩ := h.exists_claim_after hclaim
  exact ⟨claim', hclaim', hchange.sameStatement⟩

end Frame

/-- An operation is an accepted command, or leaves most of the records alone. -/
theorem step_cases {P : Platform} {policy : Policy} {db : Db} (op : Op) :
    HostFrame db.records (step P policy db op).records ∨
      ∃ applied : ApplyOp, op = .apply applied ∧ applied.Accepts P policy db ∧
        Nonempty (Accepted P policy db applied (step P policy db op)) := by
  generalize hnext : step P policy db op = db'
  have transition : Transition P policy db op db' := hnext ▸ transition_step op
  cases transition with
  | idle op db' same =>
    rw [show db'.records = db.records from same]
    exact Or.inl (HostFrame.of_eq rfl rfl rfl rfl rfl rfl (Or.inl ⟨rfl, rfl⟩))
  | created op db' creation =>
    have heq := creation.after_eq
    refine Or.inl (HostFrame.of_eq ?_ ?_ ?_ ?_ ?_ ?_ (Or.inr ⟨creation⟩))
    all_goals rw [heq]
  | recorded capability record db' reasons fresh heq =>
    rw [heq]
    exact Or.inl (HostFrame.of_eq rfl rfl rfl rfl rfl rfl (Or.inl ⟨rfl, rfl⟩))
  | applied op db' accepts accepted => exact Or.inr ⟨op, rfl, accepts, ⟨accepted⟩⟩
  | leanConsumed capability use feedbackId toolchain db' consumption
  | checkerConsumed capability use verificationId rootKind db' consumption =>
    exact Or.inl consumption.hostFrame

/-! ## Claims have distinct identifiers -/

/-- No two claims have the same identifier. -/
def Records.UniqueClaims (records : Records) : Prop := (records.claims.map (·.claimId)).Nodup

variable {records : Records}

theorem Records.UniqueClaims.eq (h : records.UniqueClaims) {a b : Claim} (ha : a ∈ records.claims)
    (hb : b ∈ records.claims) (hid : a.claimId = b.claimId) : a = b :=
  List.inj_on_of_nodup_map h ha hb hid

/-- Every operation keeps the identifiers of claims distinct. -/
theorem uniqueClaims_step {P : Platform} {policy : Policy} {db : Db} (op : Op)
    (h : db.records.UniqueClaims) : (step P policy db op).records.UniqueClaims := by
  rcases @step_cases P policy db op with frame | ⟨op, rfl, -, ⟨accepted⟩⟩
  · obtain ⟨edit, hedit, heq⟩ := frame.claims
    unfold Records.UniqueClaims
    rw [heq, List.map_map]
    have hids : (·.claimId) ∘ edit = fun claim : Claim => claim.claimId :=
      funext fun claim => (hedit claim).sameStatement.claimId
    rw [hids]
    exact h
  · refine accepted.preserves h fun m before after happlies hbefore => ?_
    exact Projection.nodup_claimIds_of_apply happlies.applied hbefore

/-- The claims of every reached database have distinct identifiers. -/
theorem uniqueClaims_reached (P : Platform) (policy : Policy) (ops : List Op) :
    (reached P policy ops).records.UniqueClaims :=
  reached_invariant Records.UniqueClaims List.nodup_nil (fun _ op h => uniqueClaims_step op h) ops

/-! ## Runs and contract versions are distinct -/

/-- No two runs have the same identifier. -/
def Records.UniqueRuns (records : Records) : Prop := (records.pointers.map (·.runId)).Nodup

/-- No two contract versions of a run have the same number. -/
def Records.UniqueContracts (records : Records) : Prop :=
  (records.contractVersions.map ContractVersion.key).Nodup

theorem Records.UniqueRuns.eq (h : records.UniqueRuns) {a b : RunPointer}
    (ha : a ∈ records.pointers) (hb : b ∈ records.pointers) (hid : a.runId = b.runId) : a = b :=
  List.inj_on_of_nodup_map h ha hb hid

theorem Records.UniqueContracts.eq (h : records.UniqueContracts) {a b : ContractVersion}
    (ha : a ∈ records.contractVersions) (hb : b ∈ records.contractVersions) (hkey : a.key = b.key) :
    a = b :=
  List.inj_on_of_nodup_map h ha hb hkey

/-- Every operation keeps the identifiers of runs distinct. -/
theorem uniqueRuns_step {db : Db} (op : Op) (h : db.records.UniqueRuns) :
    (step P policy db op).records.UniqueRuns := by
  rcases @step_cases P policy db op with frame | ⟨op, rfl, -, ⟨accepted⟩⟩
  · unfold Records.UniqueRuns
    rcases frame.runs with ⟨hsame, -⟩ | ⟨⟨creation⟩⟩
    · rw [hsame]
      exact h
    · rw [creation.after_eq, List.map_append]
      refine nodup_concat_of_fresh h fun id hid => ?_
      obtain ⟨pointer, hpointer, rfl⟩ := List.mem_map.mp hid
      exact creation.run_fresh pointer hpointer
  · refine accepted.preserves h fun m before after happlies hbefore => ?_
    unfold Records.UniqueRuns
    rw [Projection.pointers_of_apply happlies.applied, List.map_map]
    have hids : (·.runId) ∘ Projection.movePointer accepted.projection m =
        fun pointer : RunPointer => pointer.runId :=
      funext fun pointer => Projection.movePointer_runId m pointer
    rw [hids]
    exact hbefore

/-- Every operation keeps the contract versions of a run distinct. -/
theorem uniqueContracts_step {db : Db} (op : Op) (h : db.records.UniqueContracts) :
    (step P policy db op).records.UniqueContracts := by
  rcases @step_cases P policy db op with frame | ⟨op, rfl, -, ⟨accepted⟩⟩
  · unfold Records.UniqueContracts
    rcases frame.runs with ⟨-, hsame⟩ | ⟨⟨creation⟩⟩
    · rw [hsame]
      exact h
    · rw [creation.after_eq, List.map_append]
      refine nodup_concat_of_fresh h fun key hkey => ?_
      obtain ⟨contract, hcontract, rfl⟩ := List.mem_map.mp hkey
      exact fun heq => creation.contract_fresh contract hcontract (Prod.mk.inj heq)
  · refine accepted.preserves h fun m before after happlies hbefore => ?_
    unfold Records.UniqueContracts
    rcases (Projection.contracts_of_apply happlies.applied).keys with hsame | ⟨key, hfresh, heq⟩
    · change (after.contractVersions.map _).Nodup
      rw [hsame]
      exact hbefore
    · change (after.contractVersions.map _).Nodup
      rw [heq]
      exact nodup_concat_of_fresh hbefore fun old hold hold' => hfresh (hold' ▸ hold)

/-- The run of an accepted command, as the database holds it. -/
theorem Accepted.exists_run {db db' : Db} {op : ApplyOp} (accepted : Accepted P policy db op db')
    (hruns : db.records.UniqueRuns) :
    ∃ run, db.run? op.request.runId = some run ∧ run.runId = op.request.runId ∧
      run.currentContractVersion = accepted.snapshot.currentContractVersion ∧
      run.rootClaimId = accepted.snapshot.rootClaimId := by
  obtain ⟨row, hrow, hpointer⟩ := List.mem_map.mp accepted.pointer_mem
  have hrowId : row.runId = op.request.runId := congrArg RunPointer.runId hpointer
  cases hrun : db.run? op.request.runId with
  | none =>
    have hall := List.find?_eq_none.mp hrun row hrow
    simp [hrowId] at hall
  | some run =>
    obtain ⟨hmem, hid⟩ := run?_eq_some hrun
    have heq : run.pointer = row.pointer := by
      refine hruns.eq (List.mem_map_of_mem hmem) (List.mem_map_of_mem hrow) ?_
      exact hid.trans hrowId.symm
    have hsame := heq.trans hpointer
    exact ⟨run, rfl, hid, congrArg RunPointer.currentContractVersion hsame,
      congrArg RunPointer.rootClaimId hsame⟩

end ResearchKernel
