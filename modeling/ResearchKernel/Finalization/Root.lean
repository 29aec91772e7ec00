import ResearchKernel.ClaimGraph.Acyclic
import ResearchKernel.Composition.Validated

/-!
# Finalization of the root

An outcome that claims authority is about the root of the run. The handler does not look
at the life of the root: that it is active rests on what a revocation leaves behind. A
revoked claim is not closed any more and has no accepted evidence, so it can be neither
proved nor disproved. Its route is left as it was, so it can still be previously known.
-/

namespace ResearchKernel

open Foundation Relation

/-! ## Withdrawn claims -/

/-- A claim with the given identifier has been withdrawn. -/
def Records.Withdrawn (records : Records) (id : Id) : Prop :=
  ∃ claim ∈ records.claims, claim.claimId = id ∧ claim.lifecycleStatus = .invalidated

def Records.WithdrawnReopened (records : Records) : Prop :=
  ∀ claim ∈ records.claims, claim.lifecycleStatus = .invalidated →
    claim.closureState = .invalidated

/-- The evidence about a withdrawn claim is not accepted. -/
def Records.WithdrawnUnsupported (records : Records) : Prop :=
  ∀ item ∈ records.evidence, item.ingestStatus = .accepted → ¬ records.Withdrawn item.claimId

theorem Records.UniqueClaims.not_withdrawn {records : Records} (h : records.UniqueClaims)
    {claim : Claim} (hclaim : claim ∈ records.claims) (hactive : claim.lifecycleStatus = .active) :
    ¬ records.Withdrawn claim.claimId := by
  rintro ⟨other, hother, hid, hwithdrawn⟩
  rw [h.eq hother hclaim hid, hactive] at hwithdrawn
  cases hwithdrawn

/-- The operations of the host withdraw no claim. -/
theorem HostFrame.withdrawn {before after : Records} (frame : HostFrame before after) {id : Id}
    (h : after.Withdrawn id) : before.Withdrawn id := by
  obtain ⟨claim', hclaim', hid, hwithdrawn⟩ := h
  obtain ⟨claim, hclaim, hchange⟩ := frame.exists_claim hclaim'
  refine ⟨claim, hclaim, hchange.sameStatement.claimId.symm.trans hid, ?_⟩
  rw [hchange.eq] at hwithdrawn
  exact hwithdrawn

section Accepted

variable {P : Platform} {policy : Policy} {db db' : Db} {op : ApplyOp}
  {accepted : Accepted P policy db op db'} {m : Mutation} {before after : Db}

/-- Only a revocation withdraws claims. -/
theorem withdrawn_before {ctx : ProjectionContext}
    (happly : Projection.applyMutation ctx before m = some after)
    (hrevokes : ∀ id, m ≠ .revokeFactClosure id) {id : Id} (h : after.records.Withdrawn id) :
    before.records.Withdrawn id := by
  obtain ⟨claim', hclaim', hid, hwithdrawn⟩ := h
  rcases Projection.exists_claim_of_apply happly hclaim' with ⟨claim, hclaim, hchange⟩ | hnew
  · refine ⟨claim, hclaim, hchange.sameStatement.claimId.symm.trans hid, ?_⟩
    rcases hchange.lifecycle with hsame | ⟨⟨fact, hm⟩, -⟩ | ⟨-, hsuperseded⟩
    · exact hsame.symm.trans hwithdrawn
    · exact absurd hm (hrevokes fact)
    · rw [hsuperseded] at hwithdrawn
      cases hwithdrawn
  · cases m with
    | registerClaim p closure =>
      obtain rfl := List.mem_singleton.mp hnew
      cases hwithdrawn
    | _ => cases hnew

/-- A command that writes to the closure of a claim is about an active claim. -/
theorem active_of_closure (hunique : db.records.UniqueClaims)
    (happlies : accepted.Applies m before after) {claim claim' : Claim}
    (hclaim : claim ∈ before.records.claims) (hchange : Projection.ClaimChange m claim claim')
    (hclosure : claim'.closureState ≠ claim.closureState)
    (hinvalid : claim'.closureState ≠ .invalidated)
    (hbefore : ∀ id, before.records.Withdrawn id → db.records.Withdrawn id) :
    claim.lifecycleStatus ≠ .invalidated := by
  intro hwithdrawn
  have hold := hbefore claim.claimId ⟨claim, hclaim, rfl, hwithdrawn⟩
  suffices hactive : ∃ active ∈ db.records.claims, active.claimId = claim.claimId ∧
      active.lifecycleStatus = .active by
    obtain ⟨active, hmem, hid, hactive⟩ := hactive
    exact hunique.not_withdrawn hmem hactive (hid ▸ hold)
  cases hchange with
  | promoted p value claim hid =>
    obtain ⟨-, hsingle, hhandle⟩ := happlies.emitted
    rw [hsingle] at hhandle
    obtain ⟨promotion⟩ := Guard.promotion_of_handle hhandle
    obtain ⟨hmem, -, hfound⟩ := accepted.claim_of_lookup promotion.claim_eq
    exact ⟨promotion.claim, hmem, hfound.trans hid.symm, promotion.active⟩
  | closed p closure claim hid =>
    obtain ⟨-, -, hvalid⟩ := happlies.emitted
    obtain ⟨validated⟩ := validated_of_validate hvalid
    obtain ⟨-, -, hparent, hactive, -⟩ := validated.parent_spec
    obtain ⟨hmem, -, hfound⟩ := accepted.claim_of_lookup hparent
    exact ⟨validated.parent, hmem, hfound.trans hid.symm, hactive⟩
  | closureSet id value claim hid =>
    obtain ⟨p, -, hparent, -, -, hhandle⟩ := happlies.emitted
    obtain ⟨parent, hcurrent⟩ := Guard.current_of_registerObligation hhandle
    obtain ⟨hmem, -, hfound, -, hactive⟩ := accepted.claim_of_current hcurrent
    exact ⟨parent, hmem, hfound.trans (hparent.symm.trans hid.symm), hactive⟩
  | superseded version affected claim value hvalue =>
    rcases hvalue with ⟨hvalue, hsame⟩ | hvalue
    · exact absurd (hvalue.trans hsame.symm) hclosure
    · exact absurd hvalue hinvalid
  | reopened | revoked => exact absurd rfl hinvalid
  | _ => exact absurd rfl hclosure

/-- A revocation emits nothing else. -/
theorem revokes_alone {id : Id} (hmem : .revokeFactClosure id ∈ accepted.mutations) :
    accepted.mutations = [.revokeFactClosure id] := by
  obtain ⟨p, -, rfl, hsingle, -⟩ := Guard.emitted_of_handle accepted.handled _ hmem
  exact hsingle

/-- What is said about withdrawn claims while an accepted command is projected. -/
structure WithdrawnInvariant (accepted : Accepted P policy db op db') (records : Records) :
    Prop where
  reopened : records.WithdrawnReopened
  unsupported : records.WithdrawnUnsupported
  before : (∀ id, .revokeFactClosure id ∉ accepted.mutations) →
    ∀ id, records.Withdrawn id → db.records.Withdrawn id

theorem accepted_evidence_before {ctx : ProjectionContext}
    (happly : Projection.applyMutation ctx before m = some after) {item : Evidence}
    (hitem : item ∈ after.records.evidence) (haccepted : item.ingestStatus = .accepted) :
    (∃ old ∈ before.records.evidence, old.claimId = item.claimId ∧ old.ingestStatus = .accepted) ∨
      Projection.IsNewEvidence m item := by
  rcases Projection.evidence_of_apply happly item hitem with ⟨old, hold, heq, hstatus⟩ | hnew
  · refine Or.inl ⟨old, hold, ?_, ?_⟩
    · rw [heq]
    · rcases hstatus with hsame | hinvalid
      · exact hsame.symm.trans haccepted
      · rw [haccepted] at hinvalid
        cases hinvalid
  · exact Or.inr hnew

/-- A revocation reopens what it withdraws and leaves it without evidence. -/
theorem withdrawnInvariant_of_revoke {id : Id}
    (happlies : accepted.Applies (.revokeFactClosure id) before after)
    (h : WithdrawnInvariant accepted before.records) :
    WithdrawnInvariant accepted after.records where
  reopened := by
    intro claim' hclaim' hwithdrawn
    obtain ⟨claim, hclaim, -, ⟨-, -, hreopened⟩ | ⟨-, rfl⟩⟩ :=
      Projection.exists_claim_of_revoke happlies.applied hclaim'
    · exact hreopened
    · exact h.reopened claim' hclaim hwithdrawn
  unsupported := by
    rintro item hitem haccepted ⟨claim', hclaim', hid, hwithdrawn⟩
    obtain ⟨claim, hclaim, hsame, ⟨haffected, -, -⟩ | ⟨-, rfl⟩⟩ :=
      Projection.exists_claim_of_revoke happlies.applied hclaim'
    · rw [← hsame, hid] at haffected
      exact Projection.evidence_of_revoke happlies.applied hitem haffected haccepted
    · rcases accepted_evidence_before happlies.applied hitem haccepted with
        ⟨old, hold, hclaimId, hstatus⟩ | ⟨p, hm, -⟩
      · exact h.unsupported old hold hstatus ⟨claim', hclaim, hid.trans hclaimId.symm, hwithdrawn⟩
      · cases hm
  before := fun hnone => absurd happlies.mem (hnone id)

/-- Other mutations neither close a withdrawn claim nor add evidence about it. -/
theorem withdrawnInvariant_of_applies (hunique : db.records.UniqueClaims)
    (happlies : accepted.Applies m before after) (hrevokes : ∀ id, m ≠ .revokeFactClosure id)
    (h : WithdrawnInvariant accepted before.records) :
    WithdrawnInvariant accepted after.records := by
  have hnone : ∀ id, .revokeFactClosure id ∉ accepted.mutations := by
    intro id hmem
    have hm := happlies.mem
    rw [revokes_alone hmem, List.mem_singleton] at hm
    exact hrevokes id hm
  refine ⟨?_, ?_, ?_⟩
  · intro claim' hclaim' hwithdrawn
    obtain ⟨claim, hclaim, hchange, hlife⟩ : ∃ claim ∈ before.records.claims,
        Projection.ClaimChange m claim claim' ∧ claim.lifecycleStatus = .invalidated := by
      rcases Projection.exists_claim_of_apply happlies.applied hclaim' with
        ⟨claim, hclaim, hchange⟩ | hnew
      · refine ⟨claim, hclaim, hchange, ?_⟩
        rcases hchange.lifecycle with hsame | ⟨⟨fact, hm⟩, -⟩ | ⟨-, hsuperseded⟩
        · exact hsame.symm.trans hwithdrawn
        · exact absurd hm (hrevokes fact)
        · rw [hsuperseded] at hwithdrawn
          cases hwithdrawn
      · cases m with
        | registerClaim p closure =>
          obtain rfl := List.mem_singleton.mp hnew
          cases hwithdrawn
        | _ => cases hnew
    by_contra hopen
    refine active_of_closure hunique happlies hclaim hchange ?_ hopen (h.before hnone) hlife
    rw [h.reopened claim hclaim hlife]
    exact hopen
  · intro item hitem haccepted hwithdrawn
    have hbefore := withdrawn_before happlies.applied hrevokes hwithdrawn
    rcases accepted_evidence_before happlies.applied hitem haccepted with
      ⟨old, hold, hclaimId, hstatus⟩ | ⟨p, rfl, hclaimId, -⟩
    · exact h.unsupported old hold hstatus (hclaimId ▸ hbefore)
    · obtain ⟨-, -, hhandle⟩ := happlies.emitted
      obtain ⟨claim, hcurrent, -⟩ := Guard.current_of_submitEvidence hhandle
      obtain ⟨hmem, -, hfound, -, hactive⟩ := accepted.claim_of_current hcurrent
      have hold := h.before hnone _ hbefore
      rw [hclaimId, ← hfound] at hold
      exact hunique.not_withdrawn hmem hactive hold
  · intro hnone id hwithdrawn
    exact h.before hnone id (withdrawn_before happlies.applied hrevokes hwithdrawn)

end Accepted

variable {P : Platform} {policy : Policy} {db : Db}

/-- Every operation leaves withdrawn claims reopened and without evidence. -/
theorem withdrawn_step (op : Op) (hunique : db.records.UniqueClaims)
    (h : db.records.WithdrawnReopened ∧ db.records.WithdrawnUnsupported) :
    (step P policy db op).records.WithdrawnReopened ∧
      (step P policy db op).records.WithdrawnUnsupported := by
  rcases @step_cases P policy db op with frame | ⟨op, rfl, -, ⟨accepted⟩⟩
  · constructor
    · intro claim' hclaim' hwithdrawn
      obtain ⟨claim, hclaim, hchange⟩ := frame.exists_claim hclaim'
      rw [hchange.eq] at hwithdrawn ⊢
      exact h.1 claim hclaim hwithdrawn
    · obtain ⟨added, hadded, heq⟩ := frame.evidence
      intro item hitem haccepted hwithdrawn
      have hbefore := frame.withdrawn hwithdrawn
      rw [heq] at hitem
      rcases List.mem_append.mp hitem with hold | hnew
      · exact h.2 item hold haccepted hbefore
      · obtain ⟨-, claim, hclaim, hid, -, hactive⟩ := hadded item hnew
        exact hunique.not_withdrawn hclaim hactive (hid ▸ hbefore)
  · have hstart : WithdrawnInvariant accepted db.records := ⟨h.1, h.2, fun _ _ hid => hid⟩
    have hend : WithdrawnInvariant accepted (step P policy db (.apply op)).records := by
      refine accepted.preserves hstart fun m before after happlies hbefore => ?_
      cases m with
      | revokeFactClosure id => exact withdrawnInvariant_of_revoke happlies hbefore
      | _ =>
        exact withdrawnInvariant_of_applies hunique happlies (fun _ h => by cases h) hbefore
    exact ⟨hend.reopened, hend.unsupported⟩

/-! ## The root of a run -/

/-- A claim that states the contract version to which a run points. -/
structure Records.StatesContract (records : Records) (pointer : RunPointer) (claim : Claim) :
    Prop where
  mem : claim ∈ records.claims
  runId : claim.runId = pointer.runId
  version : claim.contractVersion = pointer.currentContractVersion
  contract : ∃ contract ∈ records.contractVersions,
    contract.key = (pointer.runId, pointer.currentContractVersion) ∧
      contract.statementHash = claim.statementHash

/-- The root of every run states its contract and is not superseded. -/
def Records.Rooted (records : Records) : Prop :=
  ∀ pointer ∈ records.pointers, ∀ id, pointer.rootClaimId = some id →
    ∃ claim, records.StatesContract pointer claim ∧ claim.claimId = id ∧
      (claim.lifecycleStatus = .active ∨ claim.lifecycleStatus = .invalidated)

theorem claim_of_reachable (hscoped : db.records.EdgesScoped) {runId : Id} {version : ℕ}
    {starts : List Id}
    (hstarts : ∀ id ∈ starts, ∃ claim ∈ db.claims, claim.claimId = id ∧ claim.runId = runId)
    {id : Id} (h : id ∈ reachableFrom (db.activeArcs runId version) starts) :
    ∃ claim ∈ db.claims, claim.claimId = id ∧ claim.runId = runId := by
  obtain ⟨start, hstart, hpath⟩ := mem_reachableFrom.mp h
  induction hpath with
  | refl => exact hstarts start hstart
  | tail _ harc _ =>
    obtain ⟨edge, hedge, harcs⟩ := List.mem_flatMap.mp harc
    obtain ⟨hmem, htest⟩ := List.mem_filter.mp hedge
    simp only [Bool.and_eq_true, beq_iff_eq] at htest
    obtain ⟨claim, hclaim, hid, hrun⟩ := hscoped edge hmem _ (ends_of_mem_arcs harcs).2
    exact ⟨claim, hclaim, hid, hrun.trans htest.1.1.1⟩

/-- A migration leaves the claims of other runs alone. -/
theorem migrate_of_other_run {ctx : ProjectionContext} {before after : Db} {version : ℕ}
    {affected : List Id}
    (happly : Projection.applyMutation ctx before (.migrateContractClosure version affected) =
      some after)
    (hunique : before.records.UniqueClaims) (hscoped : before.records.EdgesScoped) {claim : Claim}
    (hclaim : claim ∈ before.records.claims) (hrun : claim.runId ≠ ctx.runId) :
    claim ∈ after.records.claims := by
  have hclaims := Projection.claims_of_migrate happly
  set invalid := Projection.defectClosure ctx before affected with hinvalid
  have hout : claim.claimId ∉ invalid := by
    intro hin
    obtain ⟨other, hother, hid, hotherRun⟩ := claim_of_reachable hscoped (fun id hid => by
      obtain ⟨seed, hseed, rfl⟩ := List.mem_map.mp hid
      obtain ⟨hmem, htest⟩ := List.mem_filter.mp hseed
      simp only [Bool.and_eq_true, beq_iff_eq] at htest
      exact ⟨seed, hmem, rfl, htest.1.2⟩) hin
    rw [hunique.eq hother hclaim hid] at hotherRun
    exact hrun hotherRun
  have hstays : claim.claimId ∉ Projection.carriedClaims ctx
      (Projection.supersedeClosure ctx before invalid) invalid := by
    intro hin
    obtain ⟨other, hother, hid⟩ := List.mem_map.mp hin
    obtain ⟨hmem, htest⟩ := List.mem_filter.mp hother
    simp only [Bool.and_eq_true, beq_iff_eq] at htest
    obtain ⟨old, hold, rfl⟩ := mem_updateWhere.mp hmem
    have hsame : old = claim := by
      refine hunique.eq hold hclaim ?_
      rw [← hid]
      split <;> rfl
    rw [hsame] at htest
    refine hrun ?_
    have hotherRun := htest.1.1.1
    split at hotherRun <;> exact hotherRun
  change claim ∈ after.claims
  rw [hclaims]
  refine List.mem_map.mpr ⟨claim, hclaim, ?_⟩
  simp [Projection.migrate, Projection.supersede, hout, hstays]

section Roots

variable {P : Platform} {policy : Policy} {db db' : Db} {op : ApplyOp}
  {accepted : Accepted P policy db op db'} {m : Mutation} {before after : Db}

/-- What a root claim has keeps it while contracts only grow. -/
theorem Records.StatesContract.of_kept {records records' : Records} {pointer : RunPointer}
    {claim claim' : Claim} (h : records.StatesContract pointer claim)
    (hcontracts : Kept ContractVersion.Same records.contractVersions records'.contractVersions)
    (hmem : claim' ∈ records'.claims) (hsame : claim.SameStatement claim')
    (hversion : claim'.contractVersion = claim.contractVersion) :
    records'.StatesContract pointer claim' := by
  obtain ⟨contract, hcontract, hkey, hhash⟩ := h.contract
  obtain ⟨contract', hcontract', hsame'⟩ := hcontracts contract hcontract
  exact
    { mem := hmem
      runId := hsame.runId.trans h.runId
      version := hversion.trans h.version
      contract := ⟨contract', hcontract', hsame'.key.trans hkey,
        hsame'.statementHash.trans (hhash.trans hsame.statementHash.symm)⟩ }

/-- A registered root becomes the root of its run and states its contract. -/
theorem statesContract_of_registerClaim (hruns : db.records.UniqueRuns) {p : RegisterClaim}
    {closure : ClosureState} (hroot : p.claimKind = .root)
    (happlies : accepted.Applies (.registerClaim p closure) before after) {pointer : RunPointer}
    (hpointer : pointer ∈ before.records.pointers) (hrun : pointer.runId = op.request.runId) :
    after.records.StatesContract pointer
      (Projection.newClaim accepted.projection before p closure) := by
  obtain ⟨hcommand, hsingle, hhandle⟩ := happlies.emitted
  have hsame := happlies.records_of_single hsingle
  rw [hsame] at hpointer
  have hcurrent := hruns.eq hpointer accepted.pointer_mem hrun
  obtain ⟨contract, hcontract, hhash⟩ := Guard.contract_of_registerRoot hhandle hroot
  have hversion : p.contractVersion = accepted.snapshot.currentContractVersion :=
    accepted.version_eq (by rw [hcommand]; rfl)
  have hfound := List.mem_of_find?_eq_some hcontract
  have hnumber := List.find?_some hcontract
  have hcontracts : accepted.context.snapshot.contracts =
      db.contractVersions.filter (·.runId == op.request.runId) := accepted.contracts_eq
  rw [hcontracts, List.mem_filter] at hfound
  obtain ⟨contract', hcontract', hkept⟩ :=
    (Projection.contracts_of_apply happlies.applied).kept contract (by
      rw [show before.contractVersions = db.contractVersions from
        congrArg Records.contractVersions hsame]
      exact hfound.1)
  obtain ⟨edit, -, hclaims⟩ := Projection.claims_of_apply happlies.applied
  refine
    { mem := ?_
      runId := hrun.symm
      version := ?_
      contract := ⟨contract', hcontract', ?_, ?_⟩ }
  · change _ ∈ after.claims
    rw [hclaims]
    exact List.mem_append_right _ (List.mem_singleton.mpr rfl)
  · rw [hcurrent]
    exact hversion
  · rw [hkept.key, hcurrent]
    exact Prod.ext (beq_iff_eq.mp hfound.2) (beq_iff_eq.mp hnumber)
  · rw [hkept.statementHash, ← hhash]
    rfl

/-- Mutations of accepted commands keep the runs rooted. -/
theorem rooted_of_applies (hruns : db.records.UniqueRuns) (hunique : before.records.UniqueClaims)
    (hscoped : before.records.EdgesScoped) (happlies : accepted.Applies m before after)
    (h : before.records.Rooted) : after.records.Rooted := by
  intro pointer' hpointer' id hid
  rw [Projection.pointers_of_apply happlies.applied] at hpointer'
  obtain ⟨pointer, hpointer, rfl⟩ := List.mem_map.mp hpointer'
  have hkeeps : Projection.movePointer accepted.projection m pointer = pointer →
      ∃ claim, after.records.StatesContract pointer claim ∧ claim.claimId = id ∧
        (claim.lifecycleStatus = .active ∨ claim.lifecycleStatus = .invalidated) := by
    intro hstays
    rw [hstays] at hid
    obtain ⟨claim, hstates, hclaimId, hlife⟩ := h pointer hpointer id hid
    have hcontracts := (Projection.contracts_of_apply happlies.applied).kept
    obtain ⟨claim', hclaim', hchange⟩ := Projection.exists_claim_after happlies.applied hstates.mem
    rcases hmigrates : m.migrates with _ | _
    · refine ⟨claim', hstates.of_kept hcontracts hclaim' hchange.sameStatement ?_,
        hchange.sameStatement.claimId.trans hclaimId, ?_⟩
      · rcases hchange.contractVersion with hversion | ⟨version, affected, rfl⟩
        · exact hversion
        · cases hmigrates
      · rcases hchange.lifecycle with hsame | ⟨-, hinvalidated⟩ | ⟨⟨version, affected, rfl⟩, -⟩
        · rw [hsame]
          exact hlife
        · exact Or.inr hinvalidated
        · cases hmigrates
    · have hother : claim.runId ≠ op.request.runId := by
        intro heq
        have hnone := happlies.unrooted hmigrates pointer hpointer (hstates.runId.symm.trans heq)
        rw [hid] at hnone
        cases hnone
      cases m with
      | migrateContractClosure version affected =>
        have hmem := migrate_of_other_run happlies.applied hunique hscoped hstates.mem hother
        exact ⟨claim, hstates.of_kept hcontracts hmem (Claim.SameStatement.refl claim) rfl,
          hclaimId, hlife⟩
      | _ => cases hmigrates
  cases m with
  | createContractVersion version replacement =>
    by_cases hrun : pointer.runId = accepted.projection.runId
    · simp [Projection.movePointer, hrun] at hid
    · have hstays : Projection.movePointer accepted.projection
          (.createContractVersion version replacement) pointer = pointer := by
        simp [Projection.movePointer, hrun]
      rw [hstays]
      exact hkeeps hstays
  | registerClaim p closure =>
    by_cases hroot : p.claimKind = .root ∧ pointer.runId = accepted.projection.runId
    · have hmoves : Projection.movePointer accepted.projection (.registerClaim p closure) pointer =
          { pointer with rootClaimId := some (accepted.projection.newId 0) } := by
        simp [Projection.movePointer, hroot]
      rw [hmoves] at hid ⊢
      have hstates := statesContract_of_registerClaim hruns hroot.1 happlies hpointer hroot.2
      exact ⟨_, ⟨hstates.mem, hstates.runId, hstates.version, hstates.contract⟩,
        Option.some.inj hid, Or.inl rfl⟩
    · have hstays : Projection.movePointer accepted.projection (.registerClaim p closure) pointer =
          pointer := by
        simp [Projection.movePointer, hroot]
      rw [hstays]
      exact hkeeps hstays
  | _ => exact hkeeps rfl

end Roots

/-- What every reached database satisfies about roots and withdrawn claims. -/
structure Records.RootInvariant (records : Records) : Prop where
  uniqueClaims : records.UniqueClaims
  uniqueRuns : records.UniqueRuns
  uniqueContracts : records.UniqueContracts
  edges : records.EdgesScoped ∧ records.UniqueEdges
  withdrawn : records.WithdrawnReopened ∧ records.WithdrawnUnsupported
  rooted : records.Rooted

/-- Every operation keeps the runs rooted. -/
theorem rooted_step (op : Op) (h : db.records.RootInvariant) :
    (step P policy db op).records.Rooted := by
  rcases @step_cases P policy db op with frame | ⟨op, rfl, -, ⟨accepted⟩⟩
  · have hold : ∀ contracts', Kept ContractVersion.Same db.records.contractVersions contracts' →
        (step P policy db op).records.contractVersions = contracts' →
        ∀ pointer ∈ db.records.pointers, ∀ id, pointer.rootClaimId = some id →
        ∃ claim, (step P policy db op).records.StatesContract pointer claim ∧ claim.claimId = id ∧
          (claim.lifecycleStatus = .active ∨ claim.lifecycleStatus = .invalidated) := by
      intro contracts' hkept hcontracts pointer hpointer id hid
      obtain ⟨claim, hstates, hclaimId, hlife⟩ := h.rooted pointer hpointer id hid
      obtain ⟨claim', hclaim', hchange⟩ := frame.exists_claim_after hstates.mem
      have heq := hchange.eq
      refine ⟨claim', hstates.of_kept (hcontracts ▸ hkept) hclaim' hchange.sameStatement ?_,
        hchange.sameStatement.claimId.trans hclaimId, ?_⟩
      · rw [heq]
      · rw [heq]
        exact hlife
    intro pointer hpointer id hid
    rcases frame.runs with ⟨hpointers, hcontracts⟩ | ⟨⟨creation⟩⟩
    · rw [hpointers] at hpointer
      exact hold _ (Kept.refl ContractVersion.Same.refl _) hcontracts pointer hpointer id hid
    · have hpointers := congrArg Records.pointers creation.after_eq
      have hcontracts := congrArg Records.contractVersions creation.after_eq
      rw [hpointers] at hpointer
      rcases List.mem_append.mp hpointer with hprevious | hnew
      · exact hold _ (Kept.append ContractVersion.Same.refl _ _) hcontracts pointer hprevious id hid
      · obtain rfl := List.mem_singleton.mp hnew
        cases hid
  · have hinv := accepted.preserves
      (I := fun records => records.UniqueClaims ∧ records.EdgesScoped ∧ records.Rooted)
      ⟨h.uniqueClaims, h.edges.1, h.rooted⟩ fun m before after happlies hbefore => ⟨
        Projection.nodup_claimIds_of_apply happlies.applied hbefore.1,
        edgesScoped_of_applies accepted happlies hbefore.2.1,
        rooted_of_applies h.uniqueRuns hbefore.1 hbefore.2.1 happlies hbefore.2.2⟩
    exact hinv.2.2

/-- Every operation keeps what is said about roots and withdrawn claims. -/
theorem rootInvariant_step (db : Db) (op : Op) (h : db.records.RootInvariant) :
    (step P policy db op).records.RootInvariant where
  uniqueClaims := uniqueClaims_step op h.uniqueClaims
  uniqueRuns := uniqueRuns_step op h.uniqueRuns
  uniqueContracts := uniqueContracts_step op h.uniqueContracts
  edges := edgesScoped_step op h.edges
  withdrawn := withdrawn_step op h.uniqueClaims h.withdrawn
  rooted := rooted_step op h

/-- Roots and withdrawn claims in every reached database. -/
theorem rootInvariant_reached (P : Platform) (policy : Policy) (ops : List Op) :
    (reached P policy ops).records.RootInvariant := by
  refine reached_invariant Records.RootInvariant ?_ rootInvariant_step ops
  exact
    { uniqueClaims := List.nodup_nil
      uniqueRuns := List.nodup_nil
      uniqueContracts := List.nodup_nil
      edges := ⟨List.forall_mem_nil _, List.nodup_nil⟩
      withdrawn := ⟨List.forall_mem_nil _, List.forall_mem_nil _⟩
      rooted := List.forall_mem_nil _ }

/-! ## Revocations in the history -/

/-- An accepted revocation that withdraws the claim with the given identifier: it revokes the
claim itself or a fact from which active logical edges lead to it. -/
def RevokesClaim (P : Platform) (policy : Policy) (id : Id) (db : Db) : Op → Prop
  | .apply op => op.Accepts P policy db ∧ ∃ p run, op.request.command = .revokeFact p ∧
    db.run? op.request.runId = some run ∧
    id ∈ reachableFrom (db.activeArcs run.runId run.currentContractVersion) [p.factId]
  | _ => False

/-- The claim with the given identifier was withdrawn in the history. -/
def Revoked (P : Platform) (policy : Policy) (ops : List Op) (id : Id) : Prop :=
  Performs (step P policy) Db.empty ops (RevokesClaim P policy id)

section History

variable {P : Platform} {policy : Policy} {db : Db}

/-- What an accepted revocation withdraws. -/
theorem revokedIds_eq {db' before : Db} {op : ApplyOp} (accepted : Accepted P policy db op db')
    (hruns : db.records.UniqueRuns) (hsame : before.records = db.records) (id : Id) :
    ∃ run, db.run? op.request.runId = some run ∧
      Projection.revokedIds accepted.projection before id =
        reachableFrom (db.activeArcs run.runId run.currentContractVersion) [id] := by
  obtain ⟨run, hrun, hid, hversion, -⟩ := accepted.exists_run hruns
  refine ⟨run, hrun, ?_⟩
  have hedges : before.claimEdges = db.claimEdges := congrArg Records.claimEdges hsame
  unfold Projection.revokedIds Db.activeArcs
  rw [hedges, hid, hversion]
  rfl

/-- An operation withdraws only what it revokes. -/
theorem withdrawn_of_step (h : db.records.RootInvariant) (op : Op) {id : Id}
    (hwithdrawn : (step P policy db op).records.Withdrawn id) :
    db.records.Withdrawn id ∨ RevokesClaim P policy id db op := by
  rcases @step_cases P policy db op with frame | ⟨op, rfl, haccepts, ⟨accepted⟩⟩
  · exact Or.inl (frame.withdrawn hwithdrawn)
  · refine accepted.preserves (I := fun records => ∀ id, records.Withdrawn id →
      db.records.Withdrawn id ∨ RevokesClaim P policy id db (.apply op))
      (fun _ hid => Or.inl hid) ?_ id hwithdrawn
    intro m before after happlies hbefore id hid
    cases m with
    | revokeFactClosure fact =>
      obtain ⟨p, hcommand, rfl, hsingle, -⟩ := happlies.emitted
      obtain ⟨claim', hclaim', hclaimId, hlife⟩ := hid
      obtain ⟨claim, hclaim, hsame, ⟨haffected, -, -⟩ | ⟨-, rfl⟩⟩ :=
        Projection.exists_claim_of_revoke happlies.applied hclaim'
      · obtain ⟨run, hrun, heq⟩ := revokedIds_eq accepted h.uniqueRuns
          (happlies.records_of_single hsingle) p.factId
        rw [← hsame, hclaimId, heq] at haffected
        exact Or.inr ⟨haccepts, p, run, hcommand, hrun, haffected⟩
      · exact hbefore id ⟨claim', hclaim, hclaimId, hlife⟩
    | _ => exact hbefore id (withdrawn_before happlies.applied (fun _ h => by cases h) hid)

/-- A claim with the given identifier is not active. -/
def Records.Inactive (records : Records) (id : Id) : Prop :=
  ∃ claim ∈ records.claims, claim.claimId = id ∧ claim.lifecycleStatus ≠ .active

/-- A claim that is not active never becomes active again. -/
theorem inactive_step (op : Op) {id : Id} (h : db.records.Inactive id) :
    (step P policy db op).records.Inactive id := by
  rcases @step_cases P policy db op with frame | ⟨op, rfl, -, ⟨accepted⟩⟩
  · obtain ⟨claim, hclaim, hid, hlife⟩ := h
    obtain ⟨claim', hclaim', hchange⟩ := frame.exists_claim_after hclaim
    refine ⟨claim', hclaim', hchange.sameStatement.claimId.trans hid, ?_⟩
    rw [hchange.eq]
    exact hlife
  · refine accepted.preserves (I := fun records => records.Inactive id) h ?_
    rintro m before after happlies ⟨claim, hclaim, hid, hlife⟩
    obtain ⟨claim', hclaim', hchange⟩ := Projection.exists_claim_after happlies.applied hclaim
    exact ⟨claim', hclaim', hchange.sameStatement.claimId.trans hid, hchange.not_active hlife⟩

/-- An operation that revokes a claim leaves it inactive. -/
theorem inactive_of_revokes (h : db.records.RootInvariant) (op : Op) {id : Id}
    (hrevokes : RevokesClaim P policy id db op) : (step P policy db op).records.Inactive id := by
  cases op with
  | apply op =>
    obtain ⟨haccepts, p, run, hcommand, hrun, hid⟩ := hrevokes
    obtain ⟨accepted⟩ := accepted_of_accepts haccepts
    have hhandle := accepted.handled
    rw [hcommand] at hhandle
    have hsingle := Guard.emits_revokeFact p _ hhandle
    obtain ⟨fact, hcurrent⟩ := Guard.current_of_revokeFact hhandle
    obtain ⟨hfact, hfactRun, hfactId, -, -⟩ := accepted.claim_of_current hcurrent
    obtain ⟨before, after, happlies, hsame, hend⟩ := accepted.applies_of_single hsingle
    obtain ⟨run', hrun', heq⟩ := revokedIds_eq accepted h.uniqueRuns hsame p.factId
    obtain rfl : run = run' := Option.some.inj (hrun.symm.trans hrun')
    obtain ⟨claim, hclaim, hclaimId, -⟩ := claim_of_reachable h.edges.1 (fun start hstart => by
      obtain rfl := List.mem_singleton.mp hstart
      exact ⟨fact, hfact, hfactId, hfactRun.trans (run?_eq_some hrun).2.symm⟩) hid
    have hbefore : claim ∈ before.claims := by
      rw [show before.claims = db.claims from congrArg Records.claims hsame]
      exact hclaim
    obtain ⟨claim', hclaim', hchange⟩ := Projection.exists_claim_after happlies.applied hbefore
    have hclaimId' : claim'.claimId = id := hchange.sameStatement.claimId.trans hclaimId
    change (op.apply P policy db).records.Inactive id
    rw [hend]
    refine ⟨claim', hclaim', hclaimId', ?_⟩
    obtain ⟨old, -, hold, ⟨-, hlife, -⟩ | ⟨hout, -⟩⟩ :=
      Projection.exists_claim_of_revoke happlies.applied hclaim'
    · rw [hlife]
      exact fun h => by cases h
    · rw [← hold, hclaimId', heq] at hout
      exact absurd hid hout
  | _ => exact hrevokes.elim

end History

/-- In every history, the withdrawn claims are revoked, and the revoked claims inactive. -/
theorem revoked_history (P : Platform) (policy : Policy) (ops : List Op) :
    (∀ id, (reached P policy ops).records.Withdrawn id → Revoked P policy ops id) ∧
      ∀ id, Revoked P policy ops id → (reached P policy ops).records.Inactive id := by
  have hempty : ∀ id, Db.empty.records.Withdrawn id → Revoked P policy [] id := by
    rintro id ⟨claim, hclaim, -⟩
    cases hclaim
  have hhistory := @runFrom_history Db Op (step P policy) (fun ops db =>
    db.records.RootInvariant ∧ (∀ id, db.records.Withdrawn id → Revoked P policy ops id) ∧
      ∀ id, Revoked P policy ops id → db.records.Inactive id) Db.empty
    ⟨rootInvariant_reached P policy [], hempty, fun id h => absurd h not_performs_nil⟩ ?_ ops
  · exact hhistory.2
  · rintro ops op ⟨hinv, hwithdrawn, hinactive⟩
    refine ⟨rootInvariant_step _ op hinv, fun id hid => ?_, fun id hid => ?_⟩
    · rcases withdrawn_of_step hinv op hid with hold | hnew
      · exact (hwithdrawn id hold).left
      · exact Performs.last hnew
    · rcases performs_concat.mp hid with hold | hnew
      · exact inactive_step op (hinactive id hold)
      · exact inactive_of_revokes hinv op hnew

/-! ## Finalization -/

/-- The contract version to which a run points. -/
def Db.currentContract? (db : Db) (run : Run) : Option ContractVersion :=
  db.contractVersions.find? fun contract => contract.key == (run.runId, run.currentContractVersion)

/-- The only terminal claim is the root of the run; it is active, belongs to the current
contract version and states the current contract. -/
def FinalizesActiveRoot (db : Db) (runId : Id) (p : Finalize) : Prop :=
  ∃ run root contract, db.run? runId = some run ∧ root ∈ db.claims ∧
    p.terminalClaimIds = [root.claimId] ∧ run.rootClaimId = some root.claimId ∧
    root.lifecycleStatus = .active ∧ root.contractVersion = run.currentContractVersion ∧
    db.currentContract? run = some contract ∧ root.statementHash = contract.statementHash

section Finalize

variable {P : Platform} {policy : Policy} {db db' : Db} {op : ApplyOp} {p : Finalize}

/-- The row of a contract version is the one that is found under its key. -/
theorem currentContract?_eq_some (hunique : db.records.UniqueContracts) {run : Run}
    {contract : ContractVersion} (hmem : contract ∈ db.contractVersions)
    (hkey : contract.key = (run.runId, run.currentContractVersion)) :
    db.currentContract? run = some contract := by
  unfold Db.currentContract?
  cases hfound : db.contractVersions.find? fun contract =>
      contract.key == (run.runId, run.currentContractVersion) with
  | none =>
    have hall := List.find?_eq_none.mp hfound contract hmem
    simp [hkey] at hall
  | some other =>
    have hother := List.find?_some hfound
    rw [hunique.eq (List.mem_of_find?_eq_some hfound) hmem ((beq_iff_eq.mp hother).trans hkey.symm)]

/-- The evidence of the snapshot is evidence of the database. -/
theorem mem_evidence_of_view {runId : Id} {item : EvidenceView}
    (h : item ∈ db.evidenceViews runId) : item.toEvidence ∈ db.evidence := by
  obtain ⟨row, hrow, hview⟩ := List.mem_filterMap.mp h
  obtain ⟨root, -, hview⟩ := Option.bind_eq_some_iff.mp hview
  obtain ⟨command, -, hview⟩ := Option.bind_eq_some_iff.mp hview
  obtain ⟨capability, -, hview⟩ := Option.bind_eq_some_iff.mp hview
  obtain rfl := Option.some.inj hview
  exact (List.mem_filter.mp hrow).1

theorem exists_counterexample (accepted : Accepted P policy db op db') {root : Claim}
    (h : Guard.disproofExists accepted.context [root] = true) :
    ∃ item ∈ db.evidence, item.claimId = root.claimId ∧ item.evidenceType = .counterexample ∧
      item.contractVersion = accepted.snapshot.currentContractVersion ∧
      item.ingestStatus = .accepted := by
  obtain ⟨item, hitem, htest⟩ := List.any_eq_true.mp h
  simp only [Bool.and_eq_true, beq_iff_eq, List.contains_iff_mem, List.map_cons, List.map_nil,
    List.mem_singleton] at htest
  have hviews : item ∈ accepted.snapshot.evidence := mem_of_mem_distinctRows hitem
  rw [accepted.isOf.evidence_eq] at hviews
  have hmem := mem_evidence_of_view hviews
  rw [accepted.start_same.evidence] at hmem
  exact ⟨item.toEvidence, hmem, htest.1.1.1.1.1.1, htest.1.1.1.1.2, htest.1.1.1.1.1.2,
    htest.1.1.2⟩

/-- A withdrawn root supports no other outcome of authority than that it is known. -/
theorem previouslyKnown_of_withdrawn (h : db.records.RootInvariant)
    (accepted : Accepted P policy db op db') (finalized : Guard.Finalized accepted.context p)
    (hauthority : Guard.isAuthorityOutcome p.outcome = true) {root : Claim}
    (hmem : root ∈ db.claims) (hterminals : finalized.terminals = [root])
    (hwithdrawn : root.lifecycleStatus = .invalidated) : p.outcome = .previouslyKnown := by
  have hsupported := finalized.supported
  rw [hterminals] at hsupported
  cases houtcome : p.outcome with
  | previouslyKnown => rfl
  | proved =>
    have hreopened := h.withdrawn.1 root hmem hwithdrawn
    rw [houtcome] at hsupported
    simp [Guard.outcomeUnsupported, Guard.claimProved, Guard.claimTruthAccepted, hreopened]
      at hsupported
  | disproved =>
    rw [houtcome] at hsupported
    simp only [Guard.outcomeUnsupported, Bool.not_eq_false'] at hsupported
    obtain ⟨item, hitem, hclaimId, -, -, haccepted⟩ := exists_counterexample accepted hsupported
    exact absurd ⟨root, hmem, hclaimId.symm, hwithdrawn⟩ (h.withdrawn.2 item hitem haccepted)
  | routeLocal | contractDefective | unresolved =>
    rw [houtcome] at hauthority
    cases hauthority

end Finalize

/-- An accepted finalization that claims authority is about the active root of the run, which
no revocation has withdrawn, exactly when the outcome is not that the root is previously
known or no revocation has withdrawn the terminal claim. -/
theorem finalizes_active_root_iff (P : Platform) (policy : Policy) (ops : List Op) (op : ApplyOp)
    (p : Finalize) (hcommand : op.request.command = .finalize p)
    (haccepts : op.Accepts P policy (reached P policy ops))
    (hauthority : Guard.isAuthorityOutcome p.outcome = true) :
    (FinalizesActiveRoot (reached P policy ops) op.request.runId p ∧
        ∀ id ∈ p.terminalClaimIds, ¬ Revoked P policy ops id) ↔
      (p.outcome = .previouslyKnown → ∀ id ∈ p.terminalClaimIds, ¬ Revoked P policy ops id) := by
  constructor
  · exact fun h _ => h.2
  · intro hknown
    have hinv := rootInvariant_reached P policy ops
    obtain ⟨hwithdrawn, hinactive⟩ := revoked_history P policy ops
    obtain ⟨accepted⟩ := accepted_of_accepts haccepts
    have hhandle := accepted.handled
    rw [hcommand] at hhandle
    obtain ⟨finalized⟩ := Guard.finalized_of_handle hhandle
    obtain ⟨root, hterminals, hids, hfound, hrootId⟩ := finalized.root_of_authority hauthority
    obtain ⟨hmem, -, -⟩ := accepted.claim_of_lookup hfound
    obtain ⟨claim, hstates, hclaimId, hlife⟩ :=
      hinv.rooted _ accepted.pointer_mem root.claimId hrootId
    obtain rfl : claim = root := hinv.uniqueClaims.eq hstates.mem hmem hclaimId
    have hactive : claim.lifecycleStatus = .active := by
      rcases hlife with hactive | hinvalidated
      · exact hactive
      · have houtcome := previouslyKnown_of_withdrawn hinv accepted finalized hauthority hmem
          hterminals hinvalidated
        have hrevoked := hwithdrawn claim.claimId ⟨claim, hmem, rfl, hinvalidated⟩
        have hnot := hknown houtcome claim.claimId (by rw [hids]; exact List.mem_singleton.mpr rfl)
        exact absurd hrevoked hnot
    obtain ⟨run, hrun, hrunId, hversion, hroot⟩ := accepted.exists_run hinv.uniqueRuns
    obtain ⟨contract, hcontract, hkey, hhash⟩ := hstates.contract
    refine ⟨⟨run, claim, contract, hrun, hmem, hids, hroot.trans hrootId, hactive,
      hstates.version.trans hversion.symm, ?_, hhash.symm⟩, ?_⟩
    · refine currentContract?_eq_some hinv.uniqueContracts hcontract ?_
      rw [hkey, hrunId, hversion]
    · intro id hid hrevoked
      rw [hids, List.mem_singleton] at hid
      obtain ⟨other, hother, hotherId, hlost⟩ := hinactive id hrevoked
      rw [hinv.uniqueClaims.eq hother hmem (hotherId.trans hid)] at hlost
      exact hlost hactive

/-- In the sample run the root is finalized as previously known while it is active. -/
theorem finalizes_active_root_of_known :
    FinalizesActiveRoot (reached Sample.platform Sample.policy Sample.known) Sample.run
      (Sample.finalize .previouslyKnown) := by
  have hiff := finalizes_active_root_iff Sample.platform Sample.policy Sample.known
    (Sample.finalizeRequest 4 .previouslyKnown) (Sample.finalize .previouslyKnown) rfl
    Sample.outcomes.known_finalized rfl
  have hrevoked : ∀ id, ¬ Revoked Sample.platform Sample.policy Sample.known id := by
    intro id
    refine not_performs_of_forall ?_
    simp [Sample.known, Sample.frozen, Sample.create, RevokesClaim, Sample.request,
      Sample.registerRoot, Sample.freeze, Sample.recordLiterature, Sample.promoteKnown]
  exact (hiff.mpr fun _ id _ => hrevoked id).1

theorem not_finalizesActiveRoot_of_inactive {runId : Id} {p : Finalize}
    (h : ∀ claim ∈ db.claims, claim.lifecycleStatus ≠ .active) :
    ¬ FinalizesActiveRoot db runId p := by
  rintro ⟨run, root, contract, -, hroot, -, -, hactive, -⟩
  exact h root hroot hactive

/-- A revoked root is finalized as previously known. -/
theorem finalizes_revoked_root :
    ¬ ((Sample.finalizeRequest 5 .previouslyKnown).Accepts Sample.platform Sample.policy
        (reached Sample.platform Sample.policy Sample.knownRevoked) →
      FinalizesActiveRoot (reached Sample.platform Sample.policy Sample.knownRevoked) Sample.run
        (Sample.finalize .previouslyKnown)) := by
  intro h
  exact not_finalizesActiveRoot_of_inactive Sample.outcomes.root_revoked
    (h Sample.outcomes.revoked_finalized)

end ResearchKernel
