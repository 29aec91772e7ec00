import ResearchKernel.Finalization.Root
import ResearchKernel.Kernel.Amendment
import ResearchKernel.Kernel.Ledger

/-!
# The scope of the active graph

Active claims and active edges belong to the current contract version of their run, active
edges join active claims, and labels and roots are unique among active claims. Several
guards rely on this without checking it. An amendment breaks it in the middle, when the
run already points to the new version, and restores it with the migration.
-/

namespace ResearchKernel

open Foundation

/-- What the claims and edges of the active graph have in common with their run. -/
structure Records.ActiveScoped (records : Records) : Prop where
  /-- Active claims are of the current version of their run. -/
  claims : ∀ pointer ∈ records.pointers, ∀ claim ∈ records.claims,
    claim.runId = pointer.runId → claim.lifecycleStatus = .active →
      claim.contractVersion = pointer.currentContractVersion
  /-- The ends of active edges are active and of the version of the edge. -/
  ends : ∀ edge ∈ records.claimEdges, edge.status = .active → ∀ claim ∈ records.claims,
    claim.claimId = edge.fromClaimId ∨ claim.claimId = edge.toClaimId →
      claim.lifecycleStatus = .active ∧ claim.contractVersion = edge.contractVersion
  /-- Active claims of a run have labels of their own. -/
  labels : ∀ a ∈ records.claims, ∀ b ∈ records.claims, a.runId = b.runId →
    a.stableLabel = b.stableLabel → a.lifecycleStatus = .active → b.lifecycleStatus = .active →
      a = b

theorem Projection.ClaimChange.active_before {m : Mutation} {claim claim' : Claim}
    (h : Projection.ClaimChange m claim claim') (hactive : claim'.lifecycleStatus = .active) :
    claim.lifecycleStatus = .active := by
  by_contra hno
  exact h.not_active hno hactive

/-! ## Operations of the host -/

/-- Operations of the host keep the scope of the active graph. -/
theorem HostFrame.activeScoped {before after : Records} (frame : HostFrame before after)
    (hunique : after.UniqueClaims) (hfresh : ∀ creation : RunCreation before after,
      ∀ claim ∈ before.claims, claim.runId ≠ creation.new.runId)
    (h : before.ActiveScoped) : after.ActiveScoped where
  claims := by
    intro pointer hpointer claim' hclaim' hrun hactive
    obtain ⟨claim, hclaim, hchange⟩ := frame.exists_claim hclaim'
    have heq := hchange.eq
    rw [heq] at hrun hactive ⊢
    rcases frame.runs with ⟨hpointers, -⟩ | ⟨⟨creation⟩⟩
    · exact h.claims pointer (hpointers ▸ hpointer) claim hclaim hrun hactive
    · rw [creation.after_eq] at hpointer
      rcases List.mem_append.mp hpointer with hold | hnew
      · exact h.claims pointer hold claim hclaim hrun hactive
      · obtain rfl := List.mem_singleton.mp hnew
        exact absurd hrun (hfresh creation claim hclaim)
  ends := by
    intro edge hedge hstatus claim' hclaim' hend
    rw [frame.claimEdges] at hedge
    obtain ⟨claim, hclaim, hchange⟩ := frame.exists_claim hclaim'
    rw [hchange.eq] at hend ⊢
    exact h.ends edge hedge hstatus claim hclaim hend
  labels := by
    intro a' ha' b' hb' hrun hlabel hactive hactive'
    obtain ⟨a, ha, hchange⟩ := frame.exists_claim ha'
    obtain ⟨b, hb, hchange'⟩ := frame.exists_claim hb'
    rw [hchange.eq] at hrun hlabel hactive
    rw [hchange'.eq] at hrun hlabel hactive'
    have hsame : a = b := h.labels a ha b hb hrun hlabel hactive hactive'
    refine hunique.eq ha' hb' ?_
    rw [hchange.sameStatement.claimId, hchange'.sameStatement.claimId, hsame]

/-! ## Commands other than amendments -/

/-- What an edge becomes by a mutation that is not part of an amendment. -/
theorem Projection.edge_of_apply {ctx : ProjectionContext} {before after : Db} {m : Mutation}
    (h : applyMutation ctx before m = some after) (hamends : m.amends = false)
    {edge' : ClaimEdge} (hedge' : edge' ∈ after.claimEdges) (hactive : edge'.status = .active) :
    edge' ∈ before.claimEdges ∧
        (∀ id, m = .revokeFactClosure id → edge'.touches (revokedIds ctx before id) = false) ∨
      ∃ p, m = .registerClaimEdge p ∧ edge' = newEdge ctx p := by
  have hframe := congrArg Records.claimEdges (records_of_apply h)
  have hsame : after.claimEdges = before.claimEdges → (∀ id, m ≠ .revokeFactClosure id) →
      edge' ∈ before.claimEdges ∧
          (∀ id, m = .revokeFactClosure id → edge'.touches (revokedIds ctx before id) = false) ∨
        ∃ p, m = .registerClaimEdge p ∧ edge' = newEdge ctx p := by
    intro heq hno
    exact Or.inl ⟨heq ▸ hedge', fun id hm => absurd hm (hno id)⟩
  cases m with
  | registerClaimEdge p =>
    have hedges : after.claimEdges = before.claimEdges ++ [newEdge ctx p] :=
      edges_registerClaimEdge h
    rw [hedges] at hedge'
    rcases List.mem_append.mp hedge' with hold | hnew
    · exact Or.inl ⟨hold, fun id hm => by cases hm⟩
    · exact Or.inr ⟨p, rfl, List.mem_singleton.mp hnew⟩
  | revokeFactClosure fact =>
    obtain rfl := Option.some.inj h
    have hupdated : edge' ∈ updateWhere
        (fun edge => edge.status == .active && edge.touches (revokedIds ctx before fact))
        (fun edge => { edge with status := .invalidated }) before.claimEdges := hedge'
    obtain ⟨edge, hedge, rfl⟩ := mem_updateWhere.mp hupdated
    by_cases htest : (edge.status == .active && edge.touches (revokedIds ctx before fact)) = true
    · rw [if_pos htest] at hactive
      cases hactive
    · rw [if_neg htest] at hactive ⊢
      refine Or.inl ⟨hedge, fun id hm => ?_⟩
      cases hm
      simpa [hactive] using htest
  | migrateContractClosure | createContractVersion => cases hamends
  | _ => exact hsame hframe (fun _ hm => by cases hm)

section Commands

variable {P : Platform} {policy : Policy} {db db' : Db} {op : ApplyOp}
  {accepted : Accepted P policy db op db'} {m : Mutation} {before after : Db}

/-- A mutation that is not part of an amendment moves no run to another version. -/
theorem version_movePointer {ctx : ProjectionContext} (hamends : m.amends = false)
    (pointer : RunPointer) :
    (Projection.movePointer ctx m pointer).currentContractVersion =
      pointer.currentContractVersion := by
  cases m with
  | createContractVersion version replacement => cases hamends
  | registerClaim p closure =>
    simp only [Projection.movePointer]
    split <;> rfl
  | _ => rfl

/-- A claim keeps its version outside of amendments. -/
theorem Projection.ClaimChange.version_eq {claim claim' : Claim}
    (h : Projection.ClaimChange m claim claim') (hamends : m.amends = false) :
    claim'.contractVersion = claim.contractVersion := by
  rcases h.contractVersion with hsame | ⟨version, affected, rfl⟩
  · exact hsame
  · cases hamends

variable {p : RegisterClaim} {closure : ClosureState}

/-- The registration of a claim is applied to the records on which the guard decided. -/
theorem records_of_registerClaim
    (happlies : accepted.Applies (.registerClaim p closure) before after) :
    before.records = db.records := by
  obtain ⟨-, hsingle, -⟩ := happlies.emitted
  exact happlies.records_of_single hsingle

theorem version_of_registerClaim
    (happlies : accepted.Applies (.registerClaim p closure) before after) :
    p.contractVersion = accepted.snapshot.currentContractVersion := by
  obtain ⟨hcommand, -, -⟩ := happlies.emitted
  refine accepted.version_eq ?_
  rw [hcommand]
  rfl

theorem label_of_registerClaim {context : GuardContext} {mutations : List Mutation}
    (h : Guard.handleRegisterClaim context p = .ok mutations) :
    ∀ claim ∈ context.snapshot.claims, claim.stableLabel = p.stableLabel →
      claim.lifecycleStatus ≠ .active := by
  obtain ⟨⟨⟩, -, h⟩ := bind_eq_ok.mp h
  obtain ⟨contract, -, h⟩ := bind_eq_ok.mp h
  obtain ⟨⟨⟩, -, h⟩ := bind_eq_ok.mp h
  obtain ⟨⟨⟩, hlabel, -⟩ := bind_eq_ok.mp h
  simp only [rejectIf_eq_ok, Bool.or_eq_false_iff, List.any_eq_false, Bool.and_eq_true,
    beq_iff_eq, not_and] at hlabel
  exact fun claim hclaim hsame => hlabel.2 claim hclaim hsame

/-- Mutations outside of amendments keep active claims in the version of their run. -/
theorem claims_of_applies (hruns : db.records.UniqueRuns)
    (happlies : accepted.Applies m before after) (hamends : m.amends = false)
    (h : before.records.ActiveScoped) :
    ∀ pointer ∈ after.records.pointers, ∀ claim ∈ after.records.claims,
      claim.runId = pointer.runId → claim.lifecycleStatus = .active →
        claim.contractVersion = pointer.currentContractVersion := by
  intro pointer' hpointer' claim' hclaim' hrun hactive
  rw [Projection.pointers_of_apply happlies.applied] at hpointer'
  obtain ⟨pointer, hpointer, rfl⟩ := List.mem_map.mp hpointer'
  rw [Projection.movePointer_runId] at hrun
  rw [version_movePointer hamends]
  rcases Projection.exists_claim_of_apply happlies.applied hclaim' with
    ⟨claim, hclaim, hchange⟩ | hnew
  · rw [hchange.version_eq hamends]
    refine h.claims pointer hpointer claim hclaim ?_ (hchange.active_before hactive)
    exact hchange.sameStatement.runId.symm.trans hrun
  · cases m with
    | registerClaim p closure =>
      obtain rfl := List.mem_singleton.mp hnew
      rw [records_of_registerClaim happlies] at hpointer
      have hsame := hruns.eq hpointer accepted.pointer_mem hrun.symm
      rw [hsame]
      exact version_of_registerClaim happlies
    | _ => cases hnew

/-- Mutations outside of amendments keep the ends of active edges active. -/
theorem ends_of_applies (hunique : db.records.UniqueClaims)
    (hscoped : before.records.EdgesScoped) (happlies : accepted.Applies m before after)
    (hamends : m.amends = false) (h : before.records.ActiveScoped) :
    ∀ edge ∈ after.records.claimEdges, edge.status = .active → ∀ claim ∈ after.records.claims,
      claim.claimId = edge.fromClaimId ∨ claim.claimId = edge.toClaimId →
        claim.lifecycleStatus = .active ∧ claim.contractVersion = edge.contractVersion := by
  intro edge hedge hstatus claim' hclaim' hend
  rcases Projection.edge_of_apply happlies.applied hamends hedge hstatus with
    ⟨hold, htouch⟩ | ⟨p, rfl, rfl⟩
  · rcases Projection.exists_claim_of_apply happlies.applied hclaim' with
      ⟨claim, hclaim, hchange⟩ | hnew
    · have hid := hchange.sameStatement.claimId
      have hends := h.ends edge hold hstatus claim hclaim (by rwa [hid] at hend)
      refine ⟨?_, (hchange.version_eq hamends).trans hends.2⟩
      rcases hchange.lifecycle with hsame | ⟨⟨id, rfl⟩, -⟩ | ⟨⟨version, affected, rfl⟩, -⟩
      · exact hsame.trans hends.1
      · -- A claim of the revoked closure has no active edge left.
        obtain ⟨old, holdClaim, hsame, ⟨hrevoked, -, -⟩ | ⟨-, rfl⟩⟩ :=
          Projection.exists_claim_of_revoke happlies.applied hclaim'
        · have hno := htouch id rfl
          simp only [ClaimEdge.touches, Bool.or_eq_false_iff, List.contains_eq_mem,
            decide_eq_false_iff_not] at hno
          rw [← hsame] at hrevoked
          rcases hend with hfrom | hto
          · exact absurd (hfrom ▸ hrevoked) hno.1
          · exact absurd (hto ▸ hrevoked) hno.2
        · exact (h.ends edge hold hstatus claim' holdClaim hend).1
      · cases hamends
    · cases m with
      | registerClaim p closure =>
        obtain rfl := List.mem_singleton.mp hnew
        obtain ⟨known, hknown, hid, -⟩ := hscoped edge hold _ hend
        exact absurd hid (Projection.newClaim_fresh happlies.applied known hknown)
      | _ => cases hnew
  · have hsame := records_of_registerClaimEdge happlies
    obtain ⟨hcommand, -, hhandle⟩ := happlies.emitted
    have hversion : p.contractVersion = accepted.snapshot.currentContractVersion := by
      refine accepted.version_eq ?_
      rw [hcommand]
      rfl
    obtain ⟨⟨source, hsource⟩, ⟨target, htarget⟩, -⟩ := registered_of_handle hhandle
    rcases Projection.exists_claim_of_apply happlies.applied hclaim' with
      ⟨claim, hclaim, hchange⟩ | hnew
    · have hid := hchange.sameStatement.claimId
      rw [hid] at hend
      have hcurrent : claim.lifecycleStatus = .active ∧
          claim.contractVersion = accepted.snapshot.currentContractVersion := by
        rw [show before.claims = db.claims from congrArg Records.claims hsame] at hclaim
        rcases hend with hfrom | hto
        · obtain ⟨hmem, -, hfound, hcurrent, hactive⟩ := accepted.claim_of_current hsource
          rw [hunique.eq hclaim hmem (hfrom.trans hfound.symm)]
          exact ⟨hactive, hcurrent⟩
        · obtain ⟨hmem, -, hfound, hcurrent, hactive⟩ := accepted.claim_of_current htarget
          rw [hunique.eq hclaim hmem (hto.trans hfound.symm)]
          exact ⟨hactive, hcurrent⟩
      refine ⟨?_, (hchange.version_eq hamends).trans (hcurrent.2.trans hversion.symm)⟩
      rcases hchange.lifecycle with hsame | ⟨⟨id, hm⟩, -⟩ | ⟨⟨version, affected, hm⟩, -⟩
      · exact hsame.trans hcurrent.1
      · cases hm
      · cases hm
    · cases hnew

/-- Mutations of accepted commands keep the labels of active claims distinct. -/
theorem labels_of_applies (happlies : accepted.Applies m before after)
    (hunique : after.records.UniqueClaims)
    (h : ∀ a ∈ before.records.claims, ∀ b ∈ before.records.claims, a.runId = b.runId →
      a.stableLabel = b.stableLabel → a.lifecycleStatus = .active →
      b.lifecycleStatus = .active → a = b) :
    ∀ a ∈ after.records.claims, ∀ b ∈ after.records.claims, a.runId = b.runId →
      a.stableLabel = b.stableLabel → a.lifecycleStatus = .active →
      b.lifecycleStatus = .active → a = b := by
  -- A new claim has a label that no active claim of its run has.
  have hnewLabel : ∀ new ∈ Projection.newClaims accepted.projection before m,
      ∀ claim ∈ before.records.claims, claim.runId = new.runId →
        claim.stableLabel = new.stableLabel → claim.lifecycleStatus ≠ .active := by
    intro new hnew claim hclaim hrun hlabel
    cases m with
    | registerClaim p closure =>
      obtain rfl := List.mem_singleton.mp hnew
      rw [records_of_registerClaim happlies] at hclaim
      obtain ⟨-, -, hhandle⟩ := happlies.emitted
      refine label_of_registerClaim hhandle claim ?_ hlabel
      have hsnapshot : accepted.context.snapshot.claims =
        db.claims.filter (·.runId == op.request.runId) := accepted.claims_eq
      rw [hsnapshot]
      exact List.mem_filter.mpr ⟨hclaim, beq_iff_eq.mpr hrun⟩
    | _ => cases hnew
  intro a' ha' b' hb' hrun hlabel hactive hactive'
  rcases Projection.exists_claim_of_apply happlies.applied ha' with ⟨a, ha, hchange⟩ | hnew
  · rcases Projection.exists_claim_of_apply happlies.applied hb' with ⟨b, hb, hchange'⟩ | hnew'
    · have hsame : a = b := by
        refine h a ha b hb ?_ ?_ (hchange.active_before hactive) (hchange'.active_before hactive')
        · rw [← hchange.sameStatement.runId, ← hchange'.sameStatement.runId, hrun]
        · rw [← hchange.stableLabel, ← hchange'.stableLabel, hlabel]
      refine hunique.eq ha' hb' ?_
      rw [hchange.sameStatement.claimId, hchange'.sameStatement.claimId, hsame]
    · refine absurd (hchange.active_before hactive) (hnewLabel b' hnew' a ha ?_ ?_)
      · rw [← hchange.sameStatement.runId, hrun]
      · rw [← hchange.stableLabel, hlabel]
  · rcases Projection.exists_claim_of_apply happlies.applied hb' with ⟨b, hb, hchange'⟩ | hnew'
    · refine absurd (hchange'.active_before hactive') (hnewLabel a' hnew b hb ?_ ?_)
      · rw [← hchange'.sameStatement.runId, hrun]
      · rw [← hchange'.stableLabel, hlabel]
    · cases m with
      | registerClaim p closure =>
        rw [List.mem_singleton.mp hnew, List.mem_singleton.mp hnew']
      | _ => cases hnew

end Commands

/-! ## Amendments -/

section Amendments

variable {P : Platform} {policy : Policy} {db db' : Db} {op : ApplyOp}
  {accepted : Accepted P policy db op db'} (amendment : accepted.Amendment)

include amendment

/-- The new version leaves the claims alone. -/
theorem Accepted.Amendment.created_claims : amendment.created.claims = db.claims :=
  congrArg Records.claims amendment.created_eq

/-- The new version leaves the edges alone. -/
theorem Accepted.Amendment.created_edges : amendment.created.claimEdges = db.claimEdges :=
  congrArg Records.claimEdges amendment.created_eq

/-- The pointers after an amendment. -/
theorem Accepted.Amendment.exists_pointer {pointer' : RunPointer}
    (h : pointer' ∈ db'.records.pointers) :
    ∃ pointer ∈ db.records.pointers, pointer'.runId = pointer.runId ∧
      pointer'.currentContractVersion = if pointer.runId = op.request.runId then
        accepted.snapshot.currentContractVersion + 1 else pointer.currentContractVersion := by
  rw [amendment.after_eq, Projection.pointers_of_apply amendment.migrated_eq] at h
  obtain ⟨created, hcreated, rfl⟩ := List.mem_map.mp h
  rw [amendment.created_eq] at hcreated
  obtain ⟨pointer, hpointer, rfl⟩ := List.mem_map.mp hcreated
  refine ⟨pointer, hpointer, ?_, ?_⟩
  · rw [Projection.movePointer_runId, Projection.movePointer_runId]
  · by_cases hrun : pointer.runId = op.request.runId
    · have hctx : accepted.projection.runId = op.request.runId := rfl
      simp [Projection.movePointer, hrun, hctx]
    · have hctx : pointer.runId ≠ accepted.projection.runId := hrun
      simp [Projection.movePointer, hrun, hctx]

theorem Accepted.Amendment.runId_of_defect (hunique : db.records.UniqueClaims)
    (hscoped : db.records.EdgesScoped) {claim : Claim} (hclaim : claim ∈ db.claims)
    (h : claim.claimId ∈ Projection.defectClosure accepted.projection amendment.created
      amendment.affected) : claim.runId = op.request.runId := by
  have hscopedCreated : amendment.created.records.EdgesScoped := by
    rw [amendment.created_eq]
    exact hscoped
  obtain ⟨other, hother, hid, hrun⟩ := claim_of_reachable hscopedCreated (fun id hid => by
    obtain ⟨seed, hseed, rfl⟩ := List.mem_map.mp hid
    obtain ⟨hmem, htest⟩ := List.mem_filter.mp hseed
    simp only [Bool.and_eq_true, beq_iff_eq] at htest
    exact ⟨seed, hmem, rfl, htest.1.2⟩) h
  rw [amendment.created_claims] at hother
  rw [← hunique.eq hother hclaim hid]
  exact hrun

/-- What becomes of a claim that is active after an amendment. -/
theorem Accepted.Amendment.active_claim (hunique : db.records.UniqueClaims)
    (h : db.records.ActiveScoped) {claim' : Claim} (hclaim' : claim' ∈ db'.records.claims)
    (hactive : claim'.lifecycleStatus = .active) :
    ∃ claim ∈ db.claims, claim'.claimId = claim.claimId ∧ claim'.runId = claim.runId ∧
      claim.lifecycleStatus = .active ∧ claim'.contractVersion =
        if claim.runId = op.request.runId then accepted.snapshot.currentContractVersion + 1
        else claim.contractVersion := by
  have huniqueCreated : amendment.created.records.UniqueClaims := by
    rw [amendment.created_eq]
    exact hunique
  rw [amendment.after_eq] at hclaim'
  obtain ⟨claim, hclaim, hid, ⟨-, hlost⟩ | ⟨hcarried, rfl⟩ | ⟨hout, hstays, rfl⟩⟩ :=
    Projection.exists_claim_of_migrate huniqueCreated amendment.migrated_eq hclaim'
  · rw [hlost] at hactive
    cases hactive
  · obtain ⟨hrun, -, hactive, -⟩ :=
      (Projection.mem_migratedIds huniqueCreated hclaim).mp hcarried
    have hrun' : claim.runId = op.request.runId := hrun
    rw [amendment.created_claims] at hclaim
    refine ⟨claim, hclaim, rfl, rfl, hactive, ?_⟩
    rw [if_pos hrun']
  · have hclaimCreated := hclaim
    rw [amendment.created_claims] at hclaim
    refine ⟨claim', hclaim, rfl, rfl, hactive, ?_⟩
    split
    · -- An active claim of the run is of the old version, so it is carried over.
      rename_i hrun
      have hversion := h.claims _ accepted.pointer_mem claim' hclaim hrun hactive
      exact absurd ((Projection.mem_migratedIds huniqueCreated hclaimCreated).mpr
        ⟨hrun, hversion, hactive, hout⟩) hstays
    · rfl

theorem Accepted.Amendment.claims_scoped (hunique : db.records.UniqueClaims)
    (h : db.records.ActiveScoped) :
    ∀ pointer ∈ db'.records.pointers, ∀ claim ∈ db'.records.claims,
      claim.runId = pointer.runId → claim.lifecycleStatus = .active →
        claim.contractVersion = pointer.currentContractVersion := by
  intro pointer' hpointer' claim' hclaim' hrun' hactive'
  obtain ⟨pointer, hpointer, hpointerRun, hpointerVersion⟩ := amendment.exists_pointer hpointer'
  obtain ⟨claim, hclaim, -, hclaimRun, hactive, hversion⟩ :=
    amendment.active_claim hunique h hclaim' hactive'
  have hrun : claim.runId = pointer.runId := by
    rw [← hclaimRun, ← hpointerRun, hrun']
  rw [hversion, hpointerVersion, hrun]
  split
  · rfl
  · exact h.claims pointer hpointer claim hclaim hrun hactive

/-- What becomes of an edge that is active after an amendment. -/
theorem Accepted.Amendment.active_edge (hunique : db.records.UniqueClaims)
    (hscoped : db.records.EdgesScoped) (h : db.records.ActiveScoped) {edge' : ClaimEdge}
    (hedge' : edge' ∈ db'.records.claimEdges) (hactive : edge'.status = .active) :
    ∃ edge ∈ db.claimEdges, edge.status = .active ∧
      edge'.fromClaimId = edge.fromClaimId ∧ edge'.toClaimId = edge.toClaimId ∧
      (∀ id, id = edge.fromClaimId ∨ id = edge.toClaimId →
        id ∉ Projection.defectClosure accepted.projection amendment.created
          amendment.affected) ∧
      edge'.contractVersion = if edge.runId = op.request.runId then
        accepted.snapshot.currentContractVersion + 1 else edge.contractVersion := by
  have huniqueCreated : amendment.created.records.UniqueClaims := by
    rw [amendment.created_eq]
    exact hunique
  rw [amendment.after_eq] at hedge'
  change edge' ∈ amendment.migrated.claimEdges at hedge'
  rw [Projection.edges_of_migrate amendment.migrated_eq, amendment.created_edges] at hedge'
  obtain ⟨edge, hedge, rfl⟩ := List.mem_map.mp hedge'
  unfold Projection.migrateEdge at hactive ⊢
  split at hactive
  · rename_i hscope
    obtain ⟨hstatus, hrun, hversion⟩ := hscope
    split at hactive
    · cases hactive
    · rename_i htouch
      have hout : ∀ id, id = edge.fromClaimId ∨ id = edge.toClaimId →
          id ∉ Projection.defectClosure accepted.projection amendment.created
            amendment.affected := by
        rintro id (rfl | rfl) hin
        · exact htouch (Or.inl hin)
        · exact htouch (Or.inr hin)
      -- The ends are active claims that the defect does not affect, so they are carried over.
      have hcarried : ∀ id, id = edge.fromClaimId ∨ id = edge.toClaimId →
          id ∈ Projection.migratedIds accepted.projection amendment.created
            amendment.affected := by
        intro id hend
        obtain ⟨claim, hclaim, hid, hclaimRun⟩ := hscoped edge hedge id hend
        have hends := h.ends edge hedge hstatus claim hclaim (by rwa [hid])
        rw [← hid]
        refine (Projection.mem_migratedIds huniqueCreated
          (by rw [amendment.created_claims]; exact hclaim)).mpr
          ⟨hclaimRun.trans hrun, hends.2.trans hversion, hends.1, ?_⟩
        rw [hid]
        exact hout id hend
      rw [if_pos ⟨hstatus, hrun, hversion⟩, if_neg htouch,
        if_pos ⟨hcarried _ (Or.inl rfl), hcarried _ (Or.inr rfl)⟩]
      have hrun' : edge.runId = op.request.runId := hrun
      refine ⟨edge, hedge, hstatus, rfl, rfl, hout, ?_⟩
      rw [if_pos hrun']
  · rename_i hscope
    rw [if_neg hscope]
    -- An active edge of the run would be of the old version.
    have hother : edge.runId ≠ op.request.runId := by
      intro hrun
      obtain ⟨claim, hclaim, hid, hclaimRun⟩ := hscoped edge hedge _ (Or.inl rfl)
      have hends := h.ends edge hedge hactive claim hclaim (Or.inl hid)
      have hversion := h.claims _ accepted.pointer_mem claim hclaim (hclaimRun.trans hrun) hends.1
      exact hscope ⟨hactive, hrun, hends.2.symm.trans hversion⟩
    refine ⟨edge, hedge, hactive, rfl, rfl, ?_, (if_neg hother).symm⟩
    intro id hend hin
    obtain ⟨claim, hclaim, hid, hclaimRun⟩ := hscoped edge hedge id hend
    rw [← hid] at hin
    exact hother (hclaimRun.symm.trans (amendment.runId_of_defect hunique hscoped hclaim hin))

/-- After an amendment the ends of active edges are active and of the version of the edge. -/
theorem Accepted.Amendment.ends_scoped (hunique : db.records.UniqueClaims)
    (hscoped : db.records.EdgesScoped) (h : db.records.ActiveScoped) :
    ∀ edge ∈ db'.records.claimEdges, edge.status = .active → ∀ claim ∈ db'.records.claims,
      claim.claimId = edge.fromClaimId ∨ claim.claimId = edge.toClaimId →
        claim.lifecycleStatus = .active ∧ claim.contractVersion = edge.contractVersion := by
  intro edge' hedge' hstatus' claim' hclaim' hend'
  obtain ⟨edge, hedge, hstatus, hfrom, hto, hout, hversion⟩ :=
    amendment.active_edge hunique hscoped h hedge' hstatus'
  rw [hfrom, hto] at hend'
  have huniqueCreated : amendment.created.records.UniqueClaims := by
    rw [amendment.created_eq]
    exact hunique
  have hactive' : claim'.lifecycleStatus = .active := by
    rw [amendment.after_eq] at hclaim'
    obtain ⟨claim, hclaim, hid, ⟨hin, -⟩ | ⟨-, rfl⟩ | ⟨-, -, rfl⟩⟩ :=
      Projection.exists_claim_of_migrate huniqueCreated amendment.migrated_eq hclaim'
    · exact absurd hin (hout claim.claimId (hid ▸ hend'))
    · rw [amendment.created_claims] at hclaim
      exact (h.ends edge hedge hstatus claim hclaim hend').1
    · rw [amendment.created_claims] at hclaim
      exact (h.ends edge hedge hstatus claim' hclaim hend').1
  obtain ⟨claim, hclaim, hid, -, -, hclaimVersion⟩ :=
    amendment.active_claim hunique h hclaim' hactive'
  rw [hid] at hend'
  have hends := h.ends edge hedge hstatus claim hclaim hend'
  obtain ⟨other, hother, hotherId, hrun⟩ := hscoped edge hedge claim.claimId hend'
  rw [hunique.eq hother hclaim hotherId] at hrun
  refine ⟨hactive', ?_⟩
  rw [hclaimVersion, hversion, hrun, hends.2]

end Amendments

/-! ## Every operation -/

/-- Claims belong to runs. -/
def Records.ClaimsScoped (records : Records) : Prop :=
  ∀ claim ∈ records.claims, ∃ pointer ∈ records.pointers, pointer.runId = claim.runId

section Steps

variable {P : Platform} {policy : Policy} {db : Db}

/-- Every operation leaves claims in their runs. -/
theorem claimsScoped_step (op : Op) (h : db.records.ClaimsScoped) :
    (step P policy db op).records.ClaimsScoped := by
  rcases @step_cases P policy db op with frame | ⟨op, rfl, -, ⟨accepted⟩⟩
  · intro claim' hclaim'
    obtain ⟨claim, hclaim, hchange⟩ := frame.exists_claim hclaim'
    obtain ⟨pointer, hpointer, hid⟩ := h claim hclaim
    rw [hchange.sameStatement.runId]
    rcases frame.runs with ⟨hpointers, -⟩ | ⟨⟨creation⟩⟩
    · exact ⟨pointer, hpointers ▸ hpointer, hid⟩
    · rw [creation.after_eq]
      exact ⟨pointer, List.mem_append_left _ hpointer, hid⟩
  · have hruns : (step P policy db (.apply op)).records.ClaimsScoped ∧
        ∃ pointer ∈ (step P policy db (.apply op)).records.pointers,
          pointer.runId = op.request.runId := by
      refine accepted.preserves (I := fun records => records.ClaimsScoped ∧
        ∃ pointer ∈ records.pointers, pointer.runId = op.request.runId)
        ⟨h, _, accepted.pointer_mem, rfl⟩ ?_
      rintro m before after happlies ⟨hbefore, pointer, hpointer, hrun⟩
      have hkept : ∀ pointer ∈ before.records.pointers, ∃ pointer' ∈ after.records.pointers,
          pointer'.runId = pointer.runId := by
        intro pointer hpointer
        rw [Projection.pointers_of_apply happlies.applied]
        exact ⟨_, List.mem_map_of_mem hpointer, Projection.movePointer_runId m pointer⟩
      refine ⟨?_, ?_⟩
      · intro claim' hclaim'
        rcases Projection.exists_claim_of_apply happlies.applied hclaim' with
          ⟨claim, hclaim, hchange⟩ | hnew
        · obtain ⟨own, hown, hid⟩ := hbefore claim hclaim
          obtain ⟨own', hown', hid'⟩ := hkept own hown
          exact ⟨own', hown', hid'.trans (hid.trans hchange.sameStatement.runId.symm)⟩
        · cases m with
          | registerClaim p closure =>
            obtain rfl := List.mem_singleton.mp hnew
            obtain ⟨own', hown', hid'⟩ := hkept pointer hpointer
            exact ⟨own', hown', hid'.trans hrun⟩
          | _ => cases hnew
      · obtain ⟨own', hown', hid'⟩ := hkept pointer hpointer
        exact ⟨own', hown', hid'.trans hrun⟩
    exact hruns.1

/-- Every operation keeps the scope of the active graph. -/
theorem activeScoped_step (op : Op) (hroot : db.records.RootInvariant)
    (hclaims : db.records.ClaimsScoped) (h : db.records.ActiveScoped) :
    (step P policy db op).records.ActiveScoped := by
  have hunique := @uniqueClaims_step P policy db op hroot.uniqueClaims
  rcases @step_cases P policy db op with frame | ⟨op, rfl, -, ⟨accepted⟩⟩
  · refine frame.activeScoped hunique ?_ h
    intro creation claim hclaim hrun
    obtain ⟨pointer, hpointer, hid⟩ := hclaims claim hclaim
    exact creation.run_fresh pointer hpointer (hid.trans hrun)
  · have hlabels := accepted.preserves
      (I := fun records => records.UniqueClaims ∧ ∀ a ∈ records.claims, ∀ b ∈ records.claims,
        a.runId = b.runId → a.stableLabel = b.stableLabel → a.lifecycleStatus = .active →
        b.lifecycleStatus = .active → a = b) ⟨hroot.uniqueClaims, h.labels⟩
      fun m before after happlies hbefore => by
        have huniqueAfter := Projection.nodup_claimIds_of_apply happlies.applied hbefore.1
        exact ⟨huniqueAfter, labels_of_applies happlies huniqueAfter hbefore.2⟩
    rcases accepted.amendment_or with ⟨⟨amendment⟩⟩ | hnone
    · exact ⟨amendment.claims_scoped hroot.uniqueClaims h,
        amendment.ends_scoped hroot.uniqueClaims hroot.edges.1 h, hlabels.2⟩
    · have hscoped := accepted.preserves
        (I := fun records => records.UniqueClaims ∧ records.EdgesScoped ∧ records.ActiveScoped)
        ⟨hroot.uniqueClaims, hroot.edges.1, h⟩
        fun m before after happlies hbefore => by
          have huniqueAfter := Projection.nodup_claimIds_of_apply happlies.applied hbefore.1
          have hamends := hnone m happlies.mem
          exact ⟨huniqueAfter, edgesScoped_of_applies accepted happlies hbefore.2.1,
            claims_of_applies hroot.uniqueRuns happlies hamends hbefore.2.2,
            ends_of_applies hroot.uniqueClaims hbefore.2.1 happlies hamends hbefore.2.2,
            labels_of_applies happlies huniqueAfter hbefore.2.2.labels⟩
      exact hscoped.2.2

end Steps

theorem activeScoped_reached (P : Platform) (policy : Policy) (ops : List Op) :
    (reached P policy ops).records.RootInvariant ∧ (reached P policy ops).records.ClaimsScoped ∧
      (reached P policy ops).records.ActiveScoped := by
  refine reached_invariant
    (fun records => records.RootInvariant ∧ records.ClaimsScoped ∧ records.ActiveScoped) ?_ ?_ ops
  · refine ⟨rootInvariant_reached P policy [], List.forall_mem_nil _, ?_⟩
    exact ⟨List.forall_mem_nil _, List.forall_mem_nil _, List.forall_mem_nil _⟩
  · rintro db op ⟨hroot, hclaims, hactive⟩
    exact ⟨rootInvariant_step db op hroot, claimsScoped_step op hclaims,
      activeScoped_step op hroot hclaims hactive⟩

end ResearchKernel
