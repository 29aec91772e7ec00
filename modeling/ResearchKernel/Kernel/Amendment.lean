import ResearchKernel.ClaimGraph.Acyclic

/-!
# The amendment of a contract

An accepted amendment supersedes the current contract version, points the run to the next
one, and then migrates the claims. This file takes an amendment apart once and says what
becomes of claims and edges in its migration; the results about amendments are derived
from that.
-/

namespace ResearchKernel

open Foundation

/-- Whether a mutation occurs in amendments alone. -/
def Mutation.amends : Mutation → Bool
  | .createContractVersion .. | .migrateContractClosure .. => true
  | _ => false

/-- The steps of an accepted amendment that write the records. -/
structure Accepted.Amendment {P : Platform} {policy : Policy} {db db' : Db} {op : ApplyOp}
    (accepted : Accepted P policy db op db') where
  payload : AmendContract
  command_eq : op.request.command = .amendContract payload
  affected : List Id
  /-- The database in which the run points to the new version. -/
  created : Db
  /-- The database to which the claims are migrated. -/
  migrated : Db
  created_eq : created.records =
    { db.records with
      contractVersions := created.contractVersions
      pointers := db.records.pointers.map (Projection.movePointer accepted.projection
        (.createContractVersion (accepted.snapshot.currentContractVersion + 1)
          payload.replacementContract)) }
  migrated_eq : Projection.applyMutation accepted.projection created
    (.migrateContractClosure (accepted.snapshot.currentContractVersion + 1) affected) =
      some migrated
  after_eq : db'.records = migrated.records

section Amendments

variable {P : Platform} {policy : Policy} {db db' : Db} {op : ApplyOp}

variable {payload : AmendContract}

/-- The projection of an amendment, mutation by mutation. The new version is one that no
contract had. -/
theorem Accepted.amendment_of_mutations (accepted : Accepted P policy db op db')
    {affected : List Id} (hcommand : op.request.command = .amendContract payload)
    (hall : accepted.mutations = Guard.amendment accepted.snapshot.currentContractVersion
      payload.replacementContract affected) :
    ∃ amendment : accepted.Amendment, amendment.affected = affected ∧
      (op.request.runId, accepted.snapshot.currentContractVersion + 1) ∉
        db.contractVersions.map ContractVersion.key := by
  have hprojected := accepted.projected
  rw [hall] at hprojected
  obtain ⟨expired, hexpired, hprojected⟩ := Projection.apply_cons_eq_some.mp hprojected
  obtain ⟨paused, hpaused, hprojected⟩ := Projection.apply_cons_eq_some.mp hprojected
  obtain ⟨superseded, hsuperseded, hprojected⟩ := Projection.apply_cons_eq_some.mp hprojected
  obtain ⟨created, hcreated, hprojected⟩ := Projection.apply_cons_eq_some.mp hprojected
  obtain ⟨migrated, hmigrated, hprojected⟩ := Projection.apply_cons_eq_some.mp hprojected
  obtain ⟨opened, hopened, hprojected⟩ := Projection.apply_cons_eq_some.mp hprojected
  obtain rfl : opened = accepted.last := Option.some.inj hprojected
  have hidle : paused.records = db.records :=
    SameRecords.trans accepted.mid_same (SameRecords.trans
      (Projection.sameRecords_of_isIdle rfl hexpired) (Projection.sameRecords_of_isIdle rfl hpaused))
  have hfirst := Projection.records_of_apply hsuperseded
  have hsecond := Projection.records_of_apply hcreated
  have hpointers := Projection.pointers_of_apply hcreated
  have hlast : SameRecords migrated accepted.last := Projection.sameRecords_of_isIdle rfl hopened
  have hkeys : superseded.contractVersions.map ContractVersion.key =
      db.contractVersions.map ContractVersion.key := by
    obtain rfl := Option.some.inj hsuperseded
    rw [← show paused.contractVersions = db.contractVersions from
      congrArg Records.contractVersions hidle]
    exact map_updateWhere (fun _ => by exact rfl) _
  refine ⟨{
    payload := payload
    command_eq := hcommand
    affected := affected
    created := created
    migrated := migrated
    created_eq := ?_
    migrated_eq := hmigrated
    after_eq := hlast.trans accepted.last_same }, rfl, ?_⟩
  · rw [hsecond]
    simp only [Projection.frame]
    rw [hpointers, hfirst]
    simp only [Projection.frame]
    rw [hidle]
    rfl
  · rw [← hkeys]
    exact (Projection.contractKey_of_create hcreated).1

theorem Accepted.exists_amendment (accepted : Accepted P policy db op db')
    (hcommand : op.request.command = .amendContract payload) :
    ∃ (amendment : accepted.Amendment) (contract : ContractVersion),
      accepted.snapshot.contract? = some contract ∧
      amendment.affected = (contract.defectEvidence.map (·.affectedClaimIds)).getD [] ∧
      (op.request.runId, accepted.snapshot.currentContractVersion + 1) ∉
        db.contractVersions.map ContractVersion.key := by
  have hhandle := accepted.handled
  rw [hcommand] at hhandle
  obtain ⟨contract, hcontract, hall⟩ := Guard.emits_amendContract payload _ hhandle
  obtain ⟨amendment, haffected, hfresh⟩ := accepted.amendment_of_mutations hcommand hall
  exact ⟨amendment, contract, hcontract, haffected, hfresh⟩

/-- An accepted command is an amendment, or none of its mutations occurs in amendments. -/
theorem Accepted.amendment_or (accepted : Accepted P policy db op db') :
    Nonempty accepted.Amendment ∨ ∀ m ∈ accepted.mutations, m.amends = false := by
  by_cases hamends : ∃ m ∈ accepted.mutations, m.amends = true
  · obtain ⟨m, hm, hamends⟩ := hamends
    have hemitted := Guard.emitted_of_handle accepted.handled m hm
    left
    cases m with
    | createContractVersion | migrateContractClosure version affected =>
      obtain ⟨payload, affected, hcommand, hall⟩ := hemitted
      exact ⟨(accepted.amendment_of_mutations hcommand hall).choose⟩
    | _ => cases hamends
  · right
    intro m hm
    by_contra hyes
    exact hamends ⟨m, hm, by simpa using hyes⟩

end Amendments

/-! ## The migration -/

namespace Projection

variable {ctx : ProjectionContext} {db db' : Db} {version : ℕ} {affected : List Id}

/-- The claims that a migration carries over to the new version. -/
def migratedIds (ctx : ProjectionContext) (db : Db) (affected : List Id) : List Id :=
  carriedClaims ctx (supersedeClosure ctx db (defectClosure ctx db affected))
    (defectClosure ctx db affected)

/-- A claim is carried over exactly when it is an active claim of the run and of the old
version that the defect does not affect. -/
theorem mem_migratedIds (hunique : db.records.UniqueClaims) {claim : Claim}
    (hclaim : claim ∈ db.claims) : claim.claimId ∈ migratedIds ctx db affected ↔
      claim.runId = ctx.runId ∧ claim.contractVersion = ctx.contractVersion ∧
        claim.lifecycleStatus = .active ∧ claim.claimId ∉ defectClosure ctx db affected := by
  unfold migratedIds carriedClaims
  set invalid := defectClosure ctx db affected with hinvalid
  constructor
  · intro h
    obtain ⟨moved, hmoved, hid⟩ := List.mem_map.mp h
    obtain ⟨hmem, htest⟩ := List.mem_filter.mp hmoved
    obtain ⟨old, hold, rfl⟩ := mem_updateWhere.mp hmem
    have hsame : old = claim := by
      refine hunique.eq hold hclaim ?_
      rw [← hid]
      split <;> rfl
    subst hsame
    by_cases hin : old.claimId ∈ invalid
    · simp [hin] at htest
    · simpa [hin, and_assoc] using htest
  · rintro ⟨hrun, hversion, hactive, hout⟩
    refine List.mem_map.mpr ⟨claim, List.mem_filter.mpr ⟨?_, ?_⟩, rfl⟩
    · exact mem_updateWhere.mpr ⟨claim, hclaim, if_neg (by simpa using hout)⟩
    · simp [hrun, hversion, hactive, hout]

/-- The claims after a migration, in terms of the claims that are carried over. -/
theorem exists_claim_of_migrate (hunique : db.records.UniqueClaims)
    (h : applyMutation ctx db (.migrateContractClosure version affected) = some db')
    {claim' : Claim} (hmem : claim' ∈ db'.claims) :
    ∃ claim ∈ db.claims, claim'.claimId = claim.claimId ∧
      (claim.claimId ∈ defectClosure ctx db affected ∧ claim'.lifecycleStatus = .superseded ∨
        claim.claimId ∈ migratedIds ctx db affected ∧
          claim' = { claim with contractVersion := version } ∨
        claim.claimId ∉ defectClosure ctx db affected ∧
          claim.claimId ∉ migratedIds ctx db affected ∧ claim' = claim) := by
  rw [claims_of_migrate h] at hmem
  obtain ⟨claim, hclaim, rfl⟩ := List.mem_map.mp hmem
  refine ⟨claim, hclaim, ?_⟩
  have hout := @mem_migratedIds ctx db affected hunique claim hclaim
  set invalid := defectClosure ctx db affected with hinvalid
  set carried := carriedClaims ctx (supersedeClosure ctx db invalid) invalid with hcarried
  have hids : migratedIds ctx db affected = carried := rfl
  rw [hids] at hout ⊢
  unfold migrate supersede
  by_cases hin : claim.claimId ∈ invalid
  · have hstays : claim.claimId ∉ carried := fun hc => (hout.mp hc).2.2.2 hin
    simp [hin, hstays]
  · by_cases hc : claim.claimId ∈ carried
    · simp [hin, hc]
    · simp [hin, hc]

/-- What a migration makes of an edge. -/
def migrateEdge (ctx : ProjectionContext) (version : ℕ) (invalid carried : List Id)
    (edge : ClaimEdge) : ClaimEdge :=
  if edge.status = .active ∧ edge.runId = ctx.runId ∧
      edge.contractVersion = ctx.contractVersion then
    if edge.fromClaimId ∈ invalid ∨ edge.toClaimId ∈ invalid then
      { edge with status := .invalidated }
    else if edge.fromClaimId ∈ carried ∧ edge.toClaimId ∈ carried then
      { edge with contractVersion := version }
    else edge
  else edge

/-- The edges after a migration. -/
theorem edges_of_migrate
    (h : applyMutation ctx db (.migrateContractClosure version affected) = some db') :
    db'.claimEdges = db.claimEdges.map
      (migrateEdge ctx version (defectClosure ctx db affected) (migratedIds ctx db affected)) := by
  obtain ⟨-, -, h⟩ := Option.bind_eq_some_iff.mp h
  obtain rfl := Option.some.inj h
  change updateWhere _ _ (updateWhere _ _ db.claimEdges) = _
  unfold updateWhere
  rw [List.map_map]
  refine List.map_congr_left fun edge _ => ?_
  simp only [Function.comp_apply, migrateEdge]
  set invalid := defectClosure ctx db affected with hinvalid
  have hids : migratedIds ctx db affected =
    carriedClaims ctx (supersedeClosure ctx db invalid) invalid := rfl
  rw [hids]
  by_cases hscope : edge.status = .active ∧ edge.runId = ctx.runId ∧
      edge.contractVersion = ctx.contractVersion
  · obtain ⟨hactive, hrun, hversion⟩ := hscope
    by_cases htouch : edge.fromClaimId ∈ invalid ∨ edge.toClaimId ∈ invalid
    · have htouches : edge.touches invalid = true := by simpa [ClaimEdge.touches] using htouch
      simp [hactive, hrun, hversion, htouch, htouches]
    · have htouches : edge.touches invalid = false := by
        simpa [ClaimEdge.touches] using htouch
      simp [hactive, hrun, hversion, htouch, htouches, isCarried]
  · by_cases hactive : edge.status = .active
    · have hother : ¬ (edge.runId = ctx.runId ∧ edge.contractVersion = ctx.contractVersion) :=
        fun hboth => hscope ⟨hactive, hboth⟩
      by_cases hrun : edge.runId = ctx.runId
      · have hversion : edge.contractVersion ≠ ctx.contractVersion := fun hv => hother ⟨hrun, hv⟩
        simp [hactive, hrun, hversion, isCarried]
      · simp [hactive, hrun, isCarried]
    · simp [hactive]

end Projection

end ResearchKernel
