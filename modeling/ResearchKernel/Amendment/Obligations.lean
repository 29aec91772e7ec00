import ResearchKernel.Amendment.Versions
import ResearchKernel.ClaimGraph.Scoping

/-!
# Obligations under an amended contract

An amendment carries independent claims over to the new contract version, with the records
about them, but their obligations stay at the old version. A later closure witness has to
discharge the obligations of the new version, and right after the amendment there are none.
-/

namespace ResearchKernel

open Foundation

section Amended

variable {P : Platform} {policy : Policy} {db db' : Db} {op : ApplyOp}
  {accepted : Accepted P policy db op db'} (amendment : accepted.Amendment)

include amendment

theorem Accepted.Amendment.version_after {after : Snapshot}
    (hafter : db'.guardSnapshot op.request.runId = some after) :
    after.currentContractVersion = accepted.snapshot.currentContractVersion + 1 := by
  obtain ⟨hisOf, hrun⟩ := snapshot_isOf hafter
  obtain ⟨pointer, -, hid, hversion⟩ := amendment.exists_pointer hisOf.pointer_mem
  have hown : pointer.runId = op.request.runId := hid.symm.trans hrun
  rw [if_pos hown] at hversion
  exact hversion

/-- An amendment keeps the obligations, up to their status. -/
theorem Accepted.Amendment.exists_obligation {obligation : Obligation}
    (h : obligation ∈ db'.obligations) : ∃ old ∈ db.obligations, old.Same obligation := by
  have hafter : db'.obligations = amendment.migrated.obligations :=
    congrArg Records.obligations amendment.after_eq
  have hcreated : amendment.created.obligations = db.obligations :=
    congrArg Records.obligations amendment.created_eq
  rw [hafter] at h
  rcases Projection.obligations_of_apply amendment.migrated_eq obligation h with
    ⟨old, hold, hsame, -⟩ | ⟨p, hm, -⟩
  · exact ⟨old, hcreated ▸ hold, hsame⟩
  · cases hm

/-- Right after an amendment no obligation is required of a witness. -/
theorem Accepted.Amendment.required_eq_nil (hknown : db.records.VersionsKnown)
    (hfresh : (op.request.runId, accepted.snapshot.currentContractVersion + 1) ∉
      db.records.contractKeys) {after : Snapshot}
    (hafter : db'.guardSnapshot op.request.runId = some after) (id : Id) :
    requiredObligationIds after id after.currentContractVersion = [] := by
  obtain ⟨hisOf, hrun⟩ := snapshot_isOf hafter
  unfold requiredObligationIds
  rw [List.map_eq_nil_iff, List.filter_eq_nil_iff]
  rintro ⟨key, obligation⟩ hentry htest
  simp only [Bool.and_eq_true, beq_iff_eq] at htest
  obtain ⟨hmem, -⟩ := mem_of_mem_records hentry
  rw [hisOf.obligations_eq] at hmem
  obtain ⟨hobligation, hown⟩ := List.mem_filter.mp hmem
  obtain ⟨old, hold, hsame⟩ := amendment.exists_obligation hobligation
  have hkey := hknown.obligations old hold
  have hversion : old.contractVersion = accepted.snapshot.currentContractVersion + 1 := by
    rw [← amendment.version_after hafter, ← htest.1.2, hsame]
  have holdRun : old.runId = op.request.runId := by
    rw [← hrun, ← beq_iff_eq.mp hown, hsame]
  rw [hversion, holdRun] at hkey
  exact hfresh hkey

end Amended

/-- A later witness has to discharge exactly the obligations that a claim had before, except
withdrawn ones. -/
def KeepsObligations (db : Db) (after : Snapshot) (id : Id) : Prop :=
  ∀ obligationId, obligationId ∈ requiredObligationIds after id after.currentContractVersion ↔
    ∃ obligation ∈ db.obligations, obligation.obligationId = obligationId ∧
      obligation.parentClaimId = id ∧ obligation.status ≠ .invalidated

/-- A claim has no obligation, except withdrawn ones. -/
def Db.Unobliged (db : Db) (id : Id) : Prop :=
  ∀ obligation ∈ db.obligations, obligation.parentClaimId = id → obligation.status = .invalidated

/-- Where nothing is required afterwards, the obligations are kept exactly when there were
none. -/
theorem keepsObligations_iff {db : Db} {after : Snapshot} {id : Id}
    (h : requiredObligationIds after id after.currentContractVersion = []) :
    KeepsObligations db after id ↔ db.Unobliged id := by
  unfold KeepsObligations
  rw [h]
  constructor
  · intro hkeeps obligation hobligation hparent
    by_contra hstatus
    exact List.not_mem_nil
      ((hkeeps obligation.obligationId).mpr ⟨obligation, hobligation, rfl, hparent, hstatus⟩)
  · intro hnone obligationId
    constructor
    · intro hmem
      cases hmem
    · rintro ⟨obligation, hobligation, -, hparent, hstatus⟩
      exact absurd (hnone obligation hobligation hparent) hstatus

/-- An accepted amendment keeps the obligations of a claim that is carried over exactly when
the claim had none. -/
theorem amendment_keeps_obligations_iff (P : Platform) (policy : Policy) (ops : List Op)
    (op : ApplyOp) (p : AmendContract) (hcommand : op.request.command = .amendContract p)
    (haccepts : op.Accepts P policy (reached P policy ops)) (after : Snapshot)
    (hafter : (op.apply P policy (reached P policy ops)).guardSnapshot op.request.runId =
      some after) :
    ∀ claim ∈ after.claims, claim.lifecycleStatus = .active →
      claim.contractVersion = after.currentContractVersion →
      (KeepsObligations (reached P policy ops) after claim.claimId ↔
        (reached P policy ops).Unobliged claim.claimId) := by
  obtain ⟨accepted⟩ := accepted_of_accepts haccepts
  obtain ⟨amendment, -, -, -, hfresh⟩ := accepted.exists_amendment hcommand
  intro claim _ _ _
  exact keepsObligations_iff
    (amendment.required_eq_nil (versionsKnown_reached P policy ops) hfresh hafter claim.claimId)

/-- The root of the sample, as it is carried over. -/
theorem Sample.root_after {next : Option Snapshot}
    (h : next.any (fun after =>
      after.claims.any (fun claim => claim.claimId == Sample.root &&
        claim.lifecycleStatus == .active &&
        claim.contractVersion == after.currentContractVersion) &&
      (requiredObligationIds after Sample.root after.currentContractVersion).isEmpty) = true) :
    ∃ after, next = some after ∧ (∃ claim ∈ after.claims, claim.claimId = Sample.root ∧
      claim.lifecycleStatus = .active ∧ claim.contractVersion = after.currentContractVersion) ∧
      requiredObligationIds after Sample.root after.currentContractVersion = [] := by
  obtain ⟨after, hafter, htest⟩ := (Option.any_eq_true _ _).mp h
  simp only [Bool.and_eq_true, List.any_eq_true, beq_iff_eq, List.isEmpty_iff] at htest
  obtain ⟨⟨claim, hclaim, ⟨hid, hactive⟩, hversion⟩, hrequired⟩ := htest
  exact ⟨after, hafter, ⟨claim, hclaim, hid, hactive, hversion⟩, hrequired⟩

/-- In the sample where the root has no obligation, its obligations are kept. -/
theorem amendment_keeps_obligations_of_unobliged :
    ∃ after, (Sample.amendment.apply Sample.platform Sample.policy
        (reached Sample.platform Sample.policy (Sample.defective false))).guardSnapshot
          Sample.run = some after ∧
      ∃ claim ∈ after.claims, claim.claimId = Sample.root ∧ claim.lifecycleStatus = .active ∧
        KeepsObligations (reached Sample.platform Sample.policy (Sample.defective false)) after
          claim.claimId := by
  obtain ⟨after, hafter, ⟨claim, hclaim, hid, hactive, hversion⟩, -⟩ :=
    Sample.root_after (Sample.outcomes.amendment.root_carried false)
  refine ⟨after, hafter, claim, hclaim, hid, hactive, ?_⟩
  refine (amendment_keeps_obligations_iff Sample.platform Sample.policy (Sample.defective false)
    Sample.amendment _ rfl (Sample.outcomes.amendment.amended false) after hafter claim hclaim
    hactive hversion).mpr ?_
  intro obligation hobligation hparent
  exact absurd (hparent.trans hid)
    (Sample.outcomes.amendment.root_unobliged obligation hobligation)

/-- In the sample where the root has an obligation, nothing is required of it after the
amendment. -/
theorem amendment_drops_obligation :
    Sample.amendment.Accepts Sample.platform Sample.policy
        (reached Sample.platform Sample.policy (Sample.defective true)) ∧
      ∃ after, (Sample.amendment.apply Sample.platform Sample.policy
          (reached Sample.platform Sample.policy (Sample.defective true))).guardSnapshot
            Sample.run = some after ∧
        ∃ claim ∈ after.claims, claim.lifecycleStatus = .active ∧
          claim.contractVersion = after.currentContractVersion ∧
          ¬ KeepsObligations (reached Sample.platform Sample.policy (Sample.defective true)) after
            claim.claimId := by
  obtain ⟨after, hafter, ⟨claim, hclaim, hid, hactive, hversion⟩, hrequired⟩ :=
    Sample.root_after (Sample.outcomes.amendment.root_carried true)
  refine ⟨Sample.outcomes.amendment.amended true, after, hafter, claim, hclaim, hactive, hversion,
    ?_⟩
  rw [hid, keepsObligations_iff hrequired]
  intro hnone
  obtain ⟨row, hrow, hparent, hstatus⟩ := Sample.outcomes.amendment.root_obliged
  exact hstatus (hnone row hrow hparent)

end ResearchKernel
