import ResearchKernel.Amendment.Obligations
import ResearchKernel.ClaimGraph.Revocation

/-!
# Trust under an amended contract

Trusted machine evidence leads to a host receipt of the contract version in question. An
amendment carries evidence, feedback and verifications over to the new version, but leaves
the receipts behind: right after it no evidence is trusted. So the amendment keeps the
trust in evidence exactly when there was none, and the evidence of the claims that the
defect withdraws is not trusted either.
-/

namespace ResearchKernel

open Foundation

variable {snapshot : Snapshot} {version : ℕ} {type : EvidenceType}

/-- Trusted evidence leads to a receipt of the run and the contract version. -/
theorem receipt_of_trusted {item : EvidenceView} {target : Claim}
    (h : machineEvidenceIsTrusted snapshot item target version type = true) :
    ∃ receipt ∈ snapshot.hostReceipts, receipt.runId = snapshot.runId ∧
      receipt.contractVersion = version := by
  have hscope := (Bool.and_eq_true_iff.mp h).1
  obtain ⟨htype, hroots⟩ : item.evidenceType = type ∧ (expectedRoots item.evidenceType).isSome := by
    unfold evidenceInScope at hscope
    split at hscope
    · cases hscope
    · rename_i roots hroots
      simp only [Bool.and_eq_true, beq_iff_eq] at hscope
      exact ⟨hscope.1.1.1.1.1.1.1, by rw [hroots]; rfl⟩
  rw [htype] at hroots
  cases type with
  | leanReplay =>
    obtain ⟨receipt, hreceipt, -, -, -, hgrants, -⟩ := receipt_of_trusted_lean h
    obtain ⟨-, -, hrun, -, hversion, -⟩ := HostReceipt.grantsAuthority_iff.mp hgrants
    exact ⟨receipt, hreceipt, hrun, hversion⟩
  | checkerCertificate =>
    obtain ⟨receipt, hreceipt, -, -, hgrants, -⟩ := receipt_of_trusted_checker h
    obtain ⟨-, -, hrun, -, hversion, -⟩ := HostReceipt.grantsAuthority_iff.mp hgrants
    exact ⟨receipt, hreceipt, hrun, hversion⟩
  | _ => cases hroots

theorem accepted_of_trusted {item : EvidenceView} {target : Claim}
    (h : machineEvidenceIsTrusted snapshot item target version type = true) :
    item.ingestStatus = .accepted := by
  have hscope := (Bool.and_eq_true_iff.mp h).1
  unfold evidenceInScope at hscope
  split at hscope
  · cases hscope
  · simp only [Bool.and_eq_true, beq_iff_eq] at hscope
    exact hscope.1.1.1.1.1.2

/-- A migration leaves no accepted evidence about the claims that the defect withdraws. -/
theorem Projection.evidence_of_migrate {ctx : ProjectionContext} {db db' : Db} {affected : List Id}
    (h : applyMutation ctx db (.migrateContractClosure version affected) = some db')
    {item : Evidence} (hitem : item ∈ db'.evidence)
    (haffected : item.claimId ∈ defectClosure ctx db affected) : item.ingestStatus ≠ .accepted := by
  obtain ⟨-, -, h⟩ := Option.bind_eq_some_iff.mp h
  obtain rfl := Option.some.inj h
  obtain ⟨moved, hmoved, rfl⟩ := mem_updateWhere.mp hitem
  have hkept : ∀ row : Evidence, (row.claimId ∈ defectClosure ctx db affected →
      row.ingestStatus ≠ .accepted) → ∀ test : Bool,
      (if test = true then { row with contractVersion := version } else row).claimId ∈
        defectClosure ctx db affected →
      (if test = true then { row with contractVersion := version } else row).ingestStatus ≠
        .accepted := by
    intro row hrow test
    cases test
    · exact hrow
    · exact hrow
  refine hkept moved ?_ _ haffected
  intro hin
  obtain ⟨old, -, rfl⟩ := mem_updateWhere.mp hmoved
  split at hin
  · rename_i htest
    rw [if_pos htest]
    exact fun hyes => by cases hyes
  · rename_i htest
    rw [if_neg htest]
    intro haccepted
    exact htest (Bool.and_eq_true_iff.mpr
      ⟨beq_iff_eq.mpr haccepted, List.contains_iff_mem.mpr hin⟩)

/-- The claim depends on one that is named in the defect of the current contract. -/
def Db.InDefect (db : Db) (run : Run) (id : Id) : Prop :=
  ∃ contract ∈ db.contractVersions, contract.runId = run.runId ∧
    contract.version = run.currentContractVersion ∧
    ∃ seed ∈ db.claims, seed.runId = run.runId ∧
      seed.contractVersion = run.currentContractVersion ∧
      seed.claimId ∈ (contract.defectEvidence.map (·.affectedClaimIds)).getD [] ∧
      db.DependsOn run seed.claimId id

section Amended

variable {P : Platform} {policy : Policy} {db db' : Db} {op : ApplyOp}
  {accepted : Accepted P policy db op db'} (amendment : accepted.Amendment)

include amendment

/-- Right after an amendment no evidence is trusted. -/
theorem Accepted.Amendment.untrusted_after (hknown : db.records.VersionsKnown)
    (hfresh : (op.request.runId, accepted.snapshot.currentContractVersion + 1) ∉
      db.records.contractKeys) {after : Snapshot}
    (hafter : db'.guardSnapshot op.request.runId = some after) (item : EvidenceView)
    (target : Claim) (type : EvidenceType) :
    machineEvidenceIsTrusted after item target after.currentContractVersion type = false := by
  rw [← Bool.not_eq_true]
  intro htrusted
  obtain ⟨hisOf, hrun⟩ := snapshot_isOf hafter
  obtain ⟨receipt, hreceipt, hreceiptRun, hversion⟩ := receipt_of_trusted htrusted
  have hreceipts : db'.hostReceipts = db.hostReceipts := by
    rw [show db'.hostReceipts = amendment.migrated.hostReceipts from
      congrArg Records.hostReceipts amendment.after_eq]
    exact (hostReceipts_of_apply amendment.migrated_eq).trans
      (congrArg Records.hostReceipts amendment.created_eq)
  rw [hisOf.hostReceipts_eq, hreceipts] at hreceipt
  have hkey := hknown.receipts receipt (List.mem_filter.mp hreceipt).1
  rw [hversion, hreceiptRun, hrun, amendment.version_after hafter] at hkey
  exact hfresh hkey

/-- The claims in the closure of the defect are those that the amendment withdraws. -/
theorem Accepted.Amendment.mem_defectClosure (hroot : db.records.RootInvariant)
    {contract : ContractVersion} (hcontract : accepted.snapshot.contract? = some contract)
    (haffected : amendment.affected = (contract.defectEvidence.map (·.affectedClaimIds)).getD [])
    {run : Run} (hrun : db.run? op.request.runId = some run) {id : Id} (h : db.InDefect run id) :
    id ∈ Projection.defectClosure accepted.projection amendment.created amendment.affected := by
  obtain ⟨run', hrun', hid, hversion, -⟩ := accepted.exists_run hroot.uniqueRuns
  obtain rfl : run' = run := Option.some.inj (hrun'.symm.trans hrun)
  obtain ⟨other, hother, hotherRun, hotherVersion, seed, hseed, hseedRun, hseedVersion, hseedIn,
    hdepends⟩ := h
  have hsame : other = contract := by
    have hfound := List.mem_of_find?_eq_some hcontract
    have hfoundVersion : contract.version = accepted.snapshot.currentContractVersion := by
      simpa using List.find?_some hcontract
    rw [accepted.contracts_eq] at hfound
    obtain ⟨hmem, hcontractRun⟩ := List.mem_filter.mp hfound
    refine List.inj_on_of_nodup_map hroot.uniqueContracts hother hmem (Prod.ext ?_ ?_)
    · exact (hotherRun.trans hid).trans (beq_iff_eq.mp hcontractRun).symm
    · exact (hotherVersion.trans hversion).trans hfoundVersion.symm
  rw [hsame, ← haffected] at hseedIn
  have hclaims := amendment.created_claims
  have harcs : amendment.created.activeArcs accepted.projection.runId
      accepted.projection.contractVersion = db.activeArcs run'.runId run'.currentContractVersion := by
    unfold Db.activeArcs
    rw [amendment.created_edges, hid, hversion]
    rfl
  unfold Projection.defectClosure
  rw [harcs, hclaims]
  refine mem_reachableFrom.mpr ⟨seed.claimId, ?_, hdepends⟩
  refine List.mem_map.mpr ⟨seed, List.mem_filter.mpr ⟨hseed, ?_⟩, rfl⟩
  simp only [Bool.and_eq_true, beq_iff_eq, List.contains_iff_mem]
  exact ⟨⟨hseedIn, hseedRun.trans hid⟩, hseedVersion.trans hversion⟩

/-- The evidence of the claims that an amendment withdraws is not trusted for any version. -/
theorem Accepted.Amendment.untrusted_of_defect {after : Snapshot}
    (hafter : db'.guardSnapshot op.request.runId = some after) {item : EvidenceView}
    (hitem : item ∈ after.evidence)
    (hdefect : item.claimId ∈ Projection.defectClosure accepted.projection amendment.created
      amendment.affected) (target : Claim) (version : ℕ) (type : EvidenceType) :
    machineEvidenceIsTrusted after item target version type = false := by
  rw [← Bool.not_eq_true]
  intro htrusted
  obtain ⟨hisOf, -⟩ := snapshot_isOf hafter
  rw [hisOf.evidence_eq] at hitem
  have hrow : item.toEvidence ∈ amendment.migrated.evidence := by
    rw [← show db'.evidence = amendment.migrated.evidence from
      congrArg Records.evidence amendment.after_eq]
    exact mem_evidence_of_view hitem
  exact Projection.evidence_of_migrate amendment.migrated_eq hrow hdefect
    (accepted_of_trusted htrusted)

end Amended

theorem untrusted_of_amends {P : Platform} {policy : Policy} {db : Db} {op : ApplyOp}
    {p : AmendContract} (hknown : db.records.VersionsKnown)
    (hcommand : op.request.command = .amendContract p) (haccepts : op.Accepts P policy db)
    {after : Snapshot}
    (hafter : (op.apply P policy db).guardSnapshot op.request.runId = some after)
    (item : EvidenceView) (target : Claim) (type : EvidenceType) :
    machineEvidenceIsTrusted after item target after.currentContractVersion type = false := by
  obtain ⟨accepted⟩ := accepted_of_accepts haccepts
  obtain ⟨amendment, -, -, -, hfresh⟩ := accepted.exists_amendment hcommand
  exact amendment.untrusted_after hknown hfresh hafter item target type

/-- An accepted amendment keeps the trust in the evidence of the claims it carries over
exactly when the evidence was not trusted, and leaves no trust in the evidence of the claims
in the closure of the defect. -/
theorem amendment_keeps_trust_iff (P : Platform) (policy : Policy) (ops : List Op)
    (op : ApplyOp) (p : AmendContract) (hcommand : op.request.command = .amendContract p)
    (haccepts : op.Accepts P policy (reached P policy ops)) (after : Snapshot)
    (hafter : (op.apply P policy (reached P policy ops)).guardSnapshot op.request.runId =
      some after) :
    (∀ before, (reached P policy ops).guardSnapshot op.request.runId = some before →
      ∀ claim ∈ before.claims, ∀ claim' ∈ after.claims, claim'.claimId = claim.claimId →
      claim'.lifecycleStatus = .active →
      claim'.contractVersion = after.currentContractVersion →
      ∀ item ∈ before.evidence, item.claimId = claim.claimId →
      ∀ item' ∈ after.evidence, item'.evidenceId = item.evidenceId → ∀ type,
      (machineEvidenceIsTrusted after item' claim' after.currentContractVersion type =
          machineEvidenceIsTrusted before item claim before.currentContractVersion type ↔
        machineEvidenceIsTrusted before item claim before.currentContractVersion type = false)) ∧
    (∀ run, (reached P policy ops).run? op.request.runId = some run →
      ∀ item ∈ after.evidence, (reached P policy ops).InDefect run item.claimId →
      ∀ target version type,
        machineEvidenceIsTrusted after item target version type = false) := by
  obtain ⟨accepted⟩ := accepted_of_accepts haccepts
  obtain ⟨amendment, contract, hcontract, haffected, -⟩ := accepted.exists_amendment hcommand
  constructor
  · intro before _ claim _ claim' _ _ _ _ item _ _ item' _ _ type
    rw [untrusted_of_amends (versionsKnown_reached P policy ops) hcommand haccepts hafter item'
      claim' type]
    exact eq_comm
  · intro run hrun item hitem hdefect target version type
    exact amendment.untrusted_of_defect hafter hitem
      (amendment.mem_defectClosure (rootInvariant_reached P policy ops) hcontract haffected hrun
        hdefect) target version type

/-- The evidence of the sample, about a claim that is carried over. -/
theorem Sample.evidence_after {first next : Option Snapshot} {trusted : Bool}
    (h : first.any (fun before => next.any (Sample.carriesEvidence type trusted before)) = true) :
    ∃ before after, first = some before ∧ next = some after ∧
      ∃ claim ∈ before.claims, ∃ claim' ∈ after.claims, claim'.claimId = claim.claimId ∧
      claim'.lifecycleStatus = .active ∧ claim'.contractVersion = after.currentContractVersion ∧
      ∃ item ∈ before.evidence, ∃ item' ∈ after.evidence, item.claimId = claim.claimId ∧
        item'.evidenceId = item.evidenceId ∧
        machineEvidenceIsTrusted before item claim before.currentContractVersion type =
          trusted := by
  obtain ⟨before, hbefore, hnext⟩ := (Option.any_eq_true _ _).mp h
  obtain ⟨after, hafter, htest⟩ := (Option.any_eq_true _ _).mp hnext
  simp only [Sample.carriesEvidence, Bool.and_eq_true, List.any_eq_true, beq_iff_eq] at htest
  obtain ⟨claim, hclaim, claim', hclaim', ⟨⟨hid, hactive⟩, hversion⟩, item, hitem, item', hitem',
    ⟨habout, hsame⟩, htrusted⟩ := htest
  exact ⟨before, after, hbefore, hafter, claim, hclaim, claim', hclaim', hid, hactive, hversion,
    item, hitem, item', hitem', habout, hsame, htrusted⟩

/-- The amendment of the sample keeps the trust in evidence that was not trusted. -/
theorem amendment_keeps_trust_of_untrusted :
    ∃ before after, (reached Sample.platform Sample.policy
        (Sample.defective false)).guardSnapshot Sample.run = some before ∧
      (Sample.amendment.apply Sample.platform Sample.policy
        (reached Sample.platform Sample.policy (Sample.defective false))).guardSnapshot
          Sample.run = some after ∧
      ∃ claim ∈ before.claims, ∃ claim' ∈ after.claims, claim'.claimId = claim.claimId ∧
      ∃ item ∈ before.evidence, ∃ item' ∈ after.evidence, item'.evidenceId = item.evidenceId ∧
        machineEvidenceIsTrusted after item' claim' after.currentContractVersion
            .checkerCertificate =
          machineEvidenceIsTrusted before item claim before.currentContractVersion
            .checkerCertificate := by
  obtain ⟨before, after, hbefore, hafter, claim, hclaim, claim', hclaim', hid, hactive, hversion,
    item, hitem, item', hitem', habout, hsame, htrusted⟩ :=
    Sample.evidence_after Sample.outcomes.amendment.trust_kept
  refine ⟨before, after, hbefore, hafter, claim, hclaim, claim', hclaim', hid, item, hitem, item',
    hitem', hsame, ?_⟩
  exact ((amendment_keeps_trust_iff Sample.platform Sample.policy (Sample.defective false)
    Sample.amendment _ rfl (Sample.outcomes.amendment.amended false) after hafter).1 before hbefore
    claim hclaim claim' hclaim' hid hactive hversion item hitem habout item' hitem' hsame
    .checkerCertificate).mpr htrusted

/-- The replay of the sample is trusted before the amendment, and not after it. -/
theorem amendment_loses_trust :
    Sample.amendment.Accepts Sample.platform Sample.policy
        (reached Sample.platform Sample.policy (Sample.defective false)) ∧
      ∃ before after, (reached Sample.platform Sample.policy
          (Sample.defective false)).guardSnapshot Sample.run = some before ∧
        (Sample.amendment.apply Sample.platform Sample.policy
          (reached Sample.platform Sample.policy (Sample.defective false))).guardSnapshot
            Sample.run = some after ∧
        ∃ claim ∈ before.claims, ∃ claim' ∈ after.claims, claim'.claimId = claim.claimId ∧
        claim'.lifecycleStatus = .active ∧ claim'.contractVersion = after.currentContractVersion ∧
        ∃ item ∈ before.evidence, ∃ item' ∈ after.evidence, item.claimId = claim.claimId ∧
          item'.evidenceId = item.evidenceId ∧
          machineEvidenceIsTrusted after item' claim' after.currentContractVersion .leanReplay ≠
            machineEvidenceIsTrusted before item claim before.currentContractVersion
              .leanReplay := by
  have haccepts := Sample.outcomes.amendment.amended false
  obtain ⟨before, after, hbefore, hafter, claim, hclaim, claim', hclaim', hid, hactive, hversion,
    item, hitem, item', hitem', habout, hsame, htrusted⟩ :=
    Sample.evidence_after Sample.outcomes.amendment.trust_lost
  refine ⟨haccepts, before, after, hbefore, hafter, claim, hclaim, claim', hclaim', hid, hactive,
    hversion, item, hitem, item', hitem', habout, hsame, ?_⟩
  rw [htrusted, untrusted_of_amends
    (versionsKnown_reached Sample.platform Sample.policy (Sample.defective false)) rfl haccepts
    hafter item' claim' .leanReplay]
  exact Bool.false_ne_true

end ResearchKernel
