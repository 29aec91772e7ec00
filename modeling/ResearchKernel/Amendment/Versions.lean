import ResearchKernel.ClaimGraph.Closure
import ResearchKernel.Finalization.Disproof
import ResearchKernel.Kernel.Amendment

/-!
# Contract versions of records

Runs, obligations and receipts name contract versions of their run that exist. An amendment
makes a version that did not exist, so what it does not move to the new version stays
behind: no obligation and no receipt is of the new version.
-/

namespace ResearchKernel

open Foundation

/-- The contract versions that exist, with their runs. -/
def Records.contractKeys (records : Records) : List (Id × ℕ) :=
  records.contractVersions.map ContractVersion.key

/-- Runs, obligations and receipts name contract versions that exist. -/
structure Records.VersionsKnown (records : Records) : Prop where
  pointers : ∀ pointer ∈ records.pointers,
    (pointer.runId, pointer.currentContractVersion) ∈ records.contractKeys
  obligations : ∀ obligation ∈ records.obligations,
    (obligation.runId, obligation.contractVersion) ∈ records.contractKeys
  receipts : ∀ receipt ∈ records.hostReceipts,
    (receipt.runId, receipt.contractVersion) ∈ records.contractKeys

namespace Projection

variable {ctx : ProjectionContext} {db db' : Db} {m : Mutation}

/-- Mutations keep the contract versions that exist. -/
theorem contractKeys_of_apply (h : applyMutation ctx db m = some db') {key : Id × ℕ}
    (hkey : key ∈ db.records.contractKeys) : key ∈ db'.records.contractKeys := by
  change key ∈ db'.contractVersions.map ContractVersion.key
  rcases (contracts_of_apply h).keys with hkeys | ⟨new, -, hkeys⟩
  · rw [hkeys]
    exact hkey
  · rw [hkeys]
    exact List.mem_append_left _ hkey

/-- Mutations keep runs at contract versions that exist. -/
theorem pointerVersions_of_apply (h : applyMutation ctx db m = some db')
    (hknown : db.records.VersionsKnown) : ∀ pointer ∈ db'.records.pointers,
      (pointer.runId, pointer.currentContractVersion) ∈ db'.records.contractKeys := by
  intro pointer' hpointer'
  rw [pointers_of_apply h] at hpointer'
  obtain ⟨pointer, hpointer, rfl⟩ := List.mem_map.mp hpointer'
  have hold := contractKeys_of_apply h (hknown.pointers pointer hpointer)
  unfold movePointer
  split
  · split
    · change _ ∈ db'.contractVersions.map ContractVersion.key
      rw [(contractKey_of_create h).2]
      exact List.mem_append_right _ (List.mem_singleton.mpr rfl)
    · exact hold
  · split
    · exact hold
    · exact hold
  · exact hold

end Projection

section Invariant

variable {P : Platform} {policy : Policy} {db db' : Db}

theorem version_of_registerObligation {op : ApplyOp} {accepted : Accepted P policy db op db'}
    {p : RegisterCompositionObligation} {before after : Db}
    (happlies : accepted.Applies (.registerCompositionObligation p) before after) :
    p.contractVersion = accepted.snapshot.currentContractVersion := by
  obtain ⟨hcommand, -, -⟩ := happlies.emitted
  refine accepted.version_eq ?_
  rw [hcommand]
  rfl

/-- Mutations of accepted commands keep obligations at contract versions that exist. -/
theorem obligationVersions_of_applies {op : ApplyOp} {accepted : Accepted P policy db op db'}
    {m : Mutation} {before after : Db} (happlies : accepted.Applies m before after)
    (hstart : db.records.VersionsKnown) (hknown : before.records.VersionsKnown) :
    ∀ obligation ∈ after.records.obligations,
      (obligation.runId, obligation.contractVersion) ∈ after.records.contractKeys := by
  have hkeys : ∀ key ∈ before.records.contractKeys, key ∈ after.records.contractKeys :=
    fun key hkey => Projection.contractKeys_of_apply happlies.applied hkey
  intro obligation hobligation
  rcases Projection.obligations_of_apply happlies.applied obligation hobligation with
    ⟨old, hold, hsame, -⟩ | ⟨p, rfl, -, -⟩
  · rw [hsame]
    exact hkeys _ (hknown.obligations old hold)
  · have happlied := happlies.applied
    obtain ⟨obligations, hobligations, happlied⟩ := Option.bind_eq_some_iff.mp happlied
    obtain ⟨-, rfl⟩ := insertRow_eq_some.mp hobligations
    obtain rfl := Option.some.inj happlied
    rcases List.mem_append.mp hobligation with hold | hnew
    · exact hknown.obligations obligation hold
    · obtain rfl := List.mem_singleton.mp hnew
      have hsame := records_of_registerObligation happlies
      have hcurrent := hstart.pointers _ accepted.pointer_mem
      rw [← version_of_registerObligation happlies, ← hsame] at hcurrent
      exact hcurrent

theorem known_of_recordHostExecution (capability : VerifiedCapability) (record : HostRecord) :
    Gives (fun _ => (record.scope.runId, record.scope.contractVersion) ∈ db.records.contractKeys)
      (db.recordHostExecution P capability record) := by
  refine Gives.bind fun rows _ => Gives.bind fun _ _ => Gives.bind fun _ hscope =>
    Gives.bind fun receipts _ => Gives.bind fun events _ => Gives.bind fun recorded _ =>
    Gives.pure ?_
  have hhas := require_eq_some.mp hscope
  simp only [Db.hasScope, Bool.and_eq_true, List.any_eq_true, beq_iff_eq] at hhas
  obtain ⟨-, contract, hcontract, hrun, hversion⟩ := hhas
  exact List.mem_map.mpr ⟨contract, hcontract, Prod.ext hrun hversion⟩

/-- A recorded execution adds no receipt, or one for a contract version that exists. -/
theorem versionsKnown_recordHostExecution (capability : VerifiedCapability) (record : HostRecord)
    (h : db.records.VersionsKnown) :
    (step P policy db (.recordHostExecution capability record)).records.VersionsKnown := by
  generalize hnext : step P policy db (.recordHostExecution capability record) = db'
  rcases withCapability_cases db (capability.allows "HostExecute" (some record.scope.runId))
    capability (fun db => db.recordHostExecution P capability record) with
    hidle | ⟨start, hensured, hend⟩
  · have hsame : db'.records = db.records := hnext ▸ hidle
    rw [hsame]
    exact h
  · have hstart : SameRecords db start := sameRecords_ensureCapability _ start hensured
    have hlast : start.recordHostExecution P capability record = some db' := hnext ▸ hend
    have hknown := known_of_recordHostExecution capability record _ hlast
    obtain ⟨reasons, -, heq⟩ := records_recordHostExecution capability record _ hlast
    rw [show start.records = db.records from hstart] at hknown heq
    rw [hstart.hostReceipts] at heq
    rw [heq]
    refine ⟨h.pointers, h.obligations, fun receipt hreceipt => ?_⟩
    rcases List.mem_append.mp hreceipt with hold | hnew
    · exact h.receipts receipt hold
    · obtain rfl := List.mem_singleton.mp hnew
      exact hknown

/-- Every operation keeps records at contract versions that exist. -/
theorem versionsKnown_step (op : Op) (h : db.records.VersionsKnown) :
    (step P policy db op).records.VersionsKnown := by
  generalize hnext : step P policy db op = db'
  have transition : Transition P policy db op db' := hnext ▸ transition_step op
  cases transition with
  | idle op db' same =>
    rw [show db'.records = db.records from same]
    exact h
  | created op db' creation =>
    have hafter : db'.records.contractKeys =
        db.records.contractKeys ++ [(creation.new.runId, 1)] := by
      have hcontracts := congrArg Records.contractKeys creation.after_eq
      exact hcontracts.trans List.map_append
    have hkeys : ∀ key ∈ db.records.contractKeys, key ∈ db'.records.contractKeys := by
      intro key hkey
      rw [hafter]
      exact List.mem_append_left _ hkey
    refine ⟨fun pointer hpointer => ?_, fun obligation hobligation => ?_,
      fun receipt hreceipt => ?_⟩
    · rw [creation.after_eq] at hpointer
      rcases List.mem_append.mp hpointer with hold | hnew
      · exact hkeys _ (h.pointers pointer hold)
      · obtain rfl := List.mem_singleton.mp hnew
        rw [hafter]
        exact List.mem_append_right _ (List.mem_singleton.mpr rfl)
    · rw [creation.after_eq] at hobligation
      exact hkeys _ (h.obligations obligation hobligation)
    · rw [creation.after_eq] at hreceipt
      exact hkeys _ (h.receipts receipt hreceipt)
  | recorded capability record db' reasons fresh heq =>
    exact hnext ▸ versionsKnown_recordHostExecution capability record h
  | applied op db' accepts accepted =>
    refine accepted.preserves h fun m before after happlies hbefore => ⟨?_, ?_, ?_⟩
    · exact Projection.pointerVersions_of_apply happlies.applied hbefore
    · exact obligationVersions_of_applies happlies h hbefore
    · intro receipt hreceipt
      rw [hostReceipts_of_apply happlies.applied] at hreceipt
      exact Projection.contractKeys_of_apply happlies.applied (hbefore.receipts receipt hreceipt)
  | leanConsumed capability use feedbackId toolchain db' consumption
  | checkerConsumed capability use verificationId rootKind db' consumption =>
    rw [consumption.after_eq]
    refine ⟨h.pointers, h.obligations, fun receipt hreceipt => ?_⟩
    obtain ⟨old, hold, rfl⟩ := mem_updateWhere.mp hreceipt
    have hknown := h.receipts old hold
    split
    · exact hknown
    · exact hknown

/-- In every run, records are at contract versions that exist. -/
theorem versionsKnown_reached (P : Platform) (policy : Policy) (ops : List Op) :
    (reached P policy ops).records.VersionsKnown :=
  reached_invariant Records.VersionsKnown
    ⟨List.forall_mem_nil _, List.forall_mem_nil _, List.forall_mem_nil _⟩
    (fun _ op h => versionsKnown_step op h) ops

end Invariant

end ResearchKernel
