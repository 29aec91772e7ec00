import ResearchKernel.Composition.Registered

/-!
# Fresh closures

A claim is closed by a witness that discharges its obligations. Several commands reopen a
claim and none of them touches the witness, so a promotion may close the claim again with
the old witness. A witness of a later contract version leaves the obligations of the earlier
one out. In runs without such steps every closed claim has been closed ever since the
acceptance of a witness that discharges all its obligations.
-/

namespace ResearchKernel

open Foundation

/-- A claim with the given identifier is closed. -/
def Records.ClosedId (records : Records) (id : Id) : Prop :=
  ∃ claim ∈ records.claims, claim.claimId = id ∧ claim.closureState.isClosed = true

/-- The closure of a claim with the given identifier is open or invalidated. -/
def Records.ReopenedId (records : Records) (id : Id) : Prop :=
  ∃ claim ∈ records.claims, claim.claimId = id ∧
    (claim.closureState = .isOpen ∨ claim.closureState = .invalidated)

/-- An accepted witness of a claim that discharges all its obligations but withdrawn ones. -/
structure Records.Discharges (records : Records) (witness : ClosureWitness) (id : Id) : Prop where
  mem : witness ∈ records.closureWitnesses
  parent : witness.parentClaimId = id
  accepted : witness.status = .accepted
  discharged : ∀ obligation ∈ records.obligations, obligation.parentClaimId = id →
    obligation.status ≠ .invalidated → obligation.obligationId ∈ witness.dischargedObligations

/-! ## Obligations -/

/-- No two obligations have the same identifier, and each is about a claim of its run. -/
structure Records.ObligationsScoped (records : Records) : Prop where
  unique : (records.obligations.map (·.obligationId)).Nodup
  parent : ∀ obligation ∈ records.obligations, ∃ claim ∈ records.claims,
    claim.claimId = obligation.parentClaimId ∧ claim.runId = obligation.runId

section Accepted

variable {P : Platform} {policy : Policy} {db db' : Db} {op : ApplyOp}
  {accepted : Accepted P policy db op db'} {m : Mutation} {before after : Db} {id : Id}

theorem records_of_registerObligation {p : RegisterCompositionObligation}
    (happlies : accepted.Applies (.registerCompositionObligation p) before after) :
    before.records = db.records := by
  obtain ⟨-, hmutations, -⟩ := happlies.emitted
  exact happlies.records_of_head hmutations (by simp)

/-- Mutations of accepted commands keep the obligations scoped. -/
theorem obligationsScoped_of_applies (happlies : accepted.Applies m before after)
    (h : before.records.ObligationsScoped) : after.records.ObligationsScoped where
  unique := Projection.nodup_obligationIds_of_apply happlies.applied h.unique
  parent := by
    have hclaims := Projection.kept_claims_of_apply happlies.applied
    intro obligation hobligation
    obtain ⟨claim, hclaim, hid, hrun⟩ : ∃ claim ∈ before.records.claims,
        claim.claimId = obligation.parentClaimId ∧ claim.runId = obligation.runId := by
      rcases Projection.obligations_of_apply happlies.applied obligation hobligation with
        ⟨old, hold, hsame, -⟩ | ⟨p, rfl, hparent, hrun⟩
      · rw [hsame]
        exact h.parent old hold
      · obtain ⟨-, -, hhandle⟩ := happlies.emitted
        obtain ⟨parent, hcurrent⟩ := Guard.current_of_registerObligation hhandle
        obtain ⟨hmem, hparentRun, hfound, -, -⟩ := accepted.claim_of_current hcurrent
        rw [records_of_registerObligation happlies]
        exact ⟨parent, hmem, hfound.trans hparent.symm, hparentRun.trans hrun.symm⟩
    obtain ⟨claim', hclaim', hstatement⟩ := hclaims claim hclaim
    exact ⟨claim', hclaim', hstatement.claimId.trans hid, hstatement.runId.trans hrun⟩

variable {closure : ClosureState}

/-- What a witness discharges are the obligations of its parent that are not withdrawn. -/
theorem mem_discharged (hscoped : db.records.ObligationsScoped) {p : SubmitClosureWitness}
    (happlies : accepted.Applies (.acceptClosureWitness p closure) before after) :
    id ∈ p.dischargedObligationIds ↔ ∃ obligation ∈ db.obligations,
      obligation.runId = op.request.runId ∧ obligation.obligationId = id ∧
        obligation.parentClaimId = p.parentClaimId ∧
        obligation.contractVersion = p.contractVersion ∧ obligation.status ≠ .invalidated := by
  obtain ⟨-, -, hvalid⟩ := happlies.emitted
  obtain ⟨validated⟩ := validated_of_validate hvalid
  have hrows : accepted.context.snapshot.obligations =
      db.obligations.filter (·.runId == op.request.runId) := accepted.obligations_eq
  rw [validated.discharged_iff, mem_requiredObligationIds]
  · rw [hrows]
    simp only [List.mem_filter, beq_iff_eq, and_assoc]
  · rw [hrows]
    intro a ha b hb hid
    exact List.inj_on_of_nodup_map hscoped.unique (List.mem_filter.mp ha).1
      (List.mem_filter.mp hb).1 hid

/-- An obligation that is not withdrawn after a mutation was not withdrawn before it, or is
registered by it. -/
theorem obligation_before (hscoped : db.records.ObligationsScoped)
    (happlies : accepted.Applies m before after) {obligation : Obligation}
    (hmem : obligation ∈ after.records.obligations) (hstatus : obligation.status ≠ .invalidated) :
    (∃ old ∈ before.records.obligations, old.Same obligation ∧ old.status ≠ .invalidated) ∨
      Projection.IsNewObligation accepted.projection m obligation := by
  rcases Projection.obligations_of_apply happlies.applied obligation hmem with
    ⟨old, hold, hsame, hchange⟩ | hnew
  · refine Or.inl ⟨old, hold, hsame, ?_⟩
    rcases hchange with hkept | hinvalid | ⟨p, closure, rfl, hdischarged⟩
    · rw [← hkept]
      exact hstatus
    · exact absurd hinvalid hstatus
    · obtain ⟨-, hsingle, -⟩ := happlies.emitted
      obtain ⟨row, hrow, -, hid, -, -, hrowStatus⟩ := (mem_discharged hscoped happlies).mp hdischarged
      have hstart : old ∈ before.records.obligations := hold
      rw [happlies.records_of_single hsingle] at hstart
      rw [← List.inj_on_of_nodup_map hscoped.unique hrow hstart hid]
      exact hrowStatus
  · exact Or.inr hnew

/-! ## Witnesses -/

/-- A claim that is closed after a mutation was closed before it, or is closed by a command
that does nothing else. -/
theorem closed_before (happlies : accepted.Applies m before after)
    (h : after.records.ClosedId id) :
    before.records.ClosedId id ∨ before.records = db.records := by
  obtain ⟨claim', hclaim', hid, hclosed⟩ := h
  rcases Projection.exists_claim_of_apply happlies.applied hclaim' with
    ⟨claim, hclaim, hchange⟩ | hnew
  · have hvalue : ∀ id value, m = .setClosure id value → value.isClosed = false := by
      rintro id value rfl
      obtain ⟨p, -, -, rfl, -, -⟩ := happlies.emitted
      rfl
    rcases hchange.closed_cases hvalue hclosed with hold | ⟨p, closure, rfl, -⟩ | ⟨p, value, rfl, -, -⟩
    · exact Or.inl ⟨claim, hclaim, hchange.sameStatement.claimId.symm.trans hid, hold⟩
    · obtain ⟨-, hsingle, -⟩ := happlies.emitted
      exact Or.inr (happlies.records_of_single hsingle)
    · obtain ⟨-, hsingle, -⟩ := happlies.emitted
      exact Or.inr (happlies.records_of_single hsingle)
  · cases m with
    | registerClaim p closure =>
      obtain ⟨-, hsingle, -⟩ := happlies.emitted
      exact Or.inr (happlies.records_of_single hsingle)
    | _ => cases hnew

variable {witness : ClosureWitness}

/-- A witness of a claim that stays closed is left as it is. -/
theorem witness_kept (happlies : accepted.Applies m before after)
    (hmem : witness ∈ before.records.closureWitnesses)
    (h : after.records.ClosedId witness.parentClaimId) :
    witness ∈ after.records.closureWitnesses := by
  obtain ⟨claim', hclaim', hid, hclosed⟩ := h
  rcases Projection.witness_of_apply happlies.applied hmem with
    hkept | ⟨fact, rfl, hparent⟩ | ⟨version, affected, rfl, hparent⟩
  · exact hkept
  · obtain ⟨claim, -, hsame, ⟨-, -, hreopened⟩ | ⟨hout, -⟩⟩ :=
      Projection.exists_claim_of_revoke happlies.applied hclaim'
    · rw [hreopened] at hclosed
      cases hclosed
    · rw [← hsame, hid] at hout
      exact absurd hparent hout
  · rw [← hid] at hparent
    have hopen := Projection.not_closed_of_migrate happlies.applied hclaim' hparent
    rw [hclosed] at hopen
    cases hopen

theorem discharges_of_applies (hscoped : db.records.ObligationsScoped)
    (happlies : accepted.Applies m before after)
    (hother : ∀ p, m = .registerCompositionObligation p → p.parentClaimId ≠ id)
    (h : before.records.Discharges witness id) (hclosed : after.records.ClosedId id) :
    after.records.Discharges witness id where
  mem := witness_kept happlies h.mem (h.parent.symm ▸ hclosed)
  parent := h.parent
  accepted := h.accepted
  discharged := by
    intro obligation hobligation hparent hstatus
    rcases obligation_before hscoped happlies hobligation hstatus with
      ⟨old, hold, hsame, holdStatus⟩ | ⟨p, rfl, hnew, -⟩
    · rw [hsame] at hparent ⊢
      exact h.discharged old hold hparent holdStatus
    · exact absurd (hnew.symm.trans hparent) (hother p rfl)

/-- The witness of an accepted command discharges the obligations of its parent, provided
that they all belong to its contract version. -/
theorem discharges_of_accept (hunique : db.records.UniqueClaims)
    (hscoped : db.records.ObligationsScoped) {p : SubmitClosureWitness}
    (happlies : accepted.Applies (.acceptClosureWitness p closure) before after)
    (hversion : ∀ obligation ∈ db.obligations, obligation.parentClaimId = p.parentClaimId →
      obligation.status ≠ .invalidated → obligation.contractVersion = p.contractVersion) :
    ∃ witness, witness.witnessId = op.newId 0 ∧
      after.records.Discharges witness p.parentClaimId := by
  obtain ⟨-, hsingle, hvalid⟩ := happlies.emitted
  obtain ⟨artifactId, hwitness⟩ := Projection.newWitness_of_apply happlies.applied
  refine ⟨_, rfl, hwitness, rfl, rfl, ?_⟩
  intro obligation hobligation hparent hstatus
  rcases obligation_before hscoped happlies hobligation hstatus with
    ⟨old, hold, hsame, holdStatus⟩ | ⟨q, hm, -, -⟩
  · rw [happlies.records_of_single hsingle] at hold
    rw [hsame] at hparent ⊢
    obtain ⟨claim, hclaim, hclaimId, hclaimRun⟩ := hscoped.parent old hold
    obtain ⟨validated⟩ := validated_of_validate hvalid
    obtain ⟨-, -, hfound, -, -⟩ := validated.parent_spec
    obtain ⟨hparentMem, hparentRun, hparentId⟩ := accepted.claim_of_lookup hfound
    have heq : claim = validated.parent :=
      hunique.eq hclaim hparentMem (hclaimId.trans (hparent.trans hparentId.symm))
    refine (mem_discharged hscoped happlies).mpr ⟨old, hold, ?_, rfl, hparent,
      hversion old hold hparent holdStatus, holdStatus⟩
    rw [← hclaimRun, heq, hparentRun]
  · cases hm

end Accepted

/-- Every operation keeps the obligations scoped. -/
theorem obligationsScoped_step {P : Platform} {policy : Policy} {db : Db} (op : Op)
    (h : db.records.ObligationsScoped) : (step P policy db op).records.ObligationsScoped := by
  rcases @step_cases P policy db op with frame | ⟨op, rfl, -, ⟨accepted⟩⟩
  · have hobligations := frame.obligations
    constructor
    · rw [hobligations]
      exact h.unique
    · intro obligation hobligation
      rw [hobligations] at hobligation
      obtain ⟨claim, hclaim, hid, hrun⟩ := h.parent obligation hobligation
      obtain ⟨claim', hclaim', hsame⟩ := frame.keeps_claims claim hclaim
      exact ⟨claim', hclaim', hsame.claimId.trans hid, hsame.runId.trans hrun⟩
  · exact accepted.preserves h fun m before after happlies hbefore =>
      obligationsScoped_of_applies happlies hbefore

theorem obligationsScoped_reached (P : Platform) (policy : Policy) (ops : List Op) :
    (reached P policy ops).records.ObligationsScoped :=
  reached_invariant Records.ObligationsScoped ⟨List.nodup_nil, List.forall_mem_nil _⟩
    (fun _ op h => obligationsScoped_step op h) ops

/-! ## Steps -/

/-- The operation is an accepted witness of the claim with the given identifier. -/
def AcceptsWitness (P : Platform) (policy : Policy) (id witnessId : Id) (db : Db) : Op → Prop
  | .apply op => op.Accepts P policy db ∧ op.newId 0 = witnessId ∧
    ∃ p, op.request.command = .submitClosureWitness p ∧ p.parentClaimId = id
  | _ => False

/-- An accepted promotion closes no claim that is not closed already, and the obligations of
the parent of an accepted witness that are not withdrawn belong to its contract version. -/
def ClosesFreshly (db : Db) (op : ApplyOp) : Prop :=
  match op.request.command with
  | .promoteClaim p => ∀ value, axisValue p.targetAxis p.targetValue = some (.closure value) →
    value.isClosed = true → db.records.ClosedId p.claimId
  | .submitClosureWitness p => ∀ obligation ∈ db.obligations,
    obligation.parentClaimId = p.parentClaimId → obligation.status ≠ .invalidated →
      obligation.contractVersion = p.contractVersion
  | _ => True

section Steps

variable {P : Platform} {policy : Policy} {db : Db} {id : Id}

/-- The registration of an obligation leaves its parent open. -/
theorem not_closed_of_registerObligation {op : ApplyOp} {db' : Db}
    (accepted : Accepted P policy db op db') {p : RegisterCompositionObligation}
    (hcommand : op.request.command = .registerCompositionObligation p) :
    ¬ db'.records.ClosedId p.parentClaimId := by
  rintro ⟨claim', hclaim', hid, hclosed⟩
  have hhandle := accepted.handled
  rw [hcommand] at hhandle
  have hmutations := Guard.emits_registerCompositionObligation p _ hhandle
  have hprojected := accepted.projected
  rw [hmutations] at hprojected
  obtain ⟨mid, -, hprojected⟩ := Projection.apply_cons_eq_some.mp hprojected
  obtain ⟨last, hset, hlast⟩ := Projection.apply_cons_eq_some.mp hprojected
  have hend : last = accepted.last := Option.some.inj hlast
  have hclaims : db'.claims = last.claims := by
    rw [hend]
    exact accepted.last_same.claims
  have hmem : claim' ∈ last.claims := hclaims ▸ hclaim'
  obtain rfl := Option.some.inj hset
  obtain ⟨claim, -, heq⟩ := mem_updateWhere.mp hmem
  split at heq
  · rw [← heq] at hclosed
    cases hclosed
  · rename_i htest
    rw [heq] at htest
    exact htest (beq_iff_eq.mpr hid)

/-- While a claim is closed, its witness goes on discharging all its obligations, and none is
registered. -/
theorem discharges_step (hscoped : db.records.ObligationsScoped) (op : Op)
    {witness : ClosureWitness} (hdischarges : db.records.Discharges witness id)
    (hclosed : (step P policy db op).records.ClosedId id) :
    (step P policy db op).records.Discharges witness id ∧
      ∀ obligation ∈ (step P policy db op).records.obligations, obligation.parentClaimId = id →
        ∃ old ∈ db.records.obligations, old.parentClaimId = id ∧
          old.obligationId = obligation.obligationId := by
  rcases @step_cases P policy db op with frame | ⟨op, rfl, -, ⟨accepted⟩⟩
  · have hobligations := frame.obligations
    have hwitnesses := frame.closureWitnesses
    refine ⟨⟨hwitnesses ▸ hdischarges.mem, hdischarges.parent, hdischarges.accepted,
      hobligations ▸ hdischarges.discharged⟩, fun obligation hobligation hparent => ?_⟩
    exact ⟨obligation, hobligations ▸ hobligation, hparent, rfl⟩
  · have hother : ∀ p, op.request.command = .registerCompositionObligation p →
        p.parentClaimId ≠ id := by
      rintro p hcommand rfl
      exact not_closed_of_registerObligation accepted hcommand hclosed
    have hinv := accepted.preserves (I := fun records =>
      (records.ClosedId id → records.Discharges witness id) ∧
        ∀ obligation ∈ records.obligations, obligation.parentClaimId = id →
          ∃ old ∈ db.records.obligations, old.parentClaimId = id ∧
            old.obligationId = obligation.obligationId)
      ⟨fun _ => hdischarges, fun obligation hold hparent => ⟨obligation, hold, hparent, rfl⟩⟩ ?_
    · exact ⟨hinv.1 hclosed, hinv.2⟩
    · intro m before after happlies hbefore
      have hnew : ∀ p, m = .registerCompositionObligation p → p.parentClaimId ≠ id := by
        rintro p rfl
        exact hother p happlies.emitted.1
      refine ⟨fun hafter => ?_, fun obligation hobligation hparent => ?_⟩
      · refine discharges_of_applies hscoped happlies hnew ?_ hafter
        rcases closed_before happlies hafter with hold | hstart
        · exact hbefore.1 hold
        · rw [hstart]
          exact hdischarges
      · rcases Projection.obligations_of_apply happlies.applied obligation hobligation with
          ⟨old, hold, hsame, -⟩ | ⟨p, hm, hregistered, -⟩
        · rw [hsame] at hparent ⊢
          exact hbefore.2 old hold hparent
        · exact absurd (hregistered.symm.trans hparent) (hnew p hm)

/-- A claim that an operation closes has been promoted or has an accepted witness. -/
theorem closed_of_step (op : Op) (hclosed : (step P policy db op).records.ClosedId id)
    (hopen : ¬ db.records.ClosedId id) : ∃ applied : ApplyOp, op = .apply applied ∧
      applied.Accepts P policy db ∧
      ((∃ p, applied.request.command = .submitClosureWitness p ∧ p.parentClaimId = id) ∨
        ∃ p value, applied.request.command = .promoteClaim p ∧ p.claimId = id ∧
          axisValue p.targetAxis p.targetValue = some (.closure value) ∧
          value.isClosed = true) := by
  rcases @step_cases P policy db op with frame | ⟨op, rfl, haccepts, ⟨accepted⟩⟩
  · obtain ⟨claim', hclaim', hid, hclosed⟩ := hclosed
    obtain ⟨claim, hclaim, hchange⟩ := frame.exists_claim hclaim'
    rw [hchange.eq] at hclosed
    exact absurd ⟨claim, hclaim, hchange.sameStatement.claimId.symm.trans hid, hclosed⟩ hopen
  · refine ⟨op, rfl, haccepts, ?_⟩
    refine (accepted.preserves (I := fun records => records.ClosedId id →
      db.records.ClosedId id ∨ _) (fun h => Or.inl h) ?_ hclosed).resolve_left hopen
    rintro m before after happlies hbefore ⟨claim', hclaim', hid, hclosed⟩
    rcases Projection.exists_claim_of_apply happlies.applied hclaim' with
      ⟨claim, hclaim, hchange⟩ | hnew
    · have hclaimId : claim.claimId = id := hchange.sameStatement.claimId.symm.trans hid
      have hvalue : ∀ id value, m = .setClosure id value → value.isClosed = false := by
        rintro id value rfl
        obtain ⟨p, -, -, rfl, -, -⟩ := happlies.emitted
        rfl
      rcases hchange.closed_cases hvalue hclosed with
        hold | ⟨p, closure, rfl, hparent⟩ | ⟨p, value, rfl, hclaim', hvalueClosed⟩
      · exact hbefore ⟨claim, hclaim, hclaimId, hold⟩
      · obtain ⟨hcommand, -, -⟩ := happlies.emitted
        exact Or.inr (Or.inl ⟨p, hcommand, hparent.symm.trans hclaimId⟩)
      · obtain ⟨hcommand, hsingle, hhandle⟩ := happlies.emitted
        rw [hsingle] at hhandle
        obtain ⟨promotion⟩ := Guard.promotion_of_handle hhandle
        exact Or.inr (Or.inr ⟨p, value, hcommand, hclaim'.symm.trans hclaimId, promotion.value_eq,
          hvalueClosed⟩)
    · cases m with
      | registerClaim p closure =>
        obtain ⟨-, hsingle, hhandle⟩ := happlies.emitted
        rw [hsingle] at hhandle
        obtain rfl := List.mem_singleton.mp hnew
        have hregistered := Guard.open_of_registerClaim hhandle
        rw [show closure.isClosed = true from hclosed] at hregistered
        cases hregistered
      | _ => cases hnew

/-- A witness that closes a claim freshly discharges all its obligations. -/
theorem discharges_of_witness (hunique : db.records.UniqueClaims)
    (hscoped : db.records.ObligationsScoped) {op : ApplyOp} (haccepts : op.Accepts P policy db)
    {p : SubmitClosureWitness} (hcommand : op.request.command = .submitClosureWitness p)
    (hfresh : OnAccepted P policy ClosesFreshly db (.apply op)) :
    (∃ witness, witness.witnessId = op.newId 0 ∧
        (step P policy db (.apply op)).records.Discharges witness p.parentClaimId) ∧
      ∀ obligation ∈ (step P policy db (.apply op)).records.obligations,
        obligation.parentClaimId = p.parentClaimId → ∃ old ∈ db.records.obligations,
          old.parentClaimId = p.parentClaimId ∧ old.obligationId = obligation.obligationId := by
  have hversion := hfresh haccepts
  simp only [ClosesFreshly, hcommand] at hversion
  obtain ⟨accepted⟩ := accepted_of_accepts haccepts
  have hhandle := accepted.handled
  rw [hcommand] at hhandle
  obtain ⟨closure, hsingle, -⟩ := Guard.emits_submitClosureWitness p _ hhandle
  obtain ⟨before, after, happlies, hsame, hend⟩ := accepted.applies_of_single hsingle
  have hafter : (step P policy db (.apply op)).records = after.records := hend
  rw [hafter]
  refine ⟨discharges_of_accept hunique hscoped happlies hversion, ?_⟩
  intro obligation hobligation hparent
  rcases Projection.obligations_of_apply happlies.applied obligation hobligation with
    ⟨old, hold, heq, -⟩ | ⟨q, hm, -, -⟩
  · rw [heq] at hparent ⊢
    have hstart : old ∈ before.records.obligations := hold
    rw [hsame] at hstart
    exact ⟨old, hstart, hparent, rfl⟩
  · cases hm

end Steps

/-! ## Runs -/

/-- The claim has been closed ever since the acceptance of a witness, which discharges its
obligations; all of them were registered before the witness was accepted. -/
def ClosedSince (P : Platform) (policy : Policy) (ops : List Op) (id : Id) : Prop :=
  ∃ before op after witness, ops = before ++ op :: after ∧
    AcceptsWitness P policy id witness.witnessId (reached P policy before) op ∧
    (∀ first rest, after = first ++ rest →
      (reached P policy (before ++ op :: first)).records.ClosedId id) ∧
    (reached P policy ops).records.Discharges witness id ∧
    ∀ obligation ∈ (reached P policy ops).records.obligations, obligation.parentClaimId = id →
      ∃ old ∈ (reached P policy before).records.obligations, old.parentClaimId = id ∧
        old.obligationId = obligation.obligationId

section Runs

variable {P : Platform} {policy : Policy}

theorem reached_concat (ops : List Op) (op : Op) :
    reached P policy (ops ++ [op]) = step P policy (reached P policy ops) op :=
  runFrom_concat _ _ _ _

/-- A claim that stays closed has been closed since the same witness. -/
theorem ClosedSince.concat {ops : List Op} {id : Id} (op : Op)
    (hscoped : (reached P policy ops).records.ObligationsScoped) (h : ClosedSince P policy ops id)
    (hclosed : (reached P policy (ops ++ [op])).records.ClosedId id) :
    ClosedSince P policy (ops ++ [op]) id := by
  obtain ⟨before, accept, after, witness, rfl, haccepts, hsince, hdischarges, horigin⟩ := h
  have hstep := hclosed
  rw [reached_concat] at hstep
  obtain ⟨hdischarges', horigin'⟩ := discharges_step hscoped op hdischarges hstep
  refine ⟨before, accept, after ++ [op], witness, by simp, haccepts, ?_, ?_, ?_⟩
  · intro first rest hsplit
    rcases List.eq_nil_or_concat rest with rfl | ⟨init, last, rfl⟩
    · rw [List.append_nil] at hsplit
      rw [← hsplit]
      simpa using hclosed
    · refine hsince first init ?_
      have hinit : after ++ [op] = (first ++ init) ++ [last] := by simpa using hsplit
      exact (List.append_inj' hinit rfl).1
  · rw [reached_concat]
    exact hdischarges'
  · intro obligation hobligation hparent
    rw [reached_concat] at hobligation
    obtain ⟨mid, hmid, hmidParent, hmidId⟩ := horigin' obligation hobligation hparent
    obtain ⟨old, hold, holdParent, holdId⟩ := horigin mid hmid hmidParent
    exact ⟨old, hold, holdParent, holdId.trans hmidId⟩

variable {ops : List Op}

/-- A claim that a fresh step closes has been closed since its witness. -/
theorem closedSince_of_step {id : Id} (op : Op)
    (hunique : (reached P policy ops).records.UniqueClaims)
    (hscoped : (reached P policy ops).records.ObligationsScoped)
    (hfresh : OnAccepted P policy ClosesFreshly (reached P policy ops) op)
    (hclosed : (reached P policy (ops ++ [op])).records.ClosedId id)
    (hopen : ¬ (reached P policy ops).records.ClosedId id) :
    ClosedSince P policy (ops ++ [op]) id := by
  have hstep := hclosed
  rw [reached_concat] at hstep
  obtain ⟨applied, rfl, haccepts, ⟨p, hcommand, rfl⟩ | ⟨p, value, hcommand, rfl, haxis, hvalue⟩⟩ :=
    closed_of_step op hstep hopen
  · obtain ⟨⟨witness, hwitnessId, hdischarges⟩, horigin⟩ :=
      discharges_of_witness hunique hscoped haccepts hcommand hfresh
    refine ⟨ops, .apply applied, [], witness, rfl, ?_, ?_, ?_, ?_⟩
    · exact ⟨haccepts, hwitnessId.symm, p, hcommand, rfl⟩
    · intro first rest hsplit
      obtain ⟨rfl, -⟩ := List.append_eq_nil_iff.mp hsplit.symm
      exact hclosed
    · rw [reached_concat]
      exact hdischarges
    · rw [reached_concat]
      exact horigin
  · have hpromotes := hfresh haccepts
    simp only [ClosesFreshly, hcommand] at hpromotes
    exact absurd (hpromotes value haxis hvalue) hopen

/-- In a run whose steps close freshly, every closed claim has been closed since the
acceptance of a witness. -/
theorem closedSince_of_fresh
    (hcond : StepsSatisfy (step P policy) (OnAccepted P policy ClosesFreshly) Db.empty ops)
    {id : Id} (hclosed : (reached P policy ops).records.ClosedId id) :
    ClosedSince P policy ops id := by
  induction ops using List.reverseRecOn with
  | nil =>
    obtain ⟨claim, hclaim, -⟩ := hclosed
    cases hclaim
  | append_singleton ops op ih =>
    have hunique := uniqueClaims_reached P policy ops
    have hscoped : (reached P policy ops).records.ObligationsScoped :=
      reached_invariant Records.ObligationsScoped ⟨List.nodup_nil, List.forall_mem_nil _⟩
        (fun db op h => obligationsScoped_step op h) ops
    by_cases hold : (reached P policy ops).records.ClosedId id
    · exact (ih hcond.left hold).concat op hscoped hclosed
    · exact closedSince_of_step op hunique hscoped hcond.last hclosed hold

/-- A claim that was reopened and is closed again has an accepted witness in between. -/
theorem ClosedSince.performs {id : Id} (h : ClosedSince P policy ops id) {first rest : List Op}
    (hsplit : ops = first ++ rest) (hreopened : (reached P policy first).records.ReopenedId id) :
    ∃ witnessId, Performs (step P policy) (reached P policy first) rest
      (AcceptsWitness P policy id witnessId) := by
  obtain ⟨before, op, after, witness, rfl, haccepts, hsince, -, -⟩ := h
  refine ⟨witness.witnessId, ?_⟩
  rcases List.append_eq_append_iff.mp hsplit with ⟨middle, rfl, hafter⟩ | ⟨middle, rfl, rfl⟩
  · cases middle with
    | nil =>
      rw [List.nil_append] at hafter
      refine ⟨[], op, after, hafter.symm, ?_⟩
      rw [List.append_nil]
      exact haccepts
    | cons head middle =>
      obtain ⟨rfl, rfl⟩ := List.cons.inj hafter
      obtain ⟨claim, hclaim, hid, hclosed⟩ := hsince middle rest rfl
      obtain ⟨other, hother, hotherId, hopen⟩ := hreopened
      have hunique := uniqueClaims_reached P policy (before ++ op :: middle)
      rw [hunique.eq hclaim hother (hid.trans hotherId.symm)] at hclosed
      rcases hopen with hopen | hopen
      · rw [hopen] at hclosed
        cases hclosed
      · rw [hopen] at hclosed
        cases hclosed
  · refine ⟨middle, op, after, rfl, ?_⟩
    unfold reached at haccepts ⊢
    rw [runFrom_append] at haccepts
    exact haccepts

end Runs

/-- No closure is stale in a run whose steps close freshly: a closed claim that was reopened
has had a witness accepted since, and an accepted witness, newer than every obligation of
the claim, discharges all of them that are not withdrawn. -/
theorem closure_fresh_of_closes_freshly (P : Platform) (policy : Policy) (ops : List Op)
    (hcond : StepsSatisfy (step P policy) (OnAccepted P policy ClosesFreshly) Db.empty ops) :
    ∀ claim ∈ (reached P policy ops).claims, claim.closureState.isClosed = true →
      (∀ first rest, ops = first ++ rest →
        (reached P policy first).records.ReopenedId claim.claimId →
        ∃ witnessId, Performs (step P policy) (reached P policy first) rest
          (AcceptsWitness P policy claim.claimId witnessId)) ∧
      ∃ before op after witness, ops = before ++ op :: after ∧
        AcceptsWitness P policy claim.claimId witness.witnessId (reached P policy before) op ∧
        (reached P policy ops).records.Discharges witness claim.claimId ∧
        ∀ obligation ∈ (reached P policy ops).obligations,
          obligation.parentClaimId = claim.claimId →
          ∃ old ∈ (reached P policy before).obligations, old.parentClaimId = claim.claimId ∧
            old.obligationId = obligation.obligationId := by
  intro claim hclaim hclosed
  have hsince : ClosedSince P policy ops claim.claimId :=
    closedSince_of_fresh hcond ⟨claim, hclaim, rfl, hclosed⟩
  refine ⟨fun first rest hsplit hreopened => hsince.performs hsplit hreopened, ?_⟩
  obtain ⟨before, op, after, witness, hsplit, haccepts, -, hdischarges, horigin⟩ := hsince
  exact ⟨before, op, after, witness, hsplit, haccepts, hdischarges, horigin⟩

/-- In the sample run the lemma is closed by a witness that discharges its obligations. -/
theorem closure_fresh_of_closed :
    ∃ claim ∈ (reached Sample.platform Sample.policy Sample.closed).claims,
      claim.closureState.isClosed = true ∧ ∃ witness,
        (reached Sample.platform Sample.policy Sample.closed).records.Discharges witness
          claim.claimId := by
  have hfirst : StepsSatisfy (step Sample.platform Sample.policy)
      (OnAccepted Sample.platform Sample.policy ClosesFreshly) Db.empty Sample.plainReviewed := by
    refine StepsSatisfy.of_forall ?_
    simp [Sample.plainReviewed, Sample.frozen, Sample.create, OnAccepted, ClosesFreshly,
      Sample.request, Sample.registerRoot, Sample.freeze, Sample.registerLemma]
  have hnone := Sample.outcomes.no_obligation
  obtain ⟨claim, hclaim, hstate⟩ := Sample.outcomes.lemma_closed
  have hcond : StepsSatisfy (step Sample.platform Sample.policy)
      (OnAccepted Sample.platform Sample.policy ClosesFreshly) Db.empty Sample.closed := by
    refine hfirst.concat ?_
    intro _ obligation hobligation
    have hmem : obligation ∈ (reached Sample.platform Sample.policy
        Sample.plainReviewed).obligations := hobligation
    rw [hnone] at hmem
    cases hmem
  obtain ⟨-, -, -, -, witness, -, -, hdischarges, -⟩ := closure_fresh_of_closes_freshly
    Sample.platform Sample.policy Sample.closed hcond claim hclaim hstate
  exact ⟨claim, hclaim, hstate, witness, hdischarges⟩

theorem not_discharged_of_empty {db : Db}
    (hclaim : ∃ claim ∈ db.claims, claim.closureState.isClosed = true ∧
      ∃ obligation ∈ db.obligations, obligation.parentClaimId = claim.claimId ∧
        obligation.status ≠ .invalidated)
    (hempty : ∀ witness ∈ db.closureWitnesses, witness.dischargedObligations = []) :
    ¬ ∀ claim ∈ db.claims, claim.closureState.isClosed = true →
      ∃ witness, db.records.Discharges witness claim.claimId := by
  obtain ⟨claim, hclaim, hclosed, obligation, hobligation, hparent, hstatus⟩ := hclaim
  intro h
  obtain ⟨witness, hdischarges⟩ := h claim hclaim hclosed
  have hmem := hdischarges.discharged obligation hobligation hparent hstatus
  rw [hempty witness hdischarges.mem] at hmem
  cases hmem

/-- A promotion closes the lemma again although no witness discharges its new obligation. -/
theorem reclosed_by_old_witness :
    ¬ ∀ claim ∈ (reached Sample.platform Sample.policy Sample.reclosed).claims,
      claim.closureState.isClosed = true → ∃ witness,
        (reached Sample.platform Sample.policy Sample.reclosed).records.Discharges witness
          claim.claimId :=
  not_discharged_of_empty Sample.outcomes.lemma_reclosed Sample.outcomes.undischarged

end ResearchKernel
