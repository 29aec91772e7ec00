import ResearchKernel.ClaimGraph.Closure
import ResearchKernel.Finalization.Root

/-!
# The invalidation after a failure

A failure that names an obligation withdraws the closure of the parent of the obligation,
and stops there: what active logical edges lead to from the parent keeps its closure. A
failure that names no obligation withdraws the closures of all the claims of the current
contract version. This file says exactly when the claims downstream of the failure are
nevertheless the ones that are withdrawn.
-/

namespace ResearchKernel

open Foundation Relation

/-- Active logical edges lead from a claim to another. -/
def Db.Downstream (db : Db) (id other : Id) : Prop :=
  ReflTransGen (Arc db.records.logicalArcs) id other

/-- A claim whose closure is withdrawn. -/
def Claim.unclosed (claim : Claim) : Claim := { claim with closureState := .invalidated }

variable {claim : Claim}

/-- The closure of a claim is withdrawn already exactly when withdrawing it does nothing. -/
theorem Claim.unclosed_eq_self :
    claim.unclosed = claim ↔ claim.closureState = .invalidated := by
  constructor
  · intro h
    exact (congrArg Claim.closureState h).symm
  · intro h
    unfold Claim.unclosed
    rw [← h]

def Command.NamesFailed (id : Id) : Command → Prop
  | .recordFailure p => p.firstFailedObligationId = some id ∧ id ≠ ""
  | .recordLeanFeedback p => p.firstFailedObligationId = some id ∧ id ≠ ""
  | _ => False

/-- The closures of a claim and of the claims downstream of it that need one are withdrawn,
and nothing else happens to claims. -/
def InvalidatesDownstream (db : Db) (parent : Id) (db' : Db) : Prop :=
  Rewrites
    (fun claim : Claim => claim.claimId = parent ∨
      db.Downstream parent claim.claimId ∧ claim.closureState ≠ .notRequired)
    Claim.unclosed db.claims db'.claims

/-- The claims strictly downstream of a claim need no closure or have lost it. -/
def Db.DownstreamFallen (db : Db) (parent : Id) : Prop :=
  ∀ claim ∈ db.claims, claim.claimId ≠ parent → db.Downstream parent claim.claimId →
    claim.closureState = .notRequired ∨ claim.closureState = .invalidated

/-- The claim is outside the dependency closure of the named claim, if one is named. -/
def Db.Outside (db : Db) (named : Option Id) (claim : Claim) : Prop :=
  ∀ id, named = some id → ¬ db.Downstream id claim.claimId

/-- The claims outside the dependency closure of the named claim keep their closure. -/
def KeepsOutside (db : Db) (named : Option Id) (db' : Db) : Prop :=
  ∀ claim ∈ db.claims, db.Outside named claim → ∀ claim' ∈ db'.claims,
    claim'.claimId = claim.claimId → claim'.closureState = claim.closureState

/-- The claims of a run's current version outside the dependency closure of the named claim
need no closure or have lost it. -/
def Db.OutsideFallen (db : Db) (run : Run) (named : Option Id) : Prop :=
  ∀ claim ∈ db.claims, claim.runId = run.runId →
    claim.contractVersion = run.currentContractVersion → db.Outside named claim →
    claim.closureState = .notRequired ∨ claim.closureState = .invalidated

/-! ## The claims after a failure -/

section Projections

variable {ctx : ProjectionContext} {db db' : Db}

theorem Projection.claims_of_named {id : Id} (hname : id ≠ "")
    (hunique : (db.obligations.map (·.obligationId)).Nodup) {obligation : Obligation}
    (hobligation : obligation ∈ db.obligations) (hid : obligation.obligationId = id)
    (h : invalidateDependencyClosure ctx db (some id) = some db') :
    db'.claims =
      updateWhere (·.claimId == obligation.parentClaimId) Claim.unclosed db.claims := by
  have htext : hasText (some id) = true := by simpa [hasText] using hname
  have hfound : db.obligations.find? (·.obligationId == id) = some obligation :=
    hid ▸ find?_of_nodup hunique hobligation
  unfold invalidateDependencyClosure at h
  simp only [htext, if_true, idText, Option.getD_some, hfound] at h
  rw [← Option.some.inj h]
  rfl

/-- Without a name, the closures of the whole version are withdrawn. -/
theorem Projection.claims_of_unnamed {name : Option Id} (hname : hasText name = false)
    (h : invalidateDependencyClosure ctx db name = some db') :
    db'.claims = updateWhere
      (fun claim => claim.runId == ctx.runId && claim.contractVersion == ctx.contractVersion &&
        claim.closureState != .notRequired) Claim.unclosed db.claims := by
  unfold invalidateDependencyClosure at h
  rw [hname] at h
  rw [← Option.some.inj h]
  rfl

end Projections

section Effects

variable {P : Platform} {policy : Policy} {db db' : Db} {op : ApplyOp}

/-- An accepted command with two mutations applies one after the other. -/
theorem Accepted.projected_pair (accepted : Accepted P policy db op db') {m m' : Mutation}
    (h : accepted.mutations = [m, m']) :
    ∃ before, Projection.applyMutation accepted.projection accepted.mid m = some before ∧
      Projection.applyMutation accepted.projection before m' = some accepted.last := by
  have hprojected := accepted.projected
  rw [h] at hprojected
  obtain ⟨before, hbefore, hprojected⟩ := Projection.apply_cons_eq_some.mp hprojected
  obtain ⟨after, hafter, hlast⟩ := Projection.apply_cons_eq_some.mp hprojected
  obtain rfl : after = accepted.last := Option.some.inj hlast
  exact ⟨before, hbefore, hafter⟩

theorem Accepted.invalidation_of_recordFailure (accepted : Accepted P policy db op db')
    {p : RecordFailure} (hcommand : op.request.command = .recordFailure p) :
    ∃ before, before.claims = db.claims ∧ before.obligations = db.obligations ∧
      Projection.invalidateDependencyClosure accepted.projection before
        p.firstFailedObligationId = some accepted.last := by
  have hhandle := accepted.handled
  rw [hcommand] at hhandle
  obtain ⟨before, hbefore, hlast⟩ :=
    accepted.projected_pair (Guard.emits_recordFailure p _ hhandle)
  have hsame : SameRecords db before :=
    accepted.mid_same.trans (Projection.sameRecords_of_isIdle rfl hbefore)
  exact ⟨before, hsame.claims, hsame.obligations, hlast⟩

/-- So does accepted feedback that names an obligation. -/
theorem Accepted.invalidation_of_recordLeanFeedback (accepted : Accepted P policy db op db')
    {p : RecordLeanFeedback} (hcommand : op.request.command = .recordLeanFeedback p)
    (hname : hasText p.firstFailedObligationId = true) :
    ∃ before, before.claims = db.claims ∧ before.obligations = db.obligations ∧
      Projection.invalidateDependencyClosure accepted.projection before
        p.firstFailedObligationId = some accepted.last := by
  have hhandle := accepted.handled
  rw [hcommand] at hhandle
  obtain ⟨before, hbefore, hlast⟩ :=
    accepted.projected_pair (Guard.emits_recordLeanFeedback p _ hhandle)
  have hframe := Projection.records_of_apply hbefore
  have hmid : accepted.mid.records = db.records := accepted.mid_same
  refine ⟨before, ?_, ?_, ?_⟩
  · exact (congrArg Records.claims hframe).trans (congrArg Records.claims hmid)
  · exact (congrArg Records.obligations hframe).trans (congrArg Records.obligations hmid)
  · change Projection.invalidateFromFirstFailure _ _ _ = _ at hlast
    unfold Projection.invalidateFromFirstFailure at hlast
    rwa [if_pos hname] at hlast

variable {obligation : Obligation}

/-- A failure at an obligation withdraws the closure of its parent alone. -/
theorem Accepted.claims_of_namesFailed (accepted : Accepted P policy db op db')
    (hscoped : db.records.ObligationsScoped) {id : Id} (hnames : op.request.command.NamesFailed id)
    (hobligation : obligation ∈ db.obligations) (hid : obligation.obligationId = id) :
    db'.claims =
      updateWhere (·.claimId == obligation.parentClaimId) Claim.unclosed db.claims := by
  have hclaims : db'.claims = accepted.last.claims := accepted.last_same.claims
  have hwithdrawn : ∀ before : Db, before.claims = db.claims →
      before.obligations = db.obligations → id ≠ "" →
      Projection.invalidateDependencyClosure accepted.projection before (some id) =
        some accepted.last →
      db'.claims =
        updateWhere (·.claimId == obligation.parentClaimId) Claim.unclosed db.claims := by
    intro before hbefore hobligations hname h
    rw [hclaims, ← hbefore]
    refine Projection.claims_of_named hname ?_ (hobligations ▸ hobligation) hid h
    rw [hobligations]
    exact hscoped.unique
  unfold Command.NamesFailed at hnames
  split at hnames
  · rename_i p hcommand
    obtain ⟨before, hbefore, hobligations, h⟩ := accepted.invalidation_of_recordFailure hcommand
    rw [hnames.1] at h
    exact hwithdrawn before hbefore hobligations hnames.2 h
  · rename_i p hcommand
    have hname : hasText p.firstFailedObligationId = true := by
      simpa [hasText, hnames.1] using hnames.2
    obtain ⟨before, hbefore, hobligations, h⟩ :=
      accepted.invalidation_of_recordLeanFeedback hcommand hname
    rw [hnames.1] at h
    exact hwithdrawn before hbefore hobligations hnames.2 h
  · exact hnames.elim

/-! ## Where the invalidation is exact -/

/-- A failure at an obligation of a claim is exact when nothing downstream is closed. -/
theorem Accepted.invalidatesDownstream_iff (accepted : Accepted P policy db op db')
    (hscoped : db.records.ObligationsScoped) {id : Id} (hnames : op.request.command.NamesFailed id)
    (hobligation : obligation ∈ db.obligations) (hid : obligation.obligationId = id) :
    InvalidatesDownstream db obligation.parentClaimId db' ↔
      db.DownstreamFallen obligation.parentClaimId := by
  unfold InvalidatesDownstream
  rw [accepted.claims_of_namesFailed hscoped hnames hobligation hid, rewrites_updateWhere_iff]
  refine forall₂_congr fun claim _ => ?_
  rw [Claim.unclosed_eq_self, beq_iff_eq]
  by_cases hparent : claim.claimId = obligation.parentClaimId
  · simp [hparent]
  · by_cases hneeded : claim.closureState = .notRequired
    · simp [hparent, hneeded]
    · simp [hparent, hneeded, or_iff_not_imp_left]

/-- A failure that names no obligation keeps what it is not about exactly when the other
claims of the version need no closure or have lost it. -/
theorem Accepted.keepsOutside_iff (accepted : Accepted P policy db op db')
    (huniqueClaims : db.records.UniqueClaims) {p : RecordFailure}
    (hcommand : op.request.command = .recordFailure p)
    (hname : hasText p.firstFailedObligationId = false) {run : Run}
    (hrun : run.runId = op.request.runId)
    (hversion : run.currentContractVersion = accepted.snapshot.currentContractVersion) :
    KeepsOutside db p.claimId db' ↔ db.OutsideFallen run p.claimId := by
  obtain ⟨before, hbefore, -, h⟩ := accepted.invalidation_of_recordFailure hcommand
  have hclaims : db'.claims = _ :=
    accepted.last_same.claims.trans (Projection.claims_of_unnamed hname h)
  rw [hbefore] at hclaims
  unfold KeepsOutside
  rw [hclaims]
  constructor
  · intro hkeeps claim hclaim hclaimRun hclaimVersion houtside
    by_contra hopen
    rw [not_or] at hopen
    have hkept := hkeeps claim hclaim houtside claim.unclosed (mem_updateWhere.mpr
      ⟨claim, hclaim, if_pos (by
        simp [hclaimRun, hclaimVersion, hrun, hversion, hopen.1, Accepted.projection,
          ApplyOp.projectionContext])⟩) rfl
    exact hopen.2 hkept.symm
  · intro hfallen claim hclaim houtside claim' hclaim' hid
    obtain ⟨old, hold, rfl⟩ := mem_updateWhere.mp hclaim'
    have hsame : old = claim := by
      refine huniqueClaims.eq hold hclaim (Eq.trans ?_ hid)
      split <;> rfl
    subst hsame
    split
    · rename_i htest
      simp only [Bool.and_eq_true, beq_iff_eq, bne_iff_ne] at htest
      rcases hfallen old hold (htest.1.1.trans hrun.symm) (htest.1.2.trans hversion.symm) houtside
        with hnot | hfell
      · exact absurd hnot htest.2
      · exact hfell.symm
    · rfl

end Effects

/-- A failure at an obligation withdraws exactly what is downstream of the parent exactly
when nothing strictly downstream has a closure to lose, and a failure without an obligation
spares the claims it is not about exactly when those of the version have none to lose. -/
theorem failure_invalidates_downstream_iff (P : Platform) (policy : Policy) (ops : List Op)
    (op : ApplyOp) (haccepts : op.Accepts P policy (reached P policy ops)) :
    (∀ id, op.request.command.NamesFailed id →
      ∀ obligation ∈ (reached P policy ops).obligations, obligation.obligationId = id →
      (InvalidatesDownstream (reached P policy ops) obligation.parentClaimId
          (op.apply P policy (reached P policy ops)) ↔
        (reached P policy ops).DownstreamFallen obligation.parentClaimId)) ∧
    (∀ p, op.request.command = .recordFailure p → hasText p.firstFailedObligationId = false →
      ∀ run, (reached P policy ops).run? op.request.runId = some run →
      (KeepsOutside (reached P policy ops) p.claimId (op.apply P policy (reached P policy ops)) ↔
        (reached P policy ops).OutsideFallen run p.claimId)) := by
  obtain ⟨accepted⟩ := accepted_of_accepts haccepts
  constructor
  · intro id hnames obligation hobligation hid
    exact accepted.invalidatesDownstream_iff
      (obligationsScoped_reached P policy ops) hnames hobligation hid
  · intro p hcommand hname run hrun
    have hroot := rootInvariant_reached P policy ops
    obtain ⟨run', hrun', hid, hversion, -⟩ := accepted.exists_run hroot.uniqueRuns
    obtain rfl : run' = run := Option.some.inj (hrun'.symm.trans hrun)
    exact accepted.keepsOutside_iff hroot.uniqueClaims hcommand hname hid hversion

/-- A claim that is open after a failure but downstream of the parent is not withdrawn. -/
theorem not_invalidatesDownstream {db db' : Db} {parent : Id} (hclaim : claim ∈ db'.claims)
    (hopen : claim.closureState = .isOpen) (hother : claim.claimId ≠ parent)
    (hedge : ∃ edge ∈ db.claimEdges, edge.status = .active ∧ edge.edgeKind.isLogical = true ∧
      (parent, claim.claimId) ∈ edge.arcs) : ¬ InvalidatesDownstream db parent db' := by
  intro h
  obtain ⟨old, -, ⟨-, rfl⟩ | ⟨hkept, rfl⟩⟩ := h.exists_row hclaim
  · cases hopen
  · refine hkept (Or.inr ⟨ReflTransGen.single (arc_logicalArcs.mpr hedge), ?_⟩)
    rw [hopen]
    decide

/-- Where no edge leads away from a claim, every other claim is outside its closure. -/
theorem outside_of_last {db : Db} {id : Id}
    (hlast : ∀ edge ∈ db.claimEdges, ∀ arc ∈ edge.arcs, arc.1 ≠ id) (hother : claim.claimId ≠ id) :
    db.Outside (some id) claim := by
  rintro start hstart hpath
  obtain rfl := Option.some.inj hstart
  rcases ReflTransGen.cases_head hpath with hsame | ⟨next, harc, -⟩
  · exact hother hsame.symm
  · obtain ⟨edge, hedge, -, -, harcs⟩ := arc_logicalArcs.mp harc
    exact hlast edge hedge _ harcs rfl

/-- A claim outside the closure of the named claim that changes is not kept. -/
theorem not_keepsOutside {db db' : Db} {id : Id}
    (hlast : ∀ edge ∈ db.claimEdges, ∀ arc ∈ edge.arcs, arc.1 ≠ id)
    (h : ∃ claim ∈ db.claims, claim.claimId ≠ id ∧ ∃ claim' ∈ db'.claims,
      claim'.claimId = claim.claimId ∧ claim'.closureState ≠ claim.closureState) :
    ¬ KeepsOutside db (some id) db' := by
  obtain ⟨claim, hclaim, hother, claim', hclaim', hid, hchanged⟩ := h
  intro hkeeps
  exact hchanged (hkeeps claim hclaim (outside_of_last hlast hother) claim' hclaim' hid)

/-- In the sample where the root has no obligation, the failure at the obligation of the
lemma withdraws exactly what is downstream. -/
theorem failure_exact_of_fallen :
    ∃ row ∈ (reached Sample.platform Sample.policy (Sample.pending false)).obligations,
      row.obligationId = Sample.obligation ∧
      InvalidatesDownstream (reached Sample.platform Sample.policy (Sample.pending false))
        row.parentClaimId ((Sample.failure false none (some Sample.obligation)).apply
          Sample.platform Sample.policy
          (reached Sample.platform Sample.policy (Sample.pending false))) := by
  obtain ⟨row, hrow, hid, hothers⟩ := Sample.outcomes.graph.only_lemma_open
  refine ⟨row, hrow, hid, ?_⟩
  refine ((failure_invalidates_downstream_iff Sample.platform Sample.policy
    (Sample.pending false) (Sample.failure false none (some Sample.obligation))
    Sample.outcomes.graph.fallen_accepted).1 Sample.obligation ⟨rfl, by decide⟩ row hrow hid).mpr ?_
  intro claim hclaim hother _
  exact (hothers claim hclaim).resolve_left hother

/-- In the sample where the root has one, the root stays open after the failure at the
obligation of the lemma; and a failure at the root withdraws the closure of the lemma. -/
theorem failure_stops_and_spreads :
    (Sample.failure true none (some Sample.obligation)).Accepts Sample.platform Sample.policy
        (reached Sample.platform Sample.policy (Sample.pending true)) ∧
      (∃ row ∈ (reached Sample.platform Sample.policy (Sample.pending true)).obligations,
        row.obligationId = Sample.obligation ∧
        ¬ InvalidatesDownstream (reached Sample.platform Sample.policy (Sample.pending true))
          row.parentClaimId ((Sample.failure true none (some Sample.obligation)).apply
            Sample.platform Sample.policy
            (reached Sample.platform Sample.policy (Sample.pending true)))) ∧
      (Sample.failure true (some Sample.root) none).Accepts Sample.platform Sample.policy
        (reached Sample.platform Sample.policy (Sample.pending true)) ∧
      ¬ KeepsOutside (reached Sample.platform Sample.policy (Sample.pending true))
        (some Sample.root) ((Sample.failure true (some Sample.root) none).apply
          Sample.platform Sample.policy
          (reached Sample.platform Sample.policy (Sample.pending true))) := by
  refine ⟨Sample.outcomes.graph.failure_accepted, ?_, Sample.outcomes.graph.unnamed_accepted,
    not_keepsOutside Sample.outcomes.graph.root_last Sample.outcomes.graph.unnamed_spreads⟩
  obtain ⟨row, hrow, hid, claim, hclaim, hopen, hother, hedge⟩ := Sample.outcomes.graph.failure_stops
  exact ⟨row, hrow, hid, not_invalidatesDownstream hclaim hopen hother hedge⟩

end ResearchKernel
