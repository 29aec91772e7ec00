import ResearchKernel.ClaimGraph.Scoping

/-!
# The revocation of a fact

A revocation withdraws the fact and everything that active logical edges lead to from it,
and nothing else. The updates do not look at the life of the claims: that every claim they
reach was active, and so changes, is the scope of the active graph.
-/

namespace ResearchKernel

open Foundation Relation

/-- The claim depends on the fact: active logical edges of the current contract version
lead from the fact to the claim. -/
def Db.DependsOn (db : Db) (run : Run) (factId id : Id) : Prop :=
  ReflTransGen (fun a b => (a, b) ∈ db.activeArcs run.runId run.currentContractVersion) factId id

/-- A claim that is withdrawn. -/
def Claim.revoked (claim : Claim) : Claim :=
  { claim with lifecycleStatus := .invalidated, closureState := .invalidated }

/-- What a revocation does: exactly the claims that depend on the fact are withdrawn, with
the records about them and the edges at them. -/
structure RevokesExactly (db : Db) (run : Run) (factId : Id) (db' : Db) : Prop where
  /-- What depends on the fact are claims of the run. -/
  dependents : ∀ id, db.DependsOn run factId id →
    ∃ claim ∈ db.claims, claim.claimId = id ∧ claim.runId = run.runId
  claims : Rewrites (fun claim : Claim => db.DependsOn run factId claim.claimId) Claim.revoked
    db.claims db'.claims
  /-- The row of every dependent claim does change. -/
  changed : ∀ claim ∈ db.claims, db.DependsOn run factId claim.claimId → claim.revoked ≠ claim
  evidence : Rewrites
    (fun row : Evidence => row.ingestStatus = .accepted ∧ db.DependsOn run factId row.claimId)
    (fun row => { row with ingestStatus := .invalidated }) db.evidence db'.evidence
  witnesses : Rewrites
    (fun row : ClosureWitness => row.status = .accepted ∧
      db.DependsOn run factId row.parentClaimId)
    (fun row => { row with status := .invalidated }) db.closureWitnesses db'.closureWitnesses
  obligations : Rewrites
    (fun row : Obligation => row.status ≠ .invalidated ∧
      db.DependsOn run factId row.parentClaimId)
    (fun row => { row with status := .invalidated }) db.obligations db'.obligations
  edges : Rewrites
    (fun edge : ClaimEdge => edge.status = .active ∧
      (db.DependsOn run factId edge.fromClaimId ∨ db.DependsOn run factId edge.toClaimId))
    (fun edge => { edge with status := .invalidated }) db.claimEdges db'.claimEdges
  /-- No active edge is left at a dependent claim. -/
  detached : ∀ edge ∈ db'.claimEdges, edge.status = .active →
    ¬ db.DependsOn run factId edge.fromClaimId ∧ ¬ db.DependsOn run factId edge.toClaimId

section Revocation

variable {P : Platform} {policy : Policy} {db db' : Db} {op : ApplyOp}

/-- A claim depends on a fact when the search from the fact reaches it. -/
theorem mem_reachableFrom_iff_dependsOn {run : Run} {factId id : Id} :
    id ∈ reachableFrom (db.activeArcs run.runId run.currentContractVersion) [factId] ↔
      db.DependsOn run factId id := by
  rw [mem_reachableFrom]
  constructor
  · rintro ⟨start, hstart, hpath⟩
    rw [List.mem_singleton.mp hstart] at hpath
    exact hpath
  · exact fun h => ⟨factId, List.mem_singleton.mpr rfl, h⟩

theorem active_of_dependsOn (hactive : db.records.ActiveScoped)
    (hunique : db.records.UniqueClaims) {run : Run} {fact : Claim} (hfact : fact ∈ db.claims)
    (hlife : fact.lifecycleStatus = .active) {claim : Claim} (hclaim : claim ∈ db.claims)
    (h : db.DependsOn run fact.claimId claim.claimId) : claim.lifecycleStatus = .active := by
  rcases ReflTransGen.cases_tail h with hsame | ⟨previous, -, harc⟩
  · rw [hunique.eq hclaim hfact hsame]
    exact hlife
  · obtain ⟨edge, hedge, harcs⟩ := List.mem_flatMap.mp harc
    obtain ⟨hmem, htest⟩ := List.mem_filter.mp hedge
    simp only [Bool.and_eq_true, beq_iff_eq] at htest
    exact (hactive.ends edge hmem htest.1.2 claim hclaim (ends_of_mem_arcs harcs).2).1

/-- The tables after an accepted revocation. -/
theorem revokesExactly_of_accepted (accepted : Accepted P policy db op db')
    (hroot : db.records.RootInvariant) (hactive : db.records.ActiveScoped) {p : RevokeFact}
    (hcommand : op.request.command = .revokeFact p) :
    ∃ run, db.run? op.request.runId = some run ∧ RevokesExactly db run p.factId db' := by
  have hhandle := accepted.handled
  rw [hcommand] at hhandle
  have hsingle := Guard.emits_revokeFact p _ hhandle
  obtain ⟨fact, hcurrent⟩ := Guard.current_of_revokeFact hhandle
  obtain ⟨hfact, hfactRun, hfactId, -, hlife⟩ := accepted.claim_of_current hcurrent
  obtain ⟨before, after, happlies, hsame, hend⟩ := accepted.applies_of_single hsingle
  obtain ⟨run, hrun, heq⟩ := revokedIds_eq accepted hroot.uniqueRuns hsame p.factId
  have hdepends : ∀ id,
      (Projection.revokedIds accepted.projection before p.factId).contains id = true ↔
        db.DependsOn run p.factId id := by
    intro id
    rw [heq, List.contains_iff_mem]
    exact mem_reachableFrom_iff_dependsOn
  have happlied := happlies.applied
  obtain rfl := Option.some.inj happlied
  refine ⟨run, hrun, ?_⟩
  have hedges : Rewrites
      (fun edge : ClaimEdge => edge.status = .active ∧
        (db.DependsOn run p.factId edge.fromClaimId ∨ db.DependsOn run p.factId edge.toClaimId))
      (fun edge => { edge with status := .invalidated }) db.claimEdges db'.claimEdges := by
    rw [show db'.claimEdges = _ from congrArg Records.claimEdges hend,
      ← show before.claimEdges = db.claimEdges from congrArg Records.claimEdges hsame]
    refine rewrites_updateWhere fun edge _ => ?_
    rw [Bool.and_eq_true, beq_iff_eq, ← hdepends, ← hdepends, ← Bool.or_eq_true]
    rfl
  constructor
  case dependents =>
    intro id hid
    refine claim_of_reachable hroot.edges.1 (fun start hstart => ?_)
      (mem_reachableFrom_iff_dependsOn.mpr hid)
    obtain rfl := List.mem_singleton.mp hstart
    exact ⟨fact, hfact, hfactId, hfactRun.trans (run?_eq_some hrun).2.symm⟩
  case claims =>
    rw [show db'.claims = _ from congrArg Records.claims hend,
      ← show before.claims = db.claims from congrArg Records.claims hsame]
    exact rewrites_updateWhere fun claim _ => hdepends claim.claimId
  case changed =>
    intro claim hclaim hclaimDepends hkept
    rw [← hfactId] at hclaimDepends
    have hclaimActive := active_of_dependsOn hactive hroot.uniqueClaims hfact hlife hclaim
      hclaimDepends
    have hlost := congrArg Claim.lifecycleStatus hkept
    rw [hclaimActive] at hlost
    cases hlost
  case evidence =>
    rw [show db'.evidence = _ from congrArg Records.evidence hend,
      ← show before.evidence = db.evidence from congrArg Records.evidence hsame]
    refine rewrites_updateWhere fun row _ => ?_
    rw [Bool.and_eq_true, beq_iff_eq, ← hdepends]
    rfl
  case witnesses =>
    rw [show db'.closureWitnesses = _ from congrArg Records.closureWitnesses hend,
      ← show before.closureWitnesses = db.closureWitnesses from
        congrArg Records.closureWitnesses hsame]
    refine rewrites_updateWhere fun row _ => ?_
    rw [Bool.and_eq_true, beq_iff_eq, ← hdepends]
    rfl
  case obligations =>
    rw [show db'.obligations = _ from congrArg Records.obligations hend,
      ← show before.obligations = db.obligations from congrArg Records.obligations hsame]
    refine rewrites_updateWhere fun row _ => ?_
    rw [Bool.and_eq_true, bne_iff_ne, ← hdepends]
    rfl
  case edges => exact hedges
  case detached =>
    intro edge' hedge' hstatus
    obtain ⟨edge, -, ⟨-, rfl⟩ | ⟨hout, rfl⟩⟩ := hedges.exists_row hedge'
    · cases hstatus
    · exact ⟨fun hfrom => hout ⟨hstatus, Or.inl hfrom⟩, fun hto => hout ⟨hstatus, Or.inr hto⟩⟩

end Revocation

/-- An accepted revocation withdraws exactly what depends on the fact. -/
theorem revocation_exact_of_accepts (P : Platform) (policy : Policy) (ops : List Op) (op : ApplyOp)
    (p : RevokeFact) (hcommand : op.request.command = .revokeFact p)
    (haccepts : op.Accepts P policy (reached P policy ops)) :
    ∃ run, (reached P policy ops).run? op.request.runId = some run ∧
      RevokesExactly (reached P policy ops) run p.factId
        (op.apply P policy (reached P policy ops)) := by
  obtain ⟨hroot, -, hactive⟩ := activeScoped_reached P policy ops
  obtain ⟨accepted⟩ := accepted_of_accepts haccepts
  exact revokesExactly_of_accepted accepted hroot hactive hcommand

/-- In the connected run of the sample the lemma can be revoked, with exactly what depends
on it. -/
theorem revocation_exact_of_connected :
    ∃ run, (reached Sample.platform Sample.policy (Sample.connected .forward)).run? Sample.run =
        some run ∧
      RevokesExactly (reached Sample.platform Sample.policy (Sample.connected .forward)) run
        Sample.lemmaId
        ((Sample.request 4 Sample.revokeLemma []).apply Sample.platform Sample.policy
          (reached Sample.platform Sample.policy (Sample.connected .forward))) :=
  revocation_exact_of_accepts Sample.platform Sample.policy (Sample.connected .forward)
    (Sample.request 4 Sample.revokeLemma []) _ rfl Sample.outcomes.graph.lemma_revoked

end ResearchKernel
