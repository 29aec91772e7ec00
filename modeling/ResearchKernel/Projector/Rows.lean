import ResearchKernel.Projector.Claims

/-!
# What becomes of the rows

Feedback, verifications and reviews are never changed by a mutation, except that a new
contract version may carry them over. Evidence and witnesses may also be withdrawn.
-/

namespace ResearchKernel

open Foundation

/-- The same feedback, up to the contract version that carries it. -/
def LeanFeedback.Same (a b : LeanFeedback) : Prop :=
  b = { a with contractVersion := b.contractVersion }

theorem LeanFeedback.Same.refl (feedback : LeanFeedback) : feedback.Same feedback := rfl

theorem LeanFeedback.Same.trans {a b c : LeanFeedback} (h : a.Same b) (h' : b.Same c) :
    a.Same c := by
  unfold LeanFeedback.Same at *
  rw [h', h]

/-- The same verification, up to the contract version that carries it. -/
def AtomicVerification.Same (a b : AtomicVerification) : Prop :=
  b = { a with contractVersion := b.contractVersion }

theorem AtomicVerification.Same.refl (verification : AtomicVerification) :
    verification.Same verification := rfl

theorem AtomicVerification.Same.trans {a b c : AtomicVerification} (h : a.Same b) (h' : b.Same c) :
    a.Same c := by
  unfold AtomicVerification.Same at *
  rw [h', h]

/-- The same review, up to the contract version that carries it. -/
def PeerReview.Same (a b : PeerReview) : Prop :=
  b = { a with contractVersion := b.contractVersion }

theorem PeerReview.Same.refl (review : PeerReview) : review.Same review := rfl

/-- The same evidence, up to the contract version that carries it and to its withdrawal. -/
def Evidence.Evolves (a b : Evidence) : Prop :=
  b = { a with contractVersion := b.contractVersion, ingestStatus := b.ingestStatus } ∧
    (b.ingestStatus = a.ingestStatus ∨ b.ingestStatus = .invalidated)

theorem Evidence.Evolves.refl (item : Evidence) : item.Evolves item := ⟨rfl, Or.inl rfl⟩

theorem Evidence.Evolves.trans {a b c : Evidence} (h : a.Evolves b) (h' : b.Evolves c) :
    a.Evolves c := by
  obtain ⟨hb, hstatus⟩ := h
  obtain ⟨hc, hstatus'⟩ := h'
  refine ⟨?_, ?_⟩
  · rw [hc, hb]
  · rcases hstatus' with heq | hinvalid
    · rw [heq]
      exact hstatus
    · exact Or.inr hinvalid

/-- The same contract version, up to its status and its proposed defect. -/
structure ContractVersion.Same (a b : ContractVersion) : Prop where
  runId : b.runId = a.runId
  version : b.version = a.version
  statementHash : b.statementHash = a.statementHash

theorem ContractVersion.Same.refl (contract : ContractVersion) : contract.Same contract :=
  ⟨rfl, rfl, rfl⟩

theorem ContractVersion.Same.trans {a b c : ContractVersion} (h : a.Same b) (h' : b.Same c) :
    a.Same c :=
  ⟨h'.runId.trans h.runId, h'.version.trans h.version, h'.statementHash.trans h.statementHash⟩

/-- What identifies a contract version. -/
def ContractVersion.key (contract : ContractVersion) : Id × ℕ := (contract.runId, contract.version)

theorem ContractVersion.Same.key {a b : ContractVersion} (h : a.Same b) : b.key = a.key :=
  Prod.ext h.runId h.version

/-- The same edge, up to the contract version that carries it and to its withdrawal. -/
def ClaimEdge.Evolves (a b : ClaimEdge) : Prop :=
  b = { a with contractVersion := b.contractVersion, status := b.status } ∧
    (b.status = a.status ∨ b.status = .invalidated)

theorem ClaimEdge.Evolves.refl (edge : ClaimEdge) : edge.Evolves edge := ⟨rfl, Or.inl rfl⟩

theorem ClaimEdge.Evolves.trans {a b c : ClaimEdge} (h : a.Evolves b) (h' : b.Evolves c) :
    a.Evolves c := by
  obtain ⟨hb, hstatus⟩ := h
  obtain ⟨hc, hstatus'⟩ := h'
  refine ⟨?_, ?_⟩
  · rw [hc, hb]
  · rcases hstatus' with heq | hinvalid
    · rw [heq]
      exact hstatus
    · exact Or.inr hinvalid

/-- The same obligation, up to its status. -/
def Obligation.Same (a b : Obligation) : Prop := b = { a with status := b.status }

namespace Projection

variable {ctx : ProjectionContext} {db db' : Db} {m : Mutation}

/-- No mutation loses feedback. -/
theorem kept_leanFeedback (h : applyMutation ctx db m = some db') :
    Kept LeanFeedback.Same db.leanFeedback db'.leanFeedback := by
  have hframe := congrArg Records.leanFeedback (records_of_apply h)
  have hsame : db'.leanFeedback = db.leanFeedback →
      Kept LeanFeedback.Same db.leanFeedback db'.leanFeedback := by
    intro heq
    rw [heq]
    exact Kept.refl LeanFeedback.Same.refl _
  cases m with
  | appendLeanFeedback p =>
    obtain ⟨-, -, h⟩ := Option.bind_eq_some_iff.mp h
    obtain ⟨receipt, -, h⟩ := Option.bind_eq_some_iff.mp h
    obtain ⟨payload, -, h⟩ := Option.bind_eq_some_iff.mp h
    obtain ⟨nonce, -, h⟩ := Option.bind_eq_some_iff.mp h
    obtain ⟨feedback, hfeedback, h⟩ := Option.bind_eq_some_iff.mp h
    obtain ⟨-, rfl⟩ := insertRow_eq_some.mp hfeedback
    obtain rfl := Option.some.inj h
    exact Kept.append LeanFeedback.Same.refl _ _
  | migrateContractClosure version affected =>
    obtain ⟨-, -, h⟩ := Option.bind_eq_some_iff.mp h
    obtain rfl := Option.some.inj h
    exact Kept.updateWhere LeanFeedback.Same.refl (fun _ _ => by exact rfl) _
  | _ => exact hsame hframe

/-- No mutation loses a verification. -/
theorem kept_atomicVerifications (h : applyMutation ctx db m = some db') :
    Kept AtomicVerification.Same db.atomicVerifications db'.atomicVerifications := by
  have hframe := congrArg Records.atomicVerifications (records_of_apply h)
  have hsame : db'.atomicVerifications = db.atomicVerifications →
      Kept AtomicVerification.Same db.atomicVerifications db'.atomicVerifications := by
    intro heq
    rw [heq]
    exact Kept.refl AtomicVerification.Same.refl _
  cases m with
  | recordAtomicVerification p update =>
    obtain ⟨verifications, hverifications, h⟩ := Option.bind_eq_some_iff.mp h
    obtain ⟨-, rfl⟩ := insertRow_eq_some.mp hverifications
    obtain rfl := Option.some.inj h
    exact Kept.append AtomicVerification.Same.refl _ _
  | migrateContractClosure version affected =>
    obtain ⟨-, -, h⟩ := Option.bind_eq_some_iff.mp h
    obtain rfl := Option.some.inj h
    exact Kept.updateWhere AtomicVerification.Same.refl (fun _ _ => by exact rfl) _
  | _ => exact hsame hframe

/-- The row of a recorded review. -/
def IsNewReview (ctx : ProjectionContext) (m : Mutation) (review : PeerReview) : Prop :=
  ∃ p profile, m = .appendPeerReview p profile ∧ review.runId = ctx.runId ∧
    review.claimId = p.claimId ∧ review.statementHash = p.statementHash ∧
    review.verdict = p.verdict ∧ review.independenceProfile = profile

/-- No mutation loses a review, and only the record of a review adds one. -/
theorem reviews_of_apply (h : applyMutation ctx db m = some db') :
    Kept PeerReview.Same db.peerReviews db'.peerReviews ∧
      Stems PeerReview.Same (IsNewReview ctx m) db.peerReviews db'.peerReviews := by
  have hframe := congrArg Records.peerReviews (records_of_apply h)
  have hsame : db'.peerReviews = db.peerReviews →
      Kept PeerReview.Same db.peerReviews db'.peerReviews ∧
        Stems PeerReview.Same (IsNewReview ctx m) db.peerReviews db'.peerReviews := by
    intro heq
    rw [heq]
    exact ⟨Kept.refl PeerReview.Same.refl _, Stems.refl PeerReview.Same.refl _⟩
  cases m with
  | appendPeerReview p profile =>
    obtain ⟨reviews, hreviews, h⟩ := Option.bind_eq_some_iff.mp h
    obtain ⟨-, rfl⟩ := insertRow_eq_some.mp hreviews
    obtain rfl := Option.some.inj h
    refine ⟨Kept.append PeerReview.Same.refl _ _, Stems.append PeerReview.Same.refl ?_ _⟩
    intro review hreview
    rw [List.mem_singleton] at hreview
    subst hreview
    exact ⟨p, profile, rfl, rfl, rfl, rfl, rfl, rfl⟩
  | migrateContractClosure version affected =>
    obtain ⟨-, -, h⟩ := Option.bind_eq_some_iff.mp h
    obtain rfl := Option.some.inj h
    exact ⟨Kept.updateWhere PeerReview.Same.refl (fun _ _ => by exact rfl) _,
      Stems.updateWhere PeerReview.Same.refl (fun _ _ => by exact rfl) _⟩
  | _ => exact hsame hframe

/-- The row that a recorded review adds. -/
theorem exists_newReview {p : RecordPeerReview} {profile : JsonObject}
    (h : applyMutation ctx db (.appendPeerReview p profile) = some db') :
    ∃ review ∈ db'.peerReviews, review.claimId = p.claimId ∧
      review.statementHash = p.statementHash ∧ review.verdict = p.verdict ∧
      review.independenceProfile = profile := by
  obtain ⟨reviews, hreviews, h⟩ := Option.bind_eq_some_iff.mp h
  obtain ⟨-, rfl⟩ := insertRow_eq_some.mp hreviews
  obtain rfl := Option.some.inj h
  exact ⟨_, List.mem_append_right _ (List.mem_singleton.mpr rfl), rfl, rfl, rfl, rfl⟩

/-! ## Edges -/

def newEdges (ctx : ProjectionContext) : Mutation → List ClaimEdge
  | .registerClaimEdge p => [newEdge ctx p]
  | _ => []

/-- The edges after a mutation: the old ones, edited in place, and then the new one. -/
def EdgesAfter (ctx : ProjectionContext) (db : Db) (m : Mutation) (db' : Db) : Prop :=
  ∃ edit : ClaimEdge → ClaimEdge, (∀ edge : ClaimEdge, edge.Evolves (edit edge)) ∧
    db'.claimEdges = db.claimEdges.map edit ++ newEdges ctx m

variable {test : ClaimEdge → Bool} {change : ClaimEdge → ClaimEdge}

theorem evolves_ite (h : ∀ edge : ClaimEdge, edge.Evolves (change edge)) (edge : ClaimEdge) :
    edge.Evolves (if test edge = true then change edge else edge) := by
  split
  · exact h edge
  · exact ClaimEdge.Evolves.refl edge

/-- A mutation that updates the edges with a change it may make. -/
theorem EdgesAfter.of_updateWhere (hnew : newEdges ctx m = [])
    (hchange : ∀ edge : ClaimEdge, edge.Evolves (change edge))
    (h : db'.claimEdges = updateWhere test change db.claimEdges) : EdgesAfter ctx db m db' := by
  refine ⟨fun edge => if test edge = true then change edge else edge, evolves_ite hchange, ?_⟩
  rw [h, hnew, List.append_nil]
  rfl

/-- A mutation that updates the edges twice. -/
theorem EdgesAfter.of_updateWhere_twice {test' : ClaimEdge → Bool} {change' : ClaimEdge → ClaimEdge}
    (hnew : newEdges ctx m = []) (hchange : ∀ edge : ClaimEdge, edge.Evolves (change edge))
    (hchange' : ∀ edge : ClaimEdge, edge.Evolves (change' edge))
    (h : db'.claimEdges = updateWhere test' change' (updateWhere test change db.claimEdges)) :
    EdgesAfter ctx db m db' := by
  refine ⟨fun edge => (fun edge => if test' edge = true then change' edge else edge)
    (if test edge = true then change edge else edge), fun edge => ?_, ?_⟩
  · exact (evolves_ite hchange edge).trans (evolves_ite hchange' _)
  · rw [h, hnew, List.append_nil]
    unfold updateWhere
    rw [List.map_map]
    rfl

/-- The edges after a mutation. -/
theorem edges_of_apply (h : applyMutation ctx db m = some db') : EdgesAfter ctx db m db' := by
  have hframe := congrArg Records.claimEdges (records_of_apply h)
  have hsame : db'.claimEdges = db.claimEdges → newEdges ctx m = [] →
      EdgesAfter ctx db m db' := by
    intro heq hnew
    exact ⟨id, ClaimEdge.Evolves.refl, by simp [heq, hnew]⟩
  have hinvalid : ∀ edge : ClaimEdge, edge.Evolves { edge with status := .invalidated } :=
    fun edge => ⟨rfl, Or.inr rfl⟩
  cases m with
  | registerClaimEdge p =>
    obtain ⟨-, -, h⟩ := Option.bind_eq_some_iff.mp h
    obtain ⟨-, -, h⟩ := Option.bind_eq_some_iff.mp h
    obtain ⟨edges, hedges, h⟩ := Option.bind_eq_some_iff.mp h
    obtain ⟨-, rfl⟩ := insertRow_eq_some.mp hedges
    obtain rfl := Option.some.inj h
    exact ⟨id, ClaimEdge.Evolves.refl, by simp [newEdges]⟩
  | revokeFactClosure id =>
    obtain rfl := Option.some.inj h
    exact EdgesAfter.of_updateWhere rfl hinvalid rfl
  | migrateContractClosure version affected =>
    obtain ⟨-, -, h⟩ := Option.bind_eq_some_iff.mp h
    obtain rfl := Option.some.inj h
    exact EdgesAfter.of_updateWhere_twice rfl hinvalid (fun edge => by exact ⟨rfl, Or.inl rfl⟩) rfl
  | _ => exact hsame hframe rfl

theorem exists_edge_of_apply (h : applyMutation ctx db m = some db') {edge' : ClaimEdge}
    (hmem : edge' ∈ db'.claimEdges) :
    (∃ edge ∈ db.claimEdges, edge.Evolves edge') ∨ edge' ∈ newEdges ctx m := by
  obtain ⟨edit, hedit, heq⟩ := edges_of_apply h
  rw [heq, List.mem_append, List.mem_map] at hmem
  rcases hmem with ⟨edge, hedge, rfl⟩ | hnew
  · exact Or.inl ⟨edge, hedge, hedit edge⟩
  · exact Or.inr hnew

theorem newEdge_fresh {p : RegisterClaimEdge}
    (h : applyMutation ctx db (.registerClaimEdge p) = some db') :
    ∀ edge ∈ db.claimEdges, edge.edgeId ≠ ctx.newId 0 := by
  obtain ⟨-, -, h⟩ := Option.bind_eq_some_iff.mp h
  obtain ⟨-, -, h⟩ := Option.bind_eq_some_iff.mp h
  obtain ⟨edges, hedges, -⟩ := Option.bind_eq_some_iff.mp h
  intro edge hedge heq
  have hclash := (insertRow_eq_some.mp hedges).1 edge hedge
  simp [ClaimEdge.clash, newEdge, heq] at hclash

/-- Mutations keep the identifiers of edges distinct. -/
theorem nodup_edgeIds_of_apply (h : applyMutation ctx db m = some db')
    (hnodup : (db.claimEdges.map (·.edgeId)).Nodup) : (db'.claimEdges.map (·.edgeId)).Nodup := by
  obtain ⟨edit, hedit, heq⟩ := edges_of_apply h
  have hids : db'.claimEdges.map (·.edgeId) =
      db.claimEdges.map (·.edgeId) ++ (newEdges ctx m).map (·.edgeId) := by
    rw [heq, List.map_append, List.map_map]
    congr 1
    apply List.map_congr_left
    intro edge _
    have hid := congrArg ClaimEdge.edgeId (hedit edge).1
    exact hid
  rw [hids]
  cases m with
  | registerClaimEdge p =>
    have hfresh := newEdge_fresh h
    refine nodup_concat_of_fresh hnodup fun id hid => ?_
    obtain ⟨edge, hedge, rfl⟩ := List.mem_map.mp hid
    exact hfresh edge hedge
  | _ => simpa [newEdges] using hnodup

/-! ## Evidence -/

/-- Whether evidence is added by a mutation: only submitted evidence is, about its claim. -/
def IsNewEvidence (m : Mutation) (item : Evidence) : Prop :=
  ∃ p, m = .appendEvidence p ∧ item.claimId = p.claimId ∧ item.statementHash = p.statementHash

theorem Evidence.evolves_withdrawn (item : Evidence) :
    item.Evolves { item with ingestStatus := .invalidated } := ⟨rfl, Or.inr rfl⟩

/-- Evidence after a mutation comes from evidence before it, or is submitted. -/
theorem evidence_of_apply (h : applyMutation ctx db m = some db') :
    Stems Evidence.Evolves (IsNewEvidence m) db.evidence db'.evidence := by
  have hframe := congrArg Records.evidence (records_of_apply h)
  have hsame : db'.evidence = db.evidence →
      Stems Evidence.Evolves (IsNewEvidence m) db.evidence db'.evidence := by
    intro heq
    rw [heq]
    exact Stems.refl Evidence.Evolves.refl _
  cases m with
  | appendEvidence p =>
    obtain ⟨-, -, h⟩ := Option.bind_eq_some_iff.mp h
    obtain ⟨roots, -, h⟩ := Option.bind_eq_some_iff.mp h
    obtain ⟨artifacts, -, h⟩ := Option.bind_eq_some_iff.mp h
    obtain ⟨evidence, hevidence, h⟩ := Option.bind_eq_some_iff.mp h
    obtain rfl := eq_append_of_insertRows hevidence
    obtain rfl := Option.some.inj h
    refine Stems.append Evidence.Evolves.refl (fun item hitem => ?_) _
    obtain ⟨artifact, -, rfl⟩ := List.mem_map.mp hitem
    exact ⟨p, rfl, rfl, rfl⟩
  | revokeFactClosure id =>
    obtain rfl := Option.some.inj h
    exact Stems.updateWhere Evidence.Evolves.refl (fun item _ => Evidence.evolves_withdrawn item) _
  | migrateContractClosure version affected =>
    obtain ⟨-, -, h⟩ := Option.bind_eq_some_iff.mp h
    obtain rfl := Option.some.inj h
    refine Stems.trans (fun _ _ _ => Evidence.Evolves.trans) (fun _ _ hnew hevolves => ?_)
      (Stems.updateWhere Evidence.Evolves.refl (fun item _ => Evidence.evolves_withdrawn item) _)
      (Stems.updateWhere Evidence.Evolves.refl (fun item _ => by exact ⟨rfl, Or.inl rfl⟩) _)
    obtain ⟨p, heq, -⟩ := hnew
    cases heq
  | _ => exact hsame hframe

/-- A revocation leaves no accepted evidence about the claims that it withdraws. -/
theorem evidence_of_revoke {id : Id}
    (h : applyMutation ctx db (.revokeFactClosure id) = some db') {item : Evidence}
    (hitem : item ∈ db'.evidence)
    (haffected : item.claimId ∈ revokedIds ctx db id) :
    item.ingestStatus ≠ .accepted := by
  obtain rfl := Option.some.inj h
  obtain ⟨old, -, rfl⟩ := mem_updateWhere.mp hitem
  split at haffected
  · rename_i htest
    rw [if_pos htest]
    exact fun h => by cases h
  · rename_i htest
    rw [if_neg htest]
    intro haccepted
    have hcontains := List.contains_iff_mem.mpr haffected
    exact htest (Bool.and_eq_true_iff.mpr ⟨beq_iff_eq.mpr haccepted, hcontains⟩)

/-! ## Obligations and witnesses -/

/-- What a mutation may make of an obligation: it keeps its status, is withdrawn, or is
discharged by a witness. -/
def ObligationChange (m : Mutation) (a b : Obligation) : Prop :=
  a.Same b ∧ (b.status = a.status ∨ b.status = .invalidated ∨
    ∃ p closure, m = .acceptClosureWitness p closure ∧
      a.obligationId ∈ p.dischargedObligationIds)

theorem ObligationChange.refl (m : Mutation) (obligation : Obligation) :
    ObligationChange m obligation obligation := ⟨rfl, Or.inl rfl⟩

def IsNewObligation (ctx : ProjectionContext) (m : Mutation) (obligation : Obligation) : Prop :=
  ∃ p, m = .registerCompositionObligation p ∧ obligation.parentClaimId = p.parentClaimId ∧
    obligation.runId = ctx.runId

/-- An obligation after a mutation comes from one before it, or is registered. -/
theorem obligations_of_apply (h : applyMutation ctx db m = some db') :
    Stems (ObligationChange m) (IsNewObligation ctx m) db.obligations db'.obligations := by
  have hframe := congrArg Records.obligations (records_of_apply h)
  have hsame : db'.obligations = db.obligations →
      Stems (ObligationChange m) (IsNewObligation ctx m) db.obligations db'.obligations := by
    intro heq
    rw [heq]
    exact Stems.refl (ObligationChange.refl m) _
  cases m with
  | registerCompositionObligation p =>
    obtain ⟨obligations, hobligations, h⟩ := Option.bind_eq_some_iff.mp h
    obtain ⟨-, rfl⟩ := insertRow_eq_some.mp hobligations
    obtain rfl := Option.some.inj h
    refine Stems.append (ObligationChange.refl _) (fun obligation hnew => ?_) _
    obtain rfl := List.mem_singleton.mp hnew
    exact ⟨p, rfl, rfl, rfl⟩
  | revokeFactClosure id =>
    obtain rfl := Option.some.inj h
    exact Stems.updateWhere (ObligationChange.refl _)
      (fun _ _ => by exact ⟨rfl, Or.inr (Or.inl rfl)⟩) _
  | migrateContractClosure version affected =>
    obtain ⟨-, -, h⟩ := Option.bind_eq_some_iff.mp h
    obtain rfl := Option.some.inj h
    exact Stems.updateWhere (ObligationChange.refl _)
      (fun _ _ => by exact ⟨rfl, Or.inr (Or.inl rfl)⟩) _
  | acceptClosureWitness p closure =>
    obtain ⟨artifactId, -, h⟩ := Option.bind_eq_some_iff.mp h
    obtain ⟨witnesses, -, h⟩ := Option.bind_eq_some_iff.mp h
    obtain rfl := Option.some.inj h
    exact Stems.updateWhere (ObligationChange.refl _) (fun obligation htest => by
      exact ⟨rfl, Or.inr (Or.inr ⟨p, closure, rfl, List.contains_iff_mem.mp htest⟩)⟩) _
  | _ => exact hsame hframe

/-- Mutations keep the identifiers of obligations distinct. -/
theorem nodup_obligationIds_of_apply (h : applyMutation ctx db m = some db')
    (hnodup : (db.obligations.map (·.obligationId)).Nodup) :
    (db'.obligations.map (·.obligationId)).Nodup := by
  have hframe := congrArg Records.obligations (records_of_apply h)
  have hsame : db'.obligations = db.obligations → (db'.obligations.map (·.obligationId)).Nodup := by
    intro heq
    rw [heq]
    exact hnodup
  cases m with
  | registerCompositionObligation p =>
    obtain ⟨obligations, hobligations, h⟩ := Option.bind_eq_some_iff.mp h
    obtain ⟨hfresh, rfl⟩ := insertRow_eq_some.mp hobligations
    obtain rfl := Option.some.inj h
    rw [List.map_append]
    refine nodup_concat_of_fresh hnodup fun id hid => ?_
    obtain ⟨old, hold, rfl⟩ := List.mem_map.mp hid
    intro heq
    have hclash := hfresh old hold
    simp [Obligation.clash, heq] at hclash
  | revokeFactClosure id =>
    obtain rfl := Option.some.inj h
    exact nodup_map_updateWhere (fun _ => by exact rfl) hnodup
  | migrateContractClosure version affected =>
    obtain ⟨-, -, h⟩ := Option.bind_eq_some_iff.mp h
    obtain rfl := Option.some.inj h
    exact nodup_map_updateWhere (fun _ => by exact rfl) hnodup
  | acceptClosureWitness p closure =>
    obtain ⟨artifactId, -, h⟩ := Option.bind_eq_some_iff.mp h
    obtain ⟨witnesses, -, h⟩ := Option.bind_eq_some_iff.mp h
    obtain rfl := Option.some.inj h
    exact nodup_map_updateWhere (fun _ => by exact rfl) hnodup
  | _ => exact hsame hframe

/-- A witness stays as it is unless its parent is withdrawn. -/
theorem witness_of_apply (h : applyMutation ctx db m = some db') {witness : ClosureWitness}
    (hmem : witness ∈ db.closureWitnesses) :
    witness ∈ db'.closureWitnesses ∨
      (∃ id, m = .revokeFactClosure id ∧ witness.parentClaimId ∈ revokedIds ctx db id) ∨
      ∃ version affected, m = .migrateContractClosure version affected ∧
        witness.parentClaimId ∈ defectClosure ctx db affected := by
  have hframe := congrArg Records.closureWitnesses (records_of_apply h)
  have hsame : db'.closureWitnesses = db.closureWitnesses → witness ∈ db'.closureWitnesses := by
    intro heq
    rw [heq]
    exact hmem
  cases m with
  | revokeFactClosure id =>
    obtain rfl := Option.some.inj h
    by_cases hparent : witness.parentClaimId ∈ revokedIds ctx db id
    · exact Or.inr (Or.inl ⟨id, rfl, hparent⟩)
    · refine Or.inl (mem_updateWhere.mpr ⟨witness, hmem, if_neg fun htest => hparent ?_⟩)
      exact List.contains_iff_mem.mp (Bool.and_eq_true_iff.mp htest).2
  | migrateContractClosure version affected =>
    obtain ⟨-, -, h⟩ := Option.bind_eq_some_iff.mp h
    obtain rfl := Option.some.inj h
    by_cases hparent : witness.parentClaimId ∈ defectClosure ctx db affected
    · exact Or.inr (Or.inr ⟨version, affected, rfl, hparent⟩)
    · refine Or.inl (mem_updateWhere.mpr ⟨witness, hmem, if_neg fun htest => hparent ?_⟩)
      exact List.contains_iff_mem.mp (Bool.and_eq_true_iff.mp htest).2
  | acceptClosureWitness p closure =>
    obtain ⟨artifactId, -, h⟩ := Option.bind_eq_some_iff.mp h
    obtain ⟨witnesses, hwitnesses, h⟩ := Option.bind_eq_some_iff.mp h
    obtain ⟨-, rfl⟩ := insertRow_eq_some.mp hwitnesses
    obtain rfl := Option.some.inj h
    exact Or.inl (List.mem_append_left _ hmem)
  | _ => exact Or.inl (hsame hframe)

/-- The row that an accepted witness adds. -/
theorem newWitness_of_apply {p : SubmitClosureWitness} {closure : ClosureState}
    (h : applyMutation ctx db (.acceptClosureWitness p closure) = some db') :
    ∃ artifactId, newWitness ctx p artifactId ∈ db'.closureWitnesses := by
  obtain ⟨artifactId, -, h⟩ := Option.bind_eq_some_iff.mp h
  obtain ⟨witnesses, hwitnesses, h⟩ := Option.bind_eq_some_iff.mp h
  obtain ⟨-, rfl⟩ := insertRow_eq_some.mp hwitnesses
  obtain rfl := Option.some.inj h
  exact ⟨artifactId, List.mem_append_right _ (List.mem_singleton.mpr rfl)⟩

/-! ## Contracts and the pointers of runs -/

/-- The contract versions after a mutation: the old ones, and at most one that is new. -/
structure ContractsAfter (contracts contracts' : List ContractVersion) : Prop where
  kept : Kept ContractVersion.Same contracts contracts'
  keys : contracts'.map ContractVersion.key = contracts.map ContractVersion.key ∨
    ∃ key ∉ contracts.map ContractVersion.key,
      contracts'.map ContractVersion.key = contracts.map ContractVersion.key ++ [key]

/-- An update that keeps what identifies a contract version and its statement. -/
theorem contractsAfter_updateWhere {test : ContractVersion → Bool}
    {change : ContractVersion → ContractVersion}
    (hchange : ∀ contract : ContractVersion, contract.Same (change contract))
    (contracts : List ContractVersion) :
    ContractsAfter contracts (updateWhere test change contracts) where
  kept := Kept.updateWhere ContractVersion.Same.refl (fun contract _ => hchange contract) _
  keys := Or.inl (map_updateWhere (fun contract => (hchange contract).key) _)

theorem contractsAfter_setContractStatus (version : ℕ) (status : ContractStatus)
    (defect : Option ProposeContractDefect) :
    Gives (fun db' => ContractsAfter db.contractVersions db'.contractVersions)
      (setContractStatus ctx db version status defect) := by
  cases defect with
  | none => exact Gives.pure (contractsAfter_updateWhere (fun _ => by exact ⟨rfl, rfl, rfl⟩) _)
  | some p =>
    refine Gives.pure ⟨?_, Or.inl ?_⟩
    · exact Kept.trans (fun _ _ _ => ContractVersion.Same.trans)
        (Kept.updateWhere ContractVersion.Same.refl (fun _ _ => by exact ⟨rfl, rfl, rfl⟩) _)
        (Kept.updateWhere ContractVersion.Same.refl (fun _ _ => by exact ⟨rfl, rfl, rfl⟩) _)
    · exact (map_updateWhere (fun _ => by exact rfl) _).trans (map_updateWhere (fun _ => by exact rfl) _)

/-- A new contract version has a key that no version had. -/
theorem contractKey_of_create {version : ℕ} {replacement : JsonObject}
    (h : applyMutation ctx db (.createContractVersion version replacement) = some db') :
    (ctx.runId, version) ∉ db.contractVersions.map ContractVersion.key ∧
      db'.contractVersions.map ContractVersion.key =
        db.contractVersions.map ContractVersion.key ++ [(ctx.runId, version)] := by
  obtain ⟨artifactId, -, h⟩ := Option.bind_eq_some_iff.mp h
  obtain ⟨text, -, h⟩ := Option.bind_eq_some_iff.mp h
  obtain ⟨contracts, hcontracts, h⟩ := Option.bind_eq_some_iff.mp h
  obtain ⟨hfresh, rfl⟩ := insertRow_eq_some.mp hcontracts
  obtain rfl := Option.some.inj h
  refine ⟨?_, List.map_append⟩
  intro hkey
  obtain ⟨old, hold, heq⟩ := List.mem_map.mp hkey
  obtain ⟨hrun, hversion⟩ := Prod.mk.inj heq
  have hclash := hfresh old hold
  simp [ContractVersion.clash, hrun, hversion] at hclash

/-- The contract versions after a mutation. -/
theorem contracts_of_apply (h : applyMutation ctx db m = some db') :
    ContractsAfter db.contractVersions db'.contractVersions := by
  have hframe := congrArg Records.contractVersions (records_of_apply h)
  have hsame : db'.contractVersions = db.contractVersions →
      ContractsAfter db.contractVersions db'.contractVersions := by
    intro heq
    rw [heq]
    exact ⟨Kept.refl ContractVersion.Same.refl _, Or.inl rfl⟩
  cases m with
  | setContractStatus version status defect =>
    exact contractsAfter_setContractStatus version status defect db' h
  | supersedeContract version =>
    obtain rfl := Option.some.inj h
    exact contractsAfter_updateWhere (fun _ => by exact ⟨rfl, rfl, rfl⟩) _
  | createContractVersion version replacement =>
    obtain ⟨hfresh, hkeys⟩ := contractKey_of_create h
    refine ⟨?_, Or.inr ⟨_, hfresh, hkeys⟩⟩
    obtain ⟨artifactId, -, h⟩ := Option.bind_eq_some_iff.mp h
    obtain ⟨text, -, h⟩ := Option.bind_eq_some_iff.mp h
    obtain ⟨contracts, hcontracts, h⟩ := Option.bind_eq_some_iff.mp h
    obtain ⟨-, rfl⟩ := insertRow_eq_some.mp hcontracts
    obtain rfl := Option.some.inj h
    exact Kept.append ContractVersion.Same.refl _ _
  | _ => exact hsame hframe

/-- What a mutation makes of the pointers of a run. -/
def movePointer (ctx : ProjectionContext) : Mutation → RunPointer → RunPointer
  | .createContractVersion version _, pointer =>
    if pointer.runId = ctx.runId then ⟨ctx.runId, version, none⟩ else pointer
  | .registerClaim p _, pointer =>
    if p.claimKind = .root ∧ pointer.runId = ctx.runId then
      { pointer with rootClaimId := some (ctx.newId 0) }
    else pointer
  | _, pointer => pointer

/-- The pointers of the runs after a mutation. -/
theorem pointers_of_apply (h : applyMutation ctx db m = some db') :
    db'.records.pointers = db.records.pointers.map (movePointer ctx m) := by
  have hframe := congrArg Records.pointers (records_of_apply h)
  have hsame : db'.records.pointers = db.records.pointers →
      db'.records.pointers = db.records.pointers.map id := by
    intro heq
    rw [heq, List.map_id]
  cases m with
  | createContractVersion version replacement =>
    obtain ⟨artifactId, -, h⟩ := Option.bind_eq_some_iff.mp h
    obtain ⟨text, -, h⟩ := Option.bind_eq_some_iff.mp h
    obtain ⟨contracts, -, h⟩ := Option.bind_eq_some_iff.mp h
    obtain rfl := Option.some.inj h
    simp only [Db.records, updateWhere, List.map_map]
    refine List.map_congr_left fun run _ => ?_
    by_cases hrun : run.runId = ctx.runId
    · simp [hrun, movePointer, Run.pointer]
    · simp [hrun, movePointer, Run.pointer]
  | registerClaim p closure =>
    obtain ⟨claims, -, h⟩ := Option.bind_eq_some_iff.mp h
    obtain rfl := Option.some.inj h
    by_cases hroot : p.claimKind = .root
    · simp only [Db.records, hroot, beq_self_eq_true, if_true, updateWhere, List.map_map]
      refine List.map_congr_left fun run _ => ?_
      by_cases hrun : run.runId = ctx.runId
      · simp [hroot, hrun, movePointer, Run.pointer]
      · simp [hroot, hrun, movePointer, Run.pointer]
    · simp [Db.records, hroot, movePointer]
  | _ => exact hsame hframe

theorem movePointer_runId (m : Mutation) (pointer : RunPointer) :
    (movePointer ctx m pointer).runId = pointer.runId := by
  cases m with
  | createContractVersion version replacement =>
    simp only [movePointer]
    split
    · exact Eq.symm ‹_›
    · rfl
  | registerClaim p closure =>
    simp only [movePointer]
    split <;> rfl
  | _ => rfl

end Projection

end ResearchKernel
