import ResearchKernel.Composition

/-!
# What the validator of closure witnesses checks

An accepted witness has passed every stage of the validator. This file names the stages
and reads them as properties of the witness and of the registered rows.
-/

namespace ResearchKernel

open Foundation

variable {P : Platform} {snapshot : Snapshot} {payload : SubmitClosureWitness} {policy : Policy}
  {closure : ClosureState}

/-- The subgraph that a witness selects, as the validator reads it. -/
def SubmitClosureWitness.selected (payload : SubmitClosureWitness) : Selected :=
  Selected.ofSubgraph payload.selectedSubgraph

/-- The closure that a mode gives. -/
def CompositionMode.closedState : CompositionMode → ClosureState
  | .machine => .closedMachine
  | .peer => .closedHuman
  | .hybrid => .closedHybrid

/-- The rules of the mode in which a witness composes. -/
def closeByMode (P : Platform) (snapshot : Snapshot) (payload : SubmitClosureWitness)
    (policy : Policy) (parent : Claim) (statuses : List Json) : Checked ClosureState :=
  let threshold := closureThreshold policy parent
  let reviews := acceptedReviews P snapshot payload payload.selectedSubgraphDigest
  match payload.compositionMode with
  | .machine => closeByMachine P snapshot payload payload.selected statuses
  | .peer => closeByPeer P snapshot payload payload.selected statuses threshold reviews
  | .hybrid =>
    closeByHybrid P snapshot payload payload.selected payload.selectedSubgraphDigest threshold
      reviews

/-- The stages that an accepted witness has passed. -/
structure Validated (P : Platform) (snapshot : Snapshot) (payload : SubmitClosureWitness)
    (policy : Policy) (closure : ClosureState) where
  parent : Claim
  statuses : List Json
  digest : selectedSubgraphDigest P payload.selectedSubgraph = .ok payload.selectedSubgraphDigest
  parent_eq : checkParent snapshot payload payload.selected = .ok parent
  claims : checkClaims snapshot payload.contractVersion payload.selected = .ok ()
  edges : checkEdges snapshot payload payload.selected = .ok ()
  graph : checkGraph payload.parentClaimId payload.selected = .ok ()
  boundary : checkBoundary snapshot payload.contractVersion payload.selected = .ok ()
  bridges : checkBridges snapshot payload payload.selected = .ok ()
  obligationIds : checkObligationIds snapshot payload payload.selected = .ok ()
  statuses_eq : checkObligations snapshot payload.selected = .ok statuses
  closed : closeByMode P snapshot payload policy parent statuses = .ok closure

theorem checkedDigest_eq_ok {digest : Digest} (h : checkedDigest P payload = .ok digest) :
    selectedSubgraphDigest P payload.selectedSubgraph = .ok digest := by
  unfold checkedDigest at h
  split at h
  · rename_i found hfound
    obtain rfl := Except.ok.inj h
    exact hfound
  · cases h

/-- An accepted witness has passed every stage. -/
theorem validated_of_validate (h : validateClosureWitness P snapshot payload policy = .ok closure) :
    Nonempty (Validated P snapshot payload policy closure) := by
  obtain ⟨digest, hdigest, h⟩ := bind_eq_ok.mp h
  obtain ⟨⟨⟩, hdeclared, h⟩ := bind_eq_ok.mp h
  obtain ⟨parent, hparent, h⟩ := bind_eq_ok.mp h
  obtain ⟨⟨⟩, hclaims, h⟩ := bind_eq_ok.mp h
  obtain ⟨⟨⟩, hedges, h⟩ := bind_eq_ok.mp h
  obtain ⟨⟨⟩, hgraph, h⟩ := bind_eq_ok.mp h
  obtain ⟨⟨⟩, hboundary, h⟩ := bind_eq_ok.mp h
  obtain ⟨⟨⟩, hbridges, h⟩ := bind_eq_ok.mp h
  obtain ⟨⟨⟩, hobligationIds, h⟩ := bind_eq_ok.mp h
  obtain ⟨statuses, hstatuses, h⟩ := bind_eq_ok.mp h
  have hsame : payload.selectedSubgraphDigest = digest := by
    simpa using rejectIf_eq_ok.mp hdeclared
  subst hsame
  exact ⟨{
    parent := parent
    statuses := statuses
    digest := checkedDigest_eq_ok hdigest
    parent_eq := hparent
    claims := hclaims
    edges := hedges
    graph := hgraph
    boundary := hboundary
    bridges := hbridges
    obligationIds := hobligationIds
    statuses_eq := hstatuses
    closed := h }⟩

/-- The required obligations are those of the parent that are not withdrawn. -/
theorem mem_requiredObligationIds {parentId : Id} {version : ℕ}
    (hunique : ∀ a ∈ snapshot.obligations, ∀ b ∈ snapshot.obligations,
      a.obligationId = b.obligationId → a = b) {id : Id} :
    id ∈ requiredObligationIds snapshot parentId version ↔
      ∃ obligation ∈ snapshot.obligations, obligation.obligationId = id ∧
        obligation.parentClaimId = parentId ∧ obligation.contractVersion = version ∧
        obligation.status ≠ .invalidated := by
  unfold requiredObligationIds
  simp only [List.mem_map, List.mem_filter, Bool.and_eq_true, beq_iff_eq, bne_iff_ne, Prod.exists,
    exists_and_right, exists_eq_right]
  constructor
  · rintro ⟨obligation, hentry, ⟨hparent, hversion⟩, hstatus⟩
    obtain ⟨hmem, hid⟩ := mem_of_mem_records hentry
    exact ⟨obligation, hmem, hid, hparent, hversion, hstatus⟩
  · rintro ⟨obligation, hmem, rfl, hparent, hversion, hstatus⟩
    exact ⟨obligation, mem_dictOf.mpr (lookup_records hunique hmem), ⟨hparent, hversion⟩, hstatus⟩

namespace Validated

theorem parent_spec (v : Validated P snapshot payload policy closure) :
    payload.contractVersion = snapshot.currentContractVersion ∧
      payload.parentClaimId ∈ payload.selected.claimIds ∧
      snapshot.claim? payload.parentClaimId = some v.parent ∧
      v.parent.lifecycleStatus = .active ∧
      v.parent.contractVersion = payload.contractVersion := by
  obtain ⟨⟨⟩, hscope, h⟩ := bind_eq_ok.mp v.parent_eq
  obtain ⟨⟨⟩, hselected, h⟩ := bind_eq_ok.mp h
  obtain ⟨parent, hparent, h⟩ := bind_eq_ok.mp h
  obtain ⟨⟨⟩, hcurrent, h⟩ := bind_eq_ok.mp h
  have heq := pure_eq_ok.mp h
  subst heq
  simp only [rejectIf_eq_ok, Bool.or_eq_false_iff, bne_eq_false_iff_eq, Bool.not_eq_false',
    List.contains_iff_mem] at hscope hselected hcurrent
  exact ⟨hscope.1.1.1, hselected, orReject_eq_ok.mp hparent, hcurrent.1.1.1, hcurrent.1.1.2⟩

/-- An accepted witness discharges exactly the required obligations. -/
theorem discharged_iff (v : Validated P snapshot payload policy closure) (id : Id) :
    id ∈ payload.dischargedObligationIds ↔
      id ∈ requiredObligationIds snapshot payload.parentClaimId payload.contractVersion := by
  obtain ⟨⟨⟩, -, h⟩ := bind_eq_ok.mp v.obligationIds
  obtain ⟨⟨⟩, hall, h⟩ := bind_eq_ok.mp h
  simp only [rejectIf_eq_ok, Bool.or_eq_false_iff, Bool.not_eq_false', List.isEmpty_iff] at hall h
  rw [h, List.append_nil] at hall
  exact sameSet_iff.mp hall.2 id

/-- The closure that a witness gives is that of its mode. -/
theorem closure_eq (v : Validated P snapshot payload policy closure) :
    closure = payload.compositionMode.closedState := by
  have h := v.closed
  unfold closeByMode at h
  cases hmode : payload.compositionMode with
  | machine =>
    rw [hmode] at h
    obtain ⟨direct, -, h⟩ := bind_eq_ok.mp h
    obtain ⟨⟨⟩, -, h⟩ := bind_eq_ok.mp h
    obtain ⟨⟨⟩, -, h⟩ := bind_eq_ok.mp h
    exact (pure_eq_ok.mp h).symm
  | peer =>
    rw [hmode] at h
    obtain ⟨⟨⟩, -, h⟩ := bind_eq_ok.mp h
    obtain ⟨⟨⟩, -, h⟩ := bind_eq_ok.mp h
    exact (pure_eq_ok.mp h).symm
  | hybrid =>
    rw [hmode] at h
    obtain ⟨⟨⟩, -, h⟩ := bind_eq_ok.mp h
    obtain ⟨⟨⟩, -, h⟩ := bind_eq_ok.mp h
    obtain ⟨⟨⟩, -, h⟩ := bind_eq_ok.mp h
    exact (pure_eq_ok.mp h).symm

/-- A closure by reviews rests on an eligible review of the parent, except that a hybrid
one needs none where the policy asks for none. -/
theorem exists_review (v : Validated P snapshot payload policy closure)
    (hmode : payload.compositionMode = .peer ∨
      payload.compositionMode = .hybrid ∧ 1 ≤ closureThreshold policy v.parent) :
    ∃ id review, snapshot.review? id = some review ∧ review.claimId = payload.parentClaimId ∧
      review.promotionEligible = true := by
  have hsome : ∃ review, review ∈
      acceptedReviews P snapshot payload payload.selectedSubgraphDigest := by
    have h := v.closed
    unfold closeByMode at h
    rcases hmode with hpeer | ⟨hhybrid, hthreshold⟩
    · rw [hpeer] at h
      obtain ⟨⟨⟩, -, h⟩ := bind_eq_ok.mp h
      obtain ⟨⟨⟩, hreviews, -⟩ := bind_eq_ok.mp h
      simp only [rejectIf_eq_ok, Bool.or_eq_false_iff, List.isEmpty_eq_false_iff] at hreviews
      exact List.exists_mem_of_ne_nil _ hreviews.1.2
    · rw [hhybrid] at h
      obtain ⟨⟨⟩, -, h⟩ := bind_eq_ok.mp h
      obtain ⟨⟨⟩, -, h⟩ := bind_eq_ok.mp h
      obtain ⟨⟨⟩, hreviews, -⟩ := bind_eq_ok.mp h
      simp only [rejectIf_eq_ok, Bool.or_eq_false_iff, Bool.not_eq_false', reviewsSatisfy,
        Bool.and_eq_true, decide_eq_true_eq] at hreviews
      refine List.exists_mem_of_length_pos ?_
      have hlength := hreviews.2.1
      omega
  obtain ⟨review, hreview⟩ := hsome
  obtain ⟨hfound, hacceptable⟩ := List.mem_filter.mp hreview
  obtain ⟨id, -, hlookup⟩ := List.mem_filterMap.mp hfound
  simp only [reviewIsAcceptable, Bool.and_eq_true, beq_iff_eq] at hacceptable
  exact ⟨id, review, hlookup, hacceptable.1.1.1.1.2, hacceptable.1.1.1.1.1⟩

end Validated

end ResearchKernel
