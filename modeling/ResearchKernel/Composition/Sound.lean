import ResearchKernel.Composition.Registered
import ResearchKernel.FactGraph

/-!
# Structural soundness of accepted witnesses

What the checks of the validator mean for the selected graph: it has no cycle, every claim
in it leads to the parent, every edge across its border is declared, and exactly the
obligations of the parent are discharged. Two things are not checked in every mode: that
no border edge is declared by an open cut, and that the children of the discharged
obligations are selected.
-/

namespace ResearchKernel

open Foundation Relation

/-- The cuts that a witness declares. -/
def Selected.declaredCuts (selected : Selected) : List JsonObject :=
  selected.cuts.filterMap Json.mapping?

/-- An active logical edge of the current version with exactly one end selected. -/
structure IsBoundary (snapshot : Snapshot) (payload : SubmitClosureWitness) (id : Id)
    (edge : ClaimEdge) : Prop where
  registered : snapshot.edge? id = some edge
  active : edge.status = .active
  current : edge.contractVersion = snapshot.currentContractVersion
  logical : edge.edgeKind.isLogical = true
  crosses : ¬ (edge.fromClaimId ∈ payload.selected.claimIds ↔
    edge.toClaimId ∈ payload.selected.claimIds)

/-- A registered claim with the selected statement. -/
def ClaimSelected (snapshot : Snapshot) (entry : Id × JsonObject) : Prop :=
  ∃ claim, snapshot.claim? entry.1 = some claim ∧ claim.lifecycleStatus = .active ∧
    claim.contractVersion = snapshot.currentContractVersion ∧
    entry.2.get "statement_hash" = .str claim.statementHash ∧
    (entry.2.getOr "statement_revision" (.int 1)).eqv (.int claim.statementRevision) = true

/-- No open cut declares an edge across the border. -/
def NoOpenCover (snapshot : Snapshot) (payload : SubmitClosureWitness) : Prop :=
  ∀ id edge, IsBoundary snapshot payload id edge → ∀ cut ∈ payload.selected.declaredCuts,
    cutCoversEdge cut id edge = .ok true → cut.get "kind" ≠ .str "OPEN"

def ChildrenSelected (snapshot : Snapshot) (payload : SubmitClosureWitness) : Prop :=
  ∀ id ∈ payload.dischargedObligationIds, ∀ obligation, snapshot.obligation? id = some obligation →
    ∀ child ∈ obligation.childClaimIds, child ∈ payload.selected.claimIds

/-- What a closure witness should be as a graph over the registered rows. -/
structure StructurallySound (P : Platform) (snapshot : Snapshot)
    (payload : SubmitClosureWitness) : Prop where
  /-- The submitted digest is that of the canonical text. -/
  digest : ∃ text, canonicalJsonBytes P (.obj payload.selectedSubgraph) = .ok text ∧
    payload.selectedSubgraphDigest = P.sha256 ("rk.cgraph.v1\n".toList ++ text)
  /-- Every selected claim is registered, active and current with the selected statement. -/
  claims : ∀ entry ∈ payload.selected.claims, ClaimSelected snapshot entry
  /-- The selected logical arcs between selected claims have no cycle. -/
  acyclic : Acyclic (arcsWithin payload.selected.claimIds payload.selected.logicalArcs)
  /-- Every selected claim leads to the parent. -/
  leads : ∀ id ∈ payload.selected.claimIds, ReflTransGen
    (Arc (arcsWithin payload.selected.claimIds payload.selected.logicalArcs)) id
    payload.parentClaimId
  /-- Every edge across the border is declared by a cut. -/
  declared : ∀ id edge, IsBoundary snapshot payload id edge →
    ∃ cut ∈ payload.selected.declaredCuts, cutCoversEdge cut id edge = .ok true
  /-- No such edge is declared by an open cut. -/
  noOpen : NoOpenCover snapshot payload
  /-- The children of the discharged obligations are selected. -/
  children : ChildrenSelected snapshot payload
  /-- Exactly the obligations of the parent that are not withdrawn are discharged. -/
  discharged : ∀ id, id ∈ payload.dischargedObligationIds ↔
    ∃ obligation, snapshot.obligation? id = some obligation ∧
      obligation.parentClaimId = payload.parentClaimId ∧
      obligation.contractVersion = snapshot.currentContractVersion ∧
      obligation.status ≠ .invalidated

section Graph

variable {nodes : List Id} {arcs : List (Id × Id)}

/-- The test for cycles is exact. -/
theorem hasCycle_eq_false_iff (hnodes : nodes.Nodup) :
    hasCycle nodes arcs = false ↔ Acyclic (arcsWithin nodes arcs) := by
  have hwithin : ∀ a b, Arc (arcsWithin nodes arcs) a b → a ∈ sorted nodes ∧ b ∈ sorted nodes := by
    intro a b hab
    have hends := (List.mem_filter.mp hab).2
    rw [(perm_sorted nodes).mem_iff, (perm_sorted nodes).mem_iff]
    simpa using hends
  have hsorted : (sorted nodes).Nodup := (perm_sorted nodes).nodup_iff.mpr hnodes
  have hiff := length_kahn_eq_iff sortedDiscipline hsorted hwithin
  rw [(perm_sorted nodes).length_eq] at hiff
  rw [← hiff]
  simp [hasCycle]

/-- The search from the parent finds the nodes with a path to it. -/
theorem mem_canReachParent {parentId id : Id} :
    id ∈ canReachParent nodes arcs parentId ↔
      ReflTransGen (Arc (arcsWithin nodes arcs)) id parentId := by
  have hswap : ∀ a b, Arc ((arcsWithin nodes arcs).map Prod.swap) a b ↔
      Arc (arcsWithin nodes arcs) b a := by
    intro a b
    unfold Arc
    constructor
    · intro h
      obtain ⟨arc, harc, heq⟩ := List.mem_map.mp h
      cases heq
      exact harc
    · intro h
      exact List.mem_map.mpr ⟨(b, a), h, rfl⟩
  have hrel : Arc ((arcsWithin nodes arcs).map Prod.swap) =
      Function.swap (Arc (arcsWithin nodes arcs)) := by
    funext a b
    exact propext (hswap a b)
  unfold canReachParent
  rw [mem_reachableFrom, hrel]
  simp only [List.mem_singleton, exists_eq_left]
  exact reflTransGen_swap

end Graph

namespace Validated

variable {P : Platform} {snapshot : Snapshot} {payload : SubmitClosureWitness} {policy : Policy}
  {closure : ClosureState} (v : Validated P snapshot payload policy closure)

include v

theorem canonical_digest : ∃ text,
    canonicalJsonBytes P (.obj payload.selectedSubgraph) = .ok text ∧
      payload.selectedSubgraphDigest = P.sha256 ("rk.cgraph.v1\n".toList ++ text) := by
  obtain ⟨⟨⟩, -, h⟩ := bind_eq_ok.mp v.digest
  obtain ⟨text, htext, h⟩ := bind_eq_ok.mp h
  exact ⟨text, htext, (pure_eq_ok.mp h).symm⟩

theorem claims_selected : ∀ entry ∈ payload.selected.claims, ClaimSelected snapshot entry := by
  intro entry hentry
  have hmatches := checkAll_eq_ok.mp v.claims entry hentry
  rw [rejectIf_eq_ok, Bool.not_eq_false'] at hmatches
  unfold claimMatches at hmatches
  split at hmatches
  · cases hmatches
  · rename_i claim hclaim
    simp only [Bool.and_eq_true, beq_iff_eq, Json.isText_iff] at hmatches
    obtain ⟨⟨⟨⟨hactive, hversion⟩, -⟩, hhash⟩, hrevision⟩ := hmatches
    exact ⟨claim, hclaim, hactive, hversion.trans v.parent_spec.1, hhash, hrevision⟩

theorem graph_acyclic :
    Acyclic (arcsWithin payload.selected.claimIds payload.selected.logicalArcs) := by
  obtain ⟨⟨⟩, hcycle, -⟩ := bind_eq_ok.mp v.graph
  exact (hasCycle_eq_false_iff (nodup_keys_dictOf _)).mp (rejectIf_eq_ok.mp hcycle)

theorem leads_to_parent : ∀ id ∈ payload.selected.claimIds, ReflTransGen
    (Arc (arcsWithin payload.selected.claimIds payload.selected.logicalArcs)) id
    payload.parentClaimId := by
  intro id hid
  obtain ⟨⟨⟩, -, h⟩ := bind_eq_ok.mp v.graph
  simp only [rejectIf_eq_ok, Bool.not_eq_false', List.isEmpty_iff] at h
  have hnone := List.perm_nil.mp (h ▸ perm_sorted _).symm
  by_contra hpath
  have hmem : id ∈ payload.selected.claimIds.filter fun id =>
      !(canReachParent payload.selected.claimIds payload.selected.logicalArcs
        payload.parentClaimId).contains id := by
    refine List.mem_filter.mpr ⟨hid, ?_⟩
    simpa [mem_canReachParent] using hpath
  rw [hnone] at hmem
  cases hmem

/-- The edges across the border, as the validator computes them. -/
theorem mem_boundaryEdges {id : Id} {edge : ClaimEdge} (h : IsBoundary snapshot payload id edge) :
    (id, edge) ∈ boundaryEdges snapshot payload.contractVersion payload.selected.claimIds := by
  refine List.mem_filter.mpr ⟨mem_dictOf.mpr h.registered, ?_⟩
  have hcurrent : edge.contractVersion = payload.contractVersion :=
    h.current.trans v.parent_spec.1.symm
  have harc : (edge.arcs.any fun arc => payload.selected.claimIds.contains arc.1 !=
      payload.selected.claimIds.contains arc.2) = true := by
    have hcross := h.crosses
    rw [List.any_eq_true]
    cases hdirection : edge.direction with
    | forward | bidirectional =>
      refine ⟨(edge.fromClaimId, edge.toClaimId), ?_, ?_⟩
      · rw [← mem_factArcs]
        simp [factArcs, hdirection]
      · simpa using hcross
    | reverse =>
      refine ⟨(edge.toClaimId, edge.fromClaimId), ?_, ?_⟩
      · rw [← mem_factArcs]
        simp [factArcs, hdirection]
      · simpa [iff_comm] using hcross
  simp only [Bool.and_eq_true, beq_iff_eq]
  exact ⟨⟨⟨h.active, hcurrent⟩, h.logical⟩, harc⟩

theorem boundary_declared : ∀ id edge, IsBoundary snapshot payload id edge →
    ∃ cut ∈ payload.selected.declaredCuts, cutCoversEdge cut id edge = .ok true := by
  intro id edge hboundary
  obtain ⟨undeclared, hfailing, h⟩ := bind_eq_ok.mp v.boundary
  have hnone : undeclared = [] := by simpa using h
  subst hnone
  have hpasses := passes_of_failing_eq_nil hfailing (id, edge) (v.mem_boundaryEdges hboundary)
  exact exists_of_anyPasses hpasses

/-- In a hybrid closure no declared cut is open. -/
theorem cuts_not_open (hmode : payload.compositionMode = .hybrid) :
    ∀ cut ∈ payload.selected.declaredCuts, cut.get "kind" ≠ .str "OPEN" := by
  intro cut hcut hopen
  obtain ⟨json, hjson, hmapping⟩ := List.mem_filterMap.mp hcut
  have h := v.closed
  unfold closeByMode at h
  rw [hmode] at h
  obtain ⟨⟨⟩, -, h⟩ := bind_eq_ok.mp h
  obtain ⟨⟨⟩, hcuts, -⟩ := bind_eq_ok.mp h
  obtain ⟨index, hindex⟩ := List.getElem?_of_mem hjson
  have hcheck := checkAll_eq_ok.mp hcuts (json, index) (List.mem_zipIdx_iff_getElem?.mpr hindex)
  obtain ⟨cut', hcut', h⟩ := bind_eq_ok.mp hcheck
  obtain ⟨⟨⟩, hkind, -⟩ := bind_eq_ok.mp h
  have heq : cut' = cut := Option.some.inj ((orReject_eq_ok.mp hcut').symm.trans hmapping)
  subst heq
  rw [rejectIf_eq_ok, hopen] at hkind
  cases hkind

theorem discharged_spec (id : Id) : id ∈ payload.dischargedObligationIds ↔
    ∃ obligation, snapshot.obligation? id = some obligation ∧
      obligation.parentClaimId = payload.parentClaimId ∧
      obligation.contractVersion = snapshot.currentContractVersion ∧
      obligation.status ≠ .invalidated := by
  rw [v.discharged_iff, ← v.parent_spec.1]
  unfold requiredObligationIds
  simp only [List.mem_map, List.mem_filter, Bool.and_eq_true, beq_iff_eq, bne_iff_ne]
  constructor
  · rintro ⟨⟨key, obligation⟩, ⟨hentry, ⟨hparent, hversion⟩, hstatus⟩, rfl⟩
    exact ⟨obligation, mem_dictOf.mp hentry, hparent, hversion, hstatus⟩
  · rintro ⟨obligation, hfound, hparent, hversion, hstatus⟩
    exact ⟨(id, obligation), ⟨mem_dictOf.mpr hfound, ⟨hparent, hversion⟩, hstatus⟩, rfl⟩

end Validated

/-- An accepted witness is structurally sound exactly when no open cut declares an edge
across the border, which a hybrid closure checks by itself, and the children of the
discharged obligations are selected. -/
theorem structurally_sound_iff (P : Platform) (snapshot : Snapshot)
    (payload : SubmitClosureWitness) (policy : Policy) (closure : ClosureState)
    (h : validateClosureWitness P snapshot payload policy = .ok closure) :
    StructurallySound P snapshot payload ↔
      (payload.compositionMode ≠ .hybrid → NoOpenCover snapshot payload) ∧
        ChildrenSelected snapshot payload := by
  obtain ⟨v⟩ := validated_of_validate h
  constructor
  · intro hsound
    exact ⟨fun _ => hsound.noOpen, hsound.children⟩
  · rintro ⟨hopen, hchildren⟩
    have hnoOpen : NoOpenCover snapshot payload := by
      by_cases hmode : payload.compositionMode = .hybrid
      · intro id edge _ cut hcut _
        exact v.cuts_not_open hmode cut hcut
      · exact hopen hmode
    exact
      { digest := v.canonical_digest
        claims := v.claims_selected
        acyclic := v.graph_acyclic
        leads := v.leads_to_parent
        declared := v.boundary_declared
        noOpen := hnoOpen
        children := hchildren
        discharged := v.discharged_spec }

/-- The witness of the sample without obligations is structurally sound. -/
theorem structurally_sound_of_plain :
    ∃ snapshot, (reached Sample.platform Sample.policy Sample.plainReviewed).guardSnapshot
        Sample.run = some snapshot ∧
      StructurallySound Sample.platform snapshot Sample.plainWitness := by
  obtain ⟨snapshot, closure, hsnapshot, hclosure⟩ := Sample.plainWitness_valid
  have hcover : NoOpenCover snapshot Sample.plainWitness :=
    fun id edge _ cut hcut => absurd hcut List.not_mem_nil
  have hchildren : ChildrenSelected snapshot Sample.plainWitness :=
    fun id hid => absurd hid List.not_mem_nil
  exact ⟨snapshot, hsnapshot,
    (structurally_sound_iff Sample.platform snapshot _ Sample.policy closure hclosure).mpr
      ⟨fun _ => hcover, hchildren⟩⟩

/-- The witness of the sample leaves out the child of the obligation that it discharges. -/
theorem closure_without_child :
    ∃ snapshot closure, (reached Sample.platform Sample.policy Sample.obliged).guardSnapshot
        Sample.run = some snapshot ∧
      validateClosureWitness Sample.platform snapshot Sample.relabellingWitness Sample.policy =
        .ok closure ∧ ¬ StructurallySound Sample.platform snapshot Sample.relabellingWitness := by
  obtain ⟨snapshot, closure, obligation, hsnapshot, hclosure, -, hfound, -, hchild⟩ :=
    Sample.relabellingWitness_valid
  have hselected : Sample.root ∉ Sample.relabellingWitness.selected.claimIds := by decide +kernel
  refine ⟨snapshot, closure, hsnapshot, hclosure, fun hsound => hselected ?_⟩
  exact hsound.children Sample.obligation (List.mem_singleton_self _) obligation hfound
    Sample.root (by rw [hchild]; exact List.mem_singleton_self _)

end ResearchKernel
