import ResearchKernel.Authority.Machine
import ResearchKernel.FactGraph

/-!
# The claim graph has no cycles

The guard looks for a cycle before it registers a logical edge. It reads an edge in both
directions as if it went forward only, while the consumers of the graph read two arcs. In
runs without logical edges in both directions, the two readings agree and the graph of
all active logical edges has no cycle.
-/

namespace ResearchKernel

open Foundation Relation

/-- The arcs of the active logical edges, as the consumers of the graph read them. -/
def Records.logicalArcs (records : Records) : List (Id × Id) :=
  (records.claimEdges.filter fun edge =>
    edge.status == .active && edge.edgeKind.isLogical).flatMap ClaimEdge.arcs

variable {records : Records}

theorem arc_logicalArcs {a b : Id} :
    Arc records.logicalArcs a b ↔ ∃ edge ∈ records.claimEdges, edge.status = .active ∧
      edge.edgeKind.isLogical = true ∧ (a, b) ∈ edge.arcs := by
  simp only [Arc, Records.logicalArcs, List.mem_flatMap, List.mem_filter, Bool.and_eq_true,
    beq_iff_eq, and_assoc]

/-! ## Edges join claims of one run -/

/-- The ends of every edge are claims of the run of the edge. -/
def Records.EdgesScoped (records : Records) : Prop :=
  ∀ edge ∈ records.claimEdges, ∀ id, id = edge.fromClaimId ∨ id = edge.toClaimId →
    ∃ claim ∈ records.claims, claim.claimId = id ∧ claim.runId = edge.runId

/-- No two edges have the same identifier. -/
def Records.UniqueEdges (records : Records) : Prop := (records.claimEdges.map (·.edgeId)).Nodup

theorem Records.UniqueEdges.eq (h : records.UniqueEdges) {a b : ClaimEdge}
    (ha : a ∈ records.claimEdges) (hb : b ∈ records.claimEdges) (hid : a.edgeId = b.edgeId) :
    a = b :=
  List.inj_on_of_nodup_map h ha hb hid

theorem Records.EdgesScoped.of_kept {records' : Records} (h : records.EdgesScoped)
    (hclaims : Kept Claim.SameStatement records.claims records'.claims)
    (hedges : records'.claimEdges = records.claimEdges) : records'.EdgesScoped := by
  intro edge hedge id hid
  rw [hedges] at hedge
  obtain ⟨claim, hclaim, hclaimId, hrun⟩ := h edge hedge id hid
  obtain ⟨claim', hclaim', hsame⟩ := hclaims claim hclaim
  exact ⟨claim', hclaim', hsame.claimId.trans hclaimId, hsame.runId.trans hrun⟩

theorem ends_of_mem_arcs {edge : ClaimEdge} {a b : Id} (h : (a, b) ∈ edge.arcs) :
    (a = edge.fromClaimId ∨ a = edge.toClaimId) ∧ (b = edge.fromClaimId ∨ b = edge.toClaimId) := by
  rw [← mem_factArcs] at h
  unfold factArcs at h
  split at h
  · simp only [List.mem_cons, Prod.mk.injEq, List.not_mem_nil, or_false] at h
    rcases h with ⟨rfl, rfl⟩ | ⟨rfl, rfl⟩
    · exact ⟨Or.inl rfl, Or.inr rfl⟩
    · exact ⟨Or.inr rfl, Or.inl rfl⟩
  · simp only [List.mem_singleton, Prod.mk.injEq] at h
    exact ⟨Or.inr h.1, Or.inl h.2⟩
  · simp only [List.mem_singleton, Prod.mk.injEq] at h
    exact ⟨Or.inl h.1, Or.inr h.2⟩

/-- An edge that goes one way has the arc for which the search looks. -/
theorem arcs_eq_searchArc {edge : ClaimEdge} (h : edge.direction ≠ .bidirectional) (arc : Id × Id) :
    arc ∈ edge.arcs ↔ arc = Guard.searchArc edge.fromClaimId edge.toClaimId edge.direction := by
  rw [← mem_factArcs]
  cases hdirection : edge.direction with
  | bidirectional => exact absurd hdirection h
  | forward | reverse => simp [factArcs, Guard.searchArc, hdirection]

/-! ## What the registration of an edge has checked -/

/-- What an accepted edge has passed. -/
theorem registered_of_handle {context : GuardContext} {p : RegisterClaimEdge}
    {mutations : List Mutation} (h : Guard.handleRegisterClaimEdge context p = .ok mutations) :
    (∃ claim, context.currentClaim? p.fromClaimId = some claim) ∧
      (∃ claim, context.currentClaim? p.toClaimId = some claim) ∧
      (p.edgeKind.isLogical = true → Guard.edgeWouldCycle context p = false) := by
  obtain ⟨⟨⟩, hends, h⟩ := bind_eq_ok.mp h
  obtain ⟨⟨⟩, -, h⟩ := bind_eq_ok.mp h
  obtain ⟨⟨⟩, hcycle, -⟩ := bind_eq_ok.mp h
  simp only [rejectIf_eq_ok, Bool.or_eq_false_iff, Option.isNone_eq_false_iff,
    Option.isSome_iff_exists] at hends
  rw [rejectIf_eq_ok] at hcycle
  refine ⟨hends.1.1, hends.1.2, fun hlogical => ?_⟩
  simpa [hlogical] using hcycle

section Accepted

variable {P : Platform} {policy : Policy} {db db' : Db} {op : ApplyOp}

/-- The first of the mutations of an accepted edge is applied to the records at the start. -/
theorem records_of_registerClaimEdge {accepted : Accepted P policy db op db'}
    {p : RegisterClaimEdge} {before after : Db}
    (happlies : accepted.Applies (.registerClaimEdge p) before after) :
    before.records = db.records := by
  obtain ⟨-, hmutations, -⟩ := happlies.emitted
  exact happlies.records_of_head hmutations (by simp)

/-- Mutations of accepted commands keep the edges scoped. -/
theorem edgesScoped_of_applies (accepted : Accepted P policy db op db') {m : Mutation}
    {before after : Db} (happlies : accepted.Applies m before after)
    (h : before.records.EdgesScoped) : after.records.EdgesScoped := by
  have hclaims := Projection.kept_claims_of_apply happlies.applied
  intro edge hedge id hid
  rcases Projection.exists_edge_of_apply happlies.applied hedge with ⟨old, hold, hevolves⟩ | hnew
  · rw [hevolves.1] at hid ⊢
    obtain ⟨claim, hclaim, hclaimId, hrun⟩ := h old hold id hid
    obtain ⟨claim', hclaim', hsame⟩ := hclaims claim hclaim
    exact ⟨claim', hclaim', hsame.claimId.trans hclaimId, hsame.runId.trans hrun⟩
  · cases m with
    | registerClaimEdge p =>
      obtain rfl := List.mem_singleton.mp hnew
      have hsame := records_of_registerClaimEdge happlies
      obtain ⟨-, -, hhandle⟩ := happlies.emitted
      obtain ⟨⟨source, hsource⟩, ⟨target, htarget⟩, -⟩ := registered_of_handle hhandle
      obtain ⟨hsourceMem, hsourceRun, hsourceId, -, -⟩ := accepted.claim_of_current hsource
      obtain ⟨htargetMem, htargetRun, htargetId, -, -⟩ := accepted.claim_of_current htarget
      obtain ⟨claim, hclaim, hclaimId, hrun⟩ : ∃ claim ∈ before.records.claims,
          claim.claimId = id ∧ claim.runId = op.request.runId := by
        rw [hsame]
        rcases hid with rfl | rfl
        · exact ⟨source, hsourceMem, hsourceId, hsourceRun⟩
        · exact ⟨target, htargetMem, htargetId, htargetRun⟩
      obtain ⟨claim', hclaim', hstatement⟩ := hclaims claim hclaim
      exact ⟨claim', hclaim', hstatement.claimId.trans hclaimId, hstatement.runId.trans hrun⟩
    | _ => cases hnew

end Accepted

/-- Every operation keeps the edges scoped and their identifiers distinct. -/
theorem edgesScoped_step {P : Platform} {policy : Policy} {db : Db} (op : Op)
    (h : db.records.EdgesScoped ∧ db.records.UniqueEdges) :
    (step P policy db op).records.EdgesScoped ∧ (step P policy db op).records.UniqueEdges := by
  rcases @step_cases P policy db op with frame | ⟨op, rfl, -, ⟨accepted⟩⟩
  · refine ⟨h.1.of_kept frame.keeps_claims frame.claimEdges, ?_⟩
    unfold Records.UniqueEdges
    rw [frame.claimEdges]
    exact h.2
  · refine accepted.preserves (I := fun records => records.EdgesScoped ∧ records.UniqueEdges) h ?_
    intro m before after happlies hbefore
    exact ⟨edgesScoped_of_applies accepted happlies hbefore.1,
      Projection.nodup_edgeIds_of_apply happlies.applied hbefore.2⟩

/-! ## Cycles -/

/-- Every active logical edge goes one way, and together they have no cycle. -/
structure Records.OneWayGraph (records : Records) : Prop where
  oneWay : ∀ edge ∈ records.claimEdges, edge.status = .active → edge.edgeKind.isLogical = true →
    edge.direction ≠ .bidirectional
  acyclic : Acyclic records.logicalArcs

def RegistersOneWay (_ : Db) (op : ApplyOp) : Prop :=
  ∀ p, op.request.command = .registerClaimEdge p → p.edgeKind.isLogical = true →
    p.direction ≠ .bidirectional

section Cycles

variable {P : Platform} {policy : Policy} {db db' : Db} {op : ApplyOp}
  {accepted : Accepted P policy db op db'}

/-- All the arcs of a path lie in one run. -/
theorem path_in_run {records : Records} (hunique : records.UniqueClaims)
    (hscoped : records.EdgesScoped) {runId : Id} {claim : Claim} (hclaim : claim ∈ records.claims)
    (hrun : claim.runId = runId) {b : Id}
    (hpath : ReflTransGen (Arc records.logicalArcs) claim.claimId b) :
    ReflTransGen (fun x y => ∃ edge ∈ records.claimEdges, edge.runId = runId ∧
        edge.status = .active ∧ edge.edgeKind.isLogical = true ∧ (x, y) ∈ edge.arcs)
      claim.claimId b ∧ ∃ last ∈ records.claims, last.claimId = b ∧ last.runId = runId := by
  induction hpath with
  | refl => exact ⟨ReflTransGen.refl, claim, hclaim, rfl, hrun⟩
  | tail _ harc ih =>
    obtain ⟨hstart, mid, hmid, hmidId, hmidRun⟩ := ih
    obtain ⟨edge, hedge, hactive, hlogical, harcs⟩ := arc_logicalArcs.mp harc
    obtain ⟨hsource, htarget⟩ := ends_of_mem_arcs harcs
    obtain ⟨source, hsourceMem, hsourceId, hsourceRun⟩ := hscoped edge hedge _ hsource
    obtain ⟨target, htargetMem, htargetId, htargetRun⟩ := hscoped edge hedge _ htarget
    have heq : source = mid := hunique.eq hsourceMem hmid (hsourceId.trans hmidId.symm)
    have hedgeRun : edge.runId = runId := by rw [← hsourceRun, heq, hmidRun]
    exact ⟨hstart.tail ⟨edge, hedge, hedgeRun, hactive, hlogical, harcs⟩,
      target, htargetMem, htargetId, htargetRun.trans hedgeRun⟩

theorem arc_logicalArcs_concat {records records' : Records} {edge : ClaimEdge}
    (h : records'.claimEdges = records.claimEdges ++ [edge]) {a b : Id} :
    Arc records'.logicalArcs a b ↔ Arc records.logicalArcs a b ∨
      edge.status = .active ∧ edge.edgeKind.isLogical = true ∧ (a, b) ∈ edge.arcs := by
  rw [arc_logicalArcs, arc_logicalArcs, h]
  constructor
  · rintro ⟨other, hother, hspec⟩
    rcases List.mem_append.mp hother with hold | hnew
    · exact Or.inl ⟨other, hold, hspec⟩
    · obtain rfl := List.mem_singleton.mp hnew
      exact Or.inr hspec
  · rintro (⟨other, hold, hspec⟩ | hspec)
    · exact ⟨other, List.mem_append_left _ hold, hspec⟩
    · exact ⟨edge, List.mem_append_right _ (List.mem_singleton.mpr rfl), hspec⟩

variable {p : RegisterClaimEdge} {before after : Db}

theorem edges_registerClaimEdge {ctx : ProjectionContext}
    (h : Projection.applyMutation ctx before (.registerClaimEdge p) = some after) :
    after.records.claimEdges = before.records.claimEdges ++ [Projection.newEdge ctx p] := by
  obtain ⟨-, -, h⟩ := Option.bind_eq_some_iff.mp h
  obtain ⟨-, -, h⟩ := Option.bind_eq_some_iff.mp h
  obtain ⟨edges, hedges, h⟩ := Option.bind_eq_some_iff.mp h
  obtain ⟨-, rfl⟩ := insertRow_eq_some.mp hedges
  obtain rfl := Option.some.inj h
  rfl

/-- The arcs of a run after the registration of an edge are those that the search follows. -/
theorem searchArcs_of_edge (hedges : db.records.UniqueEdges) (h : db.records.OneWayGraph)
    (honeWay : p.edgeKind.isLogical = true → p.direction ≠ .bidirectional) {edge : ClaimEdge}
    (hedge : edge ∈ db.records.claimEdges ++ [Projection.newEdge accepted.projection p])
    (hrun : edge.runId = op.request.runId) (hactive : edge.status = .active)
    (hlogical : edge.edgeKind.isLogical = true) {arc : Id × Id} (harc : arc ∈ edge.arcs) :
    arc ∈ Guard.searchArcs accepted.context p := by
  unfold Guard.searchArcs
  rcases List.mem_append.mp hedge with hold | hnew
  · refine List.mem_append_left _ (List.mem_map.mpr ⟨edge, List.mem_filter.mpr ⟨?_, ?_⟩, ?_⟩)
    · have hsnapshot : accepted.context.snapshot.edges =
          db.claimEdges.filter (·.runId == op.request.runId) := accepted.edges_eq
      rw [hsnapshot, mem_distinctRows]
      · exact List.mem_filter.mpr ⟨hold, beq_iff_eq.mpr hrun⟩
      · intro x hx y hy hid
        exact hedges.eq (List.mem_filter.mp hx).1 (List.mem_filter.mp hy).1 hid
    · simp [hactive, hlogical]
    · exact ((arcs_eq_searchArc (h.oneWay edge hold hactive hlogical) arc).mp harc).symm
  · obtain rfl := List.mem_singleton.mp hnew
    have hkind : p.edgeKind.isLogical = true := hlogical
    have heq := (@arcs_eq_searchArc (Projection.newEdge accepted.projection p)
      (honeWay hkind) arc).mp harc
    refine List.mem_append_right _ ?_
    rw [if_pos hkind]
    exact List.mem_singleton.mpr heq

/-- The registration of an edge that goes one way keeps the graph without cycles. -/
theorem oneWayGraph_of_registerClaimEdge (hunique : db.records.UniqueClaims)
    (hedges : db.records.UniqueEdges) (hscoped : db.records.EdgesScoped)
    (h : db.records.OneWayGraph) (happlies : accepted.Applies (.registerClaimEdge p) before after)
    (honeWay : p.edgeKind.isLogical = true → p.direction ≠ .bidirectional) :
    after.records.OneWayGraph := by
  have hsame := records_of_registerClaimEdge happlies
  have hafter := edges_registerClaimEdge happlies.applied
  rw [hsame] at hafter
  set edge := Projection.newEdge accepted.projection p with hedge
  set arc := Guard.searchArc p.fromClaimId p.toClaimId p.direction with harc
  constructor
  · intro other hother hactive hlogical
    rw [hafter] at hother
    rcases List.mem_append.mp hother with hold | hnew
    · exact h.oneWay other hold hactive hlogical
    · obtain rfl := List.mem_singleton.mp hnew
      exact honeWay hlogical
  · by_cases hlogical : p.edgeKind.isLogical = true
    · have harcs : ∀ a b, Arc after.records.logicalArcs a b ↔
          Arc (db.records.logicalArcs ++ [arc]) a b := by
        intro a b
        rw [arc_logicalArcs_concat hafter, arcs_eq_searchArc (honeWay hlogical)]
        unfold Arc
        rw [List.mem_append, List.mem_singleton]
        constructor
        · rintro (hold | ⟨-, -, hnew⟩)
          · exact Or.inl hold
          · exact Or.inr hnew
        · rintro (hold | hnew)
          · exact Or.inl hold
          · exact Or.inr ⟨rfl, hlogical, hnew⟩
      refine Acyclic.mono (h.acyclic.concat ?_) fun a b hab => (harcs a b).mp hab
      intro hpath
      -- A path back from the target would lie in the run, where the guard has looked for it.
      have hpathAfter : ReflTransGen (Arc after.records.logicalArcs) arc.2 arc.1 :=
        ReflTransGen.mono (fun a b hab => (harcs a b).mpr hab) _ _ hpath
      have hscopedAfter : after.records.EdgesScoped :=
        edgesScoped_of_applies accepted happlies (hsame ▸ hscoped)
      have huniqueBefore : before.records.UniqueClaims := hsame ▸ hunique
      have huniqueAfter : after.records.UniqueClaims :=
        Projection.nodup_claimIds_of_apply happlies.applied huniqueBefore
      have hmem : edge ∈ after.records.claimEdges := by
        rw [hafter]
        exact List.mem_append_right _ (List.mem_singleton.mpr rfl)
      have hends := ends_of_mem_arcs ((@arcs_eq_searchArc edge (honeWay hlogical) arc).mpr rfl)
      obtain ⟨claim, hclaim, hclaimId, hrun⟩ := hscopedAfter edge hmem arc.2 hends.2
      rw [← hclaimId] at hpathAfter
      have hrunPath := (path_in_run huniqueAfter hscopedAfter hclaim hrun hpathAfter).1
      rw [hclaimId] at hrunPath
      have hsearch : ReflTransGen (Arc (Guard.searchArcs accepted.context p)) arc.2 arc.1 := by
        refine ReflTransGen.mono (fun a b hab => ?_) _ _ hrunPath
        obtain ⟨other, hother, hotherRun, hactive, hotherLogical, hotherArc⟩ := hab
        rw [hafter] at hother
        exact searchArcs_of_edge hedges h honeWay hother hotherRun hactive hotherLogical hotherArc
      obtain ⟨-, -, hhandle⟩ := happlies.emitted
      have hno := (registered_of_handle hhandle).2.2 hlogical
      unfold Guard.edgeWouldCycle at hno
      rw [(reaches_iff (le_refl _)).mpr hsearch] at hno
      cases hno
    · refine h.acyclic.mono fun a b hab => ?_
      rcases (arc_logicalArcs_concat hafter).mp hab with hold | ⟨-, hnew, -⟩
      · exact hold
      · exact absurd hnew hlogical

/-- Other mutations only withdraw edges. -/
theorem oneWayGraph_of_evolves {ctx : ProjectionContext} {m : Mutation}
    (happly : Projection.applyMutation ctx before m = some after)
    (hnew : Projection.newEdges ctx m = []) (h : before.records.OneWayGraph) :
    after.records.OneWayGraph := by
  have hold : ∀ edge' ∈ after.records.claimEdges, edge'.status = .active →
      ∃ edge ∈ before.records.claimEdges, edge.status = .active ∧
        edge'.edgeKind = edge.edgeKind ∧ edge'.direction = edge.direction ∧
        edge'.arcs = edge.arcs := by
    intro edge' hedge' hactive
    rcases Projection.exists_edge_of_apply happly hedge' with ⟨edge, hedge, heq, hstatus⟩ | hin
    · refine ⟨edge, hedge, ?_, by rw [heq], by rw [heq], by rw [heq]; rfl⟩
      rcases hstatus with hsame | hinvalid
      · exact hsame.symm.trans hactive
      · rw [hactive] at hinvalid
        cases hinvalid
    · rw [hnew] at hin
      cases hin
  constructor
  · intro edge' hedge' hactive hlogical
    obtain ⟨edge, hedge, hbefore, hkind, hdirection, -⟩ := hold edge' hedge' hactive
    rw [hdirection]
    exact h.oneWay edge hedge hbefore (hkind ▸ hlogical)
  · refine h.acyclic.mono fun a b hab => ?_
    obtain ⟨edge', hedge', hactive, hlogical, harcs⟩ := arc_logicalArcs.mp hab
    obtain ⟨edge, hedge, hbefore, hkind, -, heq⟩ := hold edge' hedge' hactive
    exact arc_logicalArcs.mpr ⟨edge, hedge, hbefore, hkind ▸ hlogical, heq ▸ harcs⟩

end Cycles

/-- The graph of a run whose edges go one way. -/
structure Records.GraphInvariant (records : Records) : Prop where
  uniqueClaims : records.UniqueClaims
  edges : records.EdgesScoped ∧ records.UniqueEdges
  graph : records.OneWayGraph

/-- An operation that registers only edges that go one way keeps the graph without cycles. -/
theorem graphInvariant_step {P : Platform} {policy : Policy} {db : Db} (op : Op)
    (h : db.records.GraphInvariant) (hcond : OnAccepted P policy RegistersOneWay db op) :
    (step P policy db op).records.GraphInvariant := by
  refine ⟨uniqueClaims_step op h.uniqueClaims, edgesScoped_step op h.edges, ?_⟩
  rcases @step_cases P policy db op with frame | ⟨op, rfl, haccepts, ⟨accepted⟩⟩
  · have harcs : (step P policy db op).records.logicalArcs = db.records.logicalArcs := by
      unfold Records.logicalArcs
      rw [frame.claimEdges]
    constructor
    · rw [frame.claimEdges]
      exact h.graph.oneWay
    · rw [harcs]
      exact h.graph.acyclic
  · refine accepted.preserves h.graph fun m before after happlies hbefore => ?_
    cases m with
    | registerClaimEdge p =>
      have hcommand := happlies.emitted.1
      exact oneWayGraph_of_registerClaimEdge h.uniqueClaims h.edges.2 h.edges.1 h.graph happlies
        (hcond haccepts p hcommand)
    | _ => exact oneWayGraph_of_evolves happlies.applied rfl hbefore

/-- The claim graph stays acyclic, and the graph of facts can always be ordered, in every
run that registers no logical edge in both directions. -/
theorem claim_graph_acyclic_of_one_way (P : Platform) (policy : Policy) (ops : List Op)
    (hcond : StepsSatisfy (step P policy) (OnAccepted P policy RegistersOneWay) Db.empty ops) :
    Acyclic (reached P policy ops).records.logicalArcs ∧
      ∀ runId scopedVersion ids,
        ((reached P policy ops).factGraph runId scopedVersion).topological ids ≠
          .error .cycle := by
  have hempty : Db.empty.records.GraphInvariant := by
    refine ⟨List.nodup_nil, ⟨List.forall_mem_nil _, List.nodup_nil⟩, List.forall_mem_nil _, ?_⟩
    intro node hcycle
    obtain ⟨last, -, harc⟩ := TransGen.tail'_iff.mp hcycle
    cases harc
  have hinv : (reached P policy ops).records.GraphInvariant :=
    reached_invariant_of Records.GraphInvariant hempty
      (fun db op h hstep => graphInvariant_step op h hstep) hcond
  refine ⟨hinv.graph.acyclic, fun runId scopedVersion ids => ?_⟩
  refine FactGraph.topological_ne_cycle (hinv.graph.acyclic.mono fun a b hab => ?_) ids
  obtain ⟨edge, hedge, harc⟩ := List.mem_flatMap.mp (List.mem_dedup.mp hab)
  obtain ⟨hrow, htest⟩ := List.mem_filter.mp hedge
  simp only [Bool.and_eq_true, beq_iff_eq] at htest
  exact arc_logicalArcs.mpr ⟨edge, (List.mem_filter.mp hrow).1, htest.1.1.1.1, htest.1.1.1.2,
    (mem_factArcs edge (a, b)).mp harc⟩

/-- With the edge of the sample run in one direction, its graph is acyclic. -/
theorem claim_graph_acyclic_of_forward :
    Acyclic
      (reached Sample.platform Sample.policy (Sample.connected .forward)).records.logicalArcs := by
  have hcond : StepsSatisfy (step Sample.platform Sample.policy)
      (OnAccepted Sample.platform Sample.policy RegistersOneWay) Db.empty
      (Sample.connected .forward) := by
    refine StepsSatisfy.of_forall ?_
    simp [Sample.connected, Sample.frozen, Sample.create, OnAccepted, RegistersOneWay,
      Sample.request, Sample.registerRoot, Sample.freeze, Sample.registerLemma,
      Sample.registerEdge]
  exact (claim_graph_acyclic_of_one_way _ _ _ hcond).1

theorem not_acyclic_of_bidirectional {db : Db}
    (h : ∃ edge ∈ db.claimEdges, edge.status = .active ∧ edge.edgeKind.isLogical = true ∧
      edge.direction = .bidirectional) : ¬ Acyclic db.records.logicalArcs := by
  obtain ⟨edge, hedge, hactive, hlogical, hdirection⟩ := h
  have harcs : edge.arcs =
      [(edge.fromClaimId, edge.toClaimId), (edge.toClaimId, edge.fromClaimId)] := by
    simp [ClaimEdge.arcs, hdirection, Direction.wire, directedArcs, Json.isText]
  have hforward : Arc db.records.logicalArcs edge.fromClaimId edge.toClaimId :=
    arc_logicalArcs.mpr ⟨edge, hedge, hactive, hlogical, by simp [harcs]⟩
  have hbackward : Arc db.records.logicalArcs edge.toClaimId edge.fromClaimId :=
    arc_logicalArcs.mpr ⟨edge, hedge, hactive, hlogical, by simp [harcs]⟩
  intro hacyclic
  exact hacyclic edge.fromClaimId (TransGen.tail (TransGen.single hforward) hbackward)

/-- The edge of the sample run in both directions is accepted. -/
theorem bidirectional_edge_is_cycle :
    ¬ Acyclic
      (reached Sample.platform Sample.policy
        (Sample.connected .bidirectional)).records.logicalArcs :=
  not_acyclic_of_bidirectional Sample.outcomes.edge_connected

end ResearchKernel
