import ResearchKernel.Finalization.Root

/-!
# Two checks for cycles

The guard and a trigger of the database both refuse edges that close a cycle. The guard
turns edges in reverse around, the trigger follows the stored ends. The two checks agree
on all new edges of a direction exactly when the active logical edges of the run are in
reverse as the new edge is.
-/

namespace ResearchKernel

open Foundation Relation

/-- Whether the trigger `claim_edges_reject_cycle` refuses a new edge of a run. -/
def Db.cycleTriggerAborts (db : Db) (runId : Id) (p : RegisterClaimEdge) : Bool :=
  p.edgeKind.isLogical &&
    (reachableFrom (db.storedArcs runId) [p.toClaimId]).contains p.fromClaimId

/-- The arcs of the active logical edges of a run, as the guard reads them. -/
def Records.searchedArcs (records : Records) (runId : Id) : List (Id × Id) :=
  (records.claimEdges.filter fun edge =>
    edge.runId == runId && edge.status == .active && edge.edgeKind.isLogical).map
      fun edge => Guard.searchArc edge.fromClaimId edge.toClaimId edge.direction

theorem arc_searchedArcs {records : Records} {runId a b : Id} :
    Arc (records.searchedArcs runId) a b ↔ ∃ edge ∈ records.claimEdges, edge.runId = runId ∧
      edge.status = .active ∧ edge.edgeKind.isLogical = true ∧
      Guard.searchArc edge.fromClaimId edge.toClaimId edge.direction = (a, b) := by
  simp only [Arc, Records.searchedArcs, List.mem_map, List.mem_filter, Bool.and_eq_true,
    beq_iff_eq, and_assoc]

theorem searchedArcs_concat {records records' : Records} {edge : ClaimEdge}
    (h : records'.claimEdges = records.claimEdges ++ [edge]) (runId : Id) :
    records'.searchedArcs runId = records.searchedArcs runId ++
      if edge.runId = runId ∧ edge.status = .active ∧ edge.edgeKind.isLogical = true then
        [Guard.searchArc edge.fromClaimId edge.toClaimId edge.direction] else [] := by
  unfold Records.searchedArcs
  rw [h, List.filter_append, List.map_append, List.filter_singleton]
  congr 1
  by_cases hnew : edge.runId = runId ∧ edge.status = .active ∧ edge.edgeKind.isLogical = true
  · simp [hnew]
  · have htest : (edge.runId == runId && edge.status == .active && edge.edgeKind.isLogical) =
        false := by
      simpa [and_assoc] using hnew
    rw [htest, if_neg hnew]
    rfl

/-! ## The check of the guard -/

section Guard

variable {db : Db} {runId : Id} {context : GuardContext}

variable {p : RegisterClaimEdge}

/-- The search of the guard follows the arcs of the run and that of the new edge. -/
theorem mem_guardArcs (hedges : db.records.UniqueEdges)
    (hsnapshot : context.snapshot.edges = db.claimEdges.filter (·.runId == runId))
    (hlogical : p.edgeKind.isLogical = true) {arc : Id × Id} :
    arc ∈ Guard.searchArcs context p ↔
      arc ∈ db.records.searchedArcs runId ++
        [Guard.searchArc p.fromClaimId p.toClaimId p.direction] := by
  have hrows : ∀ edge, edge ∈ distinctRows (·.edgeId) context.snapshot.edges ↔
      edge ∈ db.claimEdges ∧ edge.runId = runId := by
    intro edge
    rw [hsnapshot, mem_distinctRows, List.mem_filter, beq_iff_eq]
    intro a ha b hb hid
    exact hedges.eq (List.mem_filter.mp ha).1 (List.mem_filter.mp hb).1 hid
  unfold Guard.searchArcs
  rw [if_pos hlogical, List.mem_append, List.mem_append]
  refine or_congr_left ?_
  simp only [List.mem_map, List.mem_filter, hrows, Records.searchedArcs, Bool.and_eq_true,
    beq_iff_eq]
  constructor
  · rintro ⟨edge, ⟨⟨hmem, hrun⟩, hkind, hactive⟩, heq⟩
    exact ⟨edge, ⟨hmem, ⟨hrun, hactive⟩, hkind⟩, heq⟩
  · rintro ⟨edge, ⟨hmem, ⟨hrun, hactive⟩, hkind⟩, heq⟩
    exact ⟨edge, ⟨⟨hmem, hrun⟩, hkind, hactive⟩, heq⟩

/-- The guard refuses an edge when the arcs of the run lead back from its target. -/
theorem edgeWouldCycle_iff (hedges : db.records.UniqueEdges)
    (hsnapshot : context.snapshot.edges = db.claimEdges.filter (·.runId == runId))
    (hlogical : p.edgeKind.isLogical = true) :
    Guard.edgeWouldCycle context p = true ↔
      ReflTransGen (Arc (db.records.searchedArcs runId))
        (Guard.searchArc p.fromClaimId p.toClaimId p.direction).2
        (Guard.searchArc p.fromClaimId p.toClaimId p.direction).1 := by
  have harcs : Arc (Guard.searchArcs context p) = Arc (db.records.searchedArcs runId ++
      [Guard.searchArc p.fromClaimId p.toClaimId p.direction]) := by
    funext a b
    exact propext (mem_guardArcs hedges hsnapshot hlogical)
  unfold Guard.edgeWouldCycle
  rw [reaches_iff (le_refl _), harcs]
  exact path_back_concat

/-- The trigger refuses an edge when the stored ends lead from its target to its source. -/
theorem cycleTriggerAborts_iff (hlogical : p.edgeKind.isLogical = true) :
    db.cycleTriggerAborts runId p = true ↔
      ReflTransGen (Arc (db.storedArcs runId)) p.toClaimId p.fromClaimId := by
  unfold Db.cycleTriggerAborts
  rw [hlogical, Bool.true_and, List.contains_iff_mem, mem_reachableFrom]
  constructor
  · rintro ⟨start, hstart, hpath⟩
    rw [List.mem_singleton.mp hstart] at hpath
    exact hpath
  · exact fun hpath => ⟨_, List.mem_singleton.mpr rfl, hpath⟩

end Guard

/-! ## What the guard reads has no cycle -/

/-- The arcs that the guard reads have no cycle in any run. -/
def Records.SearchedAcyclic (records : Records) : Prop :=
  ∀ runId, Acyclic (records.searchedArcs runId)

section Acyclic

variable {P : Platform} {policy : Policy} {db db' : Db} {op : ApplyOp}
  {accepted : Accepted P policy db op db'}

/-- The registration of an edge closes no cycle that the guard would read. -/
theorem searchedAcyclic_of_registerClaimEdge (hedges : db.records.UniqueEdges)
    (h : db.records.SearchedAcyclic) {p : RegisterClaimEdge} {before after : Db}
    (happlies : accepted.Applies (.registerClaimEdge p) before after) :
    after.records.SearchedAcyclic := by
  have hafter := edges_registerClaimEdge happlies.applied
  rw [records_of_registerClaimEdge happlies] at hafter
  intro runId
  rw [searchedArcs_concat hafter]
  split
  · rename_i hnew
    have hrun : op.request.runId = runId := hnew.1
    have hlogical : p.edgeKind.isLogical = true := hnew.2.2
    refine (h runId).concat fun hpath => ?_
    obtain ⟨-, -, hhandle⟩ := happlies.emitted
    have hno := (registered_of_handle hhandle).2.2 hlogical
    have hsnapshot : accepted.context.snapshot.edges =
        db.claimEdges.filter (·.runId == runId) := hrun ▸ accepted.edges_eq
    rw [(edgeWouldCycle_iff hedges hsnapshot hlogical).mpr (path_back_concat.mp hpath)] at hno
    cases hno
  · rw [List.append_nil]
    exact h runId

/-- Other mutations only withdraw edges. -/
theorem searchedAcyclic_of_evolves {ctx : ProjectionContext} {m : Mutation} {before after : Db}
    (happly : Projection.applyMutation ctx before m = some after)
    (hnew : Projection.newEdges ctx m = []) (h : before.records.SearchedAcyclic) :
    after.records.SearchedAcyclic := by
  intro runId
  refine (h runId).mono fun a b hab => ?_
  obtain ⟨edge', hedge', hrun, hactive, hlogical, harc⟩ := arc_searchedArcs.mp hab
  rcases Projection.exists_edge_of_apply happly hedge' with ⟨edge, hedge, heq, hstatus⟩ | hin
  · have hbefore : edge.status = .active := by
      rcases hstatus with hsame | hinvalid
      · exact hsame.symm.trans hactive
      · rw [hactive] at hinvalid
        cases hinvalid
    rw [heq] at hrun hlogical harc
    exact arc_searchedArcs.mpr ⟨edge, hedge, hrun, hbefore, hlogical, harc⟩
  · rw [hnew] at hin
    cases hin

/-- Every operation keeps what the guard reads without cycles. -/
theorem searchedAcyclic_step (op : Op) (hedges : db.records.UniqueEdges)
    (h : db.records.SearchedAcyclic) : (step P policy db op).records.SearchedAcyclic := by
  rcases @step_cases P policy db op with frame | ⟨op, rfl, -, ⟨accepted⟩⟩
  · intro runId
    unfold Records.searchedArcs
    rw [frame.claimEdges]
    exact h runId
  · refine accepted.preserves h fun m before after happlies hbefore => ?_
    cases m with
    | registerClaimEdge p => exact searchedAcyclic_of_registerClaimEdge hedges h happlies
    | _ => exact searchedAcyclic_of_evolves happlies.applied rfl hbefore

end Acyclic

/-- What the guard reads has no cycle in any reached database. -/
theorem searchedAcyclic_reached (P : Platform) (policy : Policy) (ops : List Op) :
    (reached P policy ops).records.UniqueEdges ∧
      (reached P policy ops).records.SearchedAcyclic := by
  have hinv := reached_invariant
    (fun records => (records.EdgesScoped ∧ records.UniqueEdges) ∧ records.SearchedAcyclic)
    ⟨⟨List.forall_mem_nil _, List.nodup_nil⟩, fun runId node hcycle => by
      obtain ⟨last, -, harc⟩ := TransGen.tail'_iff.mp hcycle
      cases harc⟩
    (fun db op h => ⟨@edgesScoped_step P policy db op h.1,
      @searchedAcyclic_step P policy db op h.1.2 h.2⟩) ops
  exact ⟨hinv.1.2, hinv.2⟩

/-! ## Where the two checks agree -/

/-- The two checks for cycles agree on every new logical edge with the given direction. -/
def CycleChecksAgree (db : Db) (runId : Id) (context : GuardContext) (direction : Direction) :
    Prop :=
  ∀ p : RegisterClaimEdge, p.edgeKind.isLogical = true → p.direction = direction →
    (db.cycleTriggerAborts runId p = true ↔ Guard.edgeWouldCycle context p = true)

/-- The active logical edges of a run are in reverse as the given direction is. -/
def Db.EdgesTurnedAs (db : Db) (runId : Id) (direction : Direction) : Prop :=
  ∀ edge ∈ db.claimEdges, edge.runId = runId → edge.status = .active →
    edge.edgeKind.isLogical = true → (edge.direction = .reverse ↔ direction = .reverse)

section Agreement

variable {db : Db} {runId : Id} {direction : Direction}

/-- Where edges are turned as the new ones, the guard reads the stored ends, all in one way. -/
theorem searchedArcs_of_turnedAs (h : db.EdgesTurnedAs runId direction) :
    db.records.searchedArcs runId =
      if direction = .reverse then (db.storedArcs runId).map Prod.swap
      else db.storedArcs runId := by
  have hread : ∀ edge ∈ db.claimEdges.filter (fun edge =>
      edge.runId == runId && edge.status == .active && edge.edgeKind.isLogical),
      (edge.direction = .reverse ↔ direction = .reverse) := by
    intro edge hedge
    obtain ⟨hmem, htest⟩ := List.mem_filter.mp hedge
    simp only [Bool.and_eq_true, beq_iff_eq] at htest
    exact h edge hmem htest.1.1 htest.1.2 htest.2
  unfold Records.searchedArcs Db.storedArcs
  split
  · rename_i hreverse
    rw [List.map_map]
    refine List.map_congr_left fun edge hedge => ?_
    simp [Guard.searchArc, (hread edge hedge).mpr hreverse]
  · rename_i hforward
    refine List.map_congr_left fun edge hedge => ?_
    have hnot : edge.direction ≠ .reverse := fun hyes => hforward ((hread edge hedge).mp hyes)
    simp [Guard.searchArc, hnot]

end Agreement

/-- The guard and the trigger agree on all new logical edges of a direction exactly when the
active logical edges of the run are in reverse as the new edges are. -/
theorem cycle_checks_agree_iff (P : Platform) (policy : Policy) (ops : List Op) (runId : Id)
    (context : GuardContext)
    (hsnapshot : (reached P policy ops).guardSnapshot runId = some context.snapshot)
    (direction : Direction) :
    CycleChecksAgree (reached P policy ops) runId context direction ↔
      (reached P policy ops).EdgesTurnedAs runId direction := by
  obtain ⟨hunique, hacyclic⟩ := searchedAcyclic_reached P policy ops
  set db := reached P policy ops with hdb
  have hedges : context.snapshot.edges = db.claimEdges.filter (·.runId == runId) := by
    obtain ⟨hisOf, hid⟩ := snapshot_isOf hsnapshot
    rw [hisOf.edges_eq, hid]
  constructor
  · intro hagree edge hmem hrun hactive hlogical
    by_contra hturned
    -- An edge back along the stored ends of an edge that is turned otherwise.
    let p : RegisterClaimEdge :=
      { contractVersion := edge.contractVersion
        fromClaimId := edge.toClaimId
        toClaimId := edge.fromClaimId
        edgeKind := edge.edgeKind
        direction := direction
        justificationKind := edge.justificationKind
        justificationRef := edge.justificationRef }
    have haborts : db.cycleTriggerAborts runId p = true := by
      refine (cycleTriggerAborts_iff hlogical).mpr (ReflTransGen.single ?_)
      exact List.mem_map.mpr ⟨edge, List.mem_filter.mpr ⟨hmem, by simp [hrun, hactive, hlogical]⟩,
        rfl⟩
    have hcycle := (edgeWouldCycle_iff hunique hedges hlogical).mp
      ((hagree p hlogical rfl).mp haborts)
    have harc : Arc (db.records.searchedArcs runId)
        (Guard.searchArc p.fromClaimId p.toClaimId p.direction).1
        (Guard.searchArc p.fromClaimId p.toClaimId p.direction).2 := by
      refine arc_searchedArcs.mpr ⟨edge, hmem, hrun, hactive, hlogical, ?_⟩
      by_cases hreverse : direction = .reverse
      · have hnot : edge.direction ≠ .reverse := fun hyes =>
          hturned ⟨fun _ => hreverse, fun _ => hyes⟩
        simp [Guard.searchArc, p, hreverse, hnot]
      · have hyes : edge.direction = .reverse := by
          by_contra hno
          exact hturned ⟨fun hyes => absurd hyes hno, fun hyes => absurd hyes hreverse⟩
        simp [Guard.searchArc, p, hreverse, hyes]
    exact hacyclic runId _ (TransGen.head' harc hcycle)
  · intro hturned p hlogical hdirection
    rw [cycleTriggerAborts_iff hlogical, edgeWouldCycle_iff hunique hedges hlogical,
      searchedArcs_of_turnedAs hturned, hdirection]
    by_cases hreverse : direction = .reverse
    · rw [if_pos hreverse, path_swap]
      simp [Guard.searchArc, hreverse]
    · rw [if_neg hreverse]
      simp [Guard.searchArc, hreverse]

theorem edgesTurnedAs_of_forward {db : Db} (h : ∀ edge ∈ db.claimEdges, edge.direction = .forward)
    (runId : Id) : db.EdgesTurnedAs runId .forward := by
  intro edge hedge _ _ _
  rw [h edge hedge]

/-- The trigger refuses a logical edge along which the stored edges lead back. -/
theorem cycleTriggerAborts_of_contains {db : Db} {runId : Id} {p : RegisterClaimEdge}
    (hlogical : p.edgeKind.isLogical = true)
    (h : (reachableFrom (db.storedArcs runId) [p.toClaimId]).contains p.fromClaimId = true) :
    db.cycleTriggerAborts runId p = true := by
  unfold Db.cycleTriggerAborts
  rw [hlogical, h]
  rfl

/-- In the connected run of the sample the two checks agree on all new edges forward. -/
theorem cycle_checks_agree_of_forward :
    ∃ snapshot, (reached Sample.platform Sample.policy (Sample.connected .forward)).guardSnapshot
        Sample.run = some snapshot ∧
      CycleChecksAgree (reached Sample.platform Sample.policy (Sample.connected .forward))
        Sample.run (Sample.guardContext snapshot) .forward := by
  obtain ⟨snapshot, hsnapshot, -⟩ :=
    (Option.any_eq_true _ _).mp Sample.outcomes.graph.reversed_passes
  refine ⟨snapshot, hsnapshot, ?_⟩
  exact (cycle_checks_agree_iff Sample.platform Sample.policy (Sample.connected .forward)
    Sample.run (Sample.guardContext snapshot) hsnapshot .forward).mpr
    (edgesTurnedAs_of_forward Sample.outcomes.graph.connected_forward Sample.run)

/-- There the trigger refuses an edge in reverse that the guard lets pass. -/
theorem cycle_checks_disagree_on_reverse :
    ∃ snapshot, (reached Sample.platform Sample.policy (Sample.connected .forward)).guardSnapshot
        Sample.run = some snapshot ∧
      (reached Sample.platform Sample.policy (Sample.connected .forward)).cycleTriggerAborts
        Sample.run Sample.reversedEdge = true ∧
      Guard.edgeWouldCycle (Sample.guardContext snapshot) Sample.reversedEdge = false := by
  obtain ⟨snapshot, hsnapshot, hpasses⟩ :=
    (Option.any_eq_true _ _).mp Sample.outcomes.graph.reversed_passes
  refine ⟨snapshot, hsnapshot, ?_, ?_⟩
  · exact cycleTriggerAborts_of_contains rfl Sample.outcomes.graph.reversed_aborts
  · simpa using hpasses

end ResearchKernel
