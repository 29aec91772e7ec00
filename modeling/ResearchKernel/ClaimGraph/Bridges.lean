import ResearchKernel.ClaimGraph.Acyclic
import ResearchKernel.Kernel.Workings

/-!
# Edges that bridges justify

A bridge that is valid one way carries edges from its source to its target. The guard
compares the ends of a new edge with those of the bridge after turning an edge in reverse
around, and reads an edge in both directions as if it went forward. So a bridge that is
valid one way also justifies an edge in both directions, and with it a step back.
-/

namespace ResearchKernel

open Foundation

/-! ## The table of bridges -/

/-- The same bridge, up to the contract version that carries it. -/
def Bridge.Same (a b : Bridge) : Prop := b = { a with contractVersion := b.contractVersion }

/-- The bridges after a mutation are those before it, and new ones. -/
theorem Projection.bridges_of_apply {ctx : ProjectionContext} {db db' : Db} {m : Mutation}
    (h : applyMutation ctx db m = some db') :
    ∃ (edit : Bridge → Bridge) (added : List Bridge), (∀ bridge, Bridge.Same bridge (edit bridge)) ∧
      db'.bridges = db.bridges.map edit ++ added ∧ (added.map (·.bridgeId)).Nodup ∧
      ∀ new ∈ added, ∀ old ∈ db.bridges, old.bridgeId ≠ new.bridgeId := by
  have hframe := congrArg Workings.bridges (workings_of_apply h)
  have hsame : db'.bridges = db.bridges → ∃ (edit : Bridge → Bridge) (added : List Bridge),
      (∀ bridge, Bridge.Same bridge (edit bridge)) ∧ db'.bridges = db.bridges.map edit ++ added ∧
      (added.map (·.bridgeId)).Nodup ∧
      ∀ new ∈ added, ∀ old ∈ db.bridges, old.bridgeId ≠ new.bridgeId := by
    intro heq
    refine ⟨id, [], fun _ => rfl, ?_, List.nodup_nil, List.forall_mem_nil _⟩
    rw [heq, List.map_id, List.append_nil]
  cases m with
  | registerBridge p forward reverse =>
    obtain ⟨-, -, h⟩ := Option.bind_eq_some_iff.mp h
    obtain ⟨bridges, hbridges, h⟩ := Option.bind_eq_some_iff.mp h
    obtain ⟨hfresh, rfl⟩ := insertRow_eq_some.mp hbridges
    obtain rfl := Option.some.inj h
    refine ⟨id, [_], fun _ => rfl, by rw [List.map_id], List.nodup_singleton _, ?_⟩
    intro new hnew old hold hid
    obtain rfl := List.mem_singleton.mp hnew
    have hclash := hfresh old hold
    simp only [Bridge.clash, beq_eq_false_iff_ne] at hclash
    exact hclash hid.symm
  | migrateContractClosure version affected =>
    obtain ⟨-, -, h⟩ := Option.bind_eq_some_iff.mp h
    obtain rfl := Option.some.inj h
    refine ⟨_, [], fun bridge => ?_, (List.append_nil _).symm, List.nodup_nil,
      List.forall_mem_nil _⟩
    unfold Bridge.Same
    split <;> rfl
  | _ => exact hsame hframe

/-- No two bridges have the same identifier. -/
def Db.UniqueBridges (db : Db) : Prop := (db.bridges.map (·.bridgeId)).Nodup

theorem Db.UniqueBridges.eq {db : Db} (h : db.UniqueBridges) {a b : Bridge}
    (ha : a ∈ db.bridges) (hb : b ∈ db.bridges) (hid : a.bridgeId = b.bridgeId) : a = b :=
  List.inj_on_of_nodup_map h ha hb hid

/-- Mutations keep the identifiers of bridges distinct. -/
theorem Projection.nodup_bridgeIds_of_apply {ctx : ProjectionContext} {db db' : Db} {m : Mutation}
    (h : applyMutation ctx db m = some db') (hunique : db.UniqueBridges) : db'.UniqueBridges := by
  obtain ⟨edit, added, hedit, heq, hadded, hfresh⟩ := bridges_of_apply h
  have hids : (·.bridgeId) ∘ edit = fun bridge : Bridge => bridge.bridgeId := by
    funext bridge
    have hsame := hedit bridge
    unfold Bridge.Same at hsame
    simp only [Function.comp_apply]
    rw [hsame]
  unfold Db.UniqueBridges
  rw [heq, List.map_append, List.map_map, hids]
  refine List.nodup_append.mpr ⟨hunique, hadded, ?_⟩
  intro id hid other hother hsame
  obtain ⟨old, hold, rfl⟩ := List.mem_map.mp hid
  obtain ⟨new, hnew, rfl⟩ := List.mem_map.mp hother
  exact hfresh new hnew old hold hsame

/-! ## Justified edges -/

/-- The bridge carries every arc of the edge from its source to its target, if it is valid
one way. -/
def Bridge.Carries (bridge : Bridge) (edge : ClaimEdge) : Prop :=
  bridge.directionality = .oneWayValid →
    ∀ arc ∈ edge.arcs, arc = (bridge.sourceClaimId, bridge.targetClaimId)

/-- Every edge that is justified by a bridge has a bridge that carries it. -/
def Db.BridgesCarry (db : Db) : Prop :=
  ∀ edge ∈ db.claimEdges, edge.justificationKind = .bridge →
    ∃ bridge ∈ db.bridges, bridge.bridgeId = edge.justificationRef ∧ bridge.Carries edge

/-- A request registers no edge in both directions that a bridge justifies one way only. -/
def BridgesBothWays (db : Db) (op : ApplyOp) : Prop :=
  ∀ p, op.request.command = .registerClaimEdge p → p.justificationKind = .bridge →
    p.direction = .bidirectional → ∀ bridge ∈ db.bridges,
    bridge.bridgeId = p.justificationRef → bridge.directionality ≠ .oneWayValid

section Justification

variable {P : Platform} {policy : Policy} {db db' : Db} {op : ApplyOp}

/-- The bridge of an accepted edge is valid in the direction in which the guard reads it. -/
theorem bridge_of_registerClaimEdge {context : GuardContext} {p : RegisterClaimEdge}
    {mutations : List Mutation} (h : Guard.handleRegisterClaimEdge context p = .ok mutations)
    (hkind : p.justificationKind = .bridge) :
    ∃ bridge ∈ context.snapshot.bridges, bridge.bridgeId = p.justificationRef ∧
      Guard.bridgeCarries p bridge = true := by
  obtain ⟨⟨⟩, -, h⟩ := bind_eq_ok.mp h
  obtain ⟨⟨⟩, hjustified, -⟩ := bind_eq_ok.mp h
  simp only [rejectIf_eq_ok, Bool.or_eq_false_iff, Bool.not_eq_false', Guard.justificationExists,
    hkind, Option.any_eq_true] at hjustified
  obtain ⟨bridge, hfound, hcarries⟩ := hjustified.2
  obtain ⟨hmem, hid⟩ := mem_of_lookup_records hfound
  exact ⟨bridge, hmem, hid, hcarries⟩

theorem Acceptance.mem_bridges (acceptance : Acceptance P policy db op db') {bridge : Bridge}
    (h : bridge ∈ acceptance.snapshot.bridges) : bridge ∈ db.bridges := by
  obtain ⟨run, -, hsnapshot⟩ := Option.bind_eq_some_iff.mp acceptance.snapshot_eq
  rw [← Option.some.inj hsnapshot] at h
  obtain ⟨rows, hstart⟩ := ensureCapability_eq _ _ acceptance.ensured
  have hmem := (List.mem_filter.mp h).1
  rw [hstart] at hmem
  exact hmem

/-- An edge that goes one way is carried as the guard has read it. -/
theorem carries_of_bridgeCarries {p : RegisterClaimEdge} {bridge : Bridge} {edge : ClaimEdge}
    (h : Guard.bridgeCarries p bridge = true) (hdirection : p.direction ≠ .bidirectional)
    (hfrom : edge.fromClaimId = p.fromClaimId) (hto : edge.toClaimId = p.toClaimId)
    (hsame : edge.direction = p.direction) : bridge.Carries edge := by
  intro honeWay arc harc
  rw [arcs_eq_searchArc (hsame ▸ hdirection), hfrom, hto, hsame] at harc
  simp only [Guard.bridgeCarries, honeWay, Directionality.isValid, Bool.true_and, Bool.or_eq_true,
    beq_iff_eq, Bool.and_eq_true, reduceCtorEq, and_false, or_false] at h
  rw [harc, h]

/-- A request that respects the direction of bridges keeps every edge carried. -/
theorem Acceptance.bridgesCarry (acceptance : Acceptance P policy db op db')
    (hcond : BridgesBothWays db op) (hunique : db.UniqueBridges) (h : db.BridgesCarry) :
    db'.UniqueBridges ∧ db'.BridgesCarry := by
  refine acceptance.preserves (I := fun db => db.UniqueBridges ∧ db.BridgesCarry) ?_
    ⟨hunique, h⟩ ?_
  · rintro before after hsame ⟨hids, hcarry⟩
    have hbridges : after.bridges = before.bridges := congrArg Workings.bridges hsame.workings
    have hedges : after.claimEdges = before.claimEdges := hsame.sameRecords.claimEdges
    unfold Db.UniqueBridges Db.BridgesCarry
    rw [hbridges, hedges]
    exact ⟨hids, hcarry⟩
  · rintro m before after happlies ⟨hids, hcarry⟩
    refine ⟨Projection.nodup_bridgeIds_of_apply happlies.applied hids, ?_⟩
    obtain ⟨edit, added, hedit, hbridges, -, -⟩ := Projection.bridges_of_apply happlies.applied
    -- A bridge that carries an edge before the mutation carries it after it.
    have hkept : ∀ (edge edge' : ClaimEdge), edge'.arcs = edge.arcs →
        edge'.justificationRef = edge.justificationRef →
        (∃ bridge ∈ before.bridges, bridge.bridgeId = edge.justificationRef ∧
          bridge.Carries edge) →
        ∃ bridge ∈ after.bridges, bridge.bridgeId = edge'.justificationRef ∧
          bridge.Carries edge' := by
      rintro edge edge' harcs href ⟨bridge, hbridge, hid, hcarries⟩
      have hsame := hedit bridge
      unfold Bridge.Same at hsame
      refine ⟨edit bridge, ?_, ?_, ?_⟩
      · rw [hbridges]
        exact List.mem_append_left _ (List.mem_map_of_mem hbridge)
      · rw [hsame, href]
        exact hid
      · unfold Bridge.Carries
        rw [hsame, harcs]
        exact hcarries
    intro edge' hedge' hkind
    rcases Projection.exists_edge_of_apply happlies.applied hedge' with
      ⟨edge, hedge, heq, -⟩ | hnew
    · rw [heq] at hkind
      refine hkept edge edge' ?_ ?_ (hcarry edge hedge hkind)
      · rw [heq]
        rfl
      · rw [heq]
    · cases m with
      | registerClaimEdge p =>
        obtain rfl := List.mem_singleton.mp hnew
        have hemitted := Guard.emitted_of_handle acceptance.handled _ happlies.mem
        obtain ⟨hcommand, hmutations, hhandle⟩ := hemitted
        have hbody : SameBody db before := by
          rcases happlies.place with hfirst | htail
          · exact hfirst
          · rw [hmutations] at htail
            simp at htail
        obtain ⟨bridge, hbridge, hid, hcarries⟩ := bridge_of_registerClaimEdge hhandle hkind
        have hmem : bridge ∈ before.bridges := by
          rw [show before.bridges = db.bridges from congrArg Workings.bridges hbody.workings]
          exact acceptance.mem_bridges hbridge
        refine hkept _ _ rfl rfl ⟨bridge, hmem, hid, ?_⟩
        by_cases hboth : p.direction = .bidirectional
        · intro honeWay
          exact absurd honeWay (hcond p hcommand hkind hboth bridge
            (acceptance.mem_bridges hbridge) hid)
        · exact carries_of_bridgeCarries hcarries hboth rfl rfl rfl
      | _ => cases hnew

/-- An operation that respects the direction of bridges keeps every edge carried. -/
theorem bridgesCarry_step (op : Op) (hcond : OnAccepted P policy BridgesBothWays db op)
    (h : db.UniqueBridges ∧ db.BridgesCarry) :
    (step P policy db op).UniqueBridges ∧ (step P policy db op).BridgesCarry := by
  rcases @work_cases P policy db op with hwork | ⟨op, rfl, haccepts⟩
  · rcases @step_cases P policy db op with frame | ⟨op, rfl, haccepts, -⟩
    · have hbridges : (step P policy db op).bridges = db.bridges := hwork.bridges
      have hedges : (step P policy db op).claimEdges = db.claimEdges := frame.claimEdges
      unfold Db.UniqueBridges Db.BridgesCarry
      rw [hbridges, hedges]
      exact h
    · obtain ⟨acceptance⟩ := acceptance_of_accepts haccepts
      exact acceptance.bridgesCarry (hcond haccepts) h.1 h.2
  · obtain ⟨acceptance⟩ := acceptance_of_accepts haccepts
    exact acceptance.bridgesCarry (hcond haccepts) h.1 h.2

end Justification

/-- In every run that registers no edge in both directions by a bridge that is valid one way,
such bridges justify only steps from their source to their target. -/
theorem one_way_bridges_of_respected (P : Platform) (policy : Policy) (ops : List Op)
    (hcond : StepsSatisfy (step P policy) (OnAccepted P policy BridgesBothWays) Db.empty ops) :
    ∀ edge ∈ (reached P policy ops).claimEdges, edge.status = .active →
      edge.justificationKind = .bridge → ∀ bridge ∈ (reached P policy ops).bridges,
      bridge.bridgeId = edge.justificationRef → bridge.directionality = .oneWayValid →
      ∀ arc ∈ edge.arcs, arc = (bridge.sourceClaimId, bridge.targetClaimId) := by
  have hinv := @runFrom_invariant_of Db Op (step P policy)
    (fun db => db.UniqueBridges ∧ db.BridgesCarry) (OnAccepted P policy BridgesBothWays) Db.empty
    ⟨List.nodup_nil, List.forall_mem_nil _⟩ (fun db op h hstep => bridgesCarry_step op hstep h)
    ops hcond
  intro edge hedge _ hkind bridge hbridge hid honeWay
  obtain ⟨own, hown, hownId, hcarries⟩ := hinv.2 edge hedge hkind
  obtain rfl : own = bridge := Db.UniqueBridges.eq hinv.1 hown hbridge (hownId.trans hid.symm)
  exact hcarries honeWay

/-- The bridge of the sample justifies an edge forward, and only a step to its target. -/
theorem one_way_bridges_of_forward :
    ∃ edge ∈ (reached Sample.platform Sample.policy (Sample.bridged .forward)).claimEdges,
      edge.status = .active ∧ edge.justificationKind = .bridge ∧
      ∃ bridge ∈ (reached Sample.platform Sample.policy (Sample.bridged .forward)).bridges,
        bridge.bridgeId = edge.justificationRef ∧ bridge.directionality = .oneWayValid ∧
          ∀ arc ∈ edge.arcs, arc = (bridge.sourceClaimId, bridge.targetClaimId) := by
  have hcond : StepsSatisfy (step Sample.platform Sample.policy)
      (OnAccepted Sample.platform Sample.policy BridgesBothWays) Db.empty
      (Sample.bridged .forward) := by
    refine StepsSatisfy.of_forall ?_
    simp [Sample.bridged, Sample.frozen, Sample.create, OnAccepted, BridgesBothWays,
      Sample.request, Sample.registerRoot, Sample.freeze, Sample.registerLemma,
      Sample.registerBridge, Sample.registerBridgeEdge]
  obtain ⟨edge, hedge, hactive, hkind, bridge, hbridge, hid, honeWay⟩ :=
    Sample.outcomes.graph.bridged_one_way
  exact ⟨edge, hedge, hactive, hkind, bridge, hbridge, hid, honeWay,
    one_way_bridges_of_respected _ _ _ hcond edge hedge hactive hkind bridge hbridge hid honeWay⟩

/-- The same bridge justifies an edge in both directions. -/
theorem one_way_bridge_both_ways :
    ∃ edge ∈ (reached Sample.platform Sample.policy (Sample.bridged .bidirectional)).claimEdges,
      edge.status = .active ∧ edge.justificationKind = .bridge ∧
      ∃ bridge ∈ (reached Sample.platform Sample.policy (Sample.bridged .bidirectional)).bridges,
        bridge.bridgeId = edge.justificationRef ∧ bridge.directionality = .oneWayValid ∧
          ∃ arc ∈ edge.arcs, arc ≠ (bridge.sourceClaimId, bridge.targetClaimId) :=
  Sample.outcomes.graph.bridged_both_ways

end ResearchKernel
