import Mathlib.Data.List.Dedup
import ResearchKernel.Foundation.Levels
import ResearchKernel.Product.GraphQuery

/-!
# The preview of a revocation is complete

The preview returns the claims that a search of sixty levels finds. It is the whole closure of
the target exactly when no claim of the closure lies further away; a bound on the number of
claims stops the preview, the bound on the number of levels does not.
-/

namespace ResearchKernel.Product

open Foundation Relation

/-! ## The closure -/

section Closure

variable (index : GraphIndex) (runId : Id)

def Dependable (claimId : Id) : Prop :=
  ∃ node ∈ index.nodes, node.runId = runId ∧ node.claimId = claimId ∧ node.dependable = true

/-- An edge of the run leads from the first claim to the second. -/
def Precedes (a b : Id) : Prop :=
  ∃ edge ∈ index.edges, edge.runId = runId ∧ (a, b) ∈ edgeArcs edge

/-- An edge of the run leads from the first claim to the second, which is dependable. -/
def Leads (a b : Id) : Prop := Precedes index runId a b ∧ Dependable index runId b

/-- A dependable claim that is reachable from the target through dependable claims. -/
def Affected (target claimId : Id) : Prop :=
  Dependable index runId target ∧ ReflTransGen (Leads index runId) target claimId

end Closure

/-! ## Reading the index -/

section Reading

variable {index : GraphIndex} {runId : Id}

/-- A claim that is read from a row has its identifier and its mark. -/
theorem indexedNode_eq {row : GraphNodeRow} {node : IndexedGraphNode}
    (h : indexedNode row = .ok node) :
    node.claimId = row.claimId ∧ node.dependable = row.dependable := by
  unfold indexedNode at h
  obtain ⟨axes, -, h⟩ := bind_eq_ok.mp h
  obtain ⟨⟨⟩, -, h⟩ := bind_eq_ok.mp h
  obtain ⟨routeId, -, h⟩ := bind_eq_ok.mp h
  cases pure_eq_ok.mp h
  exact ⟨rfl, rfl⟩

theorem eq_of_claimId {a b : GraphNodeRow} (ha : a ∈ index.nodes) (hb : b ∈ index.nodes)
    (hrun : a.runId = b.runId) (hid : a.claimId = b.claimId) : a = b :=
  List.inj_on_of_nodup_map index.unique ha hb (Prod.ext hrun hid)

variable {claimIds : List Id} {nodes : List IndexedGraphNode}

/-- Every claim that is read is one of those asked for. -/
theorem mem_loadNodes (h : index.loadNodes runId claimIds = .ok nodes) {node : IndexedGraphNode}
    (hnode : node ∈ nodes) : ∃ row ∈ index.nodes, row.runId = runId ∧ row.claimId ∈ claimIds ∧
      node.claimId = row.claimId ∧ node.dependable = row.dependable := by
  obtain ⟨row, hrow, hread⟩ := exists_left_of_forall₂ (mapM_eq_ok.mp h) node hnode
  simp only [List.mem_filter, Bool.and_eq_true, beq_iff_eq, List.contains_iff_mem] at hrow
  obtain ⟨hid, hdependable⟩ := indexedNode_eq hread
  exact ⟨row, hrow.1, hrow.2.1, hrow.2.2, hid, hdependable⟩

/-- The claims that are read and dependable are the dependable ones among those asked for. -/
theorem find?_loadNodes (h : index.loadNodes runId claimIds = .ok nodes) (claimId : Id) :
    (∃ node, nodes.find? (·.claimId == claimId) = some node ∧ node.dependable = true) ↔
      claimId ∈ claimIds ∧ Dependable index runId claimId := by
  constructor
  · rintro ⟨node, hfind, hdependable⟩
    have hid : node.claimId = claimId := by simpa using List.find?_some hfind
    obtain ⟨row, hrow, hrun, hmem, hrowId, hrowDependable⟩ :=
      mem_loadNodes h (List.mem_of_find?_eq_some hfind)
    have heq : row.claimId = claimId := hrowId.symm.trans hid
    exact ⟨heq ▸ hmem, row, hrow, hrun, heq, hrowDependable.symm.trans hdependable⟩
  · rintro ⟨hmem, row, hrow, hrun, hid, hdependable⟩
    obtain ⟨node, hnode, hread⟩ := exists_of_forall₂ (mapM_eq_ok.mp h) row (by
      simp [hrow, hrun, hid, hmem])
    have hnodeId : node.claimId = claimId := (indexedNode_eq hread).1.trans hid
    have hsome : (nodes.find? (·.claimId == claimId)).isSome = true :=
      List.find?_isSome.mpr ⟨node, hnode, by simp [hnodeId]⟩
    obtain ⟨found, hfound⟩ := Option.isSome_iff_exists.mp hsome
    refine ⟨found, hfound, ?_⟩
    have hfoundId : found.claimId = claimId := by simpa using List.find?_some hfound
    obtain ⟨row', hrow', hrun', -, hid', hdependable'⟩ :=
      mem_loadNodes h (List.mem_of_find?_eq_some hfound)
    have hsame : row' = row := eq_of_claimId hrow' hrow (hrun'.trans hrun.symm)
      (hid'.symm.trans (hfoundId.trans hid.symm))
    rw [hdependable', hsame]
    exact hdependable

theorem mem_ends_of_mem_edgeArcs {edge : GraphEdgeRow} {a b : Id} (h : (a, b) ∈ edgeArcs edge) :
    a = edge.fromClaimId ∨ a = edge.toClaimId := by
  unfold edgeArcs at h
  rcases List.mem_append.mp h with h | h
  · split at h
    · cases h
    · exact Or.inl (congrArg Prod.fst (List.mem_singleton.mp h))
  · split at h
    · cases h
    · exact Or.inr (congrArg Prod.fst (List.mem_singleton.mp h))

/-- The steps along the arcs that leave a claim. -/
theorem mem_edgeTransitions {edge : GraphEdgeRow} {current : Id} {step : Transition} :
    step ∈ edgeTransitions edge current .successors ↔
      ∃ b, (current, b) ∈ edgeArcs edge ∧ step = ⟨current, b, .successor⟩ := by
  unfold edgeTransitions
  simp only [List.mem_flatMap, List.mem_append]
  constructor
  · rintro ⟨⟨a, b⟩, harc, hstep | hstep⟩
    · split at hstep
      · next hcurrent =>
        have ha : a = current := by simpa using hcurrent
        exact ⟨b, ha ▸ harc, List.mem_singleton.mp hstep⟩
      · cases hstep
    · simp at hstep
  · rintro ⟨b, harc, rfl⟩
    exact ⟨(current, b), harc, Or.inl (by simp)⟩

/-- The steps from a frontier are those along edges of the run. -/
theorem mem_frontierTransitions {request : GraphSliceRequest}
    (hdirection : request.direction = .successors) {frontier : List Id} {step : Transition} :
    step ∈ frontierTransitions request index frontier ↔ ∃ a ∈ frontier, ∃ b,
      Precedes index request.runId a b ∧ step = ⟨a, b, .successor⟩ := by
  unfold frontierTransitions GraphIndex.touchingEdges
  simp only [List.mem_insertionSort, List.mem_dedup, List.mem_flatMap, List.mem_filter,
    Bool.and_eq_true, beq_iff_eq, List.contains_iff_mem, hdirection, mem_edgeTransitions,
    List.mem_cons, List.not_mem_nil, or_false]
  constructor
  · rintro ⟨edge, ⟨hedge, hrun, -⟩, a, ⟨-, ha⟩, b, harc, rfl⟩
    exact ⟨a, ha, b, ⟨edge, hedge, hrun, harc⟩, rfl⟩
  · rintro ⟨a, ha, b, ⟨edge, hedge, hrun, harc⟩, rfl⟩
    have hends := mem_ends_of_mem_edgeArcs harc
    refine ⟨edge, ⟨hedge, hrun, ?_⟩, a, ⟨hends, ha⟩, b, harc, rfl⟩
    rw [Bool.or_eq_true, List.contains_iff_mem, List.contains_iff_mem]
    rcases hends with rfl | rfl
    · exact Or.inl ha
    · exact Or.inr ha

end Reading

/-! ## One level -/

section Following

variable {P : Platform} {request : GraphSliceRequest} {candidates : List IndexedGraphNode}
variable {level : ℕ}

/-- A request for dependable claims along the edges that leave a claim, without filters. -/
structure PlainClosure (request : GraphSliceRequest) : Prop where
  mode : request.mode = .verified
  direction : request.direction = .successors
  filters : request.filters = {}

/-- Without filters a step visits its neighbor if the neighbor is dependable. -/
theorem follow_eq (h : PlainClosure request) (state : Traversal × List Id) (step : Transition) :
    follow P request candidates level state step = state ∧
        (step.neighbor ∈ state.1.orderedIds ∨
          ¬ ∃ node, candidates.find? (·.claimId == step.neighbor) = some node ∧
            node.dependable = true) ∨
      ∃ node, candidates.find? (·.claimId == step.neighbor) = some node ∧
        node.dependable = true ∧ step.neighbor ∉ state.1.orderedIds ∧
        (follow P request candidates level state step).1.orderedIds =
          state.1.orderedIds ++ [step.neighbor] ∧
        (follow P request candidates level state step).1.nodes = state.1.nodes ++ [node] ∧
        (follow P request candidates level state step).2 = state.2 ++ [step.neighbor] := by
  unfold follow
  split
  · next hvisited => exact Or.inl ⟨rfl, Or.inl (List.contains_iff_mem.mp hvisited)⟩
  · next hnew =>
    split
    · next hnone =>
      refine Or.inl ⟨rfl, Or.inr ?_⟩
      rintro ⟨node, hsome, -⟩
      rw [hnone] at hsome
      cases hsome
    · next node hsome =>
      have hroute : routeOnlyMismatch node request.filters = false := by
        simp [routeOnlyMismatch, h.filters]
      have hother : otherFiltersMatch node request.filters = true := by
        simp [otherFiltersMatch, admits, h.filters]
      simp only [hroute, hother, h.mode, modeMatches, Bool.false_eq_true, if_false, Bool.not_true]
      split
      · next hnot =>
        refine Or.inl ⟨rfl, Or.inr ?_⟩
        rintro ⟨other, hother', hdependable⟩
        rw [hsome] at hother'
        cases hother'
        simp [hdependable] at hnot
      · next hdependable =>
        refine Or.inr ⟨node, hsome, by simpa using hdependable, ?_, rfl, rfl, rfl⟩
        rwa [List.contains_iff_mem] at hnew

/-- What a step visits. -/
theorem mem_follow (h : PlainClosure request) (state : Traversal × List Id) (step : Transition)
    (b : Id) :
    b ∈ (follow P request candidates level state step).1.orderedIds ↔
      b ∈ state.1.orderedIds ∨ b = step.neighbor ∧
        ∃ node, candidates.find? (·.claimId == b) = some node ∧ node.dependable = true := by
  rcases @follow_eq P request candidates level h state step with
    ⟨heq, hstays⟩ | ⟨node, hfind, hdependable, hnew, hordered, -, -⟩
  · rw [heq]
    constructor
    · exact Or.inl
    · rintro (hb | ⟨rfl, hnode⟩)
      · exact hb
      · rcases hstays with hvisited | hnone
        · exact hvisited
        · exact absurd hnode hnone
  · rw [hordered, List.mem_append, List.mem_singleton]
    constructor
    · rintro (hb | rfl)
      · exact Or.inl hb
      · exact Or.inr ⟨rfl, node, hfind, hdependable⟩
    · rintro (hb | ⟨hb, -⟩)
      · exact Or.inl hb
      · exact Or.inr hb

/-- The next frontier is what the level has newly visited. -/
theorem mem_follow_frontier (h : PlainClosure request) (state : Traversal × List Id)
    (step : Transition) (b : Id) :
    b ∈ (follow P request candidates level state step).2 ↔ b ∈ state.2 ∨
      b ∈ (follow P request candidates level state step).1.orderedIds ∧
        b ∉ state.1.orderedIds := by
  rcases @follow_eq P request candidates level h state step with
    ⟨heq, -⟩ | ⟨node, -, -, hnew, hordered, -, hfrontier⟩
  · rw [heq]
    simp
  · rw [hordered, hfrontier, List.mem_append, List.mem_singleton, List.mem_append,
      List.mem_singleton]
    constructor
    · rintro (hb | rfl)
      · exact Or.inl hb
      · exact Or.inr ⟨Or.inr rfl, hnew⟩
    · rintro (hb | ⟨hb | hb, hnot⟩)
      · exact Or.inl hb
      · exact absurd hb hnot
      · exact Or.inr hb

/-- What the steps of a level visit, and the frontier that they leave. -/
theorem mem_foldl_follow (h : PlainClosure request) (steps : List Transition)
    (state : Traversal × List Id) (b : Id) :
    (b ∈ (steps.foldl (follow P request candidates level) state).1.orderedIds ↔
      b ∈ state.1.orderedIds ∨ (∃ step ∈ steps, step.neighbor = b) ∧
        ∃ node, candidates.find? (·.claimId == b) = some node ∧ node.dependable = true) ∧
    (b ∈ (steps.foldl (follow P request candidates level) state).2 ↔ b ∈ state.2 ∨
      b ∈ (steps.foldl (follow P request candidates level) state).1.orderedIds ∧
        b ∉ state.1.orderedIds) := by
  induction steps generalizing state with
  | nil => simp
  | cons step steps ih =>
    obtain ⟨hordered, hfrontier⟩ := ih (follow P request candidates level state step)
    have hmem := @mem_follow P request candidates level h state step b
    have hmemFrontier := @mem_follow_frontier P request candidates level h state step b
    rw [List.foldl_cons]
    constructor
    · rw [hordered, hmem]
      simp only [List.mem_cons, exists_eq_or_imp]
      constructor
      · rintro ((hb | ⟨rfl, hnode⟩) | ⟨hsteps, hnode⟩)
        · exact Or.inl hb
        · exact Or.inr ⟨Or.inl rfl, hnode⟩
        · exact Or.inr ⟨Or.inr hsteps, hnode⟩
      · rintro (hb | ⟨hstep | hsteps, hnode⟩)
        · exact Or.inl (Or.inl hb)
        · exact Or.inl (Or.inr ⟨hstep.symm, hnode⟩)
        · exact Or.inr ⟨hsteps, hnode⟩
    · rw [hfrontier, hmemFrontier]
      have hgrows : b ∈ (follow P request candidates level state step).1.orderedIds →
          b ∈ (steps.foldl (follow P request candidates level)
            (follow P request candidates level state step)).1.orderedIds :=
        fun hb => hordered.mpr (Or.inl hb)
      constructor
      · rintro ((hb | ⟨hb, hnot⟩) | ⟨hb, hnot⟩)
        · exact Or.inl hb
        · exact Or.inr ⟨hgrows hb, hnot⟩
        · exact Or.inr ⟨hb, fun hold => hnot (hmem.mpr (Or.inl hold))⟩
      · rintro (hb | ⟨hb, hnot⟩)
        · exact Or.inl (Or.inl hb)
        · by_cases hstep : b ∈ (follow P request candidates level state step).1.orderedIds
          · exact Or.inl (Or.inr ⟨hstep, hnot⟩)
          · exact Or.inr ⟨hb, hstep⟩

/-- Every visited claim has been read. -/
def Traversal.Loaded (state : Traversal) : Prop :=
  ∀ id ∈ state.orderedIds, ∃ node ∈ state.nodes, node.claimId = id

theorem Traversal.Loaded.follow (h : PlainClosure request) {state : Traversal × List Id}
    (hloaded : state.1.Loaded) (step : Transition) :
    (Product.follow P request candidates level state step).1.Loaded := by
  rcases @follow_eq P request candidates level h state step with
    ⟨heq, -⟩ | ⟨node, hfind, -, -, hordered, hnodes, -⟩
  · rw [heq]
    exact hloaded
  · unfold Traversal.Loaded
    rw [hordered, hnodes]
    intro id hid
    rcases List.mem_append.mp hid with hold | hnew
    · obtain ⟨old, hmem, holdId⟩ := hloaded id hold
      exact ⟨old, List.mem_append_left _ hmem, holdId⟩
    · refine ⟨node, List.mem_append_right _ (List.mem_singleton_self node), ?_⟩
      rw [List.mem_singleton.mp hnew]
      simpa using List.find?_some hfind

theorem Traversal.Loaded.foldl_follow (h : PlainClosure request) {state : Traversal × List Id}
    (hloaded : state.1.Loaded) (steps : List Transition) :
    (steps.foldl (Product.follow P request candidates level) state).1.Loaded := by
  induction steps generalizing state with
  | nil => exact hloaded
  | cons step steps ih => exact ih (hloaded.follow h step)

end Following

/-! ## All levels -/

section Levels

variable {P : Platform} {request : GraphSliceRequest} {index : GraphIndex} {start : Id}

/-- The levels that remain visit what is reachable in so many more steps. -/
theorem level_traverseLevels (h : PlainClosure request) {remaining level n : ℕ}
    {frontier : List Id} {state result : Traversal}
    (hlevel : Level (Leads index request.runId) start n (· ∈ state.orderedIds) (· ∈ frontier))
    (hfrontier : ∀ a ∈ frontier, a ∈ state.orderedIds) (hloaded : state.Loaded)
    (hok : traverseLevels P request index remaining level frontier state = .ok result) :
    (∀ a, a ∈ result.orderedIds ↔ Within (Leads index request.runId) start (n + remaining) a) ∧
      result.Loaded := by
  induction remaining generalizing level n frontier state with
  | zero =>
    cases hok
    exact ⟨hlevel.visited_iff, hloaded⟩
  | succ remaining ih =>
    unfold traverseLevels at hok
    split at hok
    · next hempty =>
      cases hok
      have hnone : ∀ a, a ∉ frontier := by
        rw [List.isEmpty_iff.mp hempty]
        simp
      exact ⟨(hlevel.complete hnone (remaining + 1)).visited_iff, hloaded⟩
    · obtain ⟨candidates, hcandidates, hok⟩ := bind_eq_ok.mp hok
      have hfold := @mem_foldl_follow P request candidates level h
        (frontierTransitions request index frontier) (state, [])
      have hvisited : ∀ b, b ∈ ((frontierTransitions request index frontier).foldl
          (follow P request candidates level) (state, [])).1.orderedIds ↔
          b ∈ state.orderedIds ∨ ∃ a, a ∈ frontier ∧ Leads index request.runId a b := by
        intro b
        rw [(hfold b).1, find?_loadNodes hcandidates]
        simp only [List.mem_filter, List.mem_map, Bool.not_eq_true', List.contains_eq_mem,
          decide_eq_false_iff_not]
        constructor
        · rintro (hb | ⟨-, ⟨⟨step, hstep, rfl⟩, -⟩, hdependable⟩)
          · exact Or.inl hb
          · obtain ⟨a, ha, b, hprecedes, rfl⟩ := (mem_frontierTransitions h.direction).mp hstep
            exact Or.inr ⟨a, ha, hprecedes, hdependable⟩
        · rintro (hb | ⟨a, ha, hprecedes, hdependable⟩)
          · exact Or.inl hb
          · by_cases hold : b ∈ state.orderedIds
            · exact Or.inl hold
            · have hstep := (mem_frontierTransitions h.direction).mpr ⟨a, ha, b, hprecedes, rfl⟩
              exact Or.inr ⟨⟨_, hstep, rfl⟩, ⟨⟨_, hstep, rfl⟩, hold⟩, hdependable⟩
      have hnext : Level (Leads index request.runId) start (n + 1)
          (· ∈ ((frontierTransitions request index frontier).foldl
            (follow P request candidates level) (state, [])).1.orderedIds)
          (· ∈ (((frontierTransitions request index frontier).foldl
            (follow P request candidates level) (state, [])).2.dedup).insertionSort (· ≤ ·)) := by
        refine hlevel.next hfrontier hvisited ?_
        intro b hb hnew
        rw [List.mem_insertionSort, List.mem_dedup]
        exact ((hfold b).2).mpr (Or.inr ⟨hb, hnew⟩)
      have hrest := ih hnext (by
        intro b hb
        rw [List.mem_insertionSort, List.mem_dedup] at hb
        rcases ((hfold b).2).mp hb with hnil | ⟨hb, -⟩
        · cases hnil
        · exact hb) (Traversal.Loaded.foldl_follow h hloaded _) hok
      rwa [Nat.add_assoc, Nat.add_comm 1 remaining] at hrest

/-- The traversal from one claim visits what is reachable in as many steps as it has levels.
The claim itself is dependable. -/
theorem mem_traverse (h : PlainClosure request) (hseeds : request.seedIds = [start])
    {result : Traversal} (hok : traverse P request index = .ok result) :
    Dependable index request.runId start ∧ result.Loaded ∧
      ∀ a, a ∈ result.orderedIds ↔ Within (Leads index request.runId) start request.depth a := by
  have hsorted : [start].dedup.insertionSort (· ≤ ·) = [start] := by simp
  unfold traverse at hok
  rw [hseeds] at hok
  simp only [hsorted] at hok
  obtain ⟨seedNodes, hread, hok⟩ := bind_eq_ok.mp hok
  obtain ⟨⟨⟩, hpresent, hok⟩ := bind_eq_ok.mp hok
  obtain ⟨⟨⟩, hmatches, hok⟩ := bind_eq_ok.mp hok
  rw [rejectIf_eq_ok] at hpresent hmatches
  obtain ⟨node, hnode, hid⟩ : ∃ node ∈ seedNodes, node.claimId = start := by
    simpa using hpresent
  obtain ⟨row, hrow, hrun, -, hrowId, hrowDependable⟩ := mem_loadNodes hread hnode
  have hdependable : node.dependable = true := by
    have hall := List.any_eq_false.mp hmatches node hnode
    simp only [Bool.not_eq_true', Bool.and_eq_false_iff, not_or, Bool.not_eq_false, h.mode,
      modeMatches] at hall
    exact hall.1.1
  refine ⟨⟨row, hrow, hrun, hrowId.symm.trans hid, hrowDependable.symm.trans hdependable⟩, ?_⟩
  have hlevel : Level (Leads index request.runId) start 0 (· ∈ [start]) (· ∈ [start]) :=
    Level.first (fun a => List.mem_singleton) (fun a ha => ha)
  have hfirst : Traversal.Loaded
      { orderedIds := [start]
        nodes := seedNodes
        paths := [start].map fun seed => (seed, [seed])
        boundaries := []
        maxDepth := 0 } := by
    intro id hmem
    rw [List.mem_singleton.mp hmem]
    exact ⟨node, hnode, hid⟩
  obtain ⟨hvisited, hresult⟩ := level_traverseLevels h hlevel (fun a ha => ha) hfirst hok
  rw [Nat.zero_add] at hvisited
  exact ⟨hresult, hvisited⟩

/-- A page that is not truncated shows every claim that was visited. -/
theorem mem_sliceAt (h : PlainClosure request) (hseeds : request.seedIds = [start])
    {page : GraphSlice} (hok : sliceAt P request index = .ok page)
    (hwhole : page.truncated = false) :
    Dependable index request.runId start ∧ ∀ a, a ∈ page.nodes.map (·.claimId) ↔
      Within (Leads index request.runId) start request.depth a := by
  unfold sliceAt at hok
  obtain ⟨traversal, htraverse, hok⟩ := bind_eq_ok.mp hok
  obtain ⟨hdependable, hloaded, hvisited⟩ := mem_traverse h hseeds htraverse
  cases pure_eq_ok.mp hok
  refine ⟨hdependable, ?_⟩
  have hall : traversal.orderedIds.take request.nodeLimit = traversal.orderedIds := by
    apply List.take_of_length_le
    simp only [decide_eq_false_iff_not, not_lt] at hwhole
    omega
  intro a
  rw [← hvisited, hall, List.mem_map]
  constructor
  · rintro ⟨node, hnode, rfl⟩
    obtain ⟨id, hid, hfind⟩ := List.mem_filterMap.mp hnode
    have hnodeId : node.claimId = id := by simpa using List.find?_some hfind
    rwa [hnodeId]
  · intro ha
    obtain ⟨node, hnode, hid⟩ := hloaded a ha
    have hsome : (traversal.nodes.find? (·.claimId == a)).isSome = true :=
      List.find?_isSome.mpr ⟨node, hnode, by simp [hid]⟩
    obtain ⟨found, hfound⟩ := Option.isSome_iff_exists.mp hsome
    exact ⟨found, List.mem_filterMap.mpr ⟨a, ha, hfound⟩, by simpa using List.find?_some hfound⟩

end Levels

/-! ## The preview -/

section Preview

variable {P : Platform} {reader : RevocationPreviewReader} {index : GraphIndex}
variable {fence : RevocationGraphFence} {runId target : Id} {closure : RevocationClosure}

/-- A preview shows the claims within sixty steps of the target, which is dependable. -/
theorem mem_preview (hok : reader.preview P index fence runId target = .ok closure) :
    Dependable index runId target ∧ ∀ a, a ∈ closure.affectedFactIds ↔
      Within (Leads index runId) target 60 a := by
  unfold RevocationPreviewReader.preview at hok
  obtain ⟨⟨⟩, -, hok⟩ := bind_eq_ok.mp hok
  obtain ⟨page, hpage, hok⟩ := bind_eq_ok.mp hok
  obtain ⟨⟨⟩, hwhole, hok⟩ := bind_eq_ok.mp hok
  rw [rejectIf_eq_ok] at hwhole
  unfold slice at hpage
  obtain ⟨⟨⟩, -, hpage⟩ := bind_eq_ok.mp hpage
  rw [ite_eq_ok] at hpage
  rcases hpage with ⟨-, hpage⟩ | ⟨-, hpage⟩
  · obtain ⟨hdependable, hnodes⟩ :=
      @mem_sliceAt P (closureSlice runId fence target reader.nodeLimit .successors) index target
        ⟨rfl, rfl, rfl⟩ rfl page hpage hwhole
    refine ⟨hdependable, ?_⟩
    unfold RevocationClosure.check at hok
    obtain ⟨⟨⟩, -, hok⟩ := bind_eq_ok.mp hok
    obtain ⟨⟨⟩, -, hok⟩ := bind_eq_ok.mp hok
    obtain ⟨⟨⟩, -, hok⟩ := bind_eq_ok.mp hok
    cases pure_eq_ok.mp hok
    intro a
    rw [List.mem_insertionSort]
    exact hnodes a
  · split at hpage
    · cases hpage
    · cases hpage

/-- A preview that is returned shows exactly the closure of the target if and only if no claim
of the closure is more than sixty steps away. -/
theorem preview_complete_iff (hok : reader.preview P index fence runId target = .ok closure) :
    (∀ a, a ∈ closure.affectedFactIds ↔ Affected index runId target a) ↔
      ∀ a, Affected index runId target a → Within (Leads index runId) target 60 a := by
  obtain ⟨hdependable, hshown⟩ := mem_preview hok
  constructor
  · intro hexact a ha
    exact (hshown a).mp ((hexact a).mpr ha)
  · intro hnear a
    rw [hshown]
    exact ⟨fun hwithin => ⟨hdependable, hwithin.path⟩, hnear a⟩

end Preview

/-! ## A chain of claims -/

namespace Sample

/-- The claims of a chain. -/
def chainId (i : ℕ) : Id := String.singleton (Char.ofNat (65 + i))

/-- A claim of a chain in the index. -/
def chainNode (i : ℕ) : GraphNodeRow where
  runId := "run"
  claimId := chainId i
  lifecycle := "ACTIVE"
  dependable := true
  claimType := "LEMMA"
  authorityAxes := .obj [("machine", .str "VERIFIED")]
  verificationMethod := "LEAN"
  routeId := some "route"

/-- The edge from a claim of a chain to the next one. -/
def chainEdge (i : ℕ) : GraphEdgeRow := ⟨"run", chainId i, chainId i, chainId (i + 1), .forward⟩

theorem chain_joined (n : ℕ) : ∀ edge ∈ (List.range n).map chainEdge,
    (∃ node ∈ (List.range (n + 1)).map chainNode, node.runId = edge.runId ∧
      node.claimId = edge.fromClaimId) ∧
    ∃ node ∈ (List.range (n + 1)).map chainNode, node.runId = edge.runId ∧
      node.claimId = edge.toClaimId := by
  intro edge hedge
  obtain ⟨i, hi, rfl⟩ := List.mem_map.mp hedge
  have hi' := List.mem_range.mp hi
  constructor
  · exact ⟨chainNode i, List.mem_map.mpr ⟨i, List.mem_range.mpr (by omega), rfl⟩, rfl, rfl⟩
  · exact ⟨chainNode (i + 1), List.mem_map.mpr ⟨i + 1, List.mem_range.mpr (by omega), rfl⟩,
      rfl, rfl⟩

def chain (n : ℕ) (unique : (((List.range (n + 1)).map chainNode).map fun node =>
    (node.runId, node.claimId)).Nodup) : GraphIndex where
  nodes := (List.range (n + 1)).map chainNode
  edges := (List.range n).map chainEdge
  watermarks := [⟨"run", 4, 3⟩]
  unique := unique
  joined := chain_joined n

/-- A chain of two claims. -/
def shortChain : GraphIndex := chain 1 (by decide +kernel)

/-- A chain of sixty-two claims. -/
def longChain : GraphIndex := chain 61 (by decide +kernel)

/-- The kernel's fence for the first claim of a chain. -/
def fence : RevocationGraphFence := ⟨"run", 4, 3, 1, chainId 0, digest, [], []⟩

/-- The reader as it is configured by default. -/
def reader : RevocationPreviewReader := ⟨200, by decide, by decide⟩

/-- The preview of the first claim of a chain. -/
def preview (index : GraphIndex) : Except PreviewError RevocationClosure :=
  reader.preview platform index fence "run" (chainId 0)

/-- The preview of the long chain is returned without its last claim, that of the short chain
is returned as well. -/
theorem chain_previews : ((preview longChain).toOption.map fun closure =>
    closure.affectedFactIds.contains (chainId 61)) = some false ∧
      (preview shortChain).toBool = true := by
  decide +kernel

theorem affected_longChain {i : ℕ} (hi : i ≤ 61) :
    Affected longChain "run" (chainId 0) (chainId i) := by
  have hdependable : ∀ i ≤ 61, Dependable longChain "run" (chainId i) := fun i hi =>
    ⟨chainNode i, List.mem_map.mpr ⟨i, List.mem_range.mpr (by omega), rfl⟩, rfl, rfl, rfl⟩
  refine ⟨hdependable 0 (by omega), ?_⟩
  induction i with
  | zero => exact ReflTransGen.refl
  | succ i ih =>
    refine (ih (by omega)).tail ⟨⟨chainEdge i, ?_, rfl, ?_⟩, hdependable (i + 1) hi⟩
    · exact List.mem_map.mpr ⟨i, List.mem_range.mpr (by omega), rfl⟩
    · exact List.mem_append_left _ (List.mem_singleton_self _)

end Sample

/-- The preview of a chain of sixty-two claims leaves out the last of them. -/
theorem preview_misses_distant_claim :
    ¬ ∀ closure, Sample.preview Sample.longChain = .ok closure →
      ∀ a, a ∈ closure.affectedFactIds ↔ Affected Sample.longChain "run" (Sample.chainId 0) a := by
  intro h
  have hshown := Sample.chain_previews.1
  cases hpreview : Sample.preview Sample.longChain with
  | error error =>
    rw [hpreview] at hshown
    cases hshown
  | ok closure =>
    rw [hpreview] at hshown
    have hmissing : closure.affectedFactIds.contains (Sample.chainId 61) = false :=
      Option.some.inj hshown
    have hmem := (h closure hpreview _).mpr (Sample.affected_longChain (Nat.le_refl 61))
    rw [← List.contains_iff_mem, hmissing] at hmem
    cases hmem

/-- The preview of a chain of two claims is exact because its claims are near. -/
theorem preview_complete_of_short_chain :
    ∃ closure, Sample.preview Sample.shortChain = .ok closure ∧
      ((∀ a, a ∈ closure.affectedFactIds ↔
          Affected Sample.shortChain "run" (Sample.chainId 0) a) ↔
        ∀ a, Affected Sample.shortChain "run" (Sample.chainId 0) a →
          Within (Leads Sample.shortChain "run") (Sample.chainId 0) 60 a) := by
  obtain ⟨closure, hclosure⟩ := exists_ok_of_toBool Sample.chain_previews.2
  exact ⟨closure, hclosure, preview_complete_iff hclosure⟩

end ResearchKernel.Product
