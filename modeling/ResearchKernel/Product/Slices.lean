import Mathlib.Data.Prod.Lex
import Mathlib.Data.String.Basic
import ResearchKernel.Foundation.Distances
import ResearchKernel.Product.Preview

/-!
# Slices are searched by breadth

A slice visits every claim within its depth once, those nearer to a seed before those further
away. At a claim of another route it stops, and keeps the path of the step that met it last and
the number of steps that met it. All of this depends on the steps alone that were taken, one
level after another, and these do not depend on the order in which the edges are stored.
-/

namespace ResearchKernel.Product.Slices

open Foundation

/-! ## What a request asks for -/

section Asked

variable (index : GraphIndex) (request : GraphSliceRequest)

/-- A step in a direction of the request, along an arc of the run. -/
def Offered (step : Transition) : Prop :=
  match step.relationship with
  | .successor => request.direction ≠ .predecessors ∧
      Precedes index request.runId step.current step.neighbor
  | .predecessor => request.direction ≠ .successors ∧
      Precedes index request.runId step.neighbor step.current

def ReadsAs (claimId : Id) (node : IndexedGraphNode) : Prop :=
  ∃ row ∈ index.nodes, row.runId = request.runId ∧ row.claimId = claimId ∧
    indexedNode row = .ok node

/-- A claim that the mode and the filters admit. -/
def Admitted (claimId : Id) : Prop :=
  ∃ node, ReadsAs index request claimId node ∧ modeMatches node request.mode = true ∧
    routeOnlyMismatch node request.filters = false ∧ otherFiltersMatch node request.filters = true

/-- A dependable claim that only the filter on routes excludes. -/
def Elsewhere (claimId : Id) : Prop :=
  ∃ node, ReadsAs index request claimId node ∧ modeMatches node request.mode = true ∧
    routeOnlyMismatch node request.filters = true ∧ node.dependable = true ∧
      otherFiltersMatch node request.filters = true

/-- A step leads from the first claim to the second, which is admitted. -/
def Joins (a b : Id) : Prop :=
  (∃ relationship, Offered index request ⟨a, b, relationship⟩) ∧ Admitted index request b

/-- Claims that are reachable from a seed in at most so many steps through admitted claims. -/
abbrev Reached : ℕ → Id → Prop := Near (Joins index request) (· ∈ request.seedIds)

/-- Claims that are reachable in so many steps and in no fewer. -/
abbrev Distant : ℕ → Id → Prop := AtDistance (Joins index request) (· ∈ request.seedIds)

end Asked

/-! ## Reading the index -/

section Reading

variable {index : GraphIndex} {request : GraphSliceRequest}

theorem ReadsAs.unique {claimId : Id} {node other : IndexedGraphNode}
    (h : ReadsAs index request claimId node) (h' : ReadsAs index request claimId other) :
    node = other := by
  obtain ⟨row, hrow, hrun, hid, hread⟩ := h
  obtain ⟨row', hrow', hrun', hid', hread'⟩ := h'
  have hsame := eq_of_claimId hrow hrow' (hrun.trans hrun'.symm) (hid.trans hid'.symm)
  rw [hsame, hread'] at hread
  exact (Except.ok.inj hread).symm

theorem ReadsAs.claimId {claimId : Id} {node : IndexedGraphNode}
    (h : ReadsAs index request claimId node) : node.claimId = claimId := by
  obtain ⟨row, -, -, hid, hread⟩ := h
  exact (indexedNode_eq hread).1.trans hid

/-- A claim of another route is not admitted. -/
theorem Elsewhere.not_admitted {claimId : Id} (h : Elsewhere index request claimId) :
    ¬ Admitted index request claimId := by
  rintro ⟨node, hread, -, hroute, -⟩
  obtain ⟨other, hother, -, hroute', -⟩ := h
  rw [hread.unique hother, hroute'] at hroute
  cases hroute

theorem mem_loadNodes_iff {claimIds : List Id} {nodes : List IndexedGraphNode}
    (h : index.loadNodes request.runId claimIds = .ok nodes) {node : IndexedGraphNode} :
    node ∈ nodes ↔ ∃ claimId ∈ claimIds, ReadsAs index request claimId node := by
  constructor
  · intro hnode
    obtain ⟨row, hrow, hread⟩ := exists_left_of_forall₂ (mapM_eq_ok.mp h) node hnode
    simp only [List.mem_filter, Bool.and_eq_true, beq_iff_eq, List.contains_iff_mem] at hrow
    exact ⟨row.claimId, hrow.2.2, row, hrow.1, hrow.2.1, rfl, hread⟩
  · rintro ⟨claimId, hmem, row, hrow, hrun, rfl, hread⟩
    obtain ⟨other, hother, hread'⟩ := exists_of_forall₂ (mapM_eq_ok.mp h) row (by
      simp [hrow, hrun, hmem])
    rw [hread] at hread'
    exact Except.ok.inj hread' ▸ hother

theorem find?_loadNodes_iff {claimIds : List Id} {nodes : List IndexedGraphNode}
    (h : index.loadNodes request.runId claimIds = .ok nodes) {claimId : Id}
    (hmem : claimId ∈ claimIds) {node : IndexedGraphNode} :
    nodes.find? (·.claimId == claimId) = some node ↔ ReadsAs index request claimId node := by
  have hfound : ∀ {node}, nodes.find? (·.claimId == claimId) = some node →
      ReadsAs index request claimId node := by
    intro node hfind
    obtain ⟨id, -, hread⟩ := (mem_loadNodes_iff h).mp (List.mem_of_find?_eq_some hfind)
    have hid : node.claimId = claimId := by simpa using List.find?_some hfind
    rwa [← hread.claimId, hid] at hread
  refine ⟨hfound, fun hread => ?_⟩
  have hnode := (mem_loadNodes_iff h).mpr ⟨claimId, hmem, hread⟩
  have hsome : (nodes.find? (·.claimId == claimId)).isSome = true :=
    List.find?_isSome.mpr ⟨node, hnode, by simp [hread.claimId]⟩
  obtain ⟨other, hother⟩ := Option.isSome_iff_exists.mp hsome
  rw [hother, (hfound hother).unique hread]

/-- Claims are loaded once. -/
theorem nodup_loadNodes {claimIds : List Id} {nodes : List IndexedGraphNode}
    (h : index.loadNodes request.runId claimIds = .ok nodes) :
    (nodes.map (·.claimId)).Nodup := by
  have hrows : ((index.nodes.filter fun row => row.runId == request.runId &&
      claimIds.contains row.claimId).map fun row => (row.runId, row.claimId)).Nodup :=
    index.unique.sublist (List.filter_sublist.map _)
  have hids : nodes.map (·.claimId) = (index.nodes.filter fun row => row.runId == request.runId &&
      claimIds.contains row.claimId).map (·.claimId) := by
    rw [← List.forall₂_eq_eq_eq, List.forall₂_map_left_iff, List.forall₂_map_right_iff]
    exact ((mapM_eq_ok.mp h).imp fun _ _ hread => (indexedNode_eq hread).1).flip
  have hsame : (index.nodes.filter fun row => row.runId == request.runId &&
      claimIds.contains row.claimId).map (fun row => (row.runId, row.claimId)) =
        (nodes.map (·.claimId)).map fun claimId => (request.runId, claimId) := by
    rw [hids, List.map_map]
    refine List.map_congr_left fun row hrow => ?_
    simp only [List.mem_filter, Bool.and_eq_true, beq_iff_eq] at hrow
    rw [hrow.2.1]
    rfl
  rw [hsame] at hrows
  exact List.Nodup.of_map _ hrows

/-! ## Steps -/

theorem snd_mem_ends {edge : GraphEdgeRow} {a b : Id} (h : (a, b) ∈ edgeArcs edge) :
    b = edge.fromClaimId ∨ b = edge.toClaimId := by
  unfold edgeArcs at h
  rcases List.mem_append.mp h with h | h
  · split at h
    · cases h
    · exact Or.inr (congrArg Prod.snd (List.mem_singleton.mp h))
  · split at h
    · cases h
    · exact Or.inl (congrArg Prod.snd (List.mem_singleton.mp h))

/-- The steps that an edge offers to one of its ends. -/
theorem mem_edgeTransitions_iff {edge : GraphEdgeRow} {current : Id} {step : Transition} :
    step ∈ edgeTransitions edge current request.direction ↔ step.current = current ∧
      match step.relationship with
      | .successor => request.direction ≠ .predecessors ∧
          (step.current, step.neighbor) ∈ edgeArcs edge
      | .predecessor => request.direction ≠ .successors ∧
          (step.neighbor, step.current) ∈ edgeArcs edge := by
  obtain ⟨source, neighbor, relationship⟩ := step
  unfold edgeTransitions
  simp only [List.mem_flatMap, List.mem_append]
  constructor
  · rintro ⟨⟨a, b⟩, harc, hstep | hstep⟩
    · split at hstep
      · next hends =>
        simp only [Bool.and_eq_true, bne_iff_ne, beq_iff_eq] at hends
        cases List.mem_singleton.mp hstep
        obtain ⟨hdirection, rfl⟩ := hends
        exact ⟨rfl, hdirection, harc⟩
      · cases hstep
    · split at hstep
      · next hends =>
        simp only [Bool.and_eq_true, bne_iff_ne, beq_iff_eq] at hends
        cases List.mem_singleton.mp hstep
        obtain ⟨hdirection, rfl⟩ := hends
        exact ⟨rfl, hdirection, harc⟩
      · cases hstep
  · rintro ⟨rfl, h⟩
    cases relationship with
    | successor => exact ⟨_, h.2, Or.inl (by simp [h.1])⟩
    | predecessor => exact ⟨_, h.2, Or.inr (by simp [h.1])⟩

/-- The steps from a frontier are those that are offered to its claims. -/
theorem mem_frontierTransitions_iff {frontier : List Id} {step : Transition} :
    step ∈ frontierTransitions request index frontier ↔
      step.current ∈ frontier ∧ Offered index request step := by
  obtain ⟨current, neighbor, relationship⟩ := step
  unfold frontierTransitions GraphIndex.touchingEdges
  simp only [List.mem_insertionSort, List.mem_dedup, List.mem_flatMap, List.mem_filter,
    Bool.and_eq_true, beq_iff_eq, List.contains_iff_mem, mem_edgeTransitions_iff,
    List.mem_cons, List.not_mem_nil, or_false, Bool.or_eq_true]
  -- The claim that a step starts from is an end of its edge.
  have hend : ∀ {edge : GraphEdgeRow}, current = edge.fromClaimId ∨ current = edge.toClaimId →
      current ∈ frontier → edge.fromClaimId ∈ frontier ∨ edge.toClaimId ∈ frontier := by
    rintro edge (rfl | rfl) hmem
    · exact Or.inl hmem
    · exact Or.inr hmem
  constructor
  · rintro ⟨edge, ⟨hedge, hrun, -⟩, a, ⟨-, ha⟩, rfl, h⟩
    refine ⟨ha, ?_⟩
    cases relationship with
    | successor | predecessor => exact ⟨h.1, edge, hedge, hrun, h.2⟩
  · rintro ⟨hmem, hoffered⟩
    cases relationship with
    | successor =>
      obtain ⟨hdirection, edge, hedge, hrun, harc⟩ := hoffered
      have hends := mem_ends_of_mem_edgeArcs harc
      exact ⟨edge, ⟨hedge, hrun, hend hends hmem⟩, current, ⟨hends, hmem⟩, rfl, hdirection, harc⟩
    | predecessor =>
      obtain ⟨hdirection, edge, hedge, hrun, harc⟩ := hoffered
      have hends := snd_mem_ends harc
      exact ⟨edge, ⟨hedge, hrun, hend hends hmem⟩, current, ⟨hends, hmem⟩, rfl, hdirection, harc⟩

/-! ## The order of steps -/

/-- Predecessors come before successors. -/
def rank : Relationship → ℕ
  | .predecessor => 0
  | .successor => 1

/-- What steps are compared by. -/
def sortKey (step : Transition) : Lex (Id × Lex (Id × ℕ)) :=
  toLex (step.current, toLex (step.neighbor, rank step.relationship))

theorem sortKey_injective : Function.Injective sortKey := by
  rintro ⟨current, neighbor, relationship⟩ ⟨current', neighbor', relationship'⟩ h
  obtain ⟨rfl, h⟩ := Prod.mk.inj (toLex.injective h)
  obtain ⟨rfl, h⟩ := Prod.mk.inj (toLex.injective h)
  cases relationship <;> cases relationship' <;> first | rfl | cases h

theorem step_le_iff {a b : Transition} : a.le b = true ↔ sortKey a ≤ sortKey b := by
  obtain ⟨current, neighbor, relationship⟩ := a
  obtain ⟨current', neighbor', relationship'⟩ := b
  have hrank : (relationship = .predecessor ∨ relationship' = .successor) ↔
      rank relationship ≤ rank relationship' := by
    cases relationship <;> cases relationship' <;> decide
  simp only [sortKey, Prod.Lex.toLex_le_toLex, ← hrank]
  simp [Transition.le]

theorem step_le_refl (a : Transition) : a.le a = true := step_le_iff.mpr le_rfl

theorem step_le_antisymm {a b : Transition} (hab : a.le b = true) (hba : b.le a = true) : a = b :=
  sortKey_injective (le_antisymm (step_le_iff.mp hab) (step_le_iff.mp hba))

/-- The steps from a frontier are taken in order. -/
theorem pairwise_frontierTransitions (frontier : List Id) :
    (frontierTransitions request index frontier).Pairwise fun a b => a.le b = true := by
  have htotal : Std.Total fun a b : Transition => a.le b = true :=
    ⟨fun a b => by simpa only [step_le_iff] using le_total (sortKey a) (sortKey b)⟩
  have htrans : IsTrans Transition fun a b => a.le b = true :=
    ⟨fun a b c => by simpa only [step_le_iff] using le_trans⟩
  exact List.pairwise_insertionSort _ _

theorem nodup_frontierTransitions (frontier : List Id) :
    (frontierTransitions request index frontier).Nodup :=
  (List.perm_insertionSort _ _).nodup_iff.mpr (List.nodup_dedup _)

end Reading

/-! ## One step -/

section Steps

variable (P : Platform) (index : GraphIndex) (request : GraphSliceRequest)

def visitBy (state : Traversal) (step : Transition) (node : IndexedGraphNode) (level : ℕ) :
    Traversal :=
  { state with
    orderedIds := state.orderedIds ++ [step.neighbor]
    nodes := state.nodes ++ [node]
    paths := state.paths ++ [(step.neighbor, extendPath state step)]
    maxDepth := max state.maxDepth level }

/-- A traversal after a step that meets a claim of another route. -/
def boundBy (state : Traversal) (step : Transition) (node : IndexedGraphNode) : Traversal :=
  { state with
    boundaries := setKey (step.neighbor, step.relationship)
      (step.current, boundaryAt P request state step node) state.boundaries }

/-- What a step does: its neighbor was visited before or is not shown at all, or it is visited, or
it is a claim of another route. -/
inductive Followed (level : ℕ) (state : Traversal × List Id) (step : Transition) :
    Traversal × List Id → Prop
  | passed (h : step.neighbor ∈ state.1.orderedIds ∨
      ¬ Admitted index request step.neighbor ∧ ¬ Elsewhere index request step.neighbor) :
      Followed level state step state
  | visited (node : IndexedGraphNode) (hfresh : step.neighbor ∉ state.1.orderedIds)
      (hread : ReadsAs index request step.neighbor node)
      (hadmitted : Admitted index request step.neighbor) :
      Followed level state step (visitBy state.1 step node level, state.2 ++ [step.neighbor])
  | bounded (node : IndexedGraphNode) (helsewhere : Elsewhere index request step.neighbor) :
      Followed level state step (boundBy P request state.1 step node, state.2)

/-- Whether a step meets a claim in a relationship. -/
def meets (key : Id × Relationship) (step : Transition) : Bool :=
  step.neighbor == key.1 && step.relationship == key.2

/-- What is kept of the steps that met a claim of another route: their number, and the path of the
last of them. -/
structure Noted (log : List Transition) (state : Traversal) (key : Id × Relationship)
    (hit : Id × CrossRouteBoundary) : Prop where
  claim : hit.2.claimId = key.1
  direction : hit.2.direction = key.2
  folded : hit.2.foldedCount = (log.filter (meets key)).length
  last : ∃ step, (log.filter (meets key)).getLast? = some step ∧
    hit.2.pathToTarget = extendPath state step

/-- What a traversal has found by the steps that it has taken. -/
structure Replayed (log : List Transition) (state : Traversal) : Prop where
  once : state.orderedIds.Nodup
  visited : ∀ b, b ∈ state.orderedIds ↔ b ∈ request.seedIds ∨
    (∃ step ∈ log, step.neighbor = b) ∧ Admitted index request b
  admitted : ∀ b ∈ state.orderedIds, Admitted index request b
  nodes : (state.nodes.map (·.claimId)).Perm state.orderedIds
  keys : state.paths.map Prod.fst = state.orderedIds
  currents : ∀ step ∈ log, step.current ∈ state.orderedIds
  seeds : ∀ seed ∈ request.seedIds, state.path seed = [seed]
  found : ∀ b ∈ state.orderedIds, b ∉ request.seedIds →
    ∃ step, log.find? (·.neighbor == b) = some step ∧ state.path b = extendPath state step
  distinct : (state.boundaries.map Prod.fst).Nodup
  noted : ∀ key hit, state.boundaries.lookup key = some hit →
    Elsewhere index request key.1 ∧ Noted log state key hit
  unmet : ∀ key, state.boundaries.lookup key = none → Elsewhere index request key.1 →
    log.filter (meets key) = []

end Steps

section Following

variable {P : Platform} {index : GraphIndex} {request : GraphSliceRequest}
  {candidates : List IndexedGraphNode} {level : ℕ} {log : List Transition} {state : Traversal}
  {step : Transition}

/-- A step that reads its neighbor from the index. -/
theorem followed {pair : Traversal × List Id}
    (hread : step.neighbor ∉ pair.1.orderedIds → ∀ node,
      candidates.find? (·.claimId == step.neighbor) = some node ↔
        ReadsAs index request step.neighbor node) :
    Followed P index request level pair step (follow P request candidates level pair step) := by
  unfold follow
  by_cases hvisited : step.neighbor ∈ pair.1.orderedIds
  · rw [if_pos (List.contains_iff_mem.mpr hvisited)]
    exact .passed (Or.inl hvisited)
  rw [if_neg (fun h => hvisited (List.contains_iff_mem.mp h))]
  have hread := hread hvisited
  cases hfind : candidates.find? (·.claimId == step.neighbor) with
  | none =>
    refine .passed (Or.inr ⟨?_, ?_⟩)
    · rintro ⟨node, hnode, -⟩
      rw [(hread node).mpr hnode] at hfind
      cases hfind
    · rintro ⟨node, hnode, -⟩
      rw [(hread node).mpr hnode] at hfind
      cases hfind
  | some node =>
    have hnode := (hread node).mp hfind
    have hpassed (h : modeMatches node request.mode = true →
        otherFiltersMatch node request.filters = true →
          routeOnlyMismatch node request.filters = true ∧ node.dependable = false) :
        Followed P index request level pair step pair := by
      refine .passed (Or.inr ⟨?_, ?_⟩)
      · rintro ⟨other, hother, hmode, hroute, hfilters⟩
        rw [← hnode.unique hother] at hmode hroute hfilters
        rw [(h hmode hfilters).1] at hroute
        cases hroute
      · rintro ⟨other, hother, hmode, -, hdependable, hfilters⟩
        rw [← hnode.unique hother] at hmode hdependable hfilters
        rw [(h hmode hfilters).2] at hdependable
        cases hdependable
    dsimp only
    split
    · next hmode => exact hpassed fun h => absurd h (by simpa using hmode)
    next hmode =>
    have hmode : modeMatches node request.mode = true := by simpa using hmode
    split
    · next hroute =>
      split
      · next hkept =>
        obtain ⟨hdependable, hfilters⟩ := Bool.and_eq_true_iff.mp hkept
        exact .bounded node ⟨node, hnode, hmode, hroute, hdependable, hfilters⟩
      · next hkept =>
        refine hpassed fun _ hfilters => ⟨hroute, ?_⟩
        rw [hfilters, Bool.and_true, Bool.not_eq_true] at hkept
        exact hkept
    next hroute =>
    split
    · next hfilters => exact hpassed fun _ h => absurd h (by simpa using hfilters)
    · next hfilters =>
      exact .visited node hvisited hnode
        ⟨node, hnode, hmode, by simpa using hroute, by simpa using hfilters⟩

/-- The path to a claim stays as it is when another is visited. -/
theorem path_append {other : Traversal} {entry : Id × List Id}
    (hpaths : other.paths = state.paths ++ [entry]) {a : Id} (ha : a ∈ state.paths.map Prod.fst) :
    other.path a = state.path a := by
  obtain ⟨pair, hpair, rfl⟩ := List.mem_map.mp ha
  unfold Traversal.path
  rw [hpaths, List.lookup_append]
  cases hlookup : state.paths.lookup pair.1 with
  | some path => rfl
  | none =>
    have hall := List.lookup_eq_none_iff.mp hlookup pair hpair
    simp at hall

theorem extendPath_congr {other : Traversal}
    (h : other.path step.current = state.path step.current) :
    extendPath other step = extendPath state step := by
  unfold extendPath
  rw [h]

theorem mem_of_getLast?_filter {key : Id × Relationship}
    (h : (log.filter (meets key)).getLast? = some step) : step ∈ log :=
  (List.mem_filter.mp (List.mem_of_getLast? h)).1

/-- What is kept of a boundary does not change with a step elsewhere. -/
theorem Noted.append {key : Id × Relationship} {hit : Id × CrossRouteBoundary} {other : Traversal}
    (h : Noted log state key hit) (hmeets : meets key step = false)
    (hpaths : ∀ step ∈ log, other.path step.current = state.path step.current) :
    Noted (log ++ [step]) other key hit := by
  have hfilter : (log ++ [step]).filter (meets key) = log.filter (meets key) := by
    simp [hmeets]
  obtain ⟨last, hlast, hpath⟩ := h.last
  refine ⟨h.claim, h.direction, by rw [hfilter, h.folded], last, by rw [hfilter, hlast], ?_⟩
  rw [hpath, extendPath_congr (hpaths last (mem_of_getLast?_filter hlast))]

/-- A claim that was found stays found by the step that found it. -/
theorem find?_append_of_some {b : Id} {first : Transition}
    (h : log.find? (·.neighbor == b) = some first) :
    (log ++ [step]).find? (·.neighbor == b) = some first := by
  rw [List.find?_append, h]
  rfl

/-- A step to a claim that is not of another route meets no boundary. -/
theorem meets_eq_false {key : Id × Relationship} (hkey : Elsewhere index request key.1)
    (hstep : ¬ Elsewhere index request step.neighbor) : meets key step = false := by
  by_contra hmeets
  rw [Bool.not_eq_false, meets, Bool.and_eq_true, beq_iff_eq] at hmeets
  exact hstep (hmeets.1 ▸ hkey)

/-- Boundaries after a step that meets none. -/
theorem Replayed.boundaries_kept (h : Replayed index request log state) (other : Traversal)
    (hstep : ¬ Elsewhere index request step.neighbor)
    (hboundaries : other.boundaries = state.boundaries)
    (hpaths : ∀ a ∈ state.orderedIds, other.path a = state.path a) :
    (∀ key hit, other.boundaries.lookup key = some hit →
      Elsewhere index request key.1 ∧ Noted (log ++ [step]) other key hit) ∧
    ∀ key, other.boundaries.lookup key = none → Elsewhere index request key.1 →
      (log ++ [step]).filter (meets key) = [] := by
  rw [hboundaries]
  constructor
  · intro key hit hlookup
    obtain ⟨hkey, hnoted⟩ := h.noted key hit hlookup
    exact ⟨hkey, hnoted.append (meets_eq_false hkey hstep)
      fun step hmem => hpaths _ (h.currents step hmem)⟩
  · intro key hlookup hkey
    rw [List.filter_append, h.unmet key hlookup hkey, List.filter_cons,
      meets_eq_false hkey hstep]
    rfl

theorem Replayed.currents_append (h : Replayed index request log state)
    (hcurrent : step.current ∈ state.orderedIds) {ids : List Id} (hids : state.orderedIds ⊆ ids) :
    ∀ other ∈ log ++ [step], other.current ∈ ids := by
  intro other hother
  rcases List.mem_append.mp hother with hother | hother
  · exact hids (h.currents other hother)
  · exact hids (List.mem_singleton.mp hother ▸ hcurrent)

/-- A step that visits nothing. -/
theorem Replayed.passed (h : Replayed index request log state)
    (hcurrent : step.current ∈ state.orderedIds)
    (hpassed : step.neighbor ∈ state.orderedIds ∨
      ¬ Admitted index request step.neighbor ∧ ¬ Elsewhere index request step.neighbor) :
    Replayed index request (log ++ [step]) state := by
  have hstep : ¬ Elsewhere index request step.neighbor := by
    rcases hpassed with hvisited | ⟨-, hstep⟩
    · exact fun helsewhere => helsewhere.not_admitted (h.admitted _ hvisited)
    · exact hstep
  obtain ⟨hnoted, hunmet⟩ := h.boundaries_kept state hstep rfl fun _ _ => rfl
  refine { h with
    visited := ?_, currents := h.currents_append hcurrent fun _ h => h
    found := ?_, noted := hnoted, unmet := hunmet }
  · intro b
    rw [h.visited]
    constructor
    · rintro (hseed | ⟨⟨other, hother, hneighbor⟩, hadmitted⟩)
      · exact Or.inl hseed
      · exact Or.inr ⟨⟨other, List.mem_append_left _ hother, hneighbor⟩, hadmitted⟩
    · rintro (hseed | ⟨⟨other, hother, rfl⟩, hadmitted⟩)
      · exact Or.inl hseed
      · rcases List.mem_append.mp hother with hother | hother
        · exact Or.inr ⟨⟨other, hother, rfl⟩, hadmitted⟩
        · obtain rfl := List.mem_singleton.mp hother
          rcases hpassed with hvisited | ⟨hnot, -⟩
          · exact (h.visited _).mp hvisited
          · exact absurd hadmitted hnot
  · intro b hb hseed
    obtain ⟨first, hfirst, hpath⟩ := h.found b hb hseed
    exact ⟨first, find?_append_of_some hfirst, hpath⟩

/-- A step that visits its neighbor. -/
theorem Replayed.visit (h : Replayed index request log state)
    (hcurrent : step.current ∈ state.orderedIds) {node : IndexedGraphNode}
    (hfresh : step.neighbor ∉ state.orderedIds) (hread : ReadsAs index request step.neighbor node)
    (hadmitted : Admitted index request step.neighbor) (level : ℕ) :
    Replayed index request (log ++ [step]) (visitBy state step node level) := by
  have hpaths : ∀ a ∈ state.orderedIds, (visitBy state step node level).path a = state.path a :=
    fun a ha => path_append rfl (h.keys.symm ▸ ha)
  obtain ⟨hnoted, hunmet⟩ := h.boundaries_kept (visitBy state step node level)
    (fun helsewhere => helsewhere.not_admitted hadmitted) rfl hpaths
  have hnone : log.find? (·.neighbor == step.neighbor) = none := by
    rw [List.find?_eq_none]
    intro other hother hneighbor
    rw [beq_iff_eq] at hneighbor
    exact hfresh ((h.visited _).mpr (Or.inr ⟨⟨other, hother, hneighbor⟩, hadmitted⟩))
  constructor
  case once =>
    exact List.nodup_append.mpr ⟨h.once, List.nodup_singleton _, fun a ha b hb hab =>
      hfresh (List.mem_singleton.mp hb ▸ hab ▸ ha)⟩
  case visited =>
    intro b
    unfold visitBy
    rw [List.mem_append, h.visited, List.mem_singleton]
    constructor
    · rintro ((hseed | ⟨⟨other, hother, hneighbor⟩, hshown⟩) | rfl)
      · exact Or.inl hseed
      · exact Or.inr ⟨⟨other, List.mem_append_left _ hother, hneighbor⟩, hshown⟩
      · exact Or.inr ⟨⟨step, by simp, rfl⟩, hadmitted⟩
    · rintro (hseed | ⟨⟨other, hother, hneighbor⟩, hshown⟩)
      · exact Or.inl (Or.inl hseed)
      · rcases List.mem_append.mp hother with hother | hother
        · exact Or.inl (Or.inr ⟨⟨other, hother, hneighbor⟩, hshown⟩)
        · exact Or.inr (hneighbor ▸ List.mem_singleton.mp hother ▸ rfl)
  case admitted =>
    intro b hb
    rcases List.mem_append.mp hb with hb | hb
    · exact h.admitted b hb
    · exact List.mem_singleton.mp hb ▸ hadmitted
  case nodes =>
    unfold visitBy
    rw [List.map_append, List.map_cons, List.map_nil, hread.claimId]
    exact h.nodes.append_right _
  case keys =>
    unfold visitBy
    rw [List.map_append, h.keys]
    rfl
  case currents => exact h.currents_append hcurrent (List.subset_append_left _ _)
  case seeds =>
    intro seed hseed
    rw [hpaths seed ((h.visited seed).mpr (Or.inl hseed)), h.seeds seed hseed]
  case found =>
    intro b hb hseed
    rcases List.mem_append.mp hb with hb | hb
    · obtain ⟨first, hfirst, hpath⟩ := h.found b hb hseed
      refine ⟨first, find?_append_of_some hfirst, ?_⟩
      rw [hpaths b hb, hpath]
      exact (extendPath_congr (hpaths _ (h.currents first (List.mem_of_find?_eq_some hfirst)))).symm
    · obtain rfl := List.mem_singleton.mp hb
      refine ⟨step, by rw [List.find?_append, hnone]; simp, ?_⟩
      rw [extendPath_congr (hpaths _ hcurrent)]
      unfold Traversal.path visitBy
      have hlookup : state.paths.lookup step.neighbor = none := by
        rw [List.lookup_eq_none_iff]
        intro pair hpair
        rw [bne_iff_ne]
        exact fun heq => hfresh (h.keys ▸ heq ▸ List.mem_map_of_mem hpair)
      rw [List.lookup_append, hlookup]
      simp
  case distinct => exact h.distinct
  case noted => exact hnoted
  case unmet => exact hunmet

/-- A step that meets a claim of another route. -/
theorem Replayed.bound (h : Replayed index request log state)
    (hcurrent : step.current ∈ state.orderedIds) (node : IndexedGraphNode)
    (helsewhere : Elsewhere index request step.neighbor) :
    Replayed index request (log ++ [step]) (boundBy P request state step node) := by
  have hself : meets (step.neighbor, step.relationship) step = true := by simp [meets]
  have hother : ∀ {key : Id × Relationship}, key ≠ (step.neighbor, step.relationship) →
      meets key step = false := by
    intro key hkey
    by_contra hmeets
    rw [Bool.not_eq_false, meets, Bool.and_eq_true, beq_iff_eq, beq_iff_eq] at hmeets
    exact hkey (Prod.ext hmeets.1.symm hmeets.2.symm)
  have hvisited : ∀ b, (∃ other ∈ log ++ [step], other.neighbor = b) ∧ Admitted index request b ↔
      (∃ other ∈ log, other.neighbor = b) ∧ Admitted index request b := by
    intro b
    constructor
    · rintro ⟨⟨other, hmem, rfl⟩, hadmitted⟩
      rcases List.mem_append.mp hmem with hmem | hmem
      · exact ⟨⟨other, hmem, rfl⟩, hadmitted⟩
      · obtain rfl := List.mem_singleton.mp hmem
        exact absurd hadmitted helsewhere.not_admitted
    · rintro ⟨⟨other, hmem, hneighbor⟩, hadmitted⟩
      exact ⟨⟨other, List.mem_append_left _ hmem, hneighbor⟩, hadmitted⟩
  refine { h with
    visited := fun b => by rw [hvisited b]; exact h.visited b
    currents := h.currents_append hcurrent fun _ h => h
    found := ?_, distinct := nodup_keys_setKey _ _ h.distinct, noted := ?_, unmet := ?_ }
  · intro b hb hseed
    obtain ⟨first, hfirst, hpath⟩ := h.found b hb hseed
    exact ⟨first, find?_append_of_some hfirst, hpath⟩
  · intro key hit hlookup
    rw [boundBy, lookup_setKey] at hlookup
    split at hlookup
    · next hkey =>
      rw [beq_iff_eq] at hkey
      subst hkey
      obtain rfl := Option.some.inj hlookup
      refine ⟨helsewhere, rfl, rfl, ?_, step, ?_, rfl⟩
      · rw [List.filter_append, List.length_append, List.filter_cons, hself]
        unfold boundaryAt
        dsimp only
        cases hold : state.boundaries.lookup (step.neighbor, step.relationship) with
        | none => rw [h.unmet _ hold helsewhere]; rfl
        | some old => rw [← (h.noted _ old hold).2.folded]; rfl
      · rw [List.filter_append, List.filter_cons, hself]
        simp
    · next hkey =>
      obtain ⟨hkept, hnoted⟩ := h.noted key hit hlookup
      exact ⟨hkept, hnoted.append (hother fun heq => hkey (beq_iff_eq.mpr heq)) fun _ _ => rfl⟩
  · intro key hlookup hkept
    rw [boundBy, lookup_setKey] at hlookup
    split at hlookup
    · cases hlookup
    · next hkey =>
      rw [List.filter_append, h.unmet key hlookup hkept, List.filter_cons,
        hother fun heq => hkey (beq_iff_eq.mpr heq)]
      rfl

/-- Every step keeps what was found, and adds what it finds. -/
theorem Replayed.follow {pair next : Traversal × List Id} (h : Replayed index request log pair.1)
    (hcurrent : step.current ∈ pair.1.orderedIds)
    (hstep : Followed P index request level pair step next) :
    Replayed index request (log ++ [step]) next.1 := by
  cases hstep with
  | passed hpassed => exact h.passed hcurrent hpassed
  | visited node hfresh hread hadmitted => exact h.visit hcurrent hfresh hread hadmitted _
  | bounded node helsewhere => exact h.bound hcurrent node helsewhere

/-- What a step adds to the visited claims is what it adds to the next frontier. -/
theorem Followed.grows {pair next : Traversal × List Id}
    (hstep : Followed P index request level pair step next) :
    ∃ new, next.1.orderedIds = pair.1.orderedIds ++ new ∧ next.2 = pair.2 ++ new := by
  cases hstep with
  | passed => exact ⟨[], by simp, by simp⟩
  | visited node => exact ⟨[step.neighbor], rfl, rfl⟩
  | bounded node => exact ⟨[], by simp [boundBy], by simp⟩

end Following

/-! ## One level -/

section Levels

variable {P : Platform} {index : GraphIndex} {request : GraphSliceRequest}
  {candidates : List IndexedGraphNode} {level : ℕ} {log : List Transition}

/-- The steps of a level, one after another. -/
theorem Replayed.foldl {steps : List Transition} {pair : Traversal × List Id}
    (h : Replayed index request log pair.1)
    (hcurrents : ∀ step ∈ steps, step.current ∈ pair.1.orderedIds)
    (hread : ∀ step ∈ steps, step.neighbor ∉ pair.1.orderedIds → ∀ node,
      candidates.find? (·.claimId == step.neighbor) = some node ↔
        ReadsAs index request step.neighbor node) :
    Replayed index request (log ++ steps)
      (steps.foldl (Product.follow P request candidates level) pair).1 ∧
    ∃ new, (steps.foldl (Product.follow P request candidates level) pair).1.orderedIds =
        pair.1.orderedIds ++ new ∧
      (steps.foldl (Product.follow P request candidates level) pair).2 = pair.2 ++ new := by
  induction steps generalizing log pair with
  | nil => exact ⟨by simpa using h, [], by simp, by simp⟩
  | cons step steps ih =>
    have hstep : Followed P index request level pair step
        (Product.follow P request candidates level pair step) :=
      followed (hread step List.mem_cons_self)
    obtain ⟨new, hordered, hnext⟩ := hstep.grows
    have hsubset : pair.1.orderedIds ⊆
        (Product.follow P request candidates level pair step).1.orderedIds :=
      hordered ▸ List.subset_append_left _ _
    obtain ⟨hrest, more, hordered', hnext'⟩ := ih
      (h.follow (hcurrents step List.mem_cons_self) hstep)
      (fun other hother => hsubset (hcurrents other (List.mem_cons_of_mem _ hother)))
      (fun other hother hfresh =>
        hread other (List.mem_cons_of_mem _ hother) fun hmem => hfresh (hsubset hmem))
    rw [List.append_cons]
    refine ⟨hrest, new ++ more, ?_, ?_⟩
    · rw [List.foldl_cons, hordered', hordered, List.append_assoc]
    · rw [List.foldl_cons, hnext', hnext, List.append_assoc]

/-- A step is taken before another: from a claim that is nearer, or as it is sorted. -/
def Earlier (index : GraphIndex) (request : GraphSliceRequest) (step other : Transition) : Prop :=
  ∀ m, Distant index request m other.current → (∃ k < m, Distant index request k step.current) ∨
    Distant index request m step.current ∧ step.le other = true

/-- The traversal has taken the steps from all claims that are nearer than the frontier. -/
structure Searched (index : GraphIndex) (request : GraphSliceRequest) (n : ℕ)
    (log : List Transition) (frontier : List Id) (state : Traversal) : Prop where
  replayed : Replayed index request log state
  mem_log : ∀ step, step ∈ log ↔
    (∃ m < n, Distant index request m step.current) ∧ Offered index request step
  nodup_log : log.Nodup
  log_order : log.Pairwise (Earlier index request)
  mem_frontier : ∀ a, a ∈ frontier ↔ Distant index request n a
  nearer : state.orderedIds.Pairwise fun a b =>
    ∀ m, Reached index request m b → Reached index request m a

variable {frontier : List Id} {state : Traversal} {n : ℕ}

/-- What was visited is what is reached, when the steps are those from all nearer claims. -/
theorem Replayed.mem_ordered (h : Replayed index request log state)
    (hlog : ∀ step, step ∈ log ↔
      (∃ m < n, Distant index request m step.current) ∧ Offered index request step) (a : Id) :
    a ∈ state.orderedIds ↔ Reached index request n a := by
  rw [h.visited, Reached, near_iff]
  constructor
  · rintro (hseed | ⟨⟨step, hstep, rfl⟩, hadmitted⟩)
    · exact Or.inl hseed
    · obtain ⟨⟨m, hm, hcurrent⟩, hoffered⟩ := (hlog step).mp hstep
      exact Or.inr ⟨m, hm, step.current, hcurrent, ⟨step.relationship, hoffered⟩, hadmitted⟩
  · rintro (hseed | ⟨m, hm, b, hb, ⟨relationship, hoffered⟩, hadmitted⟩)
    · exact Or.inl hseed
    · exact Or.inr ⟨⟨⟨b, a, relationship⟩, (hlog _).mpr ⟨⟨m, hm, hb⟩, hoffered⟩, rfl⟩, hadmitted⟩

theorem Searched.mem_ordered (h : Searched index request n log frontier state) (a : Id) :
    a ∈ state.orderedIds ↔ Reached index request n a :=
  h.replayed.mem_ordered h.mem_log a

/-- Steps from nearer claims are earlier. -/
theorem earlier_of_lt {step other : Transition} {m k : ℕ} (hlt : m < k)
    (hstep : Distant index request m step.current)
    (hother : Distant index request k other.current) : Earlier index request step other := by
  intro l hl
  exact Or.inl ⟨m, hl.unique hother ▸ hlt, hstep⟩

/-- Steps of one level are earlier as they are sorted. -/
theorem earlier_of_le {step other : Transition} {m : ℕ}
    (hstep : Distant index request m step.current)
    (hother : Distant index request m other.current) (hle : step.le other = true) :
    Earlier index request step other := by
  intro l hl
  obtain rfl := hl.unique hother
  exact Or.inr ⟨hstep, hle⟩

/-- A level is searched. -/
theorem Searched.next (h : Searched index request n log frontier state)
    (hload : index.loadNodes request.runId (((frontierTransitions request index frontier).map
      (·.neighbor)).filter (!state.orderedIds.contains ·)) = .ok candidates) :
    Searched index request (n + 1) (log ++ frontierTransitions request index frontier)
      (((frontierTransitions request index frontier).foldl
        (Product.follow P request candidates level) (state, [])).2.dedup.insertionSort (· ≤ ·))
      ((frontierTransitions request index frontier).foldl
        (Product.follow P request candidates level) (state, [])).1 := by
  set steps := frontierTransitions request index frontier with hsteps
  have hmem : ∀ {step}, step ∈ steps ↔
      Distant index request n step.current ∧ Offered index request step := by
    intro step
    rw [hsteps, mem_frontierTransitions_iff, h.mem_frontier]
  obtain ⟨hreplayed, new, hordered, hnext⟩ :=
    @Replayed.foldl P index request candidates level log steps (state, []) h.replayed
    (fun step hstep => (h.mem_ordered _).mpr (hmem.mp hstep).1.near)
    (fun step hstep hfresh node => find?_loadNodes_iff hload (by
      rw [List.mem_filter]
      exact ⟨List.mem_map_of_mem hstep, by simpa using hfresh⟩))
  have hlog : ∀ step, step ∈ log ++ steps ↔
      (∃ m < n + 1, Distant index request m step.current) ∧ Offered index request step := by
    intro step
    rw [List.mem_append, h.mem_log, hmem]
    constructor
    · rintro (⟨⟨m, hm, hcurrent⟩, hoffered⟩ | ⟨hcurrent, hoffered⟩)
      · exact ⟨⟨m, Nat.lt_succ_of_lt hm, hcurrent⟩, hoffered⟩
      · exact ⟨⟨n, Nat.lt_succ_self n, hcurrent⟩, hoffered⟩
    · rintro ⟨⟨m, hm, hcurrent⟩, hoffered⟩
      rcases Nat.lt_succ_iff_lt_or_eq.mp hm with hlt | rfl
      · exact Or.inl ⟨⟨m, hlt, hcurrent⟩, hoffered⟩
      · exact Or.inr ⟨hcurrent, hoffered⟩
  have hnew : ∀ a, a ∈ new ↔ Distant index request (n + 1) a := by
    intro a
    have honce := hreplayed.once
    have hall := hreplayed.mem_ordered hlog a
    rw [hordered] at honce hall
    have hdisjoint := (List.nodup_append.mp honce).2.2
    constructor
    · intro ha
      refine atDistance_succ_iff.mpr ⟨hall.mp (List.mem_append_right _ ha), fun hold => ?_⟩
      exact hdisjoint a ((h.mem_ordered a).mpr hold) a ha rfl
    · intro ha
      obtain ⟨hnear, hnot⟩ := atDistance_succ_iff.mp ha
      exact (List.mem_append.mp (hall.mpr hnear)).resolve_left fun hold =>
        hnot ((h.mem_ordered a).mp hold)
  refine ⟨hreplayed, hlog, ?_, ?_, ?_, ?_⟩
  · refine List.nodup_append.mpr ⟨h.nodup_log, nodup_frontierTransitions frontier, ?_⟩
    rintro step hstep other hother rfl
    obtain ⟨⟨m, hm, hcurrent⟩, -⟩ := (h.mem_log step).mp hstep
    exact absurd (hcurrent.unique (hmem.mp hother).1) (Nat.ne_of_lt hm)
  · refine List.pairwise_append.mpr ⟨h.log_order, ?_, ?_⟩
    · refine List.Pairwise.imp_of_mem ?_ (pairwise_frontierTransitions frontier)
      intro step other hstep hother hle
      exact earlier_of_le (hmem.mp hstep).1 (hmem.mp hother).1 hle
    · intro step hstep other hother
      obtain ⟨⟨m, hm, hcurrent⟩, -⟩ := (h.mem_log step).mp hstep
      exact earlier_of_lt hm hcurrent (hmem.mp hother).1
  · intro a
    rw [List.mem_insertionSort, List.mem_dedup, hnext, List.nil_append, hnew]
  · rw [hordered]
    refine List.pairwise_append.mpr ⟨h.nearer, ?_, ?_⟩
    · refine List.pairwise_of_forall_mem_list ?_
      intro a ha b hb m hm
      exact ((hnew a).mp ha).near.mono (((hnew b).mp hb).le hm)
    · intro a ha b hb m hm
      exact ((h.mem_ordered a).mp ha).mono ((Nat.le_succ n).trans (((hnew b).mp hb).le hm))

/-- Nothing is left to be searched. -/
theorem Searched.stay (h : Searched index request n log [] state) :
    Searched index request (n + 1) log [] state := by
  have hnone : ∀ a, ¬ Distant index request n a := fun a ha =>
    List.not_mem_nil ((h.mem_frontier a).mpr ha)
  refine { h with mem_log := ?_, mem_frontier := ?_ }
  · intro step
    rw [h.mem_log]
    constructor
    · exact fun ⟨⟨m, hm, hcurrent⟩, hoffered⟩ => ⟨⟨m, Nat.lt_succ_of_lt hm, hcurrent⟩, hoffered⟩
    · rintro ⟨⟨m, hm, hcurrent⟩, hoffered⟩
      rcases Nat.lt_succ_iff_lt_or_eq.mp hm with hlt | rfl
      · exact ⟨⟨m, hlt, hcurrent⟩, hoffered⟩
      · exact absurd hcurrent (hnone _)
  · exact fun a => ⟨fun ha => absurd ha List.not_mem_nil, fun ha =>
      absurd ha (not_atDistance_succ hnone a)⟩

/-- All the levels of a request are searched. -/
theorem searched_traverseLevels {remaining level : ℕ} {result : Traversal}
    (h : Searched index request n log frontier state)
    (hok : traverseLevels P request index remaining level frontier state = .ok result) :
    ∃ log frontier, Searched index request (n + remaining) log frontier result := by
  induction remaining generalizing n level log frontier state with
  | zero =>
    obtain rfl := Except.ok.inj hok
    exact ⟨log, frontier, h⟩
  | succ remaining ih =>
    have hbound : n + (remaining + 1) = n + 1 + remaining := by omega
    rw [hbound]
    unfold traverseLevels at hok
    split at hok
    · next hempty =>
      obtain rfl := List.isEmpty_iff.mp hempty
      obtain rfl := Except.ok.inj hok
      exact @ih log [] state (n + 1) (level + 1) h.stay (by cases remaining <;> rfl)
    · obtain ⟨candidates, hload, hok⟩ := bind_eq_ok.mp hok
      exact ih (h.next hload) hok

/-- What a traversal begins with. -/
def startOf (request : GraphSliceRequest) (seedNodes : List IndexedGraphNode) : Traversal where
  orderedIds := request.seedIds.dedup.insertionSort (· ≤ ·)
  nodes := seedNodes
  paths := (request.seedIds.dedup.insertionSort (· ≤ ·)).map fun seed => (seed, [seed])
  boundaries := []
  maxDepth := 0

/-- Seeds that are admitted are at no distance. -/
theorem searched_start {seedNodes : List IndexedGraphNode}
    (hload : index.loadNodes request.runId (request.seedIds.dedup.insertionSort (· ≤ ·)) =
      .ok seedNodes)
    (hpresent : ∀ seed ∈ request.seedIds, ∃ node ∈ seedNodes, node.claimId = seed)
    (hmatches : ∀ node ∈ seedNodes, modeMatches node request.mode = true ∧
      routeOnlyMismatch node request.filters = false ∧
        otherFiltersMatch node request.filters = true) :
    Searched index request 0 [] (request.seedIds.dedup.insertionSort (· ≤ ·))
      (startOf request seedNodes) := by
  have hmem : ∀ a, a ∈ request.seedIds.dedup.insertionSort (· ≤ ·) ↔ a ∈ request.seedIds := by
    intro a
    rw [List.mem_insertionSort, List.mem_dedup]
  have honce : (request.seedIds.dedup.insertionSort (· ≤ ·)).Nodup :=
    (List.perm_insertionSort _ _).nodup_iff.mpr (List.nodup_dedup _)
  have hread : ∀ node ∈ seedNodes, ReadsAs index request node.claimId node ∧
      node.claimId ∈ request.seedIds := by
    intro node hnode
    obtain ⟨seed, hseed, hread⟩ := (mem_loadNodes_iff hload).mp hnode
    rw [hread.claimId]
    exact ⟨hread, (hmem seed).mp hseed⟩
  have hadmitted : ∀ seed ∈ request.seedIds, Admitted index request seed := by
    intro seed hseed
    obtain ⟨node, hnode, rfl⟩ := hpresent seed hseed
    exact ⟨node, (hread node hnode).1, hmatches node hnode⟩
  have hnodes : (seedNodes.map (·.claimId)).Perm
      (request.seedIds.dedup.insertionSort (· ≤ ·)) := by
    rw [List.perm_ext_iff_of_nodup (nodup_loadNodes hload) honce]
    intro a
    rw [hmem, List.mem_map]
    constructor
    · rintro ⟨node, hnode, rfl⟩
      exact (hread node hnode).2
    · exact fun ha => hpresent a ha
  refine ⟨⟨honce, ?_, ?_, hnodes, ?_, by simp, ?_, ?_, by simp [startOf], ?_, ?_⟩,
    by simp, List.nodup_nil, .nil, ?_, ?_⟩
  · intro b
    rw [startOf, hmem]
    simp
  · exact fun b hb => hadmitted b ((hmem b).mp hb)
  · rw [startOf, List.map_map]
    exact List.map_id _
  · intro seed hseed
    have hpair : (seed, [seed]) ∈ (startOf request seedNodes).paths :=
      List.mem_map.mpr ⟨seed, (hmem seed).mpr hseed, rfl⟩
    have hkeys : ((startOf request seedNodes).paths.map Prod.fst).Nodup := by
      rw [startOf, List.map_map]
      exact (List.map_id _).symm ▸ honce
    rw [Traversal.path, (mem_iff_lookup hkeys).mp hpair]
    rfl
  · exact fun b hb hnot => absurd ((hmem b).mp hb) hnot
  · exact fun key hit hlookup => by simp [startOf] at hlookup
  · exact fun key _ _ => rfl
  · intro a
    rw [hmem]
    exact atDistance_zero_iff.symm
  · exact List.pairwise_of_forall_mem_list fun a ha b _ m _ => .seed m ((hmem a).mp ha)

/-- A traversal searches all the levels of its request. -/
theorem searched_traverse {result : Traversal} (hok : traverse P request index = .ok result) :
    ∃ log frontier, Searched index request request.depth log frontier result := by
  unfold traverse at hok
  obtain ⟨seedNodes, hload, hok⟩ := bind_eq_ok.mp hok
  obtain ⟨⟨⟩, hpresent, hok⟩ := bind_eq_ok.mp hok
  obtain ⟨⟨⟩, hmatches, hok⟩ := bind_eq_ok.mp hok
  rw [rejectIf_eq_ok, ← Bool.not_eq_true, List.any_eq_true] at hpresent hmatches
  have hstart := searched_start hload (by
    intro seed hseed
    by_contra hnone
    refine hpresent ⟨seed, by simpa using hseed, ?_⟩
    rw [Bool.not_eq_true', ← Bool.not_eq_true, List.any_eq_true]
    rintro ⟨node, hnode, hid⟩
    exact hnone ⟨node, hnode, by simpa using hid⟩) (by
    intro node hnode
    by_contra hnot
    refine hmatches ⟨node, hnode, ?_⟩
    rw [Bool.not_eq_true', ← Bool.not_eq_true, Bool.and_eq_true, Bool.and_eq_true,
      Bool.not_eq_true']
    exact fun h => hnot ⟨h.1.1, h.1.2, h.2⟩)
  have hresult := searched_traverseLevels hstart hok
  rwa [Nat.zero_add] at hresult

end Levels

/-! ## The order of the edges -/

section Independent

variable {P : Platform} {index other : GraphIndex} {request : GraphSliceRequest}

theorem offered_congr (hedges : other.edges.Perm index.edges) (step : Transition) :
    Offered other request step ↔ Offered index request step := by
  have hprecedes : ∀ a b, Precedes other request.runId a b ↔ Precedes index request.runId a b :=
    fun a b => exists_congr fun edge => by rw [hedges.mem_iff]
  unfold Offered
  cases step.relationship with
  | successor | predecessor => exact and_congr_right fun _ => hprecedes _ _

/-- The steps from a frontier do not depend on the order of the edges. -/
theorem frontierTransitions_congr (hedges : other.edges.Perm index.edges) (frontier : List Id) :
    frontierTransitions request other frontier = frontierTransitions request index frontier := by
  refine List.Perm.eq_of_pairwise (fun _ _ _ _ => step_le_antisymm)
    (pairwise_frontierTransitions frontier) (pairwise_frontierTransitions frontier) ?_
  rw [List.perm_ext_iff_of_nodup (nodup_frontierTransitions _) (nodup_frontierTransitions _)]
  intro step
  rw [mem_frontierTransitions_iff, mem_frontierTransitions_iff, offered_congr hedges]

/-- A traversal does not depend on the order of the edges. -/
theorem traverse_congr (hnodes : other.nodes = index.nodes)
    (hedges : other.edges.Perm index.edges) :
    traverse P request other = traverse P request index := by
  have hload : ∀ claimIds, other.loadNodes request.runId claimIds =
      index.loadNodes request.runId claimIds := by
    intro claimIds
    rw [GraphIndex.loadNodes, GraphIndex.loadNodes, hnodes]
  have hlevels : ∀ remaining level frontier state,
      traverseLevels P request other remaining level frontier state =
        traverseLevels P request index remaining level frontier state := by
    intro remaining
    induction remaining with
    | zero => exact fun _ _ _ => rfl
    | succ remaining ih =>
      intro level frontier state
      rw [traverseLevels, traverseLevels, frontierTransitions_congr hedges]
      simp only [hload, ih]
  unfold traverse
  simp only [hload, hlevels]

end Independent

end ResearchKernel.Product.Slices
