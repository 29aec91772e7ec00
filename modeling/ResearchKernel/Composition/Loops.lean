import ResearchKernel.Composition.Sound
import ResearchKernel.Foundation.Worklist

/-!
# The loops of the graph checks

Whether the selected part has a cycle, and which claims lead to the parent, is computed by two
loops that run until nothing is left to take. Here they are written as they run. Both end, and
what they return is a property of the arcs between the nodes alone.
-/

namespace ResearchKernel

open Foundation Relation

/-! ## The loop that looks for a cycle -/

/-- Take an arc away from its target, which is ready when this was the last one. -/
def release (state : (Id → ℤ) × List Id) (target : Id) : (Id → ℤ) × List Id :=
  let degree := state.1 target - 1
  (Function.update state.1 target degree,
    if degree = 0 then sorted (state.2 ++ [target]) else state.2)

/-- Take the ready nodes, the first one first, and count them. None when the rounds are used
up. -/
def countVisited (arcs : List (Id × Id)) : ℕ → (Id → ℤ) → List Id → ℕ → Option ℕ
  | _, _, [], visited => some visited
  | 0, _, _ :: _, _ => none
  | rounds + 1, indegree, node :: ready, visited =>
    let state := (sorted (successors arcs node)).foldl release (indegree, ready)
    countVisited arcs rounds state.1 state.2 (visited + 1)

/-- `_has_cycle`, with a round for each node. -/
def hasCycleLoop (nodes : List Id) (arcs : List (Id × Id)) : Option Bool := do
  let within := arcsWithin nodes arcs
  let ready := sorted (nodes.filter fun node => decide (indegree within node = 0))
  let visited ← countVisited within nodes.length (fun node => indegree within node) ready 0
  return visited != nodes.length

/-- Releasing the targets of a node is one round of the algorithm: no target has more arcs taken
away than enter it. -/
theorem foldl_release {targets : List Id} {degree : Id → ℕ} (ready : List Id)
    (h : ∀ v, targets.count v ≤ degree v) :
    targets.foldl release (fun v => (degree v : ℤ), ready) =
      (fun v => ((relax sortedDiscipline targets degree ready).1 v : ℤ),
        (relax sortedDiscipline targets degree ready).2) := by
  induction targets generalizing degree ready with
  | nil => rfl
  | cons target targets ih =>
    have hpos : 1 ≤ degree target := by
      have hcount := h target
      rw [List.count_cons_self] at hcount
      omega
    have hcast : (degree target : ℤ) - 1 = (degree target - 1 : ℕ) := by omega
    have hdegree : Function.update (fun v => (degree v : ℤ)) target ((degree target : ℤ) - 1) =
        fun v => (Function.update degree target (degree target - 1) v : ℤ) := by
      funext v
      by_cases hv : v = target
      · subst hv
        rw [Function.update_self, Function.update_self, hcast]
      · rw [Function.update_of_ne hv, Function.update_of_ne hv]
    have hzero : ((degree target : ℤ) - 1 = 0) ↔ degree target - 1 = 0 := by omega
    rw [List.foldl_cons, release, relax]
    simp only [hdegree, hzero]
    refine ih _ fun v => ?_
    have hcount := h v
    by_cases hv : v = target
    · subst hv
      rw [Function.update_self]
      rw [List.count_cons_self] at hcount
      omega
    · rw [Function.update_of_ne hv]
      rw [List.count_cons_of_ne (Ne.symm hv)] at hcount
      exact hcount

/-- The loop ends, and it counts what the rounds of the algorithm visit. -/
theorem countVisited_eq_some {nodes : List Id} {arcs : List (Id × Id)} {rounds : ℕ}
    {degree : Id → ℕ} {ready visited : List Id} (harcs : ∀ a b, Arc arcs a b → b ∈ nodes)
    (h : KahnState nodes arcs [] degree ready visited)
    (hrounds : nodes.length ≤ visited.length + rounds) :
    countVisited arcs rounds (fun v => (degree v : ℤ)) ready visited.length =
      some (kahnRounds sortedDiscipline arcs rounds degree ready visited).length := by
  induction rounds generalizing degree ready visited with
  | zero =>
    have hsubset : ready ++ visited ⊆ nodes := by
      intro v hv
      exact ((h.mem_iff v).mp (List.mem_append.mp hv)).1
    have hlength := (List.subperm_of_subset h.nodup hsubset).length_le
    rw [List.length_append] at hlength
    obtain rfl : ready = [] := List.eq_nil_of_length_eq_zero (by omega)
    rfl
  | succ rounds ih =>
    cases ready with
    | nil => rfl
    | cons node ready =>
      have hvisit : KahnState nodes arcs (sorted (successors arcs node)) degree ready
          (node :: visited) := h.visit (D := sortedDiscipline)
      have htargets : ∀ t ∈ sorted (successors arcs node), t ∈ nodes := by
        intro t ht
        rw [(perm_sorted _).mem_iff, mem_successors] at ht
        exact harcs node t ht
      have hcount : ∀ v, (sorted (successors arcs node)).count v ≤ degree v := by
        intro v
        rw [hvisit.degree_eq v]
        omega
      rw [countVisited, foldl_release ready hcount]
      exact ih (hvisit.relax htargets) (by rw [List.length_cons]; omega)

/-- The loop that looks for a cycle ends and finds one exactly when there is one. -/
theorem hasCycleLoop_eq_some {nodes : List Id} (hnodes : nodes.Nodup) (arcs : List (Id × Id)) :
    ∃ found, hasCycleLoop nodes arcs = some found ∧
      (found = true ↔ ∃ node, TransGen (Arc (arcsWithin nodes arcs)) node node) := by
  have hends : ∀ a b, Arc (arcsWithin nodes arcs) a b → a ∈ nodes ∧ b ∈ nodes := by
    intro a b hab
    simpa using (List.mem_filter.mp hab).2
  obtain ⟨ready, hready⟩ : ∃ ready, sorted (nodes.filter fun node =>
      decide (indegree (arcsWithin nodes arcs) node = 0)) = ready := ⟨_, rfl⟩
  have hstart := KahnState.start hnodes (hready ▸ perm_sorted _)
  obtain ⟨degree, hstate, hordered⟩ := kahnRounds_spec (D := sortedDiscipline)
    (fun a b hab => (hends a b hab).2) hstart trivial (le_add_left le_rfl)
  have hloop := countVisited_eq_some (fun a b hab => (hends a b hab).2) hstart
    (le_add_left (le_refl nodes.length))
  rw [List.length_nil] at hloop
  refine ⟨(kahnRounds sortedDiscipline (arcsWithin nodes arcs) nodes.length
    (indegree (arcsWithin nodes arcs)) ready []).length != nodes.length, ?_, ?_⟩
  · rw [hasCycleLoop]
    simp only [hready, hloop]
    rfl
  · rw [bne_iff_ne, ne_eq, hstate.length_eq_iff hnodes hends hordered, Acyclic, not_forall_not]

/-! ## The loop that goes back from the parent -/

/-- `_can_reach_parent`, with a round for the parent and one for each arc. The sources of the
arcs into a node are marked when they become pending, and the last one is taken first. -/
def canReachParentLoop (nodes : List Id) (arcs : List (Id × Id)) (parentId : Id) :
    Option (List Id) :=
  let reverse := (arcsWithin nodes arcs).map Prod.swap
  sweep reverse (reverse.length + 1) [parentId] [parentId]

/-- The loop that goes back from the parent ends and finds the nodes with a path to it. -/
theorem canReachParentLoop_eq_some (nodes : List Id) (arcs : List (Id × Id)) (parentId : Id) :
    ∃ reached, canReachParentLoop nodes arcs parentId = some reached ∧
      ∀ node, node ∈ reached ↔ ReflTransGen (Arc (arcsWithin nodes arcs)) node parentId := by
  obtain ⟨reached, hreached, hmem⟩ :=
    sweep_eq_some ((arcsWithin nodes arcs).map Prod.swap) parentId
  exact ⟨reached, hreached, fun node => (hmem node).trans path_swap⟩

/-! ## What the loops return -/

/-- What the two loops say about nodes, arcs and a parent. -/
structure GraphAnswers (nodes : List Id) (arcs : List (Id × Id)) (parentId : Id) (cyclic : Bool)
    (reached : List Id) : Prop where
  /-- There is a cycle of arcs between the nodes, or there is none. -/
  cyclic_iff : cyclic = true ↔ ∃ node, TransGen (Arc (arcsWithin nodes arcs)) node node
  /-- The nodes with a path to the parent, and the parent. -/
  reached_iff : ∀ node, node ∈ reached ↔
    node = parentId ∨ node ∈ nodes ∧ TransGen (Arc (arcsWithin nodes arcs)) node parentId
  /-- The validator of closure witnesses goes by the same answers. -/
  validator_cyclic : hasCycle nodes arcs = cyclic
  validator_reached : ∀ node, node ∈ canReachParent nodes arcs parentId ↔ node ∈ reached

/-- Both loops end, with the answers that the arcs between the nodes give. -/
theorem graph_loops_exact (nodes : List Id) (hnodes : nodes.Nodup) (arcs : List (Id × Id))
    (parentId : Id) :
    ∃ cyclic reached, hasCycleLoop nodes arcs = some cyclic ∧
      canReachParentLoop nodes arcs parentId = some reached ∧
        GraphAnswers nodes arcs parentId cyclic reached := by
  obtain ⟨cyclic, hcyclic, hcycle⟩ := hasCycleLoop_eq_some hnodes arcs
  obtain ⟨reached, hreached, hpath⟩ := canReachParentLoop_eq_some nodes arcs parentId
  have hsource : ∀ {node}, TransGen (Arc (arcsWithin nodes arcs)) node parentId →
      node ∈ nodes := by
    intro node hnode
    obtain ⟨next, harc, -⟩ := TransGen.head'_iff.mp hnode
    have hends := (List.mem_filter.mp harc).2
    rw [Bool.and_eq_true, List.contains_iff_mem] at hends
    exact hends.1
  refine ⟨cyclic, reached, hcyclic, hreached, hcycle, fun node => ?_, ?_, fun node => ?_⟩
  · rw [hpath, reflTransGen_iff_eq_or_transGen]
    constructor
    · rintro (heq | hnode)
      · exact Or.inl heq.symm
      · exact Or.inr ⟨hsource hnode, hnode⟩
    · rintro (heq | ⟨-, hnode⟩)
      · exact Or.inl heq.symm
      · exact Or.inr hnode
  · cases hfound : cyclic with
    | false =>
      rw [hasCycle_eq_false_iff hnodes]
      intro node hnode
      have htrue := hcycle.mpr ⟨node, hnode⟩
      rw [hfound] at htrue
      cases htrue
    | true =>
      obtain ⟨node, hnode⟩ := hcycle.mp hfound
      by_contra hno
      rw [Bool.not_eq_true, hasCycle_eq_false_iff hnodes] at hno
      exact hno node hnode
  · rw [mem_canReachParent, hpath]

/-- Two parallel arcs and a loop: the loop is a cycle, and the nodes with a path to the parent
are those behind the parallel arcs. -/
theorem graph_loops_exact_of_parallel :
    ∃ cyclic reached,
      hasCycleLoop ["a", "b", "c"] [("a", "b"), ("a", "b"), ("c", "c"), ("x", "b")] = some cyclic ∧
      canReachParentLoop ["a", "b", "c"] [("a", "b"), ("a", "b"), ("c", "c"), ("x", "b")] "b" =
        some reached ∧
        GraphAnswers ["a", "b", "c"] [("a", "b"), ("a", "b"), ("c", "c"), ("x", "b")] "b" cyclic
          reached :=
  graph_loops_exact _ (by decide) _ _

example : hasCycleLoop ["a", "b", "c"] [("a", "b"), ("b", "c"), ("c", "a")] = some true := by
  decide

end ResearchKernel
