import Mathlib.Order.WellFounded
import Mathlib.Data.Fintype.EquivFin
import ResearchKernel.Foundation.Search

/-!
# Topological order by indegrees

Kahn's algorithm visits the nodes of a finite graph whose indegree has become zero. The
discipline of the queue of such nodes is a parameter, and so is the order in which the
targets of a node are taken. The result is always an order in which every node stands
after its predecessors, and it holds all nodes exactly when the graph has no cycle.
-/

namespace Foundation

open Relation

variable {α : Type} [DecidableEq α]

/-- No node can be reached from itself by one or more arcs. -/
def Acyclic (arcs : List (α × α)) : Prop := ∀ node, ¬ TransGen (Arc arcs) node node

omit [DecidableEq α] in
/-- Fewer arcs have fewer cycles. -/
theorem Acyclic.mono {arcs arcs' : List (α × α)} (h : Acyclic arcs)
    (hsubset : ∀ a b, Arc arcs' a b → Arc arcs a b) : Acyclic arcs' :=
  fun node hcycle => h node (TransGen.mono hsubset node node hcycle)

omit [DecidableEq α] in
/-- A path with one more arc does without it, or leads to its source and on from its target. -/
theorem path_concat {arcs : List (α × α)} {arc : α × α} {a b : α}
    (hpath : TransGen (Arc (arcs ++ [arc])) a b) :
    TransGen (Arc arcs) a b ∨ ReflTransGen (Arc (arcs ++ [arc])) a arc.1 ∧
      ReflTransGen (Arc (arcs ++ [arc])) arc.2 b := by
  have hold : ∀ {x y}, Arc (arcs ++ [arc]) x y → Arc arcs x y ∨ x = arc.1 ∧ y = arc.2 := by
    intro x y hxy
    rcases List.mem_append.mp hxy with hin | hnew
    · exact Or.inl hin
    · obtain rfl := List.mem_singleton.mp hnew
      exact Or.inr ⟨rfl, rfl⟩
  induction hpath with
  | single hab =>
    rcases hold hab with hin | ⟨rfl, rfl⟩
    · exact Or.inl (TransGen.single hin)
    · exact Or.inr ⟨ReflTransGen.refl, ReflTransGen.refl⟩
  | tail hfirst hbc ih =>
    rcases ih with hdone | ⟨hto, hfrom⟩
    · rcases hold hbc with hin | ⟨rfl, rfl⟩
      · exact Or.inl (hdone.tail hin)
      · exact Or.inr ⟨hfirst.to_reflTransGen, ReflTransGen.refl⟩
    · exact Or.inr ⟨hto, hfrom.tail hbc⟩

omit [DecidableEq α] in
/-- An arc whose source cannot be reached from its target closes no cycle. -/
theorem Acyclic.concat {arcs : List (α × α)} {arc : α × α} (h : Acyclic arcs)
    (hno : ¬ ReflTransGen (Arc (arcs ++ [arc])) arc.2 arc.1) : Acyclic (arcs ++ [arc]) := by
  intro node hcycle
  rcases path_concat hcycle with hold | ⟨hto, hfrom⟩
  · exact h node hold
  · exact hno (hfrom.trans hto)

/-- How ready nodes are queued and how the targets of a node are ordered. -/
structure Discipline (α : Type) where
  /-- Put one more node into the queue. -/
  queue : List α → α → List α
  /-- Order the targets of the arcs that leave a node. -/
  order : List α → List α
  /-- Queueing adds the node and nothing else. -/
  queue_perm : ∀ ready node, (queue ready node).Perm (node :: ready)
  /-- Ordering neither adds nor drops a target. -/
  order_perm : ∀ targets, (order targets).Perm targets

variable (D : Discipline α)

/-- Take one arc away from each target; a target without arcs becomes ready. -/
def relax : List α → (α → ℕ) → List α → (α → ℕ) × List α
  | [], indegree, ready => (indegree, ready)
  | target :: targets, indegree, ready =>
    let degree := indegree target - 1
    let ready := if degree = 0 then D.queue ready target else ready
    relax targets (Function.update indegree target degree) ready

/-- The rounds of the algorithm; the visited nodes are listed with the last one first. -/
def kahnRounds (arcs : List (α × α)) : ℕ → (α → ℕ) → List α → List α → List α
  | 0, _, _, visited => visited
  | _ + 1, _, [], visited => visited
  | rounds + 1, indegree, node :: ready, visited =>
    let (indegree, ready) := relax D (D.order (successors arcs node)) indegree ready
    kahnRounds arcs rounds indegree ready (node :: visited)

/-- The number of arcs that enter a node. -/
def indegree (arcs : List (α × α)) (node : α) : ℕ :=
  arcs.countP fun arc => arc.2 = node

/-- The nodes in the order in which the algorithm visits them. -/
def kahn (nodes : List α) (arcs : List (α × α)) : List α :=
  let ready := nodes.filter fun node => indegree arcs node = 0
  (kahnRounds D arcs nodes.length (indegree arcs) ready []).reverse

/-! ## The invariant of the rounds -/

/-- The arcs into a node that leave a node not yet visited. -/
def pendingArcs (arcs : List (α × α)) (visited : List α) (node : α) : ℕ :=
  arcs.countP fun arc => arc.2 = node ∧ arc.1 ∉ visited

/-- The state of the algorithm while the targets of the last visited node are relaxed. -/
structure KahnState (nodes : List α) (arcs : List (α × α)) (targets : List α)
    (degree : α → ℕ) (ready visited : List α) : Prop where
  degree_eq : ∀ v, degree v = pendingArcs arcs visited v + targets.count v
  mem_iff : ∀ v, v ∈ ready ∨ v ∈ visited ↔ v ∈ nodes ∧ degree v = 0
  nodup : (ready ++ visited).Nodup

/-- Every visited node stands in front of its predecessors. -/
def Ordered (arcs : List (α × α)) : List α → Prop
  | [] => True
  | node :: visited => (∀ a, Arc arcs a node → a ∈ visited) ∧ node ∉ visited ∧ Ordered arcs visited

variable {D} {nodes : List α} {arcs : List (α × α)} {degree : α → ℕ} {ready visited : List α}

theorem pendingArcs_cons {node : α} (h : node ∉ visited) (v : α) :
    pendingArcs arcs visited v =
      pendingArcs arcs (node :: visited) v + (successors arcs node).count v := by
  induction arcs with
  | nil => rfl
  | cons arc arcs ih =>
    simp only [pendingArcs, successors, List.countP_cons, List.filter_cons, List.mem_cons, not_or,
      Bool.decide_and, Bool.and_eq_true, decide_eq_true_eq] at ih ⊢
    by_cases hsource : arc.1 = node
    · by_cases htarget : arc.2 = v
      · simp only [hsource, htarget, h, not_false_eq_true, and_self, ↓reduceIte, not_true_eq_false,
          false_and, and_false, List.map_cons, List.count_cons_self]
        omega
      · simp only [hsource, htarget, false_and, ↓reduceIte, List.map_cons, ne_eq,
          not_false_eq_true, List.count_cons_of_ne]
        omega
    · simp only [hsource, not_false_eq_true, true_and, ↓reduceIte]
      omega

/-- Relaxing the targets leaves no target and keeps the invariant. -/
theorem KahnState.relax {targets : List α} (h : KahnState nodes arcs targets degree ready visited)
    (htargets : ∀ t ∈ targets, t ∈ nodes) :
    KahnState nodes arcs [] (relax D targets degree ready).1 (relax D targets degree ready).2
      visited := by
  induction targets generalizing degree ready with
  | nil => exact h
  | cons target targets ih =>
    have hnode : target ∈ nodes := htargets target (List.mem_cons_self ..)
    have hpositive : 0 < degree target := by
      rw [h.degree_eq, List.count_cons_self]
      omega
    have hfresh : target ∉ ready ++ visited := by
      intro hmem
      have hzero := ((h.mem_iff target).mp (List.mem_append.mp hmem)).2
      omega
    simp only [Foundation.relax]
    refine ih ⟨?_, ?_, ?_⟩ (fun t ht => htargets t (List.mem_cons_of_mem _ ht))
    · intro v
      have hv := h.degree_eq v
      by_cases hvt : v = target
      · subst hvt
        rw [List.count_cons_self] at hv
        rw [Function.update_self]
        omega
      · rw [List.count_cons_of_ne (fun heq => hvt heq.symm)] at hv
        rw [Function.update_of_ne hvt]
        exact hv
    · intro v
      by_cases hvt : v = target
      · subst hvt
        rw [Function.update_self]
        split
        · rename_i hzero
          have hqueued : v ∈ D.queue ready v := (D.queue_perm ready v).mem_iff.mpr (by simp)
          simp [hqueued, hnode, hzero]
        · rename_i hzero
          rw [List.mem_append] at hfresh
          simp only [hfresh, hzero, and_false]
      · rw [Function.update_of_ne hvt, ← h.mem_iff v]
        split
        · rw [(D.queue_perm ready target).mem_iff, List.mem_cons]
          simp only [hvt, false_or]
        · rfl
    · split
      · have hperm := (D.queue_perm ready target).append_right visited
        rw [hperm.nodup_iff]
        exact List.nodup_cons.mpr ⟨hfresh, h.nodup⟩
      · exact h.nodup

/-- Visiting a ready node keeps the invariant, with its targets left to relax. -/
theorem KahnState.visit {node : α} (h : KahnState nodes arcs [] degree (node :: ready) visited) :
    KahnState nodes arcs (D.order (successors arcs node)) degree ready (node :: visited) := by
  have hnode : node ∉ visited := by
    have hnodup := h.nodup
    rw [List.cons_append, List.nodup_cons, List.mem_append, not_or] at hnodup
    exact hnodup.1.2
  refine ⟨?_, ?_, ?_⟩
  · intro v
    rw [(D.order_perm _).count_eq, ← pendingArcs_cons hnode v, h.degree_eq v, List.count_nil,
      Nat.add_zero]
  · intro v
    rw [← h.mem_iff v, List.mem_cons, List.mem_cons]
    tauto
  · exact (List.perm_middle.nodup_iff).mpr h.nodup

theorem KahnState.predecessors {node : α}
    (h : KahnState nodes arcs [] degree (node :: ready) visited) {a : α} (ha : Arc arcs a node) :
    a ∈ visited := by
  have hzero : degree node = 0 := ((h.mem_iff node).mp (Or.inl (List.mem_cons_self ..))).2
  rw [h.degree_eq, List.count_nil, Nat.add_zero, pendingArcs, List.countP_eq_zero] at hzero
  by_contra hunvisited
  exact hzero (a, node) ha (by simpa using hunvisited)

/-- What the rounds return: an ordered list of nodes, which leaves nothing ready. -/
theorem kahnRounds_spec {rounds : ℕ} (harcs : ∀ a b, Arc arcs a b → b ∈ nodes)
    (h : KahnState nodes arcs [] degree ready visited) (hordered : Ordered arcs visited)
    (hrounds : nodes.length ≤ visited.length + rounds) :
    ∃ degree', KahnState nodes arcs [] degree' [] (kahnRounds D arcs rounds degree ready visited) ∧
      Ordered arcs (kahnRounds D arcs rounds degree ready visited) := by
  induction rounds generalizing degree ready visited with
  | zero =>
    have hsubset : ready ++ visited ⊆ nodes := by
      intro v hv
      exact ((h.mem_iff v).mp (List.mem_append.mp hv)).1
    have hlength := (List.subperm_of_subset h.nodup hsubset).length_le
    rw [List.length_append] at hlength
    have hready : ready = [] := List.eq_nil_of_length_eq_zero (by omega)
    subst hready
    exact ⟨degree, h, hordered⟩
  | succ rounds ih =>
    cases ready with
    | nil => exact ⟨degree, h, hordered⟩
    | cons node ready =>
      have hvisit := h.visit (D := D)
      have htargets : ∀ t ∈ D.order (successors arcs node), t ∈ nodes := by
        intro t ht
        rw [(D.order_perm _).mem_iff, mem_successors] at ht
        exact harcs node t ht
      have hfresh : node ∉ visited := by
        have hnodup := h.nodup
        rw [List.cons_append, List.nodup_cons, List.mem_append, not_or] at hnodup
        exact hnodup.1.2
      have hordered' : Ordered arcs (node :: visited) :=
        ⟨fun a ha => h.predecessors ha, hfresh, hordered⟩
      have hlength : nodes.length ≤ (node :: visited).length + rounds := by
        rw [List.length_cons]
        omega
      exact ih (hvisit.relax htargets) hordered' hlength

/-! ## Order and acyclicity -/

omit [DecidableEq α] in
/-- Predecessors of an ordered list stand in it. -/
theorem Ordered.closed (h : Ordered arcs visited) {a b : α} (hb : b ∈ visited)
    (hpath : TransGen (Arc arcs) a b) : a ∈ visited := by
  have hstep : ∀ a b, b ∈ visited → Arc arcs a b → a ∈ visited := by
    clear hpath hb
    induction visited with
    | nil => simp
    | cons node visited ih =>
      obtain ⟨hpred, -, hrest⟩ := h
      intro a b hb hab
      rcases List.mem_cons.mp hb with rfl | hb
      · exact List.mem_cons_of_mem _ (hpred a hab)
      · exact List.mem_cons_of_mem _ (ih hrest a b hb hab)
  induction hpath using TransGen.head_induction_on with
  | single harc => exact hstep _ _ hb harc
  | head harc _ ih => exact hstep _ _ ih harc

omit [DecidableEq α] in
theorem Ordered.behind {before : List α} {node : α} (h : Ordered arcs (before ++ node :: visited))
    {a : α} (harc : Arc arcs a node) : a ∈ visited := by
  induction before with
  | nil => exact h.1 a harc
  | cons _ before ih => exact ih h.2.2

omit [DecidableEq α] in
/-- No node of an ordered list lies on a cycle. -/
theorem Ordered.not_cycle (h : Ordered arcs visited) {a : α} (ha : a ∈ visited) :
    ¬ TransGen (Arc arcs) a a := by
  induction visited with
  | nil => simp at ha
  | cons node visited ih =>
    have hpred := h.1
    obtain ⟨-, hfresh, hrest⟩ := h
    intro hcycle
    rcases List.mem_cons.mp ha with rfl | ha
    · obtain ⟨last, hpath, harc⟩ := TransGen.tail'_iff.mp hcycle
      have hlast := hpred last harc
      rcases (reflTransGen_iff_eq_or_transGen.mp hpath) with rfl | hpath
      · exact hfresh hlast
      · exact hfresh (hrest.closed hlast hpath)
    · exact ih hrest ha hcycle

/-- In a finite acyclic graph, a nonempty set of nodes has one without predecessors in it. -/
theorem Acyclic.exists_minimal (h : Acyclic arcs) {rest : List α} (hrest : rest ≠ []) :
    ∃ node ∈ rest, ∀ a ∈ rest, ¬ Arc arcs a node := by
  let R : {x // x ∈ rest} → {x // x ∈ rest} → Prop := fun a b => TransGen (Arc arcs) a b
  have : Finite {x // x ∈ rest} := inferInstance
  have : IsTrans {x // x ∈ rest} R := ⟨fun _ _ _ hab hbc => TransGen.trans hab hbc⟩
  have : Std.Irrefl R := ⟨fun a ha => h a ha⟩
  have hwf : WellFounded R := Finite.wellFounded_of_trans_of_irrefl R
  obtain ⟨first, hfirst⟩ := List.exists_mem_of_ne_nil rest hrest
  obtain ⟨⟨node, hnode⟩, -, hmin⟩ := hwf.has_min Set.univ ⟨⟨first, hfirst⟩, trivial⟩
  refine ⟨node, hnode, fun a ha harc => ?_⟩
  exact hmin ⟨a, ha⟩ trivial (TransGen.single harc)

section Result

variable (D) (hnodes : nodes.Nodup)
  (harcs : ∀ a b, Arc arcs a b → a ∈ nodes ∧ b ∈ nodes)

include hnodes harcs

omit harcs in
/-- The algorithm starts with the nodes that no arc enters, in any order. -/
theorem KahnState.start (hready : ready.Perm (nodes.filter fun node => indegree arcs node = 0)) :
    KahnState nodes arcs [] (indegree arcs) ready [] := by
  refine ⟨?_, ?_, ?_⟩
  · intro v
    simp [indegree, pendingArcs]
  · intro v
    simp [hready.mem_iff]
  · rw [List.append_nil]
    exact hready.nodup_iff.mpr (hnodes.filter _)

theorem kahn_spec : ∃ degree, KahnState nodes arcs [] degree [] (kahn D nodes arcs).reverse ∧
    Ordered arcs (kahn D nodes arcs).reverse := by
  rw [kahn, List.reverse_reverse]
  exact kahnRounds_spec (fun a b hab => (harcs a b hab).2) (.start hnodes (.refl _)) trivial
    (by simp)

/-- Every node that is visited is a node of the graph, and no node is visited twice. -/
theorem kahn_nodup_subset : (kahn D nodes arcs).Nodup ∧ kahn D nodes arcs ⊆ nodes := by
  obtain ⟨degree, hstate, -⟩ := kahn_spec D hnodes harcs
  constructor
  · simpa using hstate.nodup
  · intro v hv
    exact ((hstate.mem_iff v).mp (Or.inr (List.mem_reverse.mpr hv))).1

omit D in
/-- When no node is ready, all nodes are visited exactly when the graph has no cycle. -/
theorem KahnState.length_eq_iff (hstate : KahnState nodes arcs [] degree [] visited)
    (hordered : Ordered arcs visited) : visited.length = nodes.length ↔ Acyclic arcs := by
  have hnodup : visited.Nodup := by simpa using hstate.nodup
  have hsubset : visited ⊆ nodes := fun v hv => ((hstate.mem_iff v).mp (Or.inr hv)).1
  constructor
  · intro hlength node hcycle
    have hperm : visited.Perm nodes :=
      (List.subperm_of_subset hnodup hsubset).perm_of_length_le (by omega)
    obtain ⟨last, -, harc⟩ := TransGen.tail'_iff.mp hcycle
    have hvisited : node ∈ visited := hperm.mem_iff.mpr (harcs last node harc).2
    exact hordered.not_cycle hvisited hcycle
  · intro hacyclic
    by_contra hlength
    -- The nodes left over each have a predecessor left over, which is a cycle.
    let rest := nodes.filter (· ∉ visited)
    have hrest : rest ≠ [] := by
      intro hempty
      have hall : nodes ⊆ visited := by
        intro v hv
        by_contra hout
        have hmem : v ∈ rest := List.mem_filter.mpr ⟨hv, by simpa using hout⟩
        rw [hempty] at hmem
        cases hmem
      have hle := (List.subperm_of_subset hnodes hall).length_le
      have hge := (List.subperm_of_subset hnodup hsubset).length_le
      exact hlength (by omega)
    obtain ⟨node, hnode, hmin⟩ := hacyclic.exists_minimal hrest
    obtain ⟨hin, hout⟩ := List.mem_filter.mp hnode
    have hdegree : degree node = 0 := by
      rw [hstate.degree_eq, List.count_nil, Nat.add_zero, pendingArcs, List.countP_eq_zero]
      intro arc harc hpending
      obtain ⟨rfl, hunvisited⟩ : arc.2 = node ∧ arc.1 ∉ visited := by
        simpa using hpending
      refine hmin arc.1 (List.mem_filter.mpr ⟨(harcs arc.1 arc.2 harc).1, ?_⟩) harc
      simpa using hunvisited
    have hvisited := (hstate.mem_iff node).mpr ⟨hin, hdegree⟩
    simp only [List.not_mem_nil, false_or] at hvisited
    simp [hvisited] at hout

/-- The algorithm visits all nodes exactly when the graph has no cycle. -/
theorem length_kahn_eq_iff : (kahn D nodes arcs).length = nodes.length ↔ Acyclic arcs := by
  obtain ⟨degree, hstate, hordered⟩ := kahn_spec D hnodes harcs
  rw [← hstate.length_eq_iff hnodes harcs hordered, List.length_reverse]

end Result

end Foundation
