import Mathlib.Data.List.Dedup
import Mathlib.Data.List.Perm.Subperm

/-!
# Searches in a finite graph

A graph is a list of arcs. Two searches occur in programs over such graphs: one that
looks for a goal and marks a node when it is taken from the list of pending nodes, and
one that collects everything reachable and marks a node when it is put on that list.
Both get a bound on the number of rounds, and with the bound given here both compute
reachability.
-/

namespace Foundation

open Relation

variable {α : Type}

/-- There is an arc from the first node to the second. -/
def Arc (arcs : List (α × α)) (a b : α) : Prop := (a, b) ∈ arcs

variable {arcs : List (α × α)} {a b : α}

/-- A set closed under arcs holds everything reachable from its elements. -/
theorem mem_of_closed {closed : List α} (hclosed : ∀ a ∈ closed, ∀ b, Arc arcs a b → b ∈ closed)
    (ha : a ∈ closed) (hpath : ReflTransGen (Arc arcs) a b) : b ∈ closed := by
  induction hpath with
  | refl => exact ha
  | tail _ harc ih => exact hclosed _ ih _ harc

variable [DecidableEq α]

/-- The targets of the arcs that leave a node. -/
def successors (arcs : List (α × α)) (node : α) : List α :=
  (arcs.filter fun arc => arc.1 = node).map Prod.snd

@[simp] theorem mem_successors :
    b ∈ successors arcs a ↔ Arc arcs a b := by
  simp only [successors, Arc, List.mem_map, List.mem_filter, decide_eq_true_eq]
  constructor
  · rintro ⟨⟨x, y⟩, ⟨hmem, rfl⟩, rfl⟩
    exact hmem
  · intro hmem
    exact ⟨(a, b), ⟨hmem, rfl⟩, rfl⟩

/-! ## The search for a goal -/

/-- Whether the goal is met when the pending nodes are followed, in so many rounds. -/
def reaches (arcs : List (α × α)) (goal : α) : ℕ → List α → List α → Bool
  | 0, _, _ => false
  | _ + 1, [], _ => false
  | rounds + 1, node :: pending, seen =>
    if node = goal then true
    else if node ∈ seen then reaches arcs goal rounds pending seen
    else reaches arcs goal rounds (successors arcs node ++ pending) (node :: seen)

/-- The arcs that leave a node not yet seen. -/
def unseenArcs (arcs : List (α × α)) (seen : List α) : ℕ :=
  arcs.countP fun arc => arc.1 ∉ seen

variable {seen : List α}

theorem unseenArcs_cons (arcs : List (α × α)) {node : α} (h : node ∉ seen) :
    unseenArcs arcs (node :: seen) + (successors arcs node).length = unseenArcs arcs seen := by
  induction arcs with
  | nil => rfl
  | cons arc arcs ih =>
    simp only [unseenArcs, successors, List.length_map, List.countP_cons, List.mem_cons, not_or,
      Bool.decide_and, Bool.and_eq_true, decide_eq_true_eq, List.filter_cons] at ih ⊢
    by_cases hnode : arc.1 = node
    · have hunseen : arc.1 ∉ seen := hnode ▸ h
      simp only [hnode, not_true_eq_false, false_and, ↓reduceIte, h, not_false_eq_true,
        List.length_cons]
      omega
    · by_cases hseen : arc.1 ∈ seen
      · simp only [hnode, hseen, not_true_eq_false, and_false, ↓reduceIte]
        omega
      · simp only [hnode, hseen, not_false_eq_true, and_self, ↓reduceIte]
        omega

variable {goal : α} {rounds : ℕ} {pending : List α}

/-- A goal that is met is reachable from a pending node. -/
theorem exists_path_of_reaches (h : reaches arcs goal rounds pending seen = true) :
    ∃ node ∈ pending, ReflTransGen (Arc arcs) node goal := by
  induction rounds generalizing pending seen with
  | zero => simp [reaches] at h
  | succ rounds ih =>
    cases pending with
    | nil => simp [reaches] at h
    | cons node pending =>
      simp only [reaches] at h
      split at h
      · rename_i hgoal
        exact ⟨node, List.mem_cons_self .., hgoal ▸ ReflTransGen.refl⟩
      · split at h
        · obtain ⟨next, hnext, hpath⟩ := ih h
          exact ⟨next, List.mem_cons_of_mem _ hnext, hpath⟩
        · obtain ⟨next, hnext, hpath⟩ := ih h
          rcases List.mem_append.mp hnext with hsucc | hrest
          · exact ⟨node, List.mem_cons_self .., ReflTransGen.head (mem_successors.mp hsucc) hpath⟩
          · exact ⟨next, List.mem_cons_of_mem _ hrest, hpath⟩

/-- A search that ends without the goal has shut it out: what was seen or pending stays
within a set that is closed under arcs and does not hold the goal. -/
theorem closed_of_not_reaches (hrounds : pending.length + unseenArcs arcs seen < rounds)
    (hgoal : goal ∉ seen) (hseen : ∀ a ∈ seen, ∀ b, Arc arcs a b → b ∈ seen ∨ b ∈ pending)
    (h : reaches arcs goal rounds pending seen = false) :
    ∃ closed : List α, goal ∉ closed ∧ (∀ a ∈ seen, a ∈ closed) ∧ (∀ a ∈ pending, a ∈ closed) ∧
      ∀ a ∈ closed, ∀ b, Arc arcs a b → b ∈ closed := by
  induction rounds generalizing pending seen with
  | zero => omega
  | succ rounds ih =>
    cases pending with
    | nil =>
      refine ⟨seen, hgoal, fun a ha => ha, by simp, ?_⟩
      intro a ha b hab
      simpa using hseen a ha b hab
    | cons node pending =>
      simp only [List.length_cons] at hrounds
      simp only [reaches] at h
      split at h
      · cases h
      · rename_i hne
        split at h
        · rename_i hmem
          have hseen' : ∀ a ∈ seen, ∀ b, Arc arcs a b → b ∈ seen ∨ b ∈ pending := by
            intro a ha b hab
            rcases hseen a ha b hab with hb | hb
            · exact Or.inl hb
            · rcases List.mem_cons.mp hb with rfl | hb
              · exact Or.inl hmem
              · exact Or.inr hb
          obtain ⟨closed, hg, hs, hp, hc⟩ := ih (by omega) hgoal hseen' h
          refine ⟨closed, hg, hs, ?_, hc⟩
          intro a ha
          rcases List.mem_cons.mp ha with rfl | ha
          · exact hs a hmem
          · exact hp a ha
        · rename_i hfresh
          have hcount := unseenArcs_cons arcs hfresh
          have hseen' : ∀ a ∈ node :: seen, ∀ b, Arc arcs a b →
              b ∈ node :: seen ∨ b ∈ successors arcs node ++ pending := by
            intro a ha b hab
            rcases List.mem_cons.mp ha with rfl | ha
            · exact Or.inr (List.mem_append_left _ (mem_successors.mpr hab))
            · rcases hseen a ha b hab with hb | hb
              · exact Or.inl (List.mem_cons_of_mem _ hb)
              · rcases List.mem_cons.mp hb with rfl | hb
                · exact Or.inl (List.mem_cons_self ..)
                · exact Or.inr (List.mem_append_right _ hb)
          have hgoal' : goal ∉ node :: seen := by
            simp only [List.mem_cons, not_or]
            exact ⟨fun heq => hne heq.symm, hgoal⟩
          obtain ⟨closed, hg, hs, hp, hc⟩ :=
            ih (by rw [List.length_append]; omega) hgoal' hseen' h
          refine ⟨closed, hg, fun a ha => hs a (List.mem_cons_of_mem _ ha), ?_, hc⟩
          intro a ha
          rcases List.mem_cons.mp ha with rfl | ha
          · exact hs a (List.mem_cons_self ..)
          · exact hp a (List.mem_append_right _ ha)

/-- With two rounds more than there are arcs, the search for a goal decides reachability. -/
theorem reaches_iff {start : α} (hrounds : arcs.length + 2 ≤ rounds) :
    reaches arcs goal rounds [start] [] = true ↔ ReflTransGen (Arc arcs) start goal := by
  constructor
  · intro h
    obtain ⟨node, hnode, hpath⟩ := exists_path_of_reaches h
    rw [List.mem_singleton] at hnode
    exact hnode ▸ hpath
  · intro hpath
    by_contra hfalse
    have hcount : unseenArcs arcs [] ≤ arcs.length := List.countP_le_length
    obtain ⟨closed, hgoal, -, hstart, hclosed⟩ :=
      closed_of_not_reaches (by simp only [List.length_singleton]; omega) (by simp) (by simp)
        (Bool.eq_false_iff.mpr hfalse)
    exact hgoal (mem_of_closed hclosed (hstart start (by simp)) hpath)

/-! ## The collection of everything reachable -/

/-- The successors of a node that are not yet reached, each once. -/
def freshSuccessors (arcs : List (α × α)) (reached : List α) (node : α) : List α :=
  ((successors arcs node).filter (· ∉ reached)).dedup

variable {reached : List α}

@[simp] theorem mem_freshSuccessors :
    b ∈ freshSuccessors arcs reached a ↔ Arc arcs a b ∧ b ∉ reached := by
  simp [freshSuccessors]

/-- Everything reached when the pending nodes are followed, in so many rounds. -/
def grow (arcs : List (α × α)) : ℕ → List α → List α → List α
  | 0, _, reached => reached
  | _ + 1, [], reached => reached
  | rounds + 1, node :: pending, reached =>
    let fresh := freshSuccessors arcs reached node
    grow arcs rounds (fresh ++ pending) (fresh ++ reached)

/-- The targets of arcs that are not yet reached. -/
def unreached (arcs : List (α × α)) (reached : List α) : List α :=
  ((arcs.map Prod.snd).dedup).filter (· ∉ reached)

/-- New nodes that arcs of a node lead to are no longer unreached. -/
theorem unreached_append_fresh {fresh : List α} {node : α} (hfresh : fresh.Nodup)
    (hmem : ∀ b, b ∈ fresh ↔ Arc arcs node b ∧ b ∉ reached) :
    (unreached arcs (fresh ++ reached)).length + fresh.length ≤
      (unreached arcs reached).length := by
  have hnodup : (unreached arcs (fresh ++ reached) ++ fresh).Nodup := by
    refine List.Nodup.append ?_ hfresh ?_
    · exact (List.nodup_dedup _).filter _
    · intro a ha hb
      simp only [unreached, List.mem_filter, List.mem_append, not_or, decide_eq_true_eq] at ha
      exact ha.2.1 hb
  have hsubset : unreached arcs (fresh ++ reached) ++ fresh ⊆ unreached arcs reached := by
    intro a ha
    rcases List.mem_append.mp ha with ha | ha
    · simp only [unreached, List.mem_filter, List.mem_append, not_or, decide_eq_true_eq] at ha ⊢
      exact ⟨ha.1, ha.2.2⟩
    · obtain ⟨harc, hnew⟩ := (hmem a).mp ha
      simp only [unreached, List.mem_filter, List.mem_dedup, List.mem_map, decide_eq_true_eq]
      exact ⟨⟨(node, a), harc, rfl⟩, hnew⟩
  have hlength := (List.subperm_of_subset hnodup hsubset).length_le
  rwa [List.length_append] at hlength

theorem unreached_append (arcs : List (α × α)) (reached : List α) (node : α) :
    (unreached arcs (freshSuccessors arcs reached node ++ reached)).length +
      (freshSuccessors arcs reached node).length ≤ (unreached arcs reached).length :=
  unreached_append_fresh (List.nodup_dedup _) fun _ => mem_freshSuccessors

/-- What the collection returns holds what was reached before. -/
theorem subset_grow (arcs : List (α × α)) (rounds : ℕ) (pending reached : List α) :
    reached ⊆ grow arcs rounds pending reached := by
  induction rounds generalizing pending reached with
  | zero => simp [grow]
  | succ rounds ih =>
    cases pending with
    | nil => simp [grow]
    | cons node pending =>
      intro a ha
      exact ih _ _ (List.mem_append_right _ ha)

/-- Everything collected is reachable from a node that was reached before. -/
theorem exists_path_of_mem_grow (hpending : pending ⊆ reached)
    (hb : b ∈ grow arcs rounds pending reached) :
    ∃ a ∈ reached, ReflTransGen (Arc arcs) a b := by
  induction rounds generalizing pending reached with
  | zero => exact ⟨b, hb, ReflTransGen.refl⟩
  | succ rounds ih =>
    cases pending with
    | nil => exact ⟨b, hb, ReflTransGen.refl⟩
    | cons node pending =>
      simp only [grow] at hb
      have hpending' : freshSuccessors arcs reached node ++ pending ⊆
          freshSuccessors arcs reached node ++ reached := by
        intro a ha
        rcases List.mem_append.mp ha with ha | ha
        · exact List.mem_append_left _ ha
        · exact List.mem_append_right _ (hpending (List.mem_cons_of_mem _ ha))
      obtain ⟨a, ha, hpath⟩ := ih hpending' hb
      rcases List.mem_append.mp ha with ha | ha
      · obtain ⟨harc, -⟩ := mem_freshSuccessors.mp ha
        exact ⟨node, hpending (List.mem_cons_self ..), ReflTransGen.head harc hpath⟩
      · exact ⟨a, ha, hpath⟩

/-- With enough rounds, what is collected is closed under arcs. -/
theorem closed_grow (hrounds : pending.length + (unreached arcs reached).length ≤ rounds)
    (hreached : ∀ a ∈ reached, a ∈ pending ∨ ∀ b, Arc arcs a b → b ∈ reached) :
    ∀ a ∈ grow arcs rounds pending reached, ∀ b, Arc arcs a b →
      b ∈ grow arcs rounds pending reached := by
  induction rounds generalizing pending reached with
  | zero =>
    have hempty : pending = [] := List.eq_nil_of_length_eq_zero (by omega)
    subst hempty
    intro a ha b hab
    exact ((hreached a ha).resolve_left (by simp)) b hab
  | succ rounds ih =>
    cases pending with
    | nil =>
      intro a ha b hab
      exact ((hreached a ha).resolve_left (by simp)) b hab
    | cons node pending =>
      have hcount := unreached_append arcs reached node
      simp only [List.length_cons] at hrounds
      simp only [grow]
      refine ih (by rw [List.length_append]; omega) ?_
      intro a ha
      rcases List.mem_append.mp ha with ha | ha
      · exact Or.inl (List.mem_append_left _ ha)
      · rcases hreached a ha with hp | hdone
        · rcases List.mem_cons.mp hp with rfl | hp
          · right
            intro b hab
            by_cases hb : b ∈ reached
            · exact List.mem_append_right _ hb
            · exact List.mem_append_left _ (mem_freshSuccessors.mpr ⟨hab, hb⟩)
          · exact Or.inl (List.mem_append_right _ hp)
        · exact Or.inr fun b hab => List.mem_append_right _ (hdone b hab)

/-- Everything reachable from the given nodes. -/
def reachableFrom (arcs : List (α × α)) (starts : List α) : List α :=
  grow arcs (starts.length + arcs.length) starts starts

/-- The collection computes reachability. -/
theorem mem_reachableFrom {starts : List α} :
    b ∈ reachableFrom arcs starts ↔ ∃ a ∈ starts, ReflTransGen (Arc arcs) a b := by
  constructor
  · intro hb
    exact exists_path_of_mem_grow (fun _ ha => ha) hb
  · rintro ⟨a, ha, hpath⟩
    have hlength : (unreached arcs starts).length ≤ arcs.length := by
      calc (unreached arcs starts).length
          ≤ (arcs.map Prod.snd).dedup.length := List.length_filter_le _ _
        _ ≤ (arcs.map Prod.snd).length := (List.dedup_sublist _).length_le
        _ = arcs.length := List.length_map ..
    have hclosed : ∀ a ∈ reachableFrom arcs starts, ∀ b, Arc arcs a b →
        b ∈ reachableFrom arcs starts := closed_grow (by omega) (fun a ha => Or.inl ha)
    exact mem_of_closed hclosed (subset_grow _ _ _ _ ha) hpath

/-! ## Paths when arcs are added or turned around -/

omit [DecidableEq α] in
/-- An arc does not help to get to its own source. -/
theorem path_to_source {arc : α × α} (h : ReflTransGen (Arc (arcs ++ [arc])) a arc.1) :
    ReflTransGen (Arc arcs) a arc.1 := by
  induction h using ReflTransGen.head_induction_on with
  | refl => exact ReflTransGen.refl
  | head hstep _ ih =>
    rcases List.mem_append.mp hstep with hold | hnew
    · exact ReflTransGen.head hold ih
    · -- The path is already at the source when it takes the arc.
      obtain rfl := List.mem_singleton.mp hnew
      exact ReflTransGen.refl

omit [DecidableEq α] in
/-- An arc does not help to get back from its target to its source. -/
theorem path_back_concat {arc : α × α} :
    ReflTransGen (Arc (arcs ++ [arc])) arc.2 arc.1 ↔ ReflTransGen (Arc arcs) arc.2 arc.1 := by
  constructor
  · exact path_to_source
  · exact ReflTransGen.mono (fun a b hab => List.mem_append_left _ hab) _ _

omit [DecidableEq α] in
/-- Paths along arcs that are turned around go the other way. -/
theorem path_swap :
    ReflTransGen (Arc (arcs.map Prod.swap)) a b ↔ ReflTransGen (Arc arcs) b a := by
  have hswap : Arc (arcs.map Prod.swap) = Function.swap (Arc arcs) := by
    funext x y
    simp [Arc, Function.swap]
  rw [hswap]
  exact reflTransGen_swap

end Foundation
