import ResearchKernel.Foundation.Search

/-!
# Collections from a list of pending nodes

A program collects what can be reached from some nodes. It takes the last node that became
pending, selects it unless it was selected before, and makes the targets of its arcs pending
in some order. A node can be pending several times. With a round for each node that is
pending at the start and for each arc, the collection ends and is exactly what is reachable.
-/

namespace Foundation

open Relation

variable {α : Type} [DecidableEq α]

/-- Follow the pending nodes, the first one first; what becomes pending comes before the
others. None when the rounds are used up. -/
def gather (order : List α → List α) (arcs : List (α × α)) :
    ℕ → List α → List α → Option (List α)
  | _, [], selected => some selected
  | 0, _ :: _, _ => none
  | rounds + 1, node :: pending, selected =>
    if node ∈ selected then gather order arcs rounds pending selected
    else
      let fresh := (successors arcs node).filter (· ∉ node :: selected)
      gather order arcs rounds (order fresh ++ pending) (node :: selected)

/-- What is collected: no node twice, everything that was selected or pending, with it what its
arcs lead to, and nothing that cannot be reached. -/
structure Gathered (arcs : List (α × α)) (pending selected result : List α) : Prop where
  nodup : result.Nodup
  of_selected : ∀ a ∈ selected, a ∈ result
  of_pending : ∀ a ∈ pending, a ∈ result
  closed : ∀ a ∈ result, ∀ b, Arc arcs a b → b ∈ result
  reached : ∀ b ∈ result, b ∈ selected ∨ ∃ a ∈ pending, ReflTransGen (Arc arcs) a b

/-- With enough rounds the collection ends. -/
theorem gather_spec {order : List α → List α} (horder : ∀ nodes, (order nodes).Perm nodes)
    {arcs : List (α × α)} {rounds : ℕ} {pending selected : List α} (hnodup : selected.Nodup)
    (hrounds : pending.length + unseenArcs arcs selected ≤ rounds)
    (hclosed : ∀ a ∈ selected, ∀ b, Arc arcs a b → b ∈ selected ∨ b ∈ pending) :
    ∃ result, gather order arcs rounds pending selected = some result ∧
      Gathered arcs pending selected result := by
  induction rounds generalizing pending selected with
  | zero =>
    obtain rfl : pending = [] := List.eq_nil_of_length_eq_zero (by omega)
    refine ⟨selected, rfl, hnodup, fun _ ha => ha, by simp, ?_, fun _ hb => Or.inl hb⟩
    intro a ha b hab
    exact (hclosed a ha b hab).resolve_right List.not_mem_nil
  | succ rounds ih =>
    cases pending with
    | nil =>
      refine ⟨selected, rfl, hnodup, fun _ ha => ha, by simp, ?_, fun _ hb => Or.inl hb⟩
      intro a ha b hab
      exact (hclosed a ha b hab).resolve_right List.not_mem_nil
    | cons node pending =>
      rw [List.length_cons] at hrounds
      unfold gather
      by_cases hnode : node ∈ selected
      · rw [if_pos hnode]
        have hclosed' : ∀ a ∈ selected, ∀ b, Arc arcs a b → b ∈ selected ∨ b ∈ pending := by
          intro a ha b hab
          rcases hclosed a ha b hab with hb | hb
          · exact Or.inl hb
          · rcases List.mem_cons.mp hb with rfl | hb
            · exact Or.inl hnode
            · exact Or.inr hb
        obtain ⟨result, hresult, hgathered⟩ := ih hnodup (by omega) hclosed'
        refine ⟨result, hresult, hgathered.nodup, hgathered.of_selected, ?_, hgathered.closed, ?_⟩
        · intro a ha
          rcases List.mem_cons.mp ha with rfl | ha
          · exact hgathered.of_selected a hnode
          · exact hgathered.of_pending a ha
        · intro b hb
          rcases hgathered.reached b hb with hb | ⟨a, ha, hpath⟩
          · exact Or.inl hb
          · exact Or.inr ⟨a, List.mem_cons_of_mem _ ha, hpath⟩
      · rw [if_neg hnode]
        dsimp only
        set fresh := (successors arcs node).filter (· ∉ node :: selected) with hfresh
        have hmem : ∀ b, b ∈ order fresh ↔ Arc arcs node b ∧ b ∉ node :: selected := by
          intro b
          rw [(horder fresh).mem_iff, hfresh, List.mem_filter, mem_successors, decide_eq_true_eq]
        -- Selecting the node pays for its arcs, which bounds what becomes pending.
        have hcount := unseenArcs_cons arcs hnode
        have hlength : (order fresh).length ≤ (successors arcs node).length := by
          rw [(horder fresh).length_eq]
          exact List.length_filter_le _ _
        obtain ⟨result, hresult, hgathered⟩ := @ih (order fresh ++ pending) (node :: selected)
          (List.nodup_cons.mpr ⟨hnode, hnodup⟩) (by rw [List.length_append]; omega)
          (by
            intro a ha b hab
            by_cases hb : b ∈ node :: selected
            · exact Or.inl hb
            · refine Or.inr (List.mem_append.mpr ?_)
              rcases List.mem_cons.mp ha with rfl | ha
              · exact Or.inl ((hmem b).mpr ⟨hab, hb⟩)
              · rcases hclosed a ha b hab with hold | hpending
                · exact absurd (List.mem_cons_of_mem _ hold) hb
                · rcases List.mem_cons.mp hpending with rfl | hpending
                  · exact absurd List.mem_cons_self hb
                  · exact Or.inr hpending)
        refine ⟨result, hresult, hgathered.nodup, ?_, ?_, hgathered.closed, ?_⟩
        · exact fun a ha => hgathered.of_selected a (List.mem_cons_of_mem _ ha)
        · intro a ha
          rcases List.mem_cons.mp ha with rfl | ha
          · exact hgathered.of_selected a List.mem_cons_self
          · exact hgathered.of_pending a (List.mem_append_right _ ha)
        · intro b hb
          rcases hgathered.reached b hb with hb | ⟨a, ha, hpath⟩
          · rcases List.mem_cons.mp hb with rfl | hb
            · exact Or.inr ⟨b, List.mem_cons_self, .refl⟩
            · exact Or.inl hb
          · rcases List.mem_append.mp ha with ha | ha
            · exact Or.inr ⟨node, List.mem_cons_self, .head ((hmem a).mp ha).1 hpath⟩
            · exact Or.inr ⟨a, List.mem_cons_of_mem _ ha, hpath⟩

/-- The collection from some nodes is what is reachable from them. -/
theorem gather_eq_some {order : List α → List α} (horder : ∀ nodes, (order nodes).Perm nodes)
    (arcs : List (α × α)) (starts : List α) :
    ∃ result, gather order arcs (starts.length + arcs.length) starts [] = some result ∧
      result.Nodup ∧ ∀ b, b ∈ result ↔ ∃ a ∈ starts, ReflTransGen (Arc arcs) a b := by
  have hcount : unseenArcs arcs [] ≤ arcs.length := List.countP_le_length
  obtain ⟨result, hresult, hgathered⟩ := @gather_spec α _ order horder arcs
    (starts.length + arcs.length) starts [] List.nodup_nil (by omega) (by simp)
  refine ⟨result, hresult, hgathered.nodup, fun b => ⟨fun hb => ?_, ?_⟩⟩
  · exact (hgathered.reached b hb).resolve_left List.not_mem_nil
  · rintro ⟨a, ha, hpath⟩
    exact mem_of_closed hgathered.closed (hgathered.of_pending a ha) hpath

/-! ## Nodes that are marked when they become pending -/

/-- Mark a node and make it pending, unless it is marked. -/
def mark (state : List α × List α) (node : α) : List α × List α :=
  if node ∈ state.1 then state else (node :: state.1, node :: state.2)

/-- Follow the pending nodes, the last one that became pending first. None when the rounds are
used up. -/
def sweep (arcs : List (α × α)) : ℕ → List α → List α → Option (List α)
  | _, [], marked => some marked
  | 0, _ :: _, _ => none
  | rounds + 1, node :: pending, marked =>
    let state := (successors arcs node).foldl mark (marked, pending)
    sweep arcs rounds state.2 state.1

/-- Marking some nodes puts those that are new, each once, on both lists. -/
theorem foldl_mark (nodes marked pending : List α) :
    ∃ fresh : List α, nodes.foldl mark (marked, pending) = (fresh ++ marked, fresh ++ pending) ∧
      fresh.Nodup ∧ ∀ b, b ∈ fresh ↔ b ∈ nodes ∧ b ∉ marked := by
  induction nodes generalizing marked pending with
  | nil => exact ⟨[], rfl, List.nodup_nil, by simp⟩
  | cons node nodes ih =>
    rw [List.foldl_cons, mark]
    by_cases hnode : node ∈ marked
    · rw [if_pos hnode]
      obtain ⟨fresh, heq, hnodup, hmem⟩ := ih marked pending
      refine ⟨fresh, heq, hnodup, fun b => ?_⟩
      rw [hmem, List.mem_cons]
      constructor
      · rintro ⟨hb, hnew⟩
        exact ⟨Or.inr hb, hnew⟩
      · rintro ⟨rfl | hb, hnew⟩
        · exact absurd hnode hnew
        · exact ⟨hb, hnew⟩
    · rw [if_neg hnode]
      obtain ⟨fresh, heq, hnodup, hmem⟩ := ih (node :: marked) (node :: pending)
      refine ⟨fresh ++ [node], ?_, ?_, fun b => ?_⟩
      · rw [heq, List.append_assoc, List.append_assoc]
        rfl
      · refine List.nodup_append'.mpr ⟨hnodup, List.nodup_singleton node, ?_⟩
        intro b hb hlast
        rw [List.mem_singleton.mp hlast] at hb
        exact ((hmem node).mp hb).2 List.mem_cons_self
      · rw [List.mem_append, List.mem_singleton, hmem, List.mem_cons, List.mem_cons, not_or]
        constructor
        · rintro (⟨hb, -, hnew⟩ | rfl)
          · exact ⟨Or.inr hb, hnew⟩
          · exact ⟨Or.inl rfl, hnode⟩
        · rintro ⟨rfl | hb, hnew⟩
          · exact Or.inr rfl
          · by_cases heqb : b = node
            · exact Or.inr heqb
            · exact Or.inl ⟨hb, heqb, hnew⟩

/-- With enough rounds the sweep ends; what was marked stays so, and with a marked node
everything that its arcs lead to. -/
theorem sweep_spec {arcs : List (α × α)} {rounds : ℕ} {pending marked : List α}
    (hrounds : pending.length + (unreached arcs marked).length ≤ rounds)
    (hpending : pending ⊆ marked)
    (hclosed : ∀ a ∈ marked, a ∈ pending ∨ ∀ b, Arc arcs a b → b ∈ marked) :
    ∃ result, sweep arcs rounds pending marked = some result ∧ marked ⊆ result ∧
      (∀ a ∈ result, ∀ b, Arc arcs a b → b ∈ result) ∧
      ∀ b ∈ result, ∃ a ∈ marked, ReflTransGen (Arc arcs) a b := by
  induction rounds generalizing pending marked with
  | zero =>
    obtain rfl : pending = [] := List.eq_nil_of_length_eq_zero (by omega)
    refine ⟨marked, rfl, fun _ ha => ha, ?_, fun b hb => ⟨b, hb, .refl⟩⟩
    exact fun a ha => (hclosed a ha).resolve_left List.not_mem_nil
  | succ rounds ih =>
    cases pending with
    | nil =>
      refine ⟨marked, rfl, fun _ ha => ha, ?_, fun b hb => ⟨b, hb, .refl⟩⟩
      exact fun a ha => (hclosed a ha).resolve_left List.not_mem_nil
    | cons node pending =>
      obtain ⟨fresh, heq, hnodup, hmem⟩ := foldl_mark (successors arcs node) marked pending
      have hfresh : ∀ b, b ∈ fresh ↔ Arc arcs node b ∧ b ∉ marked := by
        intro b
        rw [hmem, mem_successors]
      have hcount := unreached_append_fresh hnodup hfresh
      rw [List.length_cons] at hrounds
      have hnode : node ∈ marked := hpending List.mem_cons_self
      obtain ⟨result, hresult, hmarked, hstays, hpath⟩ :=
        @ih (fresh ++ pending) (fresh ++ marked) (by rw [List.length_append]; omega) (by
          intro a ha
          rcases List.mem_append.mp ha with ha | ha
          · exact List.mem_append_left _ ha
          · exact List.mem_append_right _ (hpending (List.mem_cons_of_mem _ ha))) (by
          intro a ha
          rcases List.mem_append.mp ha with ha | ha
          · exact Or.inl (List.mem_append_left _ ha)
          · rcases hclosed a ha with hp | hdone
            · rcases List.mem_cons.mp hp with rfl | hp
              · right
                intro b hab
                by_cases hb : b ∈ marked
                · exact List.mem_append_right _ hb
                · exact List.mem_append_left _ ((hfresh b).mpr ⟨hab, hb⟩)
              · exact Or.inl (List.mem_append_right _ hp)
            · exact Or.inr fun b hab => List.mem_append_right _ (hdone b hab))
      refine ⟨result, ?_, fun a ha => hmarked (List.mem_append_right _ ha), hstays, ?_⟩
      · rw [sweep, heq]
        exact hresult
      · intro b hb
        obtain ⟨a, ha, hab⟩ := hpath b hb
        rcases List.mem_append.mp ha with ha | ha
        · exact ⟨node, hnode, .head ((hfresh a).mp ha).1 hab⟩
        · exact ⟨a, ha, hab⟩

/-- The sweep from a node marks what is reachable from it. -/
theorem sweep_eq_some (arcs : List (α × α)) (start : α) :
    ∃ result, sweep arcs (arcs.length + 1) [start] [start] = some result ∧
      ∀ b, b ∈ result ↔ ReflTransGen (Arc arcs) start b := by
  have hcount : (unreached arcs [start]).length ≤ arcs.length :=
    calc (unreached arcs [start]).length
        ≤ (arcs.map Prod.snd).dedup.length := List.length_filter_le _ _
      _ ≤ (arcs.map Prod.snd).length := (List.dedup_sublist _).length_le
      _ = arcs.length := List.length_map ..
  obtain ⟨result, hresult, hmarked, hclosed, hpath⟩ :=
    @sweep_spec α _ arcs (arcs.length + 1) [start] [start]
      (by rw [List.length_singleton]; omega) (fun _ ha => ha) (fun _ ha => Or.inl ha)
  refine ⟨result, hresult, fun b => ⟨fun hb => ?_, fun hreach => ?_⟩⟩
  · obtain ⟨a, ha, hab⟩ := hpath b hb
    rwa [List.mem_singleton.mp ha] at hab
  · exact mem_of_closed hclosed (hmarked (List.mem_singleton_self start)) hreach

end Foundation
