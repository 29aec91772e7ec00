import Mathlib.Data.List.Nodup
import Mathlib.Data.List.Perm.Subperm
import Mathlib.Data.List.TakeWhile
import ResearchKernel.Foundation.Checks

/-!
# Collections with a bound

A collection follows the nodes that are pending. Every node is looked up once, which may fail,
and gives more nodes that become pending. The collection stops when nothing is pending, or when
it would hold more than a bound allows.
-/

namespace Foundation

open Relation

variable {κ ρ ε : Type} [DecidableEq κ]

section

variable (visit : κ → Except ε ρ) (next : ρ → List κ) (full : ε)

/-- Follow the pending nodes. The first argument is how many more may be visited. -/
def collect : ℕ → List κ → List ρ → List κ → Except ε (List ρ)
  | 0, visited, ordered, pending =>
    match pending.dropWhile (visited.contains ·) with
    | [] => .ok ordered
    | node :: _ => do
      let _ ← visit node
      .error full
  | room + 1, visited, ordered, pending =>
    match pending.dropWhile (visited.contains ·) with
    | [] => .ok ordered
    | node :: rest => do
      let row ← visit node
      collect room (visited ++ [node]) (ordered ++ [row])
        (rest ++ (next row).filter fun other => !(visited ++ [node]).contains other)

/-- One node comes after another one when the look-up of the latter gives it. -/
def Follows (a b : κ) : Prop := ∃ row, visit a = .ok row ∧ b ∈ next row

end

variable {visit : κ → Except ε ρ} {next : ρ → List κ} {full : ε}

/-- The nodes that were visited, what their look-ups gave, and the nodes that are pending. -/
structure Collecting (visit : κ → Except ε ρ) (next : ρ → List κ) (starts visited : List κ)
    (ordered : List ρ) (pending : List κ) : Prop where
  nodup : visited.Nodup
  rows : List.Forall₂ (fun node row => visit node = .ok row) visited ordered
  reached : ∀ node, node ∈ visited ∨ node ∈ pending →
    ∃ start ∈ starts, ReflTransGen (Follows visit next) start node
  starts : ∀ start ∈ starts, start ∈ visited ∨ start ∈ pending
  closed : ∀ node ∈ visited, ∀ other, Follows visit next node other →
    other ∈ visited ∨ other ∈ pending

omit [DecidableEq κ] in
theorem Collecting.start (visit : κ → Except ε ρ) (next : ρ → List κ) (starts : List κ) :
    Collecting visit next starts [] [] starts where
  nodup := List.nodup_nil
  rows := .nil
  reached node h := ⟨node, h.resolve_left (List.not_mem_nil), .refl⟩
  starts _ h := Or.inr h
  closed _ h := nomatch h

variable {starts visited pending : List κ} {ordered : List ρ}

/-- The nodes at the front that were visited may be dropped. -/
theorem Collecting.drop (h : Collecting visit next starts visited ordered pending) :
    Collecting visit next starts visited ordered
      (pending.dropWhile (visited.contains ·)) := by
  have hcases : ∀ node, node ∈ visited ∨ node ∈ pending →
      node ∈ visited ∨ node ∈ pending.dropWhile (visited.contains ·) := by
    rintro node (hvisited | hpending)
    · exact Or.inl hvisited
    · rw [← List.takeWhile_append_dropWhile (p := (visited.contains ·)) (l := pending)] at hpending
      rcases List.mem_append.mp hpending with htake | hdrop
      · have hcontains := List.mem_takeWhile_imp htake
        exact Or.inl (List.contains_iff_mem.mp hcontains)
      · exact Or.inr hdrop
  refine ⟨h.nodup, h.rows, fun node hnode => h.reached node ?_,
    fun start hstart => hcases start (h.starts start hstart),
    fun node hnode other hother => hcases other (h.closed node hnode other hother)⟩
  exact hnode.imp_right fun hdrop => (List.dropWhile_sublist _).mem hdrop

variable {node : κ}

/-- The first node that is pending may be visited. -/
theorem Collecting.take {rest : List κ} {row : ρ}
    (h : Collecting visit next starts visited ordered (node :: rest)) (hfresh : node ∉ visited)
    (hrow : visit node = .ok row) :
    Collecting visit next starts (visited ++ [node]) (ordered ++ [row])
      (rest ++ (next row).filter fun other => !(visited ++ [node]).contains other) := by
  have hreached := h.reached node (Or.inr (List.mem_cons_self ..))
  refine ⟨?_, ?_, ?_, ?_, ?_⟩
  · rw [List.nodup_append]
    refine ⟨h.nodup, List.nodup_singleton node, fun old hold other hother => ?_⟩
    rw [List.mem_singleton.mp hother]
    exact fun heq => hfresh (heq ▸ hold)
  · exact List.rel_append h.rows (.cons hrow .nil)
  · rintro other (hvisited | hpending)
    · rcases List.mem_append.mp hvisited with hold | hnew
      · exact h.reached other (Or.inl hold)
      · rw [List.mem_singleton.mp hnew]
        exact hreached
    · rcases List.mem_append.mp hpending with hrest | hnext
      · exact h.reached other (Or.inr (List.mem_cons_of_mem _ hrest))
      · obtain ⟨start, hstart, hpath⟩ := hreached
        exact ⟨start, hstart, hpath.tail ⟨row, hrow, List.mem_of_mem_filter hnext⟩⟩
  · intro start hstart
    rcases h.starts start hstart with hvisited | hpending
    · exact Or.inl (List.mem_append_left _ hvisited)
    · rcases List.mem_cons.mp hpending with rfl | hrest
      · exact Or.inl (List.mem_append_right _ (List.mem_singleton_self _))
      · exact Or.inr (List.mem_append_left _ hrest)
  · intro source hsource other hother
    rcases List.mem_append.mp hsource with hold | hnew
    · rcases h.closed source hold other hother with hvisited | hpending
      · exact Or.inl (List.mem_append_left _ hvisited)
      · rcases List.mem_cons.mp hpending with rfl | hrest
        · exact Or.inl (List.mem_append_right _ (List.mem_singleton_self _))
        · exact Or.inr (List.mem_append_left _ hrest)
    · -- what follows the new node is visited or becomes pending
      rw [List.mem_singleton.mp hnew] at hother
      obtain ⟨row', hrow', hmem⟩ := hother
      rw [hrow] at hrow'
      cases hrow'
      by_cases hseen : other ∈ visited ++ [node]
      · exact Or.inl hseen
      · refine Or.inr (List.mem_append_right _ (List.mem_filter.mpr ⟨hmem, ?_⟩))
        rw [Bool.not_eq_true', ← Bool.not_eq_true, List.contains_iff_mem]
        exact hseen

omit [DecidableEq κ] in
/-- A collection that has nothing pending holds exactly what can be reached. -/
theorem Collecting.mem_iff (h : Collecting visit next starts visited ordered []) :
    node ∈ visited ↔ ∃ start ∈ starts, ReflTransGen (Follows visit next) start node := by
  constructor
  · exact fun hvisited => h.reached node (Or.inl hvisited)
  · rintro ⟨start, hstart, hpath⟩
    induction hpath with
    | refl => exact (h.starts start hstart).resolve_right List.not_mem_nil
    | tail _ hstep ih => exact (h.closed _ ih _ hstep).resolve_right List.not_mem_nil

/-- The head of what is left was not visited. -/
theorem not_mem_of_dropWhile {rest : List κ}
    (h : pending.dropWhile (visited.contains ·) = node :: rest) : node ∉ visited := by
  intro hmem
  have hhead : (pending.dropWhile (visited.contains ·)).head? = some node := by rw [h]; rfl
  have hfalse := List.head?_dropWhile_not (visited.contains ·) pending
  rw [hhead] at hfalse
  have hcontains : visited.contains node = true := List.contains_iff_mem.mpr hmem
  exact Bool.false_ne_true (hfalse.symm.trans hcontains)

/-- A collection that succeeds holds what can be reached from the start, each node once, and no
more than the bound allows. -/
theorem collect_spec {room : ℕ} {result : List ρ}
    (hstate : Collecting visit next starts visited ordered pending)
    (h : collect visit next full room visited ordered pending = .ok result) :
    ∃ nodes, Collecting visit next starts nodes result [] ∧
      nodes.length ≤ visited.length + room := by
  induction room generalizing visited ordered pending with
  | zero =>
    unfold collect at h
    have hdrop := hstate.drop
    split at h
    next hnil =>
      cases h
      exact ⟨visited, hnil ▸ hdrop, Nat.le_refl _⟩
    next =>
      obtain ⟨_, -, h⟩ := bind_eq_ok.mp h
      cases h
  | succ room ih =>
    unfold collect at h
    have hdrop := hstate.drop
    split at h
    next hnil =>
      cases h
      exact ⟨visited, hnil ▸ hdrop, Nat.le_add_right _ _⟩
    next node rest hcons =>
      obtain ⟨row, hrow, h⟩ := bind_eq_ok.mp h
      rw [hcons] at hdrop
      obtain ⟨nodes, hnodes, hlength⟩ :=
        ih (hdrop.take (not_mem_of_dropWhile hcons) hrow) h
      refine ⟨nodes, hnodes, ?_⟩
      rw [List.length_append, List.length_singleton] at hlength
      omega

/-- When everything that can be reached is looked up and fits the bound, a collection succeeds. -/
theorem collect_succeeds {closure : List κ} {room : ℕ}
    (hstate : Collecting visit next starts visited ordered pending)
    (hclosure : ∀ node, (∃ start ∈ starts, ReflTransGen (Follows visit next) start node) →
      node ∈ closure) (hvisit : ∀ node ∈ closure, ∃ row, visit node = .ok row)
    (hroom : closure.length ≤ visited.length + room) :
    ∃ result, collect visit next full room visited ordered pending = .ok result := by
  induction room generalizing visited ordered pending with
  | zero =>
    unfold collect
    have hdrop := hstate.drop
    split
    next => exact ⟨ordered, rfl⟩
    next node rest hcons =>
      -- one node more would be visited than there are
      rw [hcons] at hdrop
      have hmem := hclosure node (hdrop.reached node (Or.inr (List.mem_cons_self ..)))
      have hfresh := not_mem_of_dropWhile hcons
      have hsubset : visited ++ [node] ⊆ closure := by
        intro other hother
        rcases List.mem_append.mp hother with hold | hnew
        · exact hclosure other (hdrop.reached other (Or.inl hold))
        · rw [List.mem_singleton.mp hnew]
          exact hmem
      have hnodup : (visited ++ [node]).Nodup := by
        rw [List.nodup_append]
        refine ⟨hdrop.nodup, List.nodup_singleton node, fun old hold other hother => ?_⟩
        rw [List.mem_singleton.mp hother]
        exact fun heq => hfresh (heq ▸ hold)
      have hlength := (hnodup.subperm hsubset).length_le
      rw [List.length_append, List.length_singleton] at hlength
      omega
  | succ room ih =>
    unfold collect
    have hdrop := hstate.drop
    split
    next => exact ⟨ordered, rfl⟩
    next node rest hcons =>
      rw [hcons] at hdrop
      have hmem := hclosure node (hdrop.reached node (Or.inr (List.mem_cons_self ..)))
      obtain ⟨row, hrow⟩ := hvisit node hmem
      have hlength : closure.length ≤ (visited ++ [node]).length + room := by
        rw [List.length_append, List.length_singleton]
        omega
      obtain ⟨result, hresult⟩ :=
        ih (hdrop.take (not_mem_of_dropWhile hcons) hrow) hlength
      exact ⟨result, bind_eq_ok.mpr ⟨row, hrow, hresult⟩⟩

end Foundation
