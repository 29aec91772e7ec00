import ResearchKernel.Composition

/-!
# The graph of verified facts

The read model over the active claims that have passed the truth gate, with the arcs of
the active logical edges between them. It is rebuilt from the rows of one run, for one
contract version or for all of them.
-/

namespace ResearchKernel

open Foundation

/-- Whether a claim has passed the gate of machine or of managed peer truth. -/
def truthGatePassed (claim : Claim) : Bool :=
  let closed := claim.closureState == .closedMachine || claim.closureState == .closedHuman ||
    claim.closureState == .closedHybrid
  claim.lifecycleStatus == .active &&
    (closed || (claim.semanticVerdict == .tested || claim.semanticVerdict == .humanAttested) &&
      (claim.machineVerdict == .kernelVerified || claim.machineVerdict == .certificateVerified ||
        claim.peerVerdict == .accepted))

/-- The arcs of an edge as the graph of facts reads them. -/
def factArcs (edge : ClaimEdge) : List (Id × Id) :=
  match edge.direction with
  | .bidirectional => [(edge.fromClaimId, edge.toClaimId), (edge.toClaimId, edge.fromClaimId)]
  | .reverse => [(edge.toClaimId, edge.fromClaimId)]
  | .forward => [(edge.fromClaimId, edge.toClaimId)]

/-- The graph of verified facts. -/
structure FactGraph where
  facts : List (Id × Claim)
  arcs : List (Id × Id)

/-- Whether a row belongs to the version for which the graph is built. -/
def inScope (scopedVersion : Option ℕ) (version : ℕ) : Bool := scopedVersion.all (version == ·)

/-- Build the graph from the claims and the edges of a run. -/
def FactGraph.ofRows (scopedVersion : Option ℕ) (claims : List Claim) (edges : List ClaimEdge) :
    FactGraph :=
  let facts := records (·.claimId) (claims.filter fun claim =>
    truthGatePassed claim && inScope scopedVersion claim.contractVersion && claim.claimId != "")
  { facts := facts
    arcs := ((edges.filter fun edge =>
      edge.status == .active && edge.edgeKind.isLogical &&
        inScope scopedVersion edge.contractVersion &&
        (facts.lookup edge.fromClaimId).isSome &&
        (facts.lookup edge.toClaimId).isSome).flatMap factArcs).dedup }

def Db.factGraph (db : Db) (runId : Id) (scopedVersion : Option ℕ) : FactGraph :=
  .ofRows scopedVersion (db.claims.filter (·.runId == runId))
    (db.claimEdges.filter (·.runId == runId))

/-- Why a question to the graph has no answer. -/
inductive FactError where
  /-- Some of the facts are unknown or unverified. -/
  | unknown (missing : List Id)
  /-- The graph contains a cycle. -/
  | cycle

namespace FactGraph

variable (graph : FactGraph)

/-- Whether an identifier is that of a fact. -/
def isFact (id : Id) : Bool := (graph.facts.lookup id).isSome

/-- Everything that some facts lead to along the given arcs. -/
def closure (arcs : List (Id × Id)) (seeds : List Id) : Except FactError (List Id) := do
  let missing := seeds.dedup.filter fun seed => !graph.isFact seed
  rejectIf (!missing.isEmpty) (.unknown (sorted missing))
  return (reachableFrom arcs seeds.dedup).dedup

/-- Ready facts are taken in the order in which they become ready. -/
def fifoDiscipline : Discipline Id where
  queue ready node := ready ++ [node]
  order := sorted
  queue_perm ready node := List.perm_append_singleton node ready
  order_perm := perm_sorted

/-- Facts and all they depend on, every fact after those it depends on. -/
def topological (ids : List Id) : Except FactError (List Id) := do
  let selected ← graph.closure (graph.arcs.map Prod.swap) ids
  let result := kahn fifoDiscipline (sorted selected) (arcsWithin selected graph.arcs)
  rejectIf (result.length != selected.length) .cycle
  return result

end FactGraph

/-! ## Order and cycles -/

theorem mem_factArcs (edge : ClaimEdge) (arc : Id × Id) :
    arc ∈ factArcs edge ↔ arc ∈ edge.arcs := by
  cases hdirection : edge.direction <;>
    simp [factArcs, ClaimEdge.arcs, directedArcs, hdirection, Direction.wire, Json.isText]

/-- An acyclic graph always has an order. -/
theorem FactGraph.topological_ne_cycle {graph : FactGraph} (h : Acyclic graph.arcs)
    (ids : List Id) : graph.topological ids ≠ .error .cycle := by
  intro hcycle
  unfold FactGraph.topological at hcycle
  cases hselected : graph.closure (graph.arcs.map Prod.swap) ids with
  | error reason =>
    have hreason : reason ≠ .cycle := by
      rintro rfl
      unfold FactGraph.closure at hselected
      simp only [rejectIf] at hselected
      split at hselected
      · cases hselected
      · cases hselected
    rw [hselected] at hcycle
    exact hreason (Except.error.inj hcycle)
  | ok selected =>
    have hnodup : selected.Nodup := by
      obtain ⟨⟨⟩, -, hselected⟩ := bind_eq_ok.mp hselected
      obtain rfl := pure_eq_ok.mp hselected
      exact List.nodup_dedup _
    have hwithin : ∀ a b, Arc (arcsWithin selected graph.arcs) a b →
        a ∈ sorted selected ∧ b ∈ sorted selected := by
      intro a b hab
      obtain ⟨-, hnodes⟩ := List.mem_filter.mp hab
      rw [(perm_sorted selected).mem_iff, (perm_sorted selected).mem_iff]
      simpa using hnodes
    have hacyclic : Acyclic (arcsWithin selected graph.arcs) :=
      h.mono fun a b hab => (List.mem_filter.mp hab).1
    have hlength := (length_kahn_eq_iff FactGraph.fifoDiscipline
      ((perm_sorted selected).nodup_iff.mpr hnodup) hwithin).mpr hacyclic
    rw [(perm_sorted selected).length_eq] at hlength
    rw [hselected] at hcycle
    change (rejectIf (_ != _) FactError.cycle >>= fun _ => pure _) = _ at hcycle
    rw [hlength, bne_self_eq_false] at hcycle
    cases hcycle

end ResearchKernel
