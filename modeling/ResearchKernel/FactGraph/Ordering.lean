import ResearchKernel.FactGraph
import ResearchKernel.Foundation.Worklist
import ResearchKernel.Projector

/-!
# The order of verified facts

The graph of verified facts is read from the projection of a run, which is a JSON object. From
some facts all they depend on is collected with a list of pending facts, and then put in an
order by indegrees within the collection. Both loops run over arbitrary graphs here: the
result is an order of exactly what the facts depend on, unless that part of the graph has a
cycle.
-/

namespace ResearchKernel.Facts

open Foundation Relation

/-! ## The graph of a projection -/

/-- A fact as the graph shows it. -/
structure FactView where
  factId : Id
  stableLabel : String
  claimKind : String
  statement : JsonObject
  statementHash : String
  contractVersion : ℤ
  machine : String
  semantic : String
  peer : String

/-- The graph of verified facts: the facts under their identifiers, and the arcs between them,
which the indexes of predecessors and successors hold by target and by source. -/
structure VerifiedFactGraph where
  facts : List (Id × FactView)
  arcs : List (Id × Id)
  distinct : (facts.map Prod.fst).Nodup
  named : ∀ entry ∈ facts, entry.2.factId = entry.1
  simple : arcs.Nodup
  between : ∀ arc ∈ arcs, arc.1 ∈ facts.map Prod.fst ∧ arc.2 ∈ facts.map Prod.fst

section Projection

variable (P : Platform)

/-- A member of an object as a text. -/
def textOr (fields : JsonObject) (key default : String) : String :=
  (fields.getOr key (.str default)).toText P

/-- Whether a claim of a projection has passed the gate of machine or of managed peer truth. -/
def truthGatePassed (claim : JsonObject) : Bool :=
  let closed := ["CLOSED_MACHINE", "CLOSED_HUMAN", "CLOSED_HYBRID"].contains
    (textOr P claim "closure" "OPEN")
  (claim.get "lifecycle").isText "ACTIVE" &&
    (closed || ["TESTED", "HUMAN_ATTESTED"].contains (textOr P claim "semantic" "UNREVIEWED") &&
      (["KERNEL_VERIFIED", "CERTIFICATE_VERIFIED"].contains
        (textOr P claim "machine" "UNVERIFIED") || textOr P claim "peer" "UNREVIEWED" == "ACCEPTED"))

/-- Whether an object belongs to the version for which the graph is built. -/
def inScope (scopedVersion : Option ℤ) (fields : JsonObject) : Bool :=
  scopedVersion.all fun version => (fields.get "contract_version").eqv (.int version)

/-- The fact of a claim, if it is one; none when its version is no integer. -/
def factOf (scopedVersion : Option ℤ) (value : Json) : Option (Option (Id × FactView)) :=
  match value.mapping? with
  | some claim =>
    let factId := textOr P claim "claim_id" ""
    match (claim.get "normalized_statement").mapping? with
    | some statement =>
      if truthGatePassed P claim && inScope scopedVersion claim && factId != "" then do
        let version ← Projection.toInteger P (claim.getOr "contract_version" (.int 0))
        return some (factId, {
          factId := factId
          stableLabel := textOr P claim "stable_label" factId
          claimKind := textOr P claim "claim_kind" "LEMMA"
          statement := statement
          statementHash := textOr P claim "statement_hash" ""
          contractVersion := version
          machine := textOr P claim "machine" "UNVERIFIED"
          semantic := textOr P claim "semantic" "UNREVIEWED"
          peer := textOr P claim "peer" "UNREVIEWED" })
      else some none
    | none => some none
  | none => some none

/-- The kinds of edges along which facts depend on each other. -/
def logicalEdgeKinds : List String := ["IMPLIES", "DEPENDS_ON", "SPECIALIZES", "GENERALIZES"]

/-- Whether a value is one of some texts; none when it is no element of any set. -/
def memberOf (texts : List String) : Json → Option Bool
  | .str text => some (texts.contains text)
  | .arr _ | .obj _ => none
  | _ => some false

/-- The arcs of an edge between facts. -/
def arcsOf (scopedVersion : Option ℤ) (facts : List (Id × FactView)) (value : Json) :
    Option (List (Id × Id)) :=
  match value.mapping? with
  | some edge =>
    let source := textOr P edge "from_claim_id" ""
    let target := textOr P edge "to_claim_id" ""
    if (edge.get "status").isText "ACTIVE" then do
      let logical ← memberOf logicalEdgeKinds (edge.get "edge_kind")
      if logical && inScope scopedVersion edge && (facts.lookup source).isSome &&
          (facts.lookup target).isSome then
        let direction := edge.getOr "direction" (.str "FORWARD")
        if direction.isText "BIDIRECTIONAL" then return [(source, target), (target, source)]
        else if direction.isText "REVERSE" then return [(target, source)]
        else return [(source, target)]
      else return []
    else some []
  | none => some []

/-- The facts of the claims of a projection; a later claim replaces an earlier one of the same
identifier. -/
def factsOf (projection : JsonObject) : Option (List (Id × FactView)) := do
  let claims ← (projection.getOr "claims" (.arr [])).elements
  let found ← claims.mapM (factOf P (projection.get "current_contract_version").int?)
  return dictOf (found.filterMap id)

def edgesOf (projection : JsonObject) (facts : List (Id × FactView)) : Option (List (Id × Id)) := do
  let edges ← (projection.getOr "edges" (.arr [])).elements
  let arcs ← edges.mapM (arcsOf P (projection.get "current_contract_version").int? facts)
  return arcs.flatten.dedup

end Projection

section Between

variable {P : Platform} {scopedVersion : Option ℤ} {projection : JsonObject}
  {facts : List (Id × FactView)}

/-- A fact stands under its identifier. -/
theorem factId_of_factOf {value : Json} {entry : Id × FactView}
    (h : factOf P scopedVersion value = some (some entry)) : entry.2.factId = entry.1 := by
  unfold factOf at h
  split at h
  · dsimp only at h
    split at h
    · split at h
      · obtain ⟨version, -, h⟩ := Option.bind_eq_some_iff.mp h
        cases h
        rfl
      · cases h
    · cases h
  · cases h

theorem named_of_factsOf (h : factsOf P projection = some facts) :
    ∀ entry ∈ facts, entry.2.factId = entry.1 := by
  obtain ⟨claims, -, h⟩ := Option.bind_eq_some_iff.mp h
  obtain ⟨found, hfound, h⟩ := Option.bind_eq_some_iff.mp h
  obtain rfl := Option.some.inj h
  rintro ⟨factId, fact⟩ hentry
  obtain ⟨_, hmem, rfl⟩ := List.mem_filterMap.mp (mem_of_mem_dictOf hentry)
  rw [mapM_eq_some] at hfound
  obtain ⟨value, -, hvalue⟩ := exists_left_of_forall₂ hfound _ hmem
  exact factId_of_factOf hvalue

variable {arcs : List (Id × Id)}

/-- The arcs of an edge lead from facts to facts. -/
theorem between_of_arcsOf {value : Json} (h : arcsOf P scopedVersion facts value = some arcs) :
    ∀ arc ∈ arcs, (facts.lookup arc.1).isSome = true ∧ (facts.lookup arc.2).isSome = true := by
  unfold arcsOf at h
  split at h
  · dsimp only at h
    split at h
    · obtain ⟨logical, -, h⟩ := Option.bind_eq_some_iff.mp h
      split at h
      · rename_i hends
        simp only [Bool.and_eq_true] at hends
        obtain ⟨⟨-, hsource⟩, htarget⟩ := hends
        split at h
        · obtain rfl := Option.some.inj h
          intro arc harc
          rcases List.mem_pair.mp harc with rfl | rfl
          · exact ⟨hsource, htarget⟩
          · exact ⟨htarget, hsource⟩
        · split at h
          · obtain rfl := Option.some.inj h
            exact List.forall_mem_singleton.mpr ⟨htarget, hsource⟩
          · obtain rfl := Option.some.inj h
            exact List.forall_mem_singleton.mpr ⟨hsource, htarget⟩
      · obtain rfl := Option.some.inj h
        exact List.forall_mem_nil _
    · obtain rfl := Option.some.inj h
      exact List.forall_mem_nil _
  · obtain rfl := Option.some.inj h
    exact List.forall_mem_nil _

theorem between_of_edgesOf (h : edgesOf P projection facts = some arcs) :
    ∀ arc ∈ arcs, arc.1 ∈ facts.map Prod.fst ∧ arc.2 ∈ facts.map Prod.fst := by
  obtain ⟨edges, -, h⟩ := Option.bind_eq_some_iff.mp h
  obtain ⟨found, hfound, h⟩ := Option.bind_eq_some_iff.mp h
  obtain rfl := Option.some.inj h
  intro arc harc
  obtain ⟨arcs, harcs, hmem⟩ := List.mem_flatten.mp (List.mem_dedup.mp harc)
  rw [mapM_eq_some] at hfound
  obtain ⟨value, -, hvalue⟩ := exists_left_of_forall₂ hfound _ harcs
  have hkey : ∀ id, (facts.lookup id).isSome = true → id ∈ facts.map Prod.fst := by
    intro id hid
    obtain ⟨entry, hentry, hsame⟩ := List.lookup_isSome_iff.mp hid
    exact List.mem_map.mpr ⟨entry, hentry, (beq_iff_eq.mp hsame).symm⟩
  obtain ⟨hsource, htarget⟩ := between_of_arcsOf hvalue arc hmem
  exact ⟨hkey _ hsource, hkey _ htarget⟩

theorem simple_of_edgesOf (h : edgesOf P projection facts = some arcs) :
    arcs.Nodup := by
  obtain ⟨edges, -, h⟩ := Option.bind_eq_some_iff.mp h
  obtain ⟨found, -, h⟩ := Option.bind_eq_some_iff.mp h
  obtain rfl := Option.some.inj h
  exact List.nodup_dedup _

theorem distinct_of_factsOf (h : factsOf P projection = some facts) :
    (facts.map Prod.fst).Nodup := by
  obtain ⟨claims, -, h⟩ := Option.bind_eq_some_iff.mp h
  obtain ⟨found, -, h⟩ := Option.bind_eq_some_iff.mp h
  obtain rfl := Option.some.inj h
  exact nodup_keys_dictOf _

end Between

namespace VerifiedFactGraph

/-- The graph of a projection; none where reading it raises. -/
def ofProjection (P : Platform) (projection : JsonObject) : Option VerifiedFactGraph :=
  match hfacts : factsOf P projection with
  | none => none
  | some facts =>
    match hedges : edgesOf P projection facts with
    | none => none
    | some arcs => some {
        facts := facts
        arcs := arcs
        distinct := distinct_of_factsOf hfacts
        named := named_of_factsOf hfacts
        simple := simple_of_edgesOf hedges
        between := between_of_edgesOf hedges }

variable (graph : VerifiedFactGraph)

/-- Whether an identifier is that of a fact. -/
def isFact (id : Id) : Bool := (graph.facts.lookup id).isSome

/-- Everything that some facts lead to along the given arcs. The rounds suffice. -/
def closure (arcs : List (Id × Id)) (seeds : List Id) : Except FactError (List Id) := do
  -- The distinct seeds are worked off from the last one on.
  let pending := seeds.reverse.dedup
  let missing := pending.filter fun seed => !graph.isFact seed
  rejectIf (!missing.isEmpty) (.unknown (sorted missing))
  return (gather sorted arcs (pending.length + arcs.length) pending []).getD []

/-- Facts and all they depend on, every fact after those it depends on. -/
def topological (ids : List Id) : Except FactError (List Id) := do
  let selected ← graph.closure (graph.arcs.map Prod.swap) ids
  let result := kahn FactGraph.fifoDiscipline (sorted selected) (arcsWithin selected graph.arcs)
  rejectIf (result.length != selected.length) .cycle
  return result

/-- A fact with the facts next to it. -/
structure LinkedFact where
  fact : FactView
  predecessorFactIds : List Id
  successorFactIds : List Id

/-- The fact of an identifier with the facts next to it. -/
def withLinks (id : Id) : Option LinkedFact :=
  (graph.facts.lookup id).map fun fact =>
    { fact := fact
      predecessorFactIds := sorted (successors (graph.arcs.map Prod.swap) fact.factId)
      successorFactIds := sorted (successors graph.arcs fact.factId) }

/-- The facts that depend on some facts. -/
def reverseClosure (ids : List Id) : Except FactError (List LinkedFact) := do
  let selected ← graph.closure graph.arcs ids
  return (sorted selected).filterMap graph.withLinks

/-! ## The law -/

/-- The fact is one of some facts, or one on which they depend. -/
def Needs (ids : List Id) (id : Id) : Prop := ∃ seed ∈ ids, ReflTransGen (Arc graph.arcs) id seed

/-- An arc between facts that some facts need. -/
def NeededArc (ids : List Id) (a b : Id) : Prop :=
  Arc graph.arcs a b ∧ graph.Needs ids a ∧ graph.Needs ids b

/-- What some facts need is put in order unless it has a cycle, and what depends on them is
found. -/
structure Orders (ids : List Id) : Prop where
  ordered : (∀ id, ¬ TransGen (graph.NeededArc ids) id id) → ∃ result,
    graph.topological ids = .ok result ∧ result.Nodup ∧
      (∀ id, id ∈ result ↔ graph.Needs ids id) ∧
      ∀ before id after, result = before ++ id :: after →
        ∀ predecessor, Arc graph.arcs predecessor id → predecessor ∈ before
  cycle_iff : graph.topological ids = .error .cycle ↔ ∃ id, TransGen (graph.NeededArc ids) id id
  dependents : ∃ facts, graph.reverseClosure ids = .ok facts ∧
    (facts.map (·.fact.factId)).Nodup ∧
    ∀ id, id ∈ facts.map (·.fact.factId) ↔ ∃ seed ∈ ids, ReflTransGen (Arc graph.arcs) seed id

variable {graph}

variable {ids : List Id}

theorem closure_eq_ok (hids : ∀ id ∈ ids, graph.isFact id = true) (arcs : List (Id × Id)) :
    ∃ selected, graph.closure arcs ids = .ok selected ∧
      selected.Nodup ∧ ∀ id, id ∈ selected ↔ ∃ seed ∈ ids, ReflTransGen (Arc arcs) seed id := by
  obtain ⟨selected, hselected, hnodup, hmem⟩ := gather_eq_some perm_sorted arcs ids.reverse.dedup
  refine ⟨selected, ?_, hnodup, fun id => ?_⟩
  · have hmissing : (ids.reverse.dedup.filter fun seed => !graph.isFact seed) = [] := by
      rw [List.filter_eq_nil_iff]
      intro seed hseed
      simp [hids seed (List.mem_reverse.mp (List.mem_dedup.mp hseed))]
    unfold closure
    simp only [hmissing, hselected]
    rfl
  · simp [hmem]

theorem arc_arcsWithin {selected : List Id} (hselected : ∀ id, id ∈ selected ↔ graph.Needs ids id)
    (a b : Id) :
    Arc (arcsWithin selected graph.arcs) a b ↔ graph.NeededArc ids a b := by
  unfold NeededArc Arc arcsWithin
  simp [hselected]

/-- In an order every predecessor stands before what depends on it. -/
theorem predecessors_before {arcs : List (Id × Id)} {result before after : List Id} {id : Id}
    (h : Ordered arcs result.reverse) (hsplit : result = before ++ id :: after) {predecessor : Id}
    (harc : Arc arcs predecessor id) : predecessor ∈ before := by
  rw [hsplit, List.reverse_append, List.reverse_cons, List.append_assoc,
    List.singleton_append] at h
  exact List.mem_reverse.mp (h.behind harc)

theorem isFact_of_path {seed id : Id} (hseed : graph.isFact seed = true)
    (hpath : ReflTransGen (Arc graph.arcs) seed id) : graph.isFact id = true := by
  rcases ReflTransGen.cases_tail_iff _ _ _ |>.mp hpath with rfl | ⟨last, -, harc⟩
  · exact hseed
  · obtain ⟨entry, hentry, hid⟩ := List.mem_map.mp (graph.between _ harc).2
    exact List.lookup_isSome_iff.mpr ⟨entry, hentry, by simp [hid]⟩

/-- The linked facts of some identifiers of facts have these identifiers. -/
theorem factIds_withLinks (hids : ∀ id ∈ ids, graph.isFact id = true) :
    (ids.filterMap graph.withLinks).map (·.fact.factId) = ids := by
  rw [List.map_filterMap]
  calc ids.filterMap (fun id => (graph.withLinks id).map (·.fact.factId))
      = ids.filterMap some := by
        apply List.filterMap_congr
        intro id hid
        obtain ⟨fact, hfact⟩ := Option.isSome_iff_exists.mp (hids id hid)
        have hname : fact.factId = id :=
          graph.named _ ((mem_iff_lookup graph.distinct).mpr hfact)
        simp [withLinks, hfact, hname]
    _ = ids := List.filterMap_some

/-- The ordering of facts gives an order of all they need unless that has a cycle. -/
theorem orders (graph : VerifiedFactGraph) (hids : ∀ id ∈ ids, graph.isFact id = true) :
    graph.Orders ids := by
  obtain ⟨selected, hclosure, hnodup, hmem⟩ :=
    closure_eq_ok hids (graph.arcs.map Prod.swap)
  have hneeds : ∀ id, id ∈ selected ↔ graph.Needs ids id := by
    intro id
    rw [hmem]
    simp only [path_swap]
    rfl
  have harcs := arc_arcsWithin hneeds
  have hwithin : ∀ a b, Arc (arcsWithin selected graph.arcs) a b →
      a ∈ sorted selected ∧ b ∈ sorted selected := by
    intro a b hab
    rw [(perm_sorted selected).mem_iff, (perm_sorted selected).mem_iff, hneeds, hneeds]
    exact ((harcs a b).mp hab).2
  have hsorted : (sorted selected).Nodup := (perm_sorted selected).nodup_iff.mpr hnodup
  have hsame : Arc (arcsWithin selected graph.arcs) = graph.NeededArc ids :=
    funext fun a => funext fun b => propext (harcs a b)
  have hlength := length_kahn_eq_iff FactGraph.fifoDiscipline hsorted hwithin
  rw [(perm_sorted selected).length_eq] at hlength
  have hacyclic : Acyclic (arcsWithin selected graph.arcs) ↔
      ∀ id, ¬ TransGen (graph.NeededArc ids) id id := by
    unfold Acyclic
    rw [hsame]
  have htopological : graph.topological ids =
      (rejectIf ((kahn FactGraph.fifoDiscipline (sorted selected)
        (arcsWithin selected graph.arcs)).length != selected.length) FactError.cycle).map
        fun _ => kahn FactGraph.fifoDiscipline (sorted selected)
          (arcsWithin selected graph.arcs) := by
    unfold topological
    rw [hclosure]
    rfl
  refine ⟨fun hnone => ?_, ?_, ?_⟩
  · have hall := hlength.mpr (hacyclic.mpr hnone)
    obtain ⟨hkahn, hsubset⟩ := kahn_nodup_subset FactGraph.fifoDiscipline hsorted hwithin
    obtain ⟨degree, -, hordered⟩ := kahn_spec FactGraph.fifoDiscipline hsorted hwithin
    have hperm : (kahn FactGraph.fifoDiscipline (sorted selected)
        (arcsWithin selected graph.arcs)).Perm (sorted selected) :=
      (List.subperm_of_subset hkahn hsubset).perm_of_length_le
        (by rw [hall, (perm_sorted selected).length_eq])
    have hresult : ∀ id, id ∈ kahn FactGraph.fifoDiscipline (sorted selected)
        (arcsWithin selected graph.arcs) ↔ graph.Needs ids id := by
      intro id
      rw [hperm.mem_iff, (perm_sorted selected).mem_iff, hneeds]
    refine ⟨_, ?_, hkahn, hresult, fun before id after hsplit predecessor harc => ?_⟩
    · rw [htopological, hall, bne_self_eq_false]
      rfl
    · have hid : graph.Needs ids id := by
        rw [← hresult, hsplit]
        exact List.mem_append_right _ List.mem_cons_self
      obtain ⟨seed, hseed, hpath⟩ := hid
      exact predecessors_before hordered hsplit ((harcs predecessor id).mpr
        ⟨harc, ⟨seed, hseed, .head harc hpath⟩, seed, hseed, hpath⟩)
  · rw [htopological, ← not_iff_not, not_exists, ← hacyclic, ← hlength]
    unfold rejectIf
    split
    · rename_i hne
      rw [bne_iff_ne] at hne
      simp [Except.map, hne]
    · rename_i heq
      rw [bne_iff_ne, not_not] at heq
      simp [Except.map, heq]
  · obtain ⟨dependents, hdependents, hdistinct, hreached⟩ := closure_eq_ok hids graph.arcs
    have hfacts : ∀ id ∈ sorted dependents, graph.isFact id = true := by
      intro id hid
      rw [(perm_sorted dependents).mem_iff, hreached] at hid
      obtain ⟨seed, hseed, hpath⟩ := hid
      exact isFact_of_path (hids seed hseed) hpath
    refine ⟨(sorted dependents).filterMap graph.withLinks, ?_, ?_, fun id => ?_⟩
    · unfold reverseClosure
      rw [hdependents]
      rfl
    · rw [factIds_withLinks hfacts]
      exact (perm_sorted dependents).nodup_iff.mpr hdistinct
    · rw [factIds_withLinks hfacts, (perm_sorted dependents).mem_iff, hreached]

end VerifiedFactGraph

/-- Every graph that is read from a projection puts what some of its facts need in order. -/
theorem orders_of_ofProjection (P : Platform) (projection : JsonObject) :
    ∀ graph ∈ VerifiedFactGraph.ofProjection P projection, ∀ ids : List Id,
      (∀ id ∈ ids, graph.isFact id = true) → graph.Orders ids :=
  fun graph _ _ hids => graph.orders hids

namespace Sample

/-- A platform on which texts are what they are. -/
def platform : Platform where
  nfc := id
  sha256 _ := ""
  hmacSha256 _ _ := ""
  uuid5 := id
  repr _ := ""
  parseInt _ := none

/-- A claim that has passed the gate. -/
def claim (claimId : Id) : Json :=
  .obj [("claim_id", .str claimId), ("lifecycle", .str "ACTIVE"), ("closure", .str "CLOSED_HUMAN"),
    ("normalized_statement", .obj [])]

/-- Two facts of which the second rests on the first. -/
def projection : JsonObject :=
  [("claims", .arr [claim "lemma", claim "root"]),
    ("edges", .arr [.obj [("from_claim_id", .str "lemma"), ("to_claim_id", .str "root"),
      ("status", .str "ACTIVE"), ("edge_kind", .str "DEPENDS_ON")]])]

theorem projection_read : ((VerifiedFactGraph.ofProjection platform projection).any
    fun graph => graph.isFact "root" && graph.arcs == [("lemma", "root")]) = true := by
  decide +kernel

end Sample

/-- The second fact and what it needs are put in order. -/
theorem orders_of_two_facts :
    ∃ graph ∈ VerifiedFactGraph.ofProjection Sample.platform Sample.projection,
      graph.Orders ["root"] := by
  obtain ⟨graph, hgraph, hfacts⟩ := (Option.any_eq_true _ _).mp Sample.projection_read
  rw [Bool.and_eq_true] at hfacts
  exact ⟨graph, hgraph, orders_of_ofProjection Sample.platform Sample.projection graph hgraph
    ["root"] (List.forall_mem_singleton.mpr hfacts.1)⟩

end ResearchKernel.Facts
