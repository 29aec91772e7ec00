import ResearchKernel.Product.Paging

/-!
# The edges on the pages of a slice

A page holds the edges both of whose ends are on it. So the pages together hold the edges of the
slice exactly when no edge of the run joins claims of two pages.
-/

namespace ResearchKernel.Product.Pages

open Foundation Indexing

/-! ## Edges between claims -/

/-- An edge as a page shows it. -/
def shownEdge (edge : EdgeRow) : IndexedGraphEdge where
  edgeId := edge.edgeId
  fromClaimId := edge.fromClaimId
  toClaimId := edge.toClaimId
  logicalDirection := edge.logicalDirection
  obligationStatus := edge.obligationStatus
  bridgeSpecId := edge.bridgeSpecId

theorem mem_pageEdges {tables : GraphTables} {runId : Id} {claimIds : List Id}
    {shown : IndexedGraphEdge} :
    shown ∈ pageEdges tables runId claimIds ↔ ∃ edge ∈ tables.edges, edge.runId = runId ∧
      edge.fromClaimId ∈ claimIds ∧ edge.toClaimId ∈ claimIds ∧ shownEdge edge = shown := by
  unfold pageEdges
  simp only [List.mem_map, List.mem_insertionSort, List.mem_filter, Bool.and_eq_true, beq_iff_eq,
    List.contains_iff_mem]
  constructor
  · rintro ⟨edge, ⟨hedge, hrun, hfrom, hto⟩, rfl⟩
    exact ⟨edge, hedge, hrun, hfrom, hto, rfl⟩
  · rintro ⟨edge, hedge, hrun, hfrom, hto, rfl⟩
    exact ⟨edge, ⟨hedge, hrun, hfrom, hto⟩, rfl⟩

/-- What is on a page of a listing. -/
theorem mem_page {α : Type} {listing : List α} {i limit : ℕ} (hlimit : 0 < limit) {a : α} :
    a ∈ (listing.drop (i * limit)).take limit ↔ ∃ k, listing[k]? = some a ∧ k / limit = i := by
  rw [List.mem_iff_getElem?]
  constructor
  · rintro ⟨k, hk⟩
    have hlt : k < limit := by
      by_contra hge
      rw [List.getElem?_take_eq_none (by omega)] at hk
      cases hk
    rw [List.getElem?_take_of_lt hlt, List.getElem?_drop] at hk
    refine ⟨i * limit + k, hk, ?_⟩
    rw [Nat.mul_comm, Nat.mul_add_div hlimit, Nat.div_eq_of_lt hlt, Nat.add_zero]
  · rintro ⟨k, hk, rfl⟩
    have hlt := Nat.mod_lt k hlimit
    refine ⟨k % limit, ?_⟩
    rw [List.getElem?_take_of_lt hlt, List.getElem?_drop, Nat.div_add_mod']
    exact hk

/-! ## The edges of a slice -/

section Edges

variable {R : Type} (Q : QueryRuntime R) (codec : CursorCodec) (graph : IndexedGraph)
  (request : GraphSliceRequest) (lagPolicy : LagPolicy) (now : Stamp)

/-- The pages of a slice end, and they hold the edges of the run between the claims on them. -/
def PagesKeepEdges : Prop :=
  ∃ enough, ∀ fuel, enough ≤ fuel → ∃ result state,
    slicePages Q codec graph request lagPolicy now fuel = some (result, state) ∧
      ∀ pages, result = .ok pages → ∀ shown, shown ∈ pages.flatMap GraphSlice.edges ↔
        shown ∈ pageEdges (fullSlice Q graph request lagPolicy now).2.database.tables request.runId
          ((pages.flatMap GraphSlice.nodes).map (·.claimId))

/-- No edge of the run joins claims of a slice that stand on different pages. -/
def EdgesOnOnePage : Prop :=
  ∀ nodes, (fullSlice Q graph request lagPolicy now).1 = .ok nodes →
    ∀ edge ∈ (fullSlice Q graph request lagPolicy now).2.database.tables.edges,
      edge.runId = request.runId → ∀ i j, (nodes.map (·.claimId))[i]? = some edge.fromClaimId →
        (nodes.map (·.claimId))[j]? = some edge.toClaimId →
          i / request.nodeLimit = j / request.nodeLimit

/-- What the pages of a slice hold: the edges between the claims of each page of its listing. -/
theorem mem_edges_slicePages {fuel : ℕ} {pages : List GraphSlice} {state : IndexedGraph}
    (h : slicePages Q codec graph request lagPolicy now fuel = some (.ok pages, state))
    {nodes : List Product.IndexedGraphNode}
    (hnodes : (fullSlice Q graph request lagPolicy now).1 = .ok nodes) {shown : IndexedGraphEdge} :
    0 < request.nodeLimit ∧ (nodes.map (·.claimId)).Nodup ∧
      (shown ∈ pages.flatMap GraphSlice.edges ↔
        ∃ edge ∈ (fullSlice Q graph request lagPolicy now).2.database.tables.edges,
          edge.runId = request.runId ∧ shownEdge edge = shown ∧ ∃ i j,
            (nodes.map (·.claimId))[i]? = some edge.fromClaimId ∧
              (nodes.map (·.claimId))[j]? = some edge.toClaimId ∧
                i / request.nodeLimit = j / request.nodeLimit) := by
  have hnodup := nodup_fullSlice Q hnodes
  unfold fullSlice at hnodes ⊢
  cases hvalid : liftGraph request.validate with
  | error error =>
    rw [hvalid] at hnodes
    cases hnodes
  | ok u =>
    rw [hvalid] at hnodes
    unfold alignedRead at hnodes ⊢
    cases haligned : align Q graph request.runId request.atCursor request.atRevision lagPolicy
        now with
    | error error =>
      rw [haligned] at hnodes
      cases hnodes
    | ok aligned =>
      rw [haligned] at hnodes
      dsimp only at hnodes ⊢
      obtain ⟨traversal, htraverse, hnodes⟩ := bind_eq_ok.mp hnodes
      have hvalid := liftGraph_eq_ok.mp hvalid
      have htraverse := liftGraph_eq_ok.mp htraverse
      have hlimit := limit_of_validate hvalid
      have hids : nodes.map (·.claimId) = traversal.orderedIds := by
        cases hnodes
        exact map_traversalNodes (listed_traverse htraverse)
      rw [hids] at hnodup ⊢
      have hserves := @servesPages_slice _ Q codec _ _ lagPolicy now _ _ hvalid htraverse
        (.stale "")
      obtain ⟨hall, hcover⟩ := hserves.mem_followPages rfl haligned h
      have hpage : ∀ {page : GraphSlice} {i : ℕ} {prior : IndexedGraph},
          (i = 0 ∨ i * request.nodeLimit < traversal.orderedIds.length) →
            align Q prior request.runId request.atCursor request.atRevision lagPolicy now =
              .ok aligned →
            (slice Q codec prior request lagPolicy now (tokenAt Q codec (sliceBinding Q request)
              traversal.orderedIds (i * request.nodeLimit))).1 = .ok page →
            page.edges = pageEdges aligned.database.tables request.runId
              ((traversal.orderedIds.drop (i * request.nodeLimit)).take request.nodeLimit) := by
        intro page i prior hi hprior hserved
        have hplace : i * request.nodeLimit = 0 ∨
            i * request.nodeLimit < traversal.orderedIds.length :=
          hi.imp (fun hzero => by rw [hzero, Nat.zero_mul]) id
        rw [slice_tokenAt Q codec hvalid htraverse hprior hplace] at hserved
        obtain ⟨served, hsliced, -, hedges, -⟩ := sliceAt_boundaryAt Q codec htraverse hlimit
          (show i * request.nodeLimit ≤ traversal.orderedIds.length by omega)
        rw [hsliced] at hserved
        cases hserved
        exact hedges
      refine ⟨hlimit, hnodup, ?_⟩
      rw [List.mem_flatMap]
      constructor
      · rintro ⟨page, hmem, hshown⟩
        obtain ⟨i, hi, prior, hprior, hserved⟩ := hall page hmem
        rw [hpage hi hprior hserved] at hshown
        obtain ⟨edge, hedge, hrun, hfrom, hto, heq⟩ := mem_pageEdges.mp hshown
        obtain ⟨k, hk, hki⟩ := (mem_page hlimit).mp hfrom
        obtain ⟨l, hl, hli⟩ := (mem_page hlimit).mp hto
        exact ⟨edge, hedge, hrun, heq, k, l, hk, hl, hki.trans hli.symm⟩
      · rintro ⟨edge, hedge, hrun, heq, k, l, hk, hl, hsame⟩
        have hlt : k < traversal.orderedIds.length := (List.getElem?_eq_some_iff.mp hk).1
        have hi : k / request.nodeLimit = 0 ∨
            k / request.nodeLimit * request.nodeLimit < traversal.orderedIds.length :=
          Or.inr ((Nat.div_mul_le_self k request.nodeLimit).trans_lt hlt)
        obtain ⟨page, hmem, prior, hprior, hserved⟩ := hcover _ hi
        refine ⟨page, hmem, ?_⟩
        rw [hpage hi hprior hserved]
        exact mem_pageEdges.mpr ⟨edge, hedge, hrun, (mem_page hlimit).mpr ⟨k, hk, rfl⟩,
          (mem_page hlimit).mpr ⟨l, hl, hsame.symm⟩, heq⟩

/-- When the pages keep the edges, no edge joins claims of two pages. -/
theorem onePage_of_keepEdges (h : PagesKeepEdges Q codec graph request lagPolicy now) :
    EdgesOnOnePage Q graph request lagPolicy now := by
  intro nodes hnodes edge hedge hrun i j hi hj
  obtain ⟨enough, hkeeps⟩ := h
  obtain ⟨needed, hread⟩ := slicePages_eq Q codec graph request lagPolicy now
  obtain ⟨result, state, hresult, hkept⟩ := hkeeps (max enough needed) (le_max_left ..)
  obtain ⟨result', state', hresult', hcontent⟩ := hread (max enough needed) (le_max_right ..)
  rw [hresult] at hresult'
  cases hresult'
  rw [hnodes] at hcontent
  cases result with
  | error error => cases hcontent
  | ok pages =>
    have hflat : pages.flatMap GraphSlice.nodes = nodes := Except.ok.inj hcontent
    obtain ⟨-, hnodup, hmem⟩ := @mem_edges_slicePages _ Q codec graph request lagPolicy now _ _ _
      hresult _ hnodes (shownEdge edge)
    have hshown : shownEdge edge ∈ pages.flatMap GraphSlice.edges := by
      rw [hkept pages rfl, hflat]
      exact mem_pageEdges.mpr ⟨edge, hedge, hrun, List.mem_of_getElem? hi, List.mem_of_getElem? hj,
        rfl⟩
    -- the edge that the page shows has the same ends, and a claim stands at one place only
    obtain ⟨other, -, -, heq, k, l, hk, hl, hsame⟩ := hmem.mp hshown
    have hfrom : other.fromClaimId = edge.fromClaimId :=
      congrArg IndexedGraphEdge.fromClaimId heq
    have hto : other.toClaimId = edge.toClaimId := congrArg IndexedGraphEdge.toClaimId heq
    have hki : k = i := (List.getElem?_inj (List.getElem?_eq_some_iff.mp hk).1 hnodup).mp
      (by rw [hk, hi, hfrom])
    have hlj : l = j := (List.getElem?_inj (List.getElem?_eq_some_iff.mp hl).1 hnodup).mp
      (by rw [hl, hj, hto])
    rw [← hki, ← hlj]
    exact hsame

/-- When no edge joins claims of two pages, the pages keep the edges. -/
theorem keepEdges_of_onePage (h : EdgesOnOnePage Q graph request lagPolicy now) :
    PagesKeepEdges Q codec graph request lagPolicy now := by
  obtain ⟨enough, hread⟩ := slicePages_eq Q codec graph request lagPolicy now
  refine ⟨enough, fun fuel hfuel => ?_⟩
  obtain ⟨result, state, hresult, hcontent⟩ := hread fuel hfuel
  refine ⟨result, state, hresult, fun pages hok shown => ?_⟩
  subst hok
  have hnodes : (fullSlice Q graph request lagPolicy now).1 =
      .ok (pages.flatMap GraphSlice.nodes) := hcontent.symm
  obtain ⟨-, -, hmem⟩ := @mem_edges_slicePages _ Q codec graph request lagPolicy now _ _ _
    hresult _ hnodes shown
  rw [hmem, mem_pageEdges]
  constructor
  · rintro ⟨edge, hedge, hrun, heq, i, j, hi, hj, -⟩
    exact ⟨edge, hedge, hrun, List.mem_of_getElem? hi, List.mem_of_getElem? hj, heq⟩
  · rintro ⟨edge, hedge, hrun, hfrom, hto, heq⟩
    obtain ⟨i, hi⟩ := List.mem_iff_getElem?.mp hfrom
    obtain ⟨j, hj⟩ := List.mem_iff_getElem?.mp hto
    exact ⟨edge, hedge, hrun, heq, i, j, hi, hj, h _ hnodes edge hedge hrun i j hi hj⟩

/-- The pages of a slice keep its edges exactly when no edge joins claims of two pages. -/
theorem pages_keep_edges_iff : PagesKeepEdges Q codec graph request lagPolicy now ↔
    EdgesOnOnePage Q graph request lagPolicy now :=
  ⟨onePage_of_keepEdges Q codec graph request lagPolicy now,
    keepEdges_of_onePage Q codec graph request lagPolicy now⟩

end Edges

/-! ## Two claims on two pages -/

/-- Surroundings in which a digest is the text itself. -/
def plainRuntime : QueryRuntime ℕ where
  nfc := id
  sha256 := String.ofList
  hmacSha256 _ := String.ofList
  uuid5 := id
  repr _ := ""
  parseInt _ := none
  hmacDigest _ _ := List.replicate 32 0
  length_hmacDigest _ _ := List.length_replicate
  isWordChar := Char.isAlphanum
  ftsMatches _ _ _ := true
  bm25 _ _ _ := 0

/-- A claim of the run with its document. -/
def plainNode (claimId : Id) : NodeRow where
  runId := "r"
  claimId := claimId
  stableLabel := claimId
  statement := claimId
  lifecycle := "PROVED"
  dependable := true
  claimType := "LEMMA"
  authorityAxesJson := dumps (.obj [("truth", .str "PROVED")])
  contractVersion := 1
  verificationMethod := "REVIEW"
  sourceWorkerRunId := none
  routeId := some "route"
  sourceActivityCursor := 1
  sourceKernelEventId := "event"

/-- An index of two claims and the edge between them. -/
def joinedPair : IndexedGraph where
  database :=
    { tables :=
        { nodes := [plainNode "a", plainNode "b"]
          edges := [⟨"r", "e", "a", "b", .forward, none, "DISCHARGED", 1, "event"⟩]
          fts := [(plainNode "a").document, (plainNode "b").document] } }
  sound :=
    { nodes := by decide
      edges := by decide
      fts := by decide
      mirrored := by
        intro row
        simp only [List.mem_cons, List.not_mem_nil, or_false, exists_eq_or_imp, exists_eq_left]
        exact or_congr eq_comm eq_comm
      joined := by decide }
  named := by
    intro node hnode
    rcases List.mem_pair.mp hnode with rfl | rfl <;> decide

/-- A slice of both claims with one claim on a page. -/
def pairRequest : GraphSliceRequest where
  runId := "r"
  atCursor := 0
  atRevision := 0
  contractVersion := 1
  mode := .verified
  seedIds := ["a", "b"]
  direction := .both
  depth := 0
  filters := {}
  nodeLimit := 1

/-- A signer with a secret of zeros. -/
def plainCodec : CursorCodec where
  secret := List.replicate 32 0
  long := by decide

/-- The whole slice holds both claims. -/
theorem fullSlice_joinedPair : ∃ nodes,
    fullSlice plainRuntime joinedPair pairRequest .reject "" = (.ok nodes, joinedPair) ∧
      nodes.map (·.claimId) = ["a", "b"] :=
  ⟨_, rfl, rfl⟩

/-- The two claims stand on two pages, and no page shows the edge between them. -/
theorem pages_lose_joining_edge :
    ¬ PagesKeepEdges plainRuntime plainCodec joinedPair pairRequest .reject "" := by
  intro h
  obtain ⟨nodes, hfull, hids⟩ := fullSlice_joinedPair
  have hone := onePage_of_keepEdges _ _ _ _ _ _ h nodes (by rw [hfull])
  rw [hfull, hids] at hone
  have hsame := hone _ (List.mem_singleton.mpr rfl) rfl 0 1 rfl rfl
  exact absurd hsame (by decide)

end ResearchKernel.Product.Pages
