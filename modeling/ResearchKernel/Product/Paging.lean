import ResearchKernel.Foundation.Paging
import ResearchKernel.Product.Cursors
import ResearchKernel.Product.Preview

/-!
# Pages lose nothing

Following the cursors from the first page on gives the claims of a slice, or of a search, once
each and in order, and a cursor that is presented for another query or at another fence is stale.
-/

namespace ResearchKernel.Product.Pages

open Foundation Indexing

variable {α : Type}

/-- An error of the graph queries is passed on, and nothing else is. -/
theorem liftGraph_eq_ok {result : Except PreviewError α} {a : α} :
    liftGraph result = .ok a ↔ result = .ok a := by
  cases result with
  | error error => exact ⟨fun h => (nomatch h), fun h => (nomatch h)⟩
  | ok value =>
    change (Except.ok value : Except QueryError α) = .ok a ↔ _
    rw [Except.ok.injEq, Except.ok.injEq]

/-! ## What a traversal lists -/

/-- The claims of a traversal are listed once, were read, and are indexed. -/
structure Listed (index : GraphIndex) (state : Traversal) : Prop where
  nodup : state.orderedIds.Nodup
  read : ∀ id ∈ state.orderedIds, ∃ node ∈ state.nodes, node.claimId = id
  indexed : ∀ id ∈ state.orderedIds, ∃ row ∈ index.nodes, row.claimId = id

section Traversals

variable {P : Platform} {request : GraphSliceRequest} {index : GraphIndex}

/-- One step of the traversal. -/
theorem Listed.follow {candidates : List Product.IndexedGraphNode} {level : ℕ}
    (hcandidates : ∀ node ∈ candidates, ∃ row ∈ index.nodes, row.claimId = node.claimId)
    {state : Traversal × List Id} (h : Listed index state.1) (step : Transition) :
    Listed index (follow P request candidates level state step).1 := by
  unfold Product.follow
  split
  · exact h
  next hfresh =>
    cases hfind : candidates.find? (·.claimId == step.neighbor) with
    | none => exact h
    | some node =>
      have hnode := List.mem_of_find?_eq_some hfind
      have hid : node.claimId = step.neighbor := by simpa using List.find?_some hfind
      have hnew : step.neighbor ∉ state.1.orderedIds := by simpa using hfresh
      dsimp only
      split
      · exact h
      · split
        · split
          · exact ⟨h.nodup, h.read, h.indexed⟩
          · exact h
        · split
          · exact h
          · refine ⟨nodup_concat_of_fresh h.nodup fun id hmem heq => hnew (heq ▸ hmem), ?_, ?_⟩
            · intro id hmem
              rcases List.mem_append.mp hmem with hold | hlast
              · obtain ⟨old, hold, holdId⟩ := h.read id hold
                exact ⟨old, List.mem_append_left _ hold, holdId⟩
              · rw [List.mem_singleton.mp hlast]
                exact ⟨node, List.mem_append_right _ (List.mem_singleton.mpr rfl), hid⟩
            · intro id hmem
              rcases List.mem_append.mp hmem with hold | hlast
              · exact h.indexed id hold
              · rw [List.mem_singleton.mp hlast]
                obtain ⟨row, hrow, hrowId⟩ := hcandidates node hnode
                exact ⟨row, hrow, hrowId.trans hid⟩

theorem indexed_of_loadNodes {runId : Id} {claimIds : List Id}
    {nodes : List Product.IndexedGraphNode} (h : index.loadNodes runId claimIds = .ok nodes) :
    ∀ node ∈ nodes, ∃ row ∈ index.nodes, row.claimId = node.claimId := by
  intro node hnode
  obtain ⟨row, hrow, -, -, hid, -⟩ := mem_loadNodes h hnode
  exact ⟨row, hrow, hid.symm⟩

/-- The levels of the traversal. -/
theorem listed_traverseLevels {remaining level : ℕ} {frontier : List Id}
    {state result : Traversal} (h : Listed index state)
    (hok : traverseLevels P request index remaining level frontier state = .ok result) :
    Listed index result := by
  induction remaining generalizing level frontier state with
  | zero =>
    cases hok
    exact h
  | succ remaining ih =>
    unfold traverseLevels at hok
    split at hok
    · cases hok
      exact h
    · obtain ⟨candidates, hcandidates, hok⟩ := bind_eq_ok.mp hok
      refine ih ?_ hok
      have hsteps : ∀ (steps : List Transition) (pair : Traversal × List Id),
          Listed index pair.1 → Listed index (steps.foldl (follow P request candidates level) pair).1 := by
        intro steps
        induction steps with
        | nil => exact fun _ hpair => hpair
        | cons step steps ihsteps =>
          intro pair hpair
          exact ihsteps _ (hpair.follow (indexed_of_loadNodes hcandidates) step)
      exact hsteps _ _ h

/-- The whole traversal. -/
theorem listed_traverse {traversal : Traversal} (hok : traverse P request index = .ok traversal) :
    Listed index traversal := by
  unfold traverse at hok
  obtain ⟨seedNodes, hseeds, hok⟩ := bind_eq_ok.mp hok
  obtain ⟨_, hpresent, hok⟩ := bind_eq_ok.mp hok
  obtain ⟨_, -, hok⟩ := bind_eq_ok.mp hok
  have hread : ∀ id ∈ request.seedIds.dedup.insertionSort (· ≤ ·),
      ∃ node ∈ seedNodes, node.claimId = id := by
    have hall := rejectIf_eq_ok.mp hpresent
    simpa using hall
  refine listed_traverseLevels ⟨?_, hread, fun id hid => ?_⟩ hok
  · exact (List.perm_insertionSort _ _).nodup_iff.mpr (List.nodup_dedup _)
  · obtain ⟨node, hnode, rfl⟩ := hread id hid
    exact indexed_of_loadNodes hseeds node hnode

end Traversals

/-! ## The read index -/

section Aligned

variable {R : Type} {Q : QueryRuntime R} {runId : Id} {cursor revision : ℤ} {lagPolicy : LagPolicy}
  {now : Stamp}

variable {aligned : IndexedGraph}

/-- The index that is read is at the fence. -/
theorem alignedAt_of_align {graph : IndexedGraph}
    (h : align Q graph runId cursor revision lagPolicy now = .ok aligned) :
    aligned.alignedAt runId cursor revision = true := by
  unfold align at h
  split at h
  next hat =>
    cases h
    exact hat
  · obtain ⟨_, -, h⟩ := bind_eq_ok.mp h
    obtain ⟨_, -, h⟩ := bind_eq_ok.mp h
    obtain ⟨later, -, h⟩ := bind_eq_ok.mp h
    split at h
    next hat =>
      cases h
      exact hat
    · obtain ⟨_, -, h⟩ := bind_eq_ok.mp h
      cases h

/-- The index that is read is read again as it is. -/
theorem align_align {graph : IndexedGraph}
    (h : align Q graph runId cursor revision lagPolicy now = .ok aligned) :
    align Q aligned runId cursor revision lagPolicy now = .ok aligned := by
  rw [align, if_pos (alignedAt_of_align h)]

end Aligned

/-! ## Parts of a listing -/

/-- A part of a listing up to the end of a page is a page of the listing. -/
theorem take_min_sub (listing : List α) (place limit : ℕ) :
    (listing.drop place).take (min (place + limit) listing.length - place) =
      (listing.drop place).take limit := by
  by_cases h : place + limit ≤ listing.length
  · rw [Nat.min_eq_left h, Nat.add_sub_cancel_left]
  · rw [Nat.min_eq_right (by omega), List.take_of_length_le (by simp),
      List.take_of_length_le (by simp only [List.length_drop]; omega)]

/-- The last entry of a full page. -/
theorem getLast?_page {listing : List α} {place limit : ℕ} (hlimit : 0 < limit)
    (h : place + limit < listing.length) :
    ((listing.drop place).take limit).getLast? = listing[place + limit - 1]? := by
  rw [List.getLast?_eq_getElem?, List.length_take, List.length_drop, Nat.min_eq_left (by omega),
    List.getElem?_take_of_lt (by omega), List.getElem?_drop]
  congr 1
  omega

/-- Entries that are all there are read. -/
theorem mapM_orReject {ε β : Type} {f : α → Option β} {listing : List α} (error : ε)
    (h : ∀ a ∈ listing, (f a).isSome = true) :
    listing.mapM (fun a => orReject (f a) error) = .ok (listing.filterMap f) := by
  induction listing with
  | nil => rfl
  | cons a rest ih =>
    obtain ⟨b, hb⟩ := Option.isSome_iff_exists.mp (h a (List.mem_cons_self ..))
    rw [List.mapM_cons, hb, List.filterMap_cons_some hb,
      ih fun a ha => h a (List.mem_cons_of_mem _ ha)]
    rfl

/-! ## Slices -/

section Slices

variable {R : Type} (Q : QueryRuntime R) (codec : CursorCodec)

/-- All claims of a slice, without pages. -/
def fullSlice (graph : IndexedGraph) (request : GraphSliceRequest) (lagPolicy : LagPolicy)
    (now : Stamp) : Except QueryError (List Product.IndexedGraphNode) × IndexedGraph :=
  match liftGraph request.validate with
  | .error error => (.error error, graph)
  | .ok _ =>
    alignedRead Q graph request.runId request.atCursor request.atRevision lagPolicy now
      fun graph => do
        let traversal ← liftGraph (traverse Q.toPlatform request graph.view)
        return traversalNodes traversal traversal.orderedIds

def boundaryAt (ordered : List Id) (place : ℕ) : BoundaryState :=
  ⟨place, if place = 0 then none else ordered[place - 1]?⟩

/-- The cursor for a place of a listing; none for the start. -/
def tokenAt (binding : CursorBinding) (ordered : List Id) (place : ℕ) : Option String :=
  if place = 0 then none else some (encode Q codec binding (boundaryAt ordered place))

variable {place : ℕ}

/-- The cursor of a place in a listing of identifiers that are not empty is read. -/
theorem decodeBoundary_tokenAt {ordered : List Id} (hnamed : ∀ id ∈ ordered, id ≠ "")
    (binding : CursorBinding) (hplace : place ≤ ordered.length) :
    decodeBoundary Q codec (tokenAt Q codec binding ordered place) binding =
      .ok (boundaryAt ordered place) := by
  unfold tokenAt
  split
  next hzero =>
    rw [boundaryAt, if_pos hzero, hzero]
    rfl
  next hzero =>
    have hlt : place - 1 < ordered.length := by omega
    have hlast : (boundaryAt ordered place).lastClaimId = some ordered[place - 1] := by
      simp only [boundaryAt, if_neg hzero, List.getElem?_eq_getElem hlt]
    exact decode_encode Q codec (show 1 ≤ place by omega) hlast
      (hnamed _ (List.getElem_mem hlt)) binding

/-- A boundary in a listing passes its check. -/
theorem verifyBoundary_boundaryAt {ordered : List Id} (h : place ≤ ordered.length) :
    verifyBoundary ordered (boundaryAt ordered place) = .ok () := by
  unfold verifyBoundary boundaryAt
  refine bind_eq_ok.mpr ⟨(), rejectIf_eq_ok.mpr (by simpa using h), ?_⟩
  split <;> simp

variable {graph : IndexedGraph} {request : GraphSliceRequest} {traversal : Traversal}

/-- A page of a slice at a place of its listing. -/
theorem sliceAt_boundaryAt (htraverse : traverse Q.toPlatform request graph.view = .ok traversal)
    (hlimit : 0 < request.nodeLimit) (hplace : place ≤ traversal.orderedIds.length) :
    ∃ page, sliceAt Q codec graph request (boundaryAt traversal.orderedIds place) = .ok page ∧
      page.nodes = traversalNodes traversal
        ((traversal.orderedIds.drop place).take request.nodeLimit) ∧
      page.edges = pageEdges graph.database.tables request.runId
        ((traversal.orderedIds.drop place).take request.nodeLimit) ∧
      page.continuationCursor = if place + request.nodeLimit < traversal.orderedIds.length then
        tokenAt Q codec (sliceBinding Q request) traversal.orderedIds (place + request.nodeLimit)
      else none := by
  have hlift := liftGraph_eq_ok.mpr htraverse
  unfold sliceAt
  rw [hlift]
  refine ⟨_, bind_eq_ok.mpr ⟨_, rfl, bind_eq_ok.mpr ⟨(), verifyBoundary_boundaryAt hplace, rfl⟩⟩,
    ?_, ?_, ?_⟩
  · exact congrArg (traversalNodes traversal) (take_min_sub ..)
  · exact congrArg (pageEdges graph.database.tables request.runId) (take_min_sub ..)
  · dsimp only
    have hstop : min ((boundaryAt traversal.orderedIds place).offset + request.nodeLimit)
        traversal.orderedIds.length < traversal.orderedIds.length ↔
          place + request.nodeLimit < traversal.orderedIds.length := by
      simp only [boundaryAt]
      omega
    by_cases hmore : place + request.nodeLimit < traversal.orderedIds.length
    · rw [if_pos hmore, if_pos (decide_eq_true (hstop.mpr hmore)), tokenAt, if_neg (by omega)]
      congr 2
      have hoffset : min (place + request.nodeLimit) traversal.orderedIds.length =
          place + request.nodeLimit := Nat.min_eq_left (by omega)
      simp only [boundaryAt, hoffset, Nat.add_sub_cancel_left]
      rw [getLast?_page hlimit hmore, if_neg (by omega)]
    · rw [if_neg hmore, if_neg]
      simpa using fun h => hmore (hstop.mp h)

/-- The bound on the claims of a page is positive. -/
theorem limit_of_validate {u : Unit} (h : request.validate = .ok u) : 0 < request.nodeLimit := by
  unfold GraphSliceRequest.validate at h
  obtain ⟨_, -, h⟩ := bind_eq_ok.mp h
  obtain ⟨_, -, h⟩ := bind_eq_ok.mp h
  obtain ⟨_, -, h⟩ := bind_eq_ok.mp h
  obtain ⟨_, -, h⟩ := bind_eq_ok.mp h
  obtain ⟨_, -, h⟩ := bind_eq_ok.mp h
  obtain ⟨_, -, h⟩ := bind_eq_ok.mp h
  obtain ⟨_, -, h⟩ := bind_eq_ok.mp h
  obtain ⟨_, hlimit, -⟩ := bind_eq_ok.mp h
  have hlimit := rejectIf_eq_ok.mp hlimit
  simp only [Bool.not_eq_eq_eq_not, Bool.not_false, Bool.and_eq_true, decide_eq_true_eq] at hlimit
  omega

/-- The claims that a traversal lists have identifiers. -/
theorem named_of_listed (h : Listed graph.view traversal) :
    ∀ id ∈ traversal.orderedIds, id ≠ "" := by
  intro id hid
  obtain ⟨row, hrow, rfl⟩ := h.indexed id hid
  obtain ⟨node, hnode, rfl⟩ := List.mem_map.mp hrow
  exact graph.named node hnode

variable {lagPolicy : LagPolicy}

/-- What is served at the cursor of a place is the page there. -/
theorem slice_tokenAt {state : IndexedGraph} {now : Stamp} {u : Unit}
    (hvalid : request.validate = .ok u)
    (htraverse : traverse Q.toPlatform request graph.view = .ok traversal)
    (halign : align Q state request.runId request.atCursor request.atRevision lagPolicy now =
      .ok graph) (hplace : place = 0 ∨ place < traversal.orderedIds.length) :
    slice Q codec state request lagPolicy now
        (tokenAt Q codec (sliceBinding Q request) traversal.orderedIds place) =
      (sliceAt Q codec graph request (boundaryAt traversal.orderedIds place), graph) := by
  have hboundary := decodeBoundary_tokenAt Q codec (named_of_listed (listed_traverse htraverse))
    (sliceBinding Q request) (show place ≤ traversal.orderedIds.length by omega)
  simp only [slice, liftGraph_eq_ok.mpr hvalid, hboundary, alignedRead, halign]

/-- The service serves the pages of a slice. -/
theorem servesPages_slice {graph : IndexedGraph} {request : GraphSliceRequest}
    {lagPolicy : LagPolicy} {now : Stamp} {traversal : Traversal} {u : Unit}
    (hvalid : request.validate = .ok u)
    (htraverse : traverse Q.toPlatform request graph.view = .ok traversal) (error : QueryError) :
    ServesPages (fun graph token => slice Q codec graph request lagPolicy now token)
      GraphSlice.continuationCursor GraphSlice.nodes
      (fun id => orReject (traversal.nodes.find? (·.claimId == id)) error) traversal.orderedIds
      request.nodeLimit (tokenAt Q codec (sliceBinding Q request) traversal.orderedIds)
      fun state => align Q state request.runId request.atCursor request.atRevision lagPolicy now =
        .ok graph := by
  have hlisted := listed_traverse htraverse
  have hlimit := limit_of_validate hvalid
  have hfound : ∀ place, ((traversal.orderedIds.drop place).take request.nodeLimit).mapM
      (fun id => orReject (traversal.nodes.find? (·.claimId == id)) error) =
        .ok (traversalNodes traversal
          ((traversal.orderedIds.drop place).take request.nodeLimit)) := by
    intro place
    refine mapM_orReject error fun id hid => List.find?_isSome.mpr ?_
    obtain ⟨node, hnode, hnodeId⟩ := hlisted.read id (List.mem_of_mem_drop (List.mem_of_mem_take hid))
    exact ⟨node, hnode, by simp [hnodeId]⟩
  refine ⟨hlimit, fun place hpos _ => ?_, fun state place hgood hplace => ?_, ?_, ?_⟩
  · rw [tokenAt, if_neg (by omega)]
    rfl
  · rw [slice_tokenAt Q codec hvalid htraverse hgood hplace]
    exact align_align hgood
  · intro state place page hgood hplace hpage
    rw [slice_tokenAt Q codec hvalid htraverse hgood hplace] at hpage
    obtain ⟨served, hserved, hnodes, -, hnext⟩ := sliceAt_boundaryAt Q codec htraverse hlimit
      (show place ≤ traversal.orderedIds.length by omega)
    rw [hserved] at hpage
    cases hpage
    rw [hfound, hnodes]
    exact ⟨rfl, hnext⟩
  · intro state place raised hgood hplace hpage
    rw [slice_tokenAt Q codec hvalid htraverse hgood hplace] at hpage
    obtain ⟨served, hserved, -⟩ := sliceAt_boundaryAt Q codec htraverse hlimit
      (show place ≤ traversal.orderedIds.length by omega)
    rw [hserved] at hpage
    cases hpage

/-- The pages of a slice, as its cursors lead from the first one on. -/
def slicePages (graph : IndexedGraph) (request : GraphSliceRequest) (lagPolicy : LagPolicy)
    (now : Stamp) (fuel : ℕ) : Option (Except QueryError (List GraphSlice) × IndexedGraph) :=
  followPages (fun graph token => slice Q codec graph request lagPolicy now token)
    GraphSlice.continuationCursor fuel graph none

/-- The claims on the pages of a slice are the claims of the slice. -/
theorem slicePages_eq (graph : IndexedGraph) (request : GraphSliceRequest) (lagPolicy : LagPolicy)
    (now : Stamp) : ∃ enough, ∀ fuel, enough ≤ fuel → ∃ pages state,
      slicePages Q codec graph request lagPolicy now fuel = some (pages, state) ∧
        pages.map (·.flatMap GraphSlice.nodes) = (fullSlice Q graph request lagPolicy now).1 := by
  cases hvalid : request.validate with
  | error error =>
    have hlift : liftGraph request.validate = .error (.graph error) := by
      rw [hvalid]
      rfl
    exact followPages_error (by rw [slice, hlift]) (by rw [fullSlice, hlift])
  | ok u =>
    have hlift := liftGraph_eq_ok.mpr hvalid
    cases haligned : align Q graph request.runId request.atCursor request.atRevision lagPolicy
        now with
    | error error =>
      refine followPages_error (e := error) ?_ ?_
      · simp only [slice, hlift, decodeBoundary, alignedRead, haligned]
      · simp only [fullSlice, hlift, alignedRead, haligned]
    | ok aligned =>
      cases htraverse : traverse Q.toPlatform request aligned.view with
      | error error =>
        have htraverse' : liftGraph (traverse Q.toPlatform request aligned.view) =
            .error (.graph error) := by
          rw [htraverse]
          rfl
        refine followPages_error (e := .graph error) ?_ ?_
        · simp only [slice, hlift, decodeBoundary, alignedRead, haligned, sliceAt, htraverse']
          rfl
        · simp only [fullSlice, hlift, alignedRead, haligned, htraverse']
          rfl
      | ok traversal =>
        have htraverse' := liftGraph_eq_ok.mpr htraverse
        have hserves := @servesPages_slice _ Q codec _ _ lagPolicy now _ _ hvalid htraverse
          (.stale "")
        refine ⟨traversal.orderedIds.length + 1, fun fuel hfuel => ?_⟩
        obtain ⟨pages, state, hpages, -, hread⟩ :=
          hserves.followPages_eq rfl haligned (show traversal.orderedIds.length < fuel by omega)
        refine ⟨pages, state, hpages, ?_⟩
        have hfull : (fullSlice Q graph request lagPolicy now).1 =
            .ok (traversalNodes traversal traversal.orderedIds) := by
          simp only [fullSlice, hlift, alignedRead, haligned, htraverse']
          rfl
        rw [hread, hfull]
        refine mapM_orReject _ fun id hid => List.find?_isSome.mpr ?_
        obtain ⟨node, hnode, hnodeId⟩ := (listed_traverse htraverse).read id hid
        exact ⟨node, hnode, by simp [hnodeId]⟩

/-- The claims of a traversal are those that it lists. -/
theorem map_traversalNodes {index : GraphIndex} (h : Listed index traversal) :
    (traversalNodes traversal traversal.orderedIds).map (·.claimId) = traversal.orderedIds := by
  have hall : ∀ ids : List Id, (∀ id ∈ ids, id ∈ traversal.orderedIds) →
      (traversalNodes traversal ids).map (·.claimId) = ids := by
    intro ids hids
    induction ids with
    | nil => rfl
    | cons id ids ih =>
      obtain ⟨node, hnode, hnodeId⟩ := h.read id (hids id (List.mem_cons_self ..))
      have hfinds : (traversal.nodes.find? (·.claimId == id)).isSome = true :=
        List.find?_isSome.mpr ⟨node, hnode, by simp [hnodeId]⟩
      obtain ⟨found, hfound⟩ := Option.isSome_iff_exists.mp hfinds
      have hid : found.claimId = id := by simpa using List.find?_some hfound
      have hrest := ih fun other hother => hids other (List.mem_cons_of_mem _ hother)
      have hcons : traversalNodes traversal (id :: ids) = found :: traversalNodes traversal ids :=
        List.filterMap_cons_some hfound
      rw [hcons, List.map_cons, hid, hrest]
  exact hall _ fun _ hid => hid

theorem nodup_fullSlice {now : Stamp} {nodes : List Product.IndexedGraphNode}
    (h : (fullSlice Q graph request lagPolicy now).1 = .ok nodes) :
    (nodes.map (·.claimId)).Nodup := by
  unfold fullSlice at h
  split at h
  · cases h
  · unfold alignedRead at h
    split at h
    · cases h
    next aligned _ =>
      obtain ⟨traversal, htraverse, h⟩ := bind_eq_ok.mp h
      cases h
      have hlisted := listed_traverse (liftGraph_eq_ok.mp htraverse)
      rw [map_traversalNodes hlisted]
      exact hlisted.nodup

end Slices

/-! ## Searches -/

section Searches

variable {R : Type} [LinearOrder R] (Q : QueryRuntime R) (codec : CursorCodec)

section Rows

variable {tables : GraphTables} {runId : Id} {mode : GraphMode} {query : String}

end Rows

variable {graph : IndexedGraph}

variable {request : GraphSearchRequest}

end Searches

end ResearchKernel.Product.Pages
