import ResearchKernel.Foundation.Sums
import ResearchKernel.Product.GraphTables

/-!
# The index is a function of the activities

Whatever writes to the index writes to one run, in a way that the other runs neither see nor
decide. The index of a run is then a fold of the deltas up to its watermark, however the fold
was cut into catch-ups. In every database that is reached the documents of the full-text table
are the claims, and the edges join claims.
-/

namespace ResearchKernel.Product.Indexing

open Foundation

/-! ## The index of one run -/

/-- What is indexed of a run. -/
def GraphTables.ofRun (tables : GraphTables) (runId : Id) : GraphTables where
  nodes := tables.nodes.filter (·.runId == runId)
  edges := tables.edges.filter (·.runId == runId)
  fts := tables.fts.filter (·.runId == runId)

def NodeRow.document (row : NodeRow) : FtsRow where
  runId := row.runId
  claimId := row.claimId
  stableLabel := row.stableLabel
  statement := row.statement

/-- The claim of a document. -/
def FtsRow.key (row : FtsRow) : Id × Id := (row.runId, row.claimId)

/-- Tables whose keys are distinct, whose documents are those of the claims and whose edges join
claims of their run. -/
structure GraphTables.Sound (tables : GraphTables) : Prop where
  nodes : (tables.nodes.map NodeRow.key).Nodup
  edges : (tables.edges.map EdgeRow.key).Nodup
  fts : (tables.fts.map FtsRow.key).Nodup
  mirrored : ∀ row, row ∈ tables.fts ↔ ∃ node ∈ tables.nodes, node.document = row
  joined : ∀ edge ∈ tables.edges, tables.hasNode edge.runId edge.fromClaimId = true ∧
    tables.hasNode edge.runId edge.toClaimId = true

/-- Tables whose claims have identifiers. -/
def GraphTables.Named (tables : GraphTables) : Prop := ∀ node ∈ tables.nodes, node.claimId ≠ ""

/-- A write to one run: it does the same when only that run is there, it leaves the other runs
alone, and it keeps an invariant of the tables. -/
structure WritesRun (Inv : GraphTables → Prop) (runId : Id)
    (write : GraphTables → Except IndexError GraphTables) : Prop where
  alone : ∀ tables, write (tables.ofRun runId) = (write tables).map (·.ofRun runId)
  frame : ∀ {tables tables'}, write tables = .ok tables' → ∀ other, other ≠ runId →
    tables'.ofRun other = tables.ofRun other
  keeps : ∀ {tables tables'}, write tables = .ok tables' → Inv tables → Inv tables'

namespace WritesRun

variable {Inv : GraphTables → Prop} {runId : Id}

/-- Writing nothing. -/
protected theorem pure : WritesRun Inv runId .ok where
  alone _ := rfl
  frame h := by
    cases h
    exact fun _ _ => rfl
  keeps h := by
    cases h
    exact id

/-- Raising an error. -/
protected theorem error (error : IndexError) : WritesRun Inv runId fun _ => .error error where
  alone _ := rfl
  frame h := nomatch h
  keeps h := nomatch h

variable {second : GraphTables → Except IndexError GraphTables}

/-- One write after another. -/
protected theorem bind {first : GraphTables → Except IndexError GraphTables}
    (hfirst : WritesRun Inv runId first) (hsecond : WritesRun Inv runId second) :
    WritesRun Inv runId fun tables => first tables >>= second where
  alone tables := by
    rw [hfirst.alone]
    cases h : first tables with
    | error error => rfl
    | ok mid => exact hsecond.alone mid
  frame h other hother := by
    obtain ⟨mid, hmid, h⟩ := bind_eq_ok.mp h
    rw [hsecond.frame h other hother, hfirst.frame hmid other hother]
  keeps h hinv := by
    obtain ⟨mid, hmid, h⟩ := bind_eq_ok.mp h
    exact hsecond.keeps h (hfirst.keeps hmid hinv)

/-- A write after one that does not raise. -/
protected theorem after {first : GraphTables → GraphTables}
    (hfirst : WritesRun Inv runId fun tables => .ok (first tables))
    (hsecond : WritesRun Inv runId second) :
    WritesRun Inv runId fun tables => second (first tables) :=
  hfirst.bind hsecond

protected theorem read {α : Type} {value : Except IndexError α}
    {write : α → GraphTables → Except IndexError GraphTables}
    (h : ∀ a, value = .ok a → WritesRun Inv runId (write a)) :
    WritesRun Inv runId fun tables => value >>= fun a => write a tables := by
  cases hvalue : value with
  | error error => exact WritesRun.error error
  | ok a => exact h a hvalue

protected theorem foldlM {α : Type} {write : GraphTables → α → Except IndexError GraphTables}
    {items : List α} (h : ∀ item ∈ items, WritesRun Inv runId (write · item)) :
    WritesRun Inv runId fun tables => items.foldlM write tables := by
  induction items with
  | nil => exact WritesRun.pure
  | cons item items ih =>
    simp only [List.foldlM_cons]
    exact (h item (List.mem_cons_self ..)).bind
      (ih fun later hlater => h later (List.mem_cons_of_mem _ hlater))

/-- A write for each element of a list, none of which raises. -/
protected theorem foldl {α : Type} {write : GraphTables → α → GraphTables}
    (h : ∀ item, WritesRun Inv runId fun tables => .ok (write tables item)) (items : List α) :
    WritesRun Inv runId fun tables => .ok (items.foldl write tables) := by
  induction items with
  | nil => exact WritesRun.pure
  | cons item items ih => exact (h item).bind ih

end WritesRun

/-! ## The writers -/

/-- A filter that keeps the rows of a run does not change them. -/
theorem filter_filter_of_keeps {ρ : Type} {p q : ρ → Bool} (h : ∀ row, q row = true → p row = true)
    (rows : List ρ) : (rows.filter p).filter q = rows.filter q := by
  rw [List.filter_filter]
  refine List.filter_congr fun row _ => ?_
  cases hq : q row with
  | false => simp
  | true => simp [h row hq]

theorem hasNode_ofRun (tables : GraphTables) (runId claimId : Id) :
    (tables.ofRun runId).hasNode runId claimId = tables.hasNode runId claimId := by
  unfold GraphTables.hasNode GraphTables.ofRun
  rw [List.any_filter]
  congr 1
  funext row
  cases row.runId == runId <;> simp

variable {tables : GraphTables} {runId claimId : Id}

theorem hasNode_iff :
    tables.hasNode runId claimId = true ↔ ∃ row ∈ tables.nodes, row.key = (runId, claimId) := by
  simp [GraphTables.hasNode, NodeRow.key]

def GraphTables.putNode (tables : GraphTables) (row : NodeRow) : GraphTables :=
  { tables with
    nodes := upsertRow NodeRow.key row tables.nodes
    fts := tables.fts.filter (fun old => !(old.runId == row.runId && old.claimId == row.claimId)) ++
      [row.document] }

def GraphTables.putEdge (tables : GraphTables) (row : EdgeRow) : GraphTables :=
  { tables with edges := upsertRow EdgeRow.key row tables.edges }

/-- What the writers of claims and edges keep. Claims with an empty identifier may be excluded. -/
structure Stable (Inv : GraphTables → Prop) : Prop where
  deleteEdge : ∀ {tables} runId edgeId, Inv tables → Inv (deleteEdge runId tables edgeId)
  deleteNode : ∀ {tables} runId claimId, Inv tables → Inv (deleteNode runId tables claimId)
  putNode : ∀ {tables row}, row.claimId ≠ "" → Inv tables → Inv (tables.putNode row)
  putEdge : ∀ {tables row}, tables.hasNode row.runId row.fromClaimId = true →
    tables.hasNode row.runId row.toClaimId = true → Inv tables → Inv (tables.putEdge row)
  withoutRun : ∀ {tables} runId, Inv tables → Inv (tables.withoutRun runId)

/-! ## What the writers keep -/

/-- Rows that are deleted leave the claims of the others. -/
theorem mirrored_filter (h : tables.Sound) (keep : FtsRow → Bool) (row : FtsRow) :
    row ∈ tables.fts.filter keep ↔
      ∃ node ∈ tables.nodes.filter (fun node => keep node.document), node.document = row := by
  simp only [List.mem_filter, h.mirrored]
  constructor
  · rintro ⟨⟨node, hnode, rfl⟩, hkeep⟩
    exact ⟨node, ⟨hnode, hkeep⟩, rfl⟩
  · rintro ⟨node, ⟨hnode, hkeep⟩, rfl⟩
    exact ⟨⟨node, hnode, rfl⟩, hkeep⟩

/-- A claim that is not deleted is still indexed. -/
theorem hasNode_filter {keep : NodeRow → Bool} (h : tables.hasNode runId claimId = true)
    (hkeep : ∀ node : NodeRow, node.key = (runId, claimId) → keep node = true) :
    ∃ node ∈ tables.nodes.filter keep, node.key = (runId, claimId) := by
  obtain ⟨node, hnode, hkey⟩ := hasNode_iff.mp h
  exact ⟨node, List.mem_filter.mpr ⟨hnode, hkeep node hkey⟩, hkey⟩

theorem sound_deleteEdge (runId edgeId : Id) (h : tables.Sound) :
    (deleteEdge runId tables edgeId).Sound where
  nodes := h.nodes
  edges := h.edges.sublist (List.filter_sublist.map _)
  fts := h.fts
  mirrored := h.mirrored
  joined := fun edge hedge => h.joined edge (List.mem_of_mem_filter hedge)

/-- Deleting a claim, and the edges at it, keeps the tables sound. -/
theorem sound_deleteNode (runId claimId : Id) (h : tables.Sound) :
    (deleteNode runId tables claimId).Sound where
  nodes := h.nodes.sublist (List.filter_sublist.map _)
  edges := h.edges.sublist (List.filter_sublist.map _)
  fts := h.fts.sublist (List.filter_sublist.map _)
  mirrored := mirrored_filter h _
  joined := by
    intro edge hedge
    obtain ⟨hedge, hkeep⟩ := List.mem_filter.mp hedge
    obtain ⟨hfrom, hto⟩ := h.joined edge hedge
    -- an end of an edge that is kept is not the claim
    have hends : edge.runId = runId → edge.fromClaimId ≠ claimId ∧ edge.toClaimId ≠ claimId := by
      intro hrun
      simpa [hrun] using hkeep
    have hstays : ∀ id, tables.hasNode edge.runId id = true → (edge.runId = runId → id ≠ claimId) →
        (deleteNode runId tables claimId).hasNode edge.runId id = true := by
      intro id hid hne
      refine hasNode_iff.mpr (hasNode_filter hid fun node hkey => ?_)
      obtain ⟨hnodeRun, hnodeClaim⟩ := Prod.mk.inj hkey
      by_cases hrun : node.runId = runId
      · have hclaim := hne (hnodeRun.symm.trans hrun)
        simp [hrun, hnodeClaim, hclaim]
      · simp [hrun]
    exact ⟨hstays _ hfrom fun hrun => (hends hrun).1, hstays _ hto fun hrun => (hends hrun).2⟩

/-- The claims that are indexed stay indexed when one is written. -/
theorem hasNode_putNode {row : NodeRow} (h : tables.hasNode runId claimId = true) :
    (tables.putNode row).hasNode runId claimId = true := by
  obtain ⟨node, hnode, hkey⟩ := hasNode_iff.mp h
  by_cases hsame : node.key = row.key
  · exact hasNode_iff.mpr ⟨row, mem_upsertRow.mpr (Or.inl rfl), hsame.symm.trans hkey⟩
  · exact hasNode_iff.mpr ⟨node, mem_upsertRow.mpr (Or.inr ⟨hnode, hsame⟩), hkey⟩

/-- A claim with its document keeps the tables sound. -/
theorem sound_putNode {row : NodeRow} (h : tables.Sound) :
    (tables.putNode row).Sound where
  nodes := nodup_upsertRow h.nodes row
  edges := h.edges
  fts := by
    have hold : ((tables.fts.filter fun old =>
        !(old.runId == row.runId && old.claimId == row.claimId)).map FtsRow.key).Nodup :=
      h.fts.sublist (List.filter_sublist.map _)
    rw [GraphTables.putNode, List.map_append, List.map_singleton]
    refine nodup_concat_of_fresh hold fun key hkey => ?_
    obtain ⟨old, hmem, rfl⟩ := List.mem_map.mp hkey
    have hkeep := (List.mem_filter.mp hmem).2
    rintro heq
    obtain ⟨hrun, hclaim⟩ := Prod.mk.inj heq
    simp [NodeRow.document] at hrun hclaim
    simp [hrun, hclaim] at hkeep
  mirrored := by
    intro document
    simp only [GraphTables.putNode, List.mem_append, List.mem_filter, List.mem_singleton,
      h.mirrored, mem_upsertRow]
    constructor
    · rintro (⟨⟨node, hnode, rfl⟩, hkeep⟩ | rfl)
      · refine ⟨node, Or.inr ⟨hnode, fun hkey => ?_⟩, rfl⟩
        obtain ⟨hrun, hclaim⟩ := Prod.mk.inj hkey
        simp [NodeRow.document, hrun, hclaim] at hkeep
      · exact ⟨row, Or.inl rfl, rfl⟩
    · rintro ⟨node, rfl | ⟨hnode, hkey⟩, rfl⟩
      · exact Or.inr rfl
      · refine Or.inl ⟨⟨node, hnode, rfl⟩, ?_⟩
        by_cases hrun : node.runId = row.runId
        · have hclaim : node.claimId ≠ row.claimId := fun hclaim => hkey (Prod.ext hrun hclaim)
          simp [NodeRow.document, hclaim]
        · simp [NodeRow.document, hrun]
  joined := fun edge hedge =>
    ⟨hasNode_putNode (h.joined edge hedge).1, hasNode_putNode (h.joined edge hedge).2⟩

theorem sound_putEdge {row : EdgeRow} (hfrom : tables.hasNode row.runId row.fromClaimId = true)
    (hto : tables.hasNode row.runId row.toClaimId = true) (h : tables.Sound) :
    (tables.putEdge row).Sound where
  nodes := h.nodes
  edges := nodup_upsertRow h.edges row
  fts := h.fts
  mirrored := h.mirrored
  joined := by
    intro edge hedge
    rcases mem_upsertRow.mp hedge with rfl | ⟨hedge, -⟩
    · exact ⟨hfrom, hto⟩
    · exact h.joined edge hedge

/-- Deleting a run keeps the tables sound. -/
theorem sound_withoutRun (runId : Id) (h : tables.Sound) :
    (tables.withoutRun runId).Sound where
  nodes := h.nodes.sublist (List.filter_sublist.map _)
  edges := h.edges.sublist (List.filter_sublist.map _)
  fts := h.fts.sublist (List.filter_sublist.map _)
  mirrored := mirrored_filter h _
  joined := by
    intro edge hedge
    obtain ⟨hedge, hkeep⟩ := List.mem_filter.mp hedge
    have hstays : ∀ id, tables.hasNode edge.runId id = true →
        (tables.withoutRun runId).hasNode edge.runId id = true := by
      intro id hid
      refine hasNode_iff.mpr (hasNode_filter hid fun node hkey => ?_)
      rw [(Prod.mk.inj hkey).1]
      exact hkeep
    exact ⟨hstays _ (h.joined edge hedge).1, hstays _ (h.joined edge hedge).2⟩

/-- Every writer keeps the tables sound. -/
theorem stable_sound : Stable GraphTables.Sound where
  deleteEdge runId edgeId := sound_deleteEdge runId edgeId
  deleteNode runId claimId := sound_deleteNode runId claimId
  putNode _ := sound_putNode
  putEdge := sound_putEdge
  withoutRun runId := sound_withoutRun runId

/-- Every writer keeps the identifiers of the claims. -/
theorem stable_named : Stable GraphTables.Named where
  deleteEdge _ _ h := h
  deleteNode _ _ h := fun node hnode => h node (List.mem_of_mem_filter hnode)
  putNode hrow h := by
    intro node hnode
    rcases mem_upsertRow.mp hnode with rfl | ⟨hnode, -⟩
    · exact hrow
    · exact h node hnode
  putEdge _ _ h := h
  withoutRun _ h := fun node hnode => h node (List.mem_of_mem_filter hnode)

/-! ## What the writers write -/

section Writers

variable {Inv : GraphTables → Prop} (hInv : Stable Inv) (runId : Id)

include hInv

/-- Deleting an edge. -/
theorem writesRun_deleteEdge (edgeId : Id) :
    WritesRun Inv runId fun tables => .ok (deleteEdge runId tables edgeId) where
  alone tables := by
    simp only [deleteEdge, GraphTables.ofRun, Except.map]
    rw [List.filter_comm]
  frame h other hother := by
    cases h
    simp only [deleteEdge, GraphTables.ofRun]
    rw [filter_filter_of_keeps]
    intro row hrow
    have hne : row.runId ≠ runId := fun heq => hother ((beq_iff_eq.mp hrow).symm.trans heq)
    simp [hne]
  keeps h hinv := by
    cases h
    exact hInv.deleteEdge runId edgeId hinv

/-- Deleting a claim. -/
theorem writesRun_deleteNode (claimId : Id) :
    WritesRun Inv runId fun tables => .ok (deleteNode runId tables claimId) where
  alone tables := by
    simp only [deleteNode, GraphTables.ofRun, Except.map]
    rw [List.filter_comm _ _ tables.nodes, List.filter_comm _ _ tables.edges,
      List.filter_comm _ _ tables.fts]
  frame h other hother := by
    cases h
    have hne : ∀ rowRun : Id, (rowRun == other) = true → (rowRun == runId) = false := by
      intro rowRun hrow
      exact beq_eq_false_iff_ne.mpr fun heq => hother ((beq_iff_eq.mp hrow).symm.trans heq)
    simp only [deleteNode, GraphTables.ofRun]
    rw [filter_filter_of_keeps, filter_filter_of_keeps, filter_filter_of_keeps]
    all_goals exact fun row hrow => by simp [hne row.runId hrow]
  keeps h hinv := by
    cases h
    exact hInv.deleteNode runId claimId hinv

omit hInv

/-- A row that is written to a run is not seen in the others. -/
theorem filter_upsertRow_of_other {ρ : Type} (key : ρ → Id × Id) {row : ρ} (rows : List ρ)
    {other : Id} (h : other ≠ (key row).1) :
    (upsertRow key row rows).filter (fun old => (key old).1 == other) =
      rows.filter fun old => (key old).1 == other := by
  rw [filter_upsertRow (fun a b hab => by rw [hab])]
  have hne : ((key row).1 == other) = false := beq_eq_false_iff_ne.mpr h.symm
  rw [hne, if_neg Bool.false_ne_true]

theorem filter_upsertRow_of_run {ρ : Type} (key : ρ → Id × Id) (row : ρ) (rows : List ρ) :
    (upsertRow key row rows).filter (fun old => (key old).1 == (key row).1) =
      upsertRow key row (rows.filter fun old => (key old).1 == (key row).1) := by
  rw [filter_upsertRow (fun a b hab => by rw [hab]), if_pos (beq_self_eq_true _)]

/-- Writing a claim with its document. -/
theorem writesRun_putNode {row : NodeRow}
    (hput : ∀ {tables}, Inv tables → Inv (tables.putNode row)) :
    WritesRun Inv row.runId fun tables => .ok (tables.putNode row) where
  alone tables := by
    simp only [GraphTables.putNode, GraphTables.ofRun, Except.map]
    have hnodes : (upsertRow NodeRow.key row tables.nodes).filter (·.runId == row.runId) =
        upsertRow NodeRow.key row (tables.nodes.filter (·.runId == row.runId)) :=
      filter_upsertRow_of_run NodeRow.key row tables.nodes
    rw [hnodes, List.filter_append, List.filter_comm _ _ tables.fts]
    have hdocument : [row.document].filter (·.runId == row.runId) = [row.document] := by
      simp [NodeRow.document]
    rw [hdocument]
  frame {tables _} h other hother := by
    cases h
    simp only [GraphTables.putNode, GraphTables.ofRun]
    have hnodes : (upsertRow NodeRow.key row tables.nodes).filter (·.runId == other) =
        tables.nodes.filter (·.runId == other) :=
      filter_upsertRow_of_other NodeRow.key tables.nodes hother
    have hdocument : [row.document].filter (·.runId == other) = [] := by
      simp [NodeRow.document, hother.symm]
    rw [hnodes, List.filter_append, hdocument, List.append_nil, filter_filter_of_keeps]
    intro old hold
    have hne : old.runId ≠ row.runId := fun heq => hother ((beq_iff_eq.mp hold).symm.trans heq)
    simp [hne]
  keeps h hinv := by
    cases h
    exact hput hinv

/-- Writing a claim of a delta or a snapshot. -/
theorem writesRun_upsertNode {node : IndexedGraphNode}
    (hput : ∀ {tables row}, row.claimId = node.claimId → Inv tables → Inv (tables.putNode row))
    (cursor : ℕ) (kernelEventId : Id) :
    WritesRun Inv runId (upsertNode runId node cursor kernelEventId) := by
  unfold upsertNode
  refine WritesRun.read fun _ _ => WritesRun.read fun _ _ => ?_
  exact @writesRun_putNode Inv ⟨runId, node.claimId, node.stableLabel, node.statement,
    node.lifecycle, node.dependable, node.claimType, dumps (.obj node.authorityAxes),
    node.contractVersion, node.verificationMethod, node.sourceWorkerRunId, node.routeId, cursor,
    kernelEventId⟩ (hput rfl)

include hInv

/-- Writing an edge between claims. -/
theorem writesRun_putEdge (row : EdgeRow) :
    WritesRun Inv row.runId fun tables => do
      rejectIf (!(tables.hasNode row.runId row.fromClaimId &&
        tables.hasNode row.runId row.toClaimId)) .integrity
      return tables.putEdge row where
  alone tables := by
    rw [hasNode_ofRun, hasNode_ofRun]
    cases tables.hasNode row.runId row.fromClaimId && tables.hasNode row.runId row.toClaimId with
    | false => rfl
    | true =>
      have hedges : (upsertRow EdgeRow.key row tables.edges).filter (·.runId == row.runId) =
          upsertRow EdgeRow.key row (tables.edges.filter (·.runId == row.runId)) :=
        filter_upsertRow_of_run EdgeRow.key row tables.edges
      simp only [GraphTables.putEdge, GraphTables.ofRun, rejectIf, Except.map, Bool.not_true,
        Bool.false_eq_true, ↓reduceIte, bind, Except.bind, pure, Except.pure, hedges]
  frame {tables _} h other hother := by
    obtain ⟨_, -, h⟩ := bind_eq_ok.mp h
    cases h
    have hedges : (upsertRow EdgeRow.key row tables.edges).filter (·.runId == other) =
        tables.edges.filter (·.runId == other) :=
      filter_upsertRow_of_other EdgeRow.key tables.edges hother
    simp only [GraphTables.putEdge, GraphTables.ofRun, hedges]
  keeps {tables _} h hinv := by
    obtain ⟨_, hends, h⟩ := bind_eq_ok.mp h
    cases h
    have hends : (tables.hasNode row.runId row.fromClaimId &&
        tables.hasNode row.runId row.toClaimId) = true := by
      simpa only [rejectIf_eq_ok, Bool.not_eq_eq_eq_not, Bool.not_false] using hends
    obtain ⟨hfrom, hto⟩ := Bool.and_eq_true_iff.mp hends
    exact hInv.putEdge hfrom hto hinv

/-- Writing an edge of a delta or a snapshot. -/
theorem writesRun_upsertEdge (edge : IndexedGraphEdge) (cursor : ℕ) (kernelEventId : Id) :
    WritesRun Inv runId (upsertEdge runId edge cursor kernelEventId) := by
  unfold upsertEdge
  refine WritesRun.read fun _ _ => ?_
  exact writesRun_putEdge hInv ⟨runId, edge.edgeId, edge.fromClaimId, edge.toClaimId,
    edge.logicalDirection, edge.bridgeSpecId, edge.obligationStatus, cursor, kernelEventId⟩

omit hInv

/-- Claims that are read from a delta have identifiers. -/
theorem stringOf_ne_empty {label text : String} {value : Json} (h : stringOf label value = .ok text) :
    text ≠ "" := by
  unfold stringOf at h
  obtain ⟨read, -, h⟩ := bind_eq_ok.mp h
  obtain ⟨_, hcheck, h⟩ := bind_eq_ok.mp h
  cases h
  intro hempty
  simp [hempty] at hcheck

/-- A claim that is read from a delta has an identifier. -/
theorem claimId_ne_of_nodeOf {P : Platform} {value : JsonObject} {node : IndexedGraphNode}
    (h : nodeOf P value = .ok node) : node.claimId ≠ "" := by
  unfold nodeOf at h
  obtain ⟨_, -, h⟩ := bind_eq_ok.mp h
  obtain ⟨axes, -, h⟩ := bind_eq_ok.mp h
  obtain ⟨_, -, h⟩ := bind_eq_ok.mp h
  obtain ⟨dependable, -, h⟩ := bind_eq_ok.mp h
  obtain ⟨version, -, h⟩ := bind_eq_ok.mp h
  obtain ⟨_, -, h⟩ := bind_eq_ok.mp h
  obtain ⟨claimId, hclaim, h⟩ := bind_eq_ok.mp h
  obtain ⟨label, -, h⟩ := bind_eq_ok.mp h
  obtain ⟨statement, -, h⟩ := bind_eq_ok.mp h
  obtain ⟨lifecycle, -, h⟩ := bind_eq_ok.mp h
  obtain ⟨claimType, -, h⟩ := bind_eq_ok.mp h
  obtain ⟨method, -, h⟩ := bind_eq_ok.mp h
  obtain ⟨worker, -, h⟩ := bind_eq_ok.mp h
  obtain ⟨route, -, h⟩ := bind_eq_ok.mp h
  cases h
  exact stringOf_ne_empty hclaim

include hInv

/-- What a delta writes is written to its run. -/
theorem writesRun_applyUpserts (P : Platform) (cursor : ℕ) (kernelEventId : Id)
    (payload : JsonObject) :
    WritesRun Inv runId (applyUpserts P runId cursor kernelEventId payload) := by
  unfold applyUpserts
  refine WritesRun.read fun nodes _ => ?_
  refine (WritesRun.foldlM fun value _ => ?_).bind ?_
  · refine WritesRun.read fun node hnode => ?_
    have hnamed := claimId_ne_of_nodeOf hnode
    exact writesRun_upsertNode runId (fun hrow => hInv.putNode (hrow.trans_ne hnamed)) cursor
      kernelEventId
  · refine WritesRun.read fun edges _ => WritesRun.foldlM fun value _ => ?_
    exact WritesRun.read fun edge _ => writesRun_upsertEdge hInv runId edge cursor kernelEventId

theorem writesRun_applyDelta (P : Platform) (cursor : ℕ) (kernelEventId : Id)
    (payload : JsonObject) :
    WritesRun Inv runId (applyDelta P runId cursor kernelEventId payload) := by
  unfold applyDelta
  refine WritesRun.read fun _ _ => WritesRun.read fun _ _ => WritesRun.read fun _ _ => ?_
  refine WritesRun.read fun edgeIds _ => ?_
  have hnodes : WritesRun Inv runId (applyNodes P runId cursor kernelEventId payload) := by
    unfold applyNodes
    exact WritesRun.read fun nodeIds _ =>
      (WritesRun.foldl (writesRun_deleteNode hInv runId) nodeIds).after
        (writesRun_applyUpserts hInv runId P cursor kernelEventId payload)
  exact (WritesRun.foldl (writesRun_deleteEdge hInv runId) edgeIds).after hnodes

theorem writesRun_applyActivity (P : Platform) (targetRevision : ℤ) (row : ActivityEventRow) :
    WritesRun Inv runId (applyActivity P runId targetRevision · row) := by
  unfold applyActivity
  refine WritesRun.read fun payload _ => ?_
  split
  · refine WritesRun.read fun kernelEventId _ => WritesRun.read fun revision _ => ?_
    exact WritesRun.read fun _ _ =>
      writesRun_applyDelta hInv runId P row.cursor kernelEventId payload
  · exact WritesRun.pure

/-- Activities write to the run that is brought forward. -/
theorem writesRun_activities (P : Platform) (targetRevision : ℤ) (rows : List ActivityEventRow) :
    WritesRun Inv runId fun tables => rows.foldlM (applyActivity P runId targetRevision) tables :=
  WritesRun.foldlM fun row _ => writesRun_applyActivity hInv runId P targetRevision row

end Writers

variable {P : Platform} {revision revision' : ℤ} {tables' : GraphTables} {row : ActivityEventRow}

/-- An activity that was applied up to a revision is applied the same way up to a later one. -/
theorem applyActivity_mono (hle : revision ≤ revision')
    (h : applyActivity P runId revision tables row = .ok tables') :
    applyActivity P runId revision' tables row = .ok tables' := by
  unfold applyActivity at h ⊢
  obtain ⟨payload, hpayload, h⟩ := bind_eq_ok.mp h
  refine bind_eq_ok.mpr ⟨payload, hpayload, ?_⟩
  split at h
  next htype =>
    rw [if_pos htype]
    obtain ⟨kernelEventId, hkernel, h⟩ := bind_eq_ok.mp h
    obtain ⟨eventRevision, hevent, h⟩ := bind_eq_ok.mp h
    obtain ⟨_, hfence, h⟩ := bind_eq_ok.mp h
    refine bind_eq_ok.mpr ⟨kernelEventId, hkernel, bind_eq_ok.mpr ⟨eventRevision, hevent, ?_⟩⟩
    refine bind_eq_ok.mpr ⟨(), rejectIf_eq_ok.mpr ?_, h⟩
    have hfence := rejectIf_eq_ok.mp hfence
    simp only [decide_eq_false_iff_not, not_lt] at hfence ⊢
    omega
  next htype =>
    rw [if_neg htype]
    exact h

/-- Activities that were applied up to a revision are applied the same way up to a later one. -/
theorem applyActivities_mono (hle : revision ≤ revision') {rows : List ActivityEventRow}
    (h : rows.foldlM (applyActivity P runId revision) tables = .ok tables') :
    rows.foldlM (applyActivity P runId revision') tables = .ok tables' := by
  induction rows generalizing tables with
  | nil => exact h
  | cons row rows ih =>
    rw [List.foldlM_cons] at h ⊢
    obtain ⟨mid, hmid, h⟩ := bind_eq_ok.mp h
    exact bind_eq_ok.mpr ⟨mid, applyActivity_mono hle hmid, ih h⟩

/-! ## Catching up -/

/-- What a successful catch-up has checked and done. -/
structure CaughtUp (P : Platform) (runId : Id) (cursor revision : ℤ) (now : Stamp)
    (db db' : GraphDatabase) : Prop where
  named : nonempty "run_id" runId = .ok ()
  fence : checkFence cursor revision = .ok ()
  forward : requireForward (db.watermark runId) cursor revision = .ok ()
  reachable : requireReachable db cursor = .ok ()
  applied : (activitiesBetween db.activities runId (db.watermark runId).processedCursor
    cursor).foldlM (applyActivity P runId revision) db.tables = .ok db'.tables
  bounded : ((revision.toNat : ℕ) : ℤ) ≤ maxColumn
  activities : db'.activities = db.activities
  watermarks : db'.watermarks = upsertRow WatermarkRow.runId
    ⟨runId, cursor.toNat, revision.toNat, now⟩ db.watermarks

variable {cursor : ℤ} {now : Stamp} {db db' : GraphDatabase}

/-- A catch-up succeeds exactly when its checks pass and the activities can be applied. -/
theorem catchUp_eq_ok :
    catchUp P runId cursor revision now db = .ok db' ↔
      CaughtUp P runId cursor revision now db db' := by
  unfold catchUp writeWatermark
  constructor
  · intro h
    obtain ⟨_, hnamed, h⟩ := bind_eq_ok.mp h
    obtain ⟨_, hfence, h⟩ := bind_eq_ok.mp h
    obtain ⟨_, hforward, h⟩ := bind_eq_ok.mp h
    obtain ⟨_, hreachable, h⟩ := bind_eq_ok.mp h
    obtain ⟨tables, happlied, h⟩ := bind_eq_ok.mp h
    obtain ⟨_, hbounded, h⟩ := bind_eq_ok.mp h
    cases h
    refine ⟨hnamed, hfence, hforward, hreachable, happlied, ?_, rfl, rfl⟩
    simpa using hbounded
  · rintro ⟨hnamed, hfence, hforward, hreachable, happlied, hbounded, hactivities, hwatermarks⟩
    obtain ⟨activities, tables, watermarks⟩ := db'
    dsimp only at happlied hactivities hwatermarks
    subst hactivities hwatermarks
    refine bind_eq_ok.mpr ⟨(), hnamed, bind_eq_ok.mpr ⟨(), hfence, bind_eq_ok.mpr ⟨(), hforward,
      bind_eq_ok.mpr ⟨(), hreachable, bind_eq_ok.mpr ⟨tables, happlied, ?_⟩⟩⟩⟩⟩
    exact bind_eq_ok.mpr ⟨(), by simpa using hbounded, rfl⟩

/-! ## Watermarks -/

theorem watermark_of_written {db : GraphDatabase} {runId : Id} {row : WatermarkRow}
    {watermarks : List WatermarkRow} (hrun : row.runId = runId)
    (h : db.watermarks = upsertRow WatermarkRow.runId row watermarks) :
    db.watermark runId =
      ⟨runId, row.processedCursor, row.researchRevision, some row.rebuiltAt⟩ := by
  have hfound : db.watermarks.find? (·.runId == runId) = some row := by
    rw [h]
    exact find?_upsertRow (fun old => by simp [hrun]) watermarks
  simp only [GraphDatabase.watermark, hfound]

theorem watermark_of_other {row : WatermarkRow} (hrun : row.runId ≠ runId)
    (h : db'.watermarks = upsertRow WatermarkRow.runId row db.watermarks) :
    db'.watermark runId = db.watermark runId := by
  have hfound : db'.watermarks.find? (·.runId == runId) = db.watermarks.find? (·.runId == runId) := by
    rw [h]
    exact find?_upsertRow_of_ne (fun a b hab => by rw [hab]) (by simpa using hrun) _
  simp only [GraphDatabase.watermark, hfound]

/-! ## Intervals of activities -/

/-- The cursors of the activities ascend. -/
def GraphDatabase.Ordered (db : GraphDatabase) : Prop :=
  db.activities.Pairwise fun a b => a.cursor < b.cursor

/-- No activity has a cursor above the last one. -/
theorem cursor_le_lastCursor (h : row ∈ db.activities) : row.cursor ≤ db.lastCursor :=
  le_foldl_max.mpr (Or.inr ⟨row.cursor, List.mem_map_of_mem h, le_rfl⟩)

variable {activities : List ActivityEventRow}

/-- The activities of an interval, which are in order as they were recorded. -/
theorem activitiesBetween_eq_filter (hordered : activities.Pairwise fun a b => a.cursor < b.cursor)
    (runId : Id) (first last : ℤ) :
    activitiesBetween activities runId first last = activities.filter fun row =>
      row.runId == some runId && (decide (first < row.cursor) && decide ((row.cursor : ℤ) ≤ last)) :=
  List.Pairwise.insertionSort_eq ((hordered.filter _).imp fun h => h.le)

/-- Rows that satisfy one of two tests are those of the first test and then those of the second
when they stand in that order. -/
theorem filter_or_of_ordered {ρ : Type} {p q : ρ → Bool} {rows : List ρ}
    (hordered : rows.Pairwise fun a b => q a = true → p b = false)
    (hdisjoint : ∀ row ∈ rows, p row = true → q row = false) :
    rows.filter (fun row => p row || q row) = rows.filter p ++ rows.filter q := by
  induction rows with
  | nil => rfl
  | cons row rows ih =>
    obtain ⟨hlater, hordered⟩ := List.pairwise_cons.mp hordered
    have ih := ih hordered fun other hother => hdisjoint other (List.mem_cons_of_mem _ hother)
    cases hp : p row with
    | true =>
      have hq := hdisjoint row (List.mem_cons_self ..) hp
      simp [hp, hq, ih]
    | false =>
      cases hq : q row with
      | false => simp [hp, hq, ih]
      | true =>
        have hnone : rows.filter p = [] := by
          rw [List.filter_eq_nil_iff]
          intro other hother
          simp [hlater other hother hq]
        simp [hp, hq, ih, hnone]

/-- The activities of an interval are those of its first part and then those of its second. -/
theorem activitiesBetween_split (hordered : activities.Pairwise fun a b => a.cursor < b.cursor)
    (runId : Id) {first mid last : ℤ} (hfirst : first ≤ mid) (hlast : mid ≤ last) :
    activitiesBetween activities runId first last =
      activitiesBetween activities runId first mid ++
        activitiesBetween activities runId mid last := by
  rw [activitiesBetween_eq_filter hordered, activitiesBetween_eq_filter hordered,
    activitiesBetween_eq_filter hordered, ← filter_or_of_ordered]
  · refine List.filter_congr fun row _ => ?_
    rw [Bool.eq_iff_iff]
    simp only [Bool.and_eq_true, Bool.or_eq_true, decide_eq_true_eq]
    constructor
    · rintro ⟨hrun, hlow, hhigh⟩
      by_cases hmid : (row.cursor : ℤ) ≤ mid
      · exact Or.inl ⟨hrun, hlow, hmid⟩
      · exact Or.inr ⟨hrun, by omega, hhigh⟩
    · rintro (⟨hrun, hlow, hhigh⟩ | ⟨hrun, hlow, hhigh⟩)
      · exact ⟨hrun, hlow, by omega⟩
      · exact ⟨hrun, by omega, hhigh⟩
  · refine hordered.imp fun {a b} hlt ha => ?_
    simp only [Bool.and_eq_true, decide_eq_true_eq] at ha
    simp only [Bool.and_eq_false_imp, decide_eq_true_eq, decide_eq_false_iff_not, not_le]
    intros
    omega
  · intro row _ hrow
    simp only [Bool.and_eq_true, decide_eq_true_eq] at hrow
    simp only [Bool.and_eq_false_imp, decide_eq_true_eq]
    intros
    omega

/-- No activity lies in an empty interval. -/
theorem activitiesBetween_self (activities : List ActivityEventRow) (runId : Id) (cursor : ℤ) :
    activitiesBetween activities runId cursor cursor = [] := by
  have hnone : (activities.filter fun row => row.runId == some runId &&
      (decide (cursor < row.cursor) && decide ((row.cursor : ℤ) ≤ cursor))) = [] := by
    rw [List.filter_eq_nil_iff]
    intro row _
    simp only [Bool.and_eq_true, decide_eq_true_eq, not_and]
    intros
    omega
  rw [activitiesBetween, hnone]
  rfl

/-- An activity that is recorded after an interval does not belong to it. -/
theorem activitiesBetween_concat {first last : ℤ} (h : last < row.cursor) :
    activitiesBetween (activities ++ [row]) runId first last =
      activitiesBetween activities runId first last := by
  have hnone : [row].filter (fun row => row.runId == some runId &&
      (decide (first < row.cursor) && decide ((row.cursor : ℤ) ≤ last))) = [] := by
    rw [List.filter_eq_nil_iff]
    intro other hother
    rw [List.mem_singleton.mp hother]
    simp only [Bool.and_eq_true, decide_eq_true_eq, not_and]
    intros
    omega
  rw [activitiesBetween, List.filter_append, hnone, List.append_nil]
  rfl

/-! ## Rebuilding -/

/-- What is indexed of the other runs when one is deleted. -/
theorem ofRun_withoutRun {other : Id} (h : other ≠ runId) :
    (tables.withoutRun runId).ofRun other = tables.ofRun other := by
  have hne : ∀ rowRun : Id, (rowRun == other) = true → (rowRun != runId) = true := by
    intro rowRun hrow
    exact bne_iff_ne.mpr fun heq => h ((beq_iff_eq.mp hrow).symm.trans heq)
  simp only [GraphTables.withoutRun, GraphTables.ofRun]
  rw [filter_filter_of_keeps, filter_filter_of_keeps, filter_filter_of_keeps]
  all_goals exact fun row => hne row.runId

/-- What a successful rebuild leaves of the database. -/
structure Rebuilt (Inv : GraphTables → Prop) (runId : Id) (db db' : GraphDatabase) : Prop where
  activities : db'.activities = db.activities
  watermark : ∀ other, other ≠ runId → db'.watermark other = db.watermark other
  written : (db'.watermark runId).processedCursor ≤ db.lastCursor
  frame : ∀ other, other ≠ runId → db'.tables.ofRun other = db.tables.ofRun other
  keeps : Inv db.tables → Inv db'.tables

/-- A rebuild replaces what is indexed of its run. -/
theorem rebuilt_of_rebuild {Inv : GraphTables → Prop} (hInv : Stable Inv)
    {snapshot : GraphAuthoritySnapshot}
    (hput : ∀ node ∈ snapshot.nodes, ∀ {tables row}, row.claimId = node.claimId →
      Inv tables → Inv (tables.putNode row)) (h : rebuild snapshot db = .ok db') :
    Rebuilt Inv snapshot.runId db db' := by
  unfold rebuild writeWatermark at h
  obtain ⟨_, hfence, h⟩ := bind_eq_ok.mp h
  obtain ⟨_, -, h⟩ := bind_eq_ok.mp h
  obtain ⟨_, -, h⟩ := bind_eq_ok.mp h
  obtain ⟨_, -, h⟩ := bind_eq_ok.mp h
  obtain ⟨_, -, h⟩ := bind_eq_ok.mp h
  obtain ⟨_, hreachable, h⟩ := bind_eq_ok.mp h
  obtain ⟨withNodes, hnodes, h⟩ := bind_eq_ok.mp h
  obtain ⟨withEdges, hedges, h⟩ := bind_eq_ok.mp h
  obtain ⟨_, -, h⟩ := bind_eq_ok.mp h
  have hwriteNodes : WritesRun Inv snapshot.runId fun tables => snapshot.nodes.foldlM
      (fun tables node => upsertNode snapshot.runId node snapshot.processedCursor.toNat
        snapshot.sourceKernelEventId tables) tables :=
    WritesRun.foldlM fun node hnode => writesRun_upsertNode _ (hput node hnode) _ _
  have hwriteEdges : WritesRun Inv snapshot.runId fun tables => snapshot.edges.foldlM
      (fun tables edge => upsertEdge snapshot.runId edge snapshot.processedCursor.toNat
        snapshot.sourceKernelEventId tables) tables :=
    WritesRun.foldlM fun edge _ => writesRun_upsertEdge hInv _ edge _ _
  cases h
  refine ⟨rfl, fun other hother => watermark_of_other hother.symm rfl, ?_, ?_, ?_⟩
  · have hwritten := @watermark_of_written { db with
      tables := withEdges
      watermarks := upsertRow WatermarkRow.runId ⟨snapshot.runId, snapshot.processedCursor.toNat,
        snapshot.researchRevision.toNat, snapshot.capturedAt⟩ db.watermarks }
      snapshot.runId _ db.watermarks rfl rfl
    have hle := rejectIf_eq_ok.mp hreachable
    simp only [decide_eq_false_iff_not, not_lt] at hle
    rw [hwritten]
    dsimp only
    omega
  · intro other hother
    dsimp only
    rw [hwriteEdges.frame hedges other hother, hwriteNodes.frame hnodes other hother,
      ofRun_withoutRun hother]
  · intro hinv
    exact hwriteEdges.keeps hedges (hwriteNodes.keeps hnodes (hInv.withoutRun _ hinv))

/-! ## Histories -/

/-- Whether an operation rebuilds a run. -/
def IndexOp.rebuilds (runId : Id) : IndexOp → Bool
  | .rebuild snapshot => snapshot.runId == runId
  | _ => false

/-- The cursors ascend, the tables are sound, and the watermarks lie among the activities. -/
structure GraphDatabase.Wellformed (db : GraphDatabase) : Prop where
  ordered : db.Ordered
  sound : db.tables.Sound
  recorded : ∀ runId, (db.watermark runId).processedCursor ≤ db.lastCursor

theorem lastCursor_concat (db : GraphDatabase) (row : ActivityEventRow) :
    GraphDatabase.lastCursor { db with activities := db.activities ++ [row] } =
      max db.lastCursor row.cursor := by
  simp [GraphDatabase.lastCursor]

theorem CaughtUp.watermark (h : CaughtUp P runId cursor revision now db db') :
    db'.watermark runId = ⟨runId, cursor.toNat, revision.toNat, some now⟩ :=
  watermark_of_written rfl h.watermarks

/-- A fence that passes its check has no negative part. -/
theorem CaughtUp.nonneg (h : CaughtUp P runId cursor revision now db db') :
    0 ≤ cursor ∧ 0 ≤ revision := by
  have hfence := h.fence
  unfold checkFence at hfence
  obtain ⟨_, hcursor, hrevision⟩ := bind_eq_ok.mp hfence
  simp only [rejectIf_eq_ok, decide_eq_false_iff_not, not_lt] at hcursor hrevision
  exact ⟨hcursor, hrevision⟩

/-- The cursor of a fence was recorded. -/
theorem CaughtUp.cursor_le (h : CaughtUp P runId cursor revision now db db') :
    cursor.toNat ≤ db.lastCursor := by
  have hle := rejectIf_eq_ok.mp h.reachable
  simp only [decide_eq_false_iff_not, not_lt] at hle
  omega

/-- One operation keeps the database well formed. -/
theorem wellformed_step (P : Platform) (hdb : db.Wellformed) (op : IndexOp) :
    (step P db op).Wellformed := by
  cases op with
  | recorded row =>
    simp only [step]
    split
    next hlast =>
      refine ⟨?_, hdb.sound, fun runId => ?_⟩
      · refine List.pairwise_append.mpr ⟨hdb.ordered, List.pairwise_singleton _ _, ?_⟩
        intro old hold new hnew
        rw [List.mem_singleton.mp hnew]
        exact (cursor_le_lastCursor hold).trans_lt hlast
      · rw [lastCursor_concat]
        exact (hdb.recorded runId).trans (le_max_left _ _)
    · exact hdb
  | catchUp runId cursor revision now =>
    simp only [step, transaction]
    split
    next db' h =>
      have hcaught := catchUp_eq_ok.mp h
      have hlast : db'.lastCursor = db.lastCursor := by
        rw [GraphDatabase.lastCursor, hcaught.activities, GraphDatabase.lastCursor]
      refine ⟨?_, (writesRun_activities stable_sound runId P revision _).keeps hcaught.applied hdb.sound, ?_⟩
      · rw [GraphDatabase.Ordered, hcaught.activities]
        exact hdb.ordered
      · intro other
        rw [hlast]
        by_cases hother : runId = other
        · subst hother
          rw [hcaught.watermark]
          exact hcaught.cursor_le
        · rw [watermark_of_other hother hcaught.watermarks]
          exact hdb.recorded other
    · exact hdb
  | rebuild snapshot =>
    simp only [step, transaction]
    split
    next db' h =>
      have hrebuilt := rebuilt_of_rebuild stable_sound (fun _ _ _ _ _ => sound_putNode) h
      have hlast : db'.lastCursor = db.lastCursor := by
        rw [GraphDatabase.lastCursor, hrebuilt.activities, GraphDatabase.lastCursor]
      refine ⟨?_, hrebuilt.keeps hdb.sound, ?_⟩
      · rw [GraphDatabase.Ordered, hrebuilt.activities]
        exact hdb.ordered
      · intro other
        rw [hlast]
        by_cases hother : other = snapshot.runId
        · subst hother
          exact hrebuilt.written
        · rw [hrebuilt.watermark other hother]
          exact hdb.recorded other
    · exact hdb

/-- Every database that is reached is well formed. -/
theorem wellformed_reached (P : Platform) (history : List IndexOp) :
    (reached P history).Wellformed := by
  refine @runFrom_invariant _ _ (step P) GraphDatabase.Wellformed _ ?_ ?_ history
  · exact { ordered := List.Pairwise.nil
            sound := { nodes := List.nodup_nil
                       edges := List.nodup_nil
                       fts := List.nodup_nil
                       mirrored := by simp
                       joined := by simp }
            recorded := fun _ => le_rfl }
  · exact fun db op hdb => wellformed_step P hdb op

/-- What is indexed of a run is a fold of its activities since another database. -/
structure Projected (P : Platform) (runId : Id) (base db : GraphDatabase) : Prop where
  cursor : (base.watermark runId).processedCursor ≤ (db.watermark runId).processedCursor
  revision : (base.watermark runId).researchRevision ≤ (db.watermark runId).researchRevision
  same : (base.watermark runId).processedCursor = (db.watermark runId).processedCursor →
    (base.watermark runId).researchRevision = (db.watermark runId).researchRevision
  folded : (activitiesBetween db.activities runId (base.watermark runId).processedCursor
    (db.watermark runId).processedCursor).foldlM
      (applyActivity P runId (db.watermark runId).researchRevision) (base.tables.ofRun runId) =
        .ok (db.tables.ofRun runId)

/-- Nothing has happened yet. -/
theorem Projected.refl (P : Platform) (runId : Id) (db : GraphDatabase) :
    Projected P runId db db where
  cursor := le_rfl
  revision := le_rfl
  same _ := rfl
  folded := by
    rw [activitiesBetween_self]
    rfl

/-- What neither changes the watermark and the index of a run nor adds to its interval. -/
theorem Projected.of_same {base : GraphDatabase} (h : Projected P runId base db)
    (hwatermark : db'.watermark runId = db.watermark runId)
    (htables : db'.tables.ofRun runId = db.tables.ofRun runId)
    (hactivities : activitiesBetween db'.activities runId (base.watermark runId).processedCursor
        (db.watermark runId).processedCursor =
      activitiesBetween db.activities runId (base.watermark runId).processedCursor
        (db.watermark runId).processedCursor) : Projected P runId base db' where
  cursor := hwatermark ▸ h.cursor
  revision := hwatermark ▸ h.revision
  same := hwatermark ▸ h.same
  folded := by
    rw [hwatermark, hactivities, htables]
    exact h.folded

/-- The fences that lie ahead of a watermark. -/
theorem requireForward_eq_ok {current : GraphIndexWatermark} :
    requireForward current cursor revision = .ok () ↔ (current.processedCursor : ℤ) ≤ cursor ∧
      (cursor = current.processedCursor → revision = current.researchRevision) ∧
        (current.researchRevision : ℤ) ≤ revision := by
  unfold requireForward
  rw [bind_eq_ok]
  simp only [rejectIf_eq_ok, decide_eq_false_iff_not, not_lt, exists_const]
  refine and_congr_right fun _ => ?_
  split
  next heq =>
    simp only [rejectIf_eq_ok, ne_eq, decide_not, Bool.not_eq_false', decide_eq_true_eq]
    exact ⟨fun h => ⟨fun _ => h, by omega⟩, fun h => h.1 heq⟩
  next hne =>
    simp only [rejectIf_eq_ok, decide_eq_false_iff_not, not_lt]
    exact ⟨fun h => ⟨fun heq => absurd heq hne, h⟩, fun h => h.2⟩

/-- A catch-up extends the fold. -/
theorem Projected.caughtUp {base : GraphDatabase} (h : Projected P runId base db)
    (hordered : db.Ordered) (hcaught : CaughtUp P runId cursor revision now db db') :
    Projected P runId base db' := by
  obtain ⟨hcursor, hsame, hrevision⟩ := requireForward_eq_ok.mp hcaught.forward
  obtain ⟨hcursor0, hrevision0⟩ := hcaught.nonneg
  have hbaseCursor := h.cursor
  have hbaseRevision := h.revision
  have htoCursor : (cursor.toNat : ℤ) = cursor := Int.toNat_of_nonneg hcursor0
  have htoRevision : (revision.toNat : ℤ) = revision := Int.toNat_of_nonneg hrevision0
  refine ⟨?_, ?_, fun heq => ?_, ?_⟩
  · rw [hcaught.watermark]
    dsimp only
    omega
  · rw [hcaught.watermark]
    dsimp only
    omega
  · rw [hcaught.watermark] at heq ⊢
    dsimp only at heq ⊢
    have hbase := h.same (by omega)
    have hfence := hsame (by omega)
    omega
  · rw [hcaught.watermark, hcaught.activities]
    dsimp only
    rw [htoCursor, htoRevision, activitiesBetween_split hordered runId
      (Int.ofNat_le.mpr hbaseCursor) hcursor, List.foldlM_append]
    have hbefore := applyActivities_mono hrevision h.folded
    have hafter := (writesRun_activities stable_sound runId P revision (activitiesBetween db.activities runId
      (db.watermark runId).processedCursor cursor)).alone db.tables
    rw [hcaught.applied] at hafter
    exact bind_eq_ok.mpr ⟨_, hbefore, hafter⟩

/-- An operation that does not rebuild the run extends the fold. -/
theorem Projected.step {P : Platform} {runId : Id} {base db : GraphDatabase}
    (h : Projected P runId base db) (hdb : db.Wellformed) {op : IndexOp}
    (hop : op.rebuilds runId = false) : Projected P runId base (step P db op) := by
  cases op with
  | recorded row =>
    simp only [Indexing.step]
    split
    next hlast =>
      have hrecorded := hdb.recorded runId
      exact h.of_same rfl rfl (activitiesBetween_concat (by omega))
    · exact h
  | catchUp other cursor revision now =>
    simp only [Indexing.step, transaction]
    split
    next db' hok =>
      have hcaught := catchUp_eq_ok.mp hok
      by_cases hother : other = runId
      · subst hother
        exact h.caughtUp hdb.ordered hcaught
      · refine h.of_same (watermark_of_other hother hcaught.watermarks)
          ((writesRun_activities stable_sound other P revision _).frame hcaught.applied runId
            (Ne.symm hother)) ?_
        rw [hcaught.activities]
    · exact h
  | rebuild snapshot =>
    simp only [Indexing.step, transaction]
    split
    next db' hok =>
      have hrebuilt := rebuilt_of_rebuild stable_sound (fun _ _ _ _ _ => sound_putNode) hok
      have hother : runId ≠ snapshot.runId := by
        intro heq
        simp [IndexOp.rebuilds, heq] at hop
      refine h.of_same (hrebuilt.watermark runId hother) (hrebuilt.frame runId hother) ?_
      rw [hrebuilt.activities]
    · exact h

/-- A chain of operations that do not rebuild the run extends the fold. -/
theorem projected_chain (P : Platform) (runId : Id) (before : List IndexOp) {chain : List IndexOp}
    (hchain : ∀ op ∈ chain, op.rebuilds runId = false) :
    Projected P runId (reached P before) (reached P (before ++ chain)) := by
  induction chain using List.reverseRecOn with
  | nil =>
    rw [List.append_nil]
    exact Projected.refl P runId _
  | append_singleton chain op ih =>
    have hstep : reached P (before ++ (chain ++ [op])) =
        step P (reached P (before ++ chain)) op := by
      rw [← List.append_assoc]
      exact runFrom_concat ..
    rw [hstep]
    exact (ih fun other hother => hchain other (by simp [hother])).step
      (wellformed_reached P _) (hchain op (by simp))

/-! ## The laws -/

/-- A chain of operations, none of which rebuilds the run, and then an accepted catch-up of the
run to a fence. In between activities may be recorded and other runs may be written. -/
def CatchesUp (P : Platform) (before chain : List IndexOp) (runId : Id) (cursor revision : ℤ)
    (db : GraphDatabase) : Prop :=
  (∀ op ∈ chain, op.rebuilds runId = false) ∧
    ∃ now, catchUp P runId cursor revision now (reached P (before ++ chain)) = .ok db

/-- Two chains that end at one fence over the same activities of a run leave the same index of
the run. -/
def SameIndex (P : Platform) : Prop :=
  ∀ before chain₁ chain₂ runId cursor revision db₁ db₂,
    CatchesUp P before chain₁ runId cursor revision db₁ →
    CatchesUp P before chain₂ runId cursor revision db₂ →
    activitiesBetween db₁.activities runId 0 cursor =
      activitiesBetween db₂.activities runId 0 cursor →
    db₁.tables.ofRun runId = db₂.tables.ofRun runId

/-- A single catch-up to the fence is accepted as well, and leaves the same index of the run. -/
def SingleCatchUp (P : Platform) : Prop :=
  ∀ before chain runId cursor revision db now,
    CatchesUp P before chain runId cursor revision db →
    ∃ db', catchUp P runId cursor revision now
        { reached P before with activities := db.activities } = .ok db' ∧
      db'.tables.ofRun runId = db.tables.ofRun runId

/-- The documents of a run are those of its claims, one for each, and its edges join claims. -/
structure IndexMirrors (tables : GraphTables) (runId : Id) : Prop where
  documents : (tables.ofRun runId).fts.Perm ((tables.ofRun runId).nodes.map NodeRow.document)
  once : ((tables.ofRun runId).nodes.map (·.claimId)).Nodup
  joined : ∀ edge ∈ (tables.ofRun runId).edges,
    (∃ node ∈ (tables.ofRun runId).nodes, node.claimId = edge.fromClaimId) ∧
      ∃ node ∈ (tables.ofRun runId).nodes, node.claimId = edge.toClaimId

/-- A catch-up that raises leaves the database as it was. -/
def RaisesCleanly (P : Platform) : Prop :=
  ∀ runId cursor revision now db error,
    (transaction (catchUp P runId cursor revision now) db).1 = .error error →
    (transaction (catchUp P runId cursor revision now) db).2 = db

/-- An interval is the end of a longer one. -/
theorem activitiesBetween_later (hordered : activities.Pairwise fun a b => a.cursor < b.cursor)
    (runId : Id) (first last : ℤ) (hfirst : 0 ≤ first) :
    activitiesBetween activities runId first last =
      (activitiesBetween activities runId 0 last).filter fun row => decide (first < row.cursor) := by
  rw [activitiesBetween_eq_filter hordered, activitiesBetween_eq_filter hordered,
    List.filter_filter]
  refine List.filter_congr fun row _ => ?_
  rw [Bool.eq_iff_iff]
  simp only [Bool.and_eq_true, decide_eq_true_eq]
  constructor
  · rintro ⟨hrun, hlow, hhigh⟩
    exact ⟨hlow, hrun, by omega, hhigh⟩
  · rintro ⟨hlow, hrun, -, hhigh⟩
    exact ⟨hrun, hlow, hhigh⟩

/-- A chain that ends in a catch-up is a fold up to its fence. -/
theorem CatchesUp.projected {before chain : List IndexOp}
    (h : CatchesUp P before chain runId cursor revision db) :
    Projected P runId (reached P before) db ∧ db.Ordered ∧
      db.watermark runId = ⟨runId, cursor.toNat, revision.toNat, (db.watermark runId).rebuiltAt⟩ ∧
        0 ≤ cursor ∧ 0 ≤ revision := by
  obtain ⟨hchain, now, hok⟩ := h
  have hcaught := catchUp_eq_ok.mp hok
  have hordered := (wellformed_reached P (before ++ chain)).ordered
  refine ⟨(projected_chain P runId before hchain).caughtUp hordered hcaught, ?_, ?_,
    hcaught.nonneg⟩
  · rw [GraphDatabase.Ordered, hcaught.activities]
    exact hordered
  · rw [hcaught.watermark]

/-- The index does not depend on how the catch-ups were cut. -/
theorem sameIndex (P : Platform) : SameIndex P := by
  intro before chain₁ chain₂ runId cursor revision db₁ db₂ h₁ h₂ hactivities
  obtain ⟨hprojected₁, hordered₁, hwatermark₁, hcursor, -⟩ := h₁.projected
  obtain ⟨hprojected₂, hordered₂, hwatermark₂, -, -⟩ := h₂.projected
  have hfolded₁ := hprojected₁.folded
  have hfolded₂ := hprojected₂.folded
  rw [hwatermark₁] at hfolded₁
  rw [hwatermark₂] at hfolded₂
  dsimp only at hfolded₁ hfolded₂
  rw [Int.toNat_of_nonneg hcursor] at hfolded₁ hfolded₂
  rw [activitiesBetween_later hordered₁ _ _ _ (Int.natCast_nonneg _), hactivities,
    ← activitiesBetween_later hordered₂ _ _ _ (Int.natCast_nonneg _), hfolded₂] at hfolded₁
  exact (Except.ok.inj hfolded₁).symm

/-- One catch-up does what a chain of them does. -/
theorem singleCatchUp (P : Platform) : SingleCatchUp P := by
  intro before chain runId cursor revision db now h
  obtain ⟨hprojected, -, hwatermark, hcursor, hrevision⟩ := h.projected
  obtain ⟨-, last, hok⟩ := h
  have hcaught := catchUp_eq_ok.mp hok
  have hbaseCursor := hprojected.cursor
  have hbaseRevision := hprojected.revision
  have hsame := hprojected.same
  have hfolded := hprojected.folded
  rw [hwatermark] at hbaseCursor hbaseRevision hsame hfolded
  dsimp only at hbaseCursor hbaseRevision hsame hfolded
  rw [Int.toNat_of_nonneg hcursor, Int.toNat_of_nonneg hrevision] at hfolded
  -- what holds of the run alone holds among the other runs
  rw [(writesRun_activities stable_sound runId P revision _).alone] at hfolded
  obtain ⟨tables, happlied, htables⟩ : ∃ tables,
      (activitiesBetween db.activities runId ((reached P before).watermark runId).processedCursor
        cursor).foldlM (applyActivity P runId revision) (reached P before).tables = .ok tables ∧
      tables.ofRun runId = db.tables.ofRun runId := by
    revert hfolded
    cases List.foldlM (applyActivity P runId revision) (reached P before).tables
      (activitiesBetween db.activities runId ((reached P before).watermark runId).processedCursor
        cursor) with
    | error error => exact fun hfolded => nomatch hfolded
    | ok tables => exact fun hfolded => ⟨tables, rfl, Except.ok.inj hfolded⟩
  refine ⟨{ activities := db.activities
            tables := tables
            watermarks := upsertRow WatermarkRow.runId ⟨runId, cursor.toNat, revision.toNat, now⟩
              (reached P before).watermarks }, catchUp_eq_ok.mpr ?_, htables⟩
  refine ⟨hcaught.named, hcaught.fence, requireForward_eq_ok.mpr ?_, ?_, happlied,
    hcaught.bounded, rfl, rfl⟩
  · have hmark : GraphDatabase.watermark { reached P before with activities := db.activities }
      runId = (reached P before).watermark runId := rfl
    rw [hmark]
    refine ⟨by omega, fun heq => ?_, by omega⟩
    have hbase := hsame (by omega)
    omega
  · have hlast : GraphDatabase.lastCursor { reached P before with activities := db.activities } =
        (reached P (before ++ chain)).lastCursor := by
      rw [GraphDatabase.lastCursor, hcaught.activities, GraphDatabase.lastCursor]
    rw [requireReachable, hlast]
    exact hcaught.reachable

/-- Sound tables mirror each run. -/
theorem indexMirrors_of_sound (h : tables.Sound) (runId : Id) :
    IndexMirrors tables runId where
  documents := by
    refine (List.perm_ext_iff_of_nodup ?_ ?_).mpr fun row => ?_
    · exact (h.fts.of_map).filter _
    · have hkeys : ((tables.ofRun runId).nodes.map NodeRow.key).Nodup :=
        h.nodes.sublist (List.filter_sublist.map _)
      refine List.Nodup.of_map FtsRow.key ?_
      rw [List.map_map]
      exact hkeys
    · simp only [GraphTables.ofRun, List.mem_filter, h.mirrored, List.mem_map]
      constructor
      · rintro ⟨⟨node, hnode, rfl⟩, hrun⟩
        exact ⟨node, ⟨hnode, hrun⟩, rfl⟩
      · rintro ⟨node, ⟨hnode, hrun⟩, rfl⟩
        exact ⟨⟨node, hnode, rfl⟩, hrun⟩
  once := by
    have hkeys : ((tables.ofRun runId).nodes.map NodeRow.key).Nodup :=
      h.nodes.sublist (List.filter_sublist.map _)
    have hpairs : (tables.ofRun runId).nodes.map NodeRow.key =
        ((tables.ofRun runId).nodes.map (·.claimId)).map fun claimId => (runId, claimId) := by
      rw [List.map_map]
      refine List.map_congr_left fun node hnode => ?_
      have hrun := beq_iff_eq.mp (List.mem_filter.mp hnode).2
      exact Prod.ext hrun rfl
    rw [hpairs] at hkeys
    exact hkeys.of_map
  joined := by
    intro edge hedge
    obtain ⟨hedge, hrun⟩ := List.mem_filter.mp hedge
    have hrun := beq_iff_eq.mp hrun
    have hend : ∀ id, tables.hasNode edge.runId id = true →
        ∃ node ∈ (tables.ofRun runId).nodes, node.claimId = id := by
      intro id hid
      obtain ⟨node, hnode, hkey⟩ := hasNode_iff.mp hid
      obtain ⟨hnodeRun, hclaim⟩ := Prod.mk.inj hkey
      exact ⟨node, List.mem_filter.mpr ⟨hnode, by simp [hnodeRun, hrun]⟩, hclaim⟩
    exact ⟨hend _ (h.joined edge hedge).1, hend _ (h.joined edge hedge).2⟩

/-- The index of a run is a function of its activities and of the fence: it does not depend on
how the catch-ups were cut, the full-text rows are the claims, edges join claims, and a catch-up
that raises changes nothing. -/
theorem index_follows_activities (P : Platform) :
    SameIndex P ∧ SingleCatchUp P ∧
      (∀ history runId, IndexMirrors (reached P history).tables runId) ∧ RaisesCleanly P := by
  refine ⟨sameIndex P, singleCatchUp P, fun history runId => ?_, ?_⟩
  · exact indexMirrors_of_sound (wellformed_reached P history).sound runId
  · intro runId cursor revision now db error h
    unfold transaction at h ⊢
    cases hrun : catchUp P runId cursor revision now db with
    | ok db' =>
      rw [hrun] at h
      cases h
    | error other => rfl

end ResearchKernel.Product.Indexing
