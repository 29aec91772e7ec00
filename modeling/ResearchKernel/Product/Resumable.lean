import ResearchKernel.Product.Materialized

/-!
# Resumable invalidation

Events are recorded by one process, processed by others and checked by the consumers, and any
of these may die between two transactions. Whatever the order, a consumer is not given an
object that an event recorded before lists, and the tables of a run that is caught up are those
of one `catch_up` that was not interrupted.
-/

namespace ResearchKernel.Product

open Foundation Store

/-! ## What grows -/

/-- The ledger and the bindings are only appended to, and no watermark is taken back. -/
structure Grows (store store' : Store) : Prop where
  ledger : store.ledger <+: store'.ledger
  bindings : store.bindings.map BindingRow.registered <+: store'.bindings.map BindingRow.registered
  recorded : ∀ runId, (store.watermark runId).recordedSequence ≤
    (store'.watermark runId).recordedSequence
  processed : ∀ runId, (store.watermark runId).processedSequence ≤
    (store'.watermark runId).processedSequence

theorem Grows.refl (store : Store) : Grows store store :=
  ⟨List.prefix_rfl, List.prefix_rfl, fun _ => le_rfl, fun _ => le_rfl⟩

theorem Grows.trans {a b c : Store} (h : Grows a b) (h' : Grows b c) : Grows a c where
  ledger := h.ledger.trans h'.ledger
  bindings := h.bindings.trans h'.bindings
  recorded runId := (h.recorded runId).trans (h'.recorded runId)
  processed runId := (h.processed runId).trans (h'.processed runId)

section Steps

variable {P : Platform} {store store' : Store}

variable {now : Stamp}

theorem grows_registerBinding {b : BindingArguments}
    (hok : store.registerBinding b now = .ok store') : Grows store store' := by
  rcases registerBinding_spec hok with ⟨rfl, -⟩ | ⟨-, -, hstore⟩
  · exact Grows.refl _
  have hwatermark := watermark_registered
    (show store'.watermarks = store.registeredWatermarks b now by rw [hstore])
  have hledger : store'.ledger = store.ledger := by rw [hstore]
  have hbindings : store'.bindings = store.bindings ++ [b.row] := by rw [hstore]
  constructor
  · exact hledger ▸ List.prefix_rfl
  · rw [hbindings, List.map_append]
    exact List.prefix_append ..
  · intro runId
    rw [hwatermark]
    split <;> exact le_rfl
  · intro runId
    rw [hwatermark]
    split <;> exact le_rfl

theorem grows_record (h : store.Recorded) {invalidation : AuthorityInvalidation}
    (hok : store.record P invalidation now = .ok store') : Grows store store' := by
  obtain ⟨intent, -, ⟨rfl, -⟩ | ⟨-, -, -, hstore⟩⟩ := record_spec hok
  · exact Grows.refl _
  have hwatermark := watermark_recorded
    (show store'.watermarks = store.recordedWatermarks invalidation now by rw [hstore])
  have hledger : store'.ledger = store.ledger ++ [store.eventRow P invalidation intent] := by
    rw [hstore]
  have hbindings : store'.bindings = store.bindings := by rw [hstore]
  constructor
  · rw [hledger]
    exact List.prefix_append ..
  · exact hbindings ▸ List.prefix_rfl
  · intro runId
    rw [hwatermark]
    split
    · exact Nat.le_of_lt (h.numbered runId)
    · exact le_rfl
  · intro runId
    rw [hwatermark]
    split <;> exact le_rfl

theorem grows_catchUp (h : store.Recorded) {runId : Id} {later : Stamp}
    (hok : store.catchUp runId now later = .ok store') : Grows store store' := by
  rcases catchUp_watermark h hok with
    ⟨rfl, -⟩ | ⟨event, done, -, -, hlt, -, hdone, hstore, hwatermark⟩
  · exact Grows.refl _
  obtain ⟨hledger, -, hregistered⟩ := materialize_frame hdone
  have hledger' : store'.ledger = store.ledger := by rw [hstore, hledger]
  have hregistered' : store'.bindings.map BindingRow.registered =
      store.bindings.map BindingRow.registered := by rw [hstore, hregistered]
  constructor
  · exact hledger' ▸ List.prefix_rfl
  · exact hregistered' ▸ List.prefix_rfl
  · intro other
    rw [hwatermark]
    split <;> exact le_rfl
  · intro other
    rw [hwatermark]
    split
    · next hrun =>
      rw [hrun]
      exact Nat.le_of_lt hlt
    · exact le_rfl

/-- An event that was processed stays so. -/
theorem Grows.carried (h : Grows store store') {event : LedgerRow} (hcarried : store.Carried event) :
    store'.Carried event :=
  hcarried.trans (h.processed event.runId)

theorem Grows.firstListing (h : Grows store store') {key : AuthorityObjectKind × Id}
    {event : LedgerRow} (hfirst : store.firstListing key = some event) :
    store'.firstListing key = some event := by
  obtain ⟨later, hledger⟩ := h.ledger
  unfold Store.firstListing at hfirst ⊢
  rw [← hledger, List.find?_append, hfirst]
  rfl

/-- A binding keeps what was registered, and one that is withdrawn stays withdrawn. -/
theorem Grows.binding (h : Grows store store')
    (hview : ∃ processedAt, store.Materialized processedAt)
    (hview' : ∃ processedAt, store'.Materialized processedAt) {binding : BindingRow}
    (hmem : binding ∈ store.bindings) :
    ∃ binding' ∈ store'.bindings, binding'.registered = binding.registered ∧
      (binding.state = .invalidated → binding'.state = .invalidated) := by
  have hregistered := h.bindings.subset (List.mem_map_of_mem hmem)
  obtain ⟨binding', hmem', hsame⟩ := List.mem_map.mp hregistered
  refine ⟨binding', hmem', hsame, ?_⟩
  intro hstate
  obtain ⟨processedAt, hview⟩ := hview
  obtain ⟨processedAt', hview'⟩ := hview'
  have hkey : binding'.registered.key = binding.registered.key := congrArg BindingRow.key hsame
  change binding'.key = binding.key at hkey
  have hnot : ¬ binding.state = .valid := by simp [hstate]
  rw [hview.bindings binding hmem, state_of_view] at hnot
  simp only [not_forall, not_not] at hnot
  obtain ⟨first, hfirst, hcarried⟩ := hnot
  have hnot' : ¬ binding'.state = .valid := by
    rw [hview'.bindings binding' hmem', state_of_view, hkey]
    exact fun hall => hall first (h.firstListing hfirst) (h.carried hcarried)
  cases hstate' : binding'.state with
  | valid => exact absurd hstate' hnot'
  | invalidated => rfl

/-- Every transaction of the engine lets its tables grow. -/
theorem grows_engineStep (h : store.Recorded) (op : EngineOp) :
    Grows store (engineStep P store op) := by
  unfold engineStep
  split
  · next store' hok =>
    cases op with
    | registerBinding b now => exact grows_registerBinding hok
    | record invalidation now => exact grows_record h hok
    | catchUp runId now later => exact grows_catchUp h hok
  · exact Grows.refl store

/-- Every transaction of the engine keeps the tables a view of the ledger. -/
theorem materialized_engineStep (h : store.Recorded) (op : EngineOp)
    (hview : ∃ processedAt, store.Materialized processedAt) :
    ∃ processedAt, (engineStep P store op).Materialized processedAt := by
  obtain ⟨processedAt, hview⟩ := hview
  unfold engineStep
  split
  · next store' hok =>
    cases op with
    | registerBinding b now => exact ⟨processedAt, hview.registerBinding h hok⟩
    | record invalidation now => exact ⟨processedAt, hview.record h hok⟩
    | catchUp runId now later => exact hview.catchUp h hok
  · exact ⟨processedAt, hview⟩

/-- The tables are a view of the ledger in every state that the engine reaches. -/
theorem materialized_engineReached (ops : List EngineOp) :
    ∃ processedAt, (engineReached P ops).Materialized processedAt := by
  have hboth : (engineReached P ops).Recorded ∧
      ∃ processedAt, (engineReached P ops).Materialized processedAt :=
    @runFrom_invariant Store EngineOp (engineStep P)
      (fun store => store.Recorded ∧ ∃ processedAt, store.Materialized processedAt) {}
      ⟨recorded_empty, fun _ => "", materialized_empty _⟩
      (fun _ op h => ⟨recorded_engineStep h.1 op, materialized_engineStep h.1 op h.2⟩) ops
  exact hboth.2

/-- The tables grow from every state of a run to each later one. -/
theorem grows_engineReached (early late : List EngineOp) :
    Grows (engineReached P early) (engineReached P (early ++ late)) :=
  runFrom_stays (I := Grows _) (Grows.refl _)
    (fun ops op ih => ih.trans (grows_engineStep (recorded_engineReached ops) op)) late

end Steps

/-! ## Consumers -/

section Consumers

variable {checked read : Store}

variable {runId : Id}

/-- A consumer is given an object only if its run was caught up and the object is not
withdrawn. -/
theorem assertConsumable_spec {kind : AuthorityObjectKind} {objectId : Id} {required : ℤ}
    {binding : BindingRow}
    (h : assertConsumable checked read runId kind objectId required = .ok binding) :
    (checked.watermark runId).recordedSequence ≤ (checked.watermark runId).processedSequence ∧
      binding ∈ read.bindings ∧ binding.key = (kind, objectId) ∧ binding.runId = runId ∧
      binding.state = .valid := by
  unfold assertConsumable at h
  obtain ⟨watermark, hwatermark, h⟩ := bind_eq_ok.mp h
  obtain ⟨⟨⟩, hlag, h⟩ := bind_eq_ok.mp h
  obtain ⟨found, hfound, h⟩ := bind_eq_ok.mp h
  obtain ⟨⟨⟩, hrun, h⟩ := bind_eq_ok.mp h
  obtain ⟨⟨⟩, hvalid, h⟩ := bind_eq_ok.mp h
  cases pure_eq_ok.mp h
  rw [orReject_eq_ok] at hwatermark hfound
  simp only [rejectIf_eq_ok, Bool.or_eq_false_iff, decide_eq_false_iff_not, not_lt] at hlag
  rw [rejectIf_eq_ok, bne_eq_false_iff_eq] at hrun hvalid
  have hnames := List.find?_some hfound
  simp only [Bool.and_eq_true, beq_iff_eq] at hnames
  refine ⟨?_, List.mem_of_find?_eq_some hfound, Prod.ext hnames.1 hnames.2, hrun, hvalid⟩
  unfold Store.watermark
  rw [hwatermark]
  exact hlag.2

theorem carried_of_caughtUp {store : Store} (h : store.Recorded)
    (hcaught : (store.watermark runId).recordedSequence ≤
      (store.watermark runId).processedSequence) :
    ∀ event ∈ store.ledger, event.runId = runId → store.Carried event := by
  rintro event hevent rfl
  exact (h.within event hevent).1.trans hcaught

/-- An object that a consumer is given was listed by no event when the run was found caught
up. -/
theorem not_listed_of_consumable (hchecked : checked.Recorded) (hread : read.Recorded)
    (hview : ∃ processedAt, read.Materialized processedAt) (hgrows : Grows checked read)
    {kind : AuthorityObjectKind} {objectId : Id} {required : ℤ} {binding : BindingRow}
    (h : assertConsumable checked read runId kind objectId required = .ok binding) :
    ∀ event ∈ checked.ledger, event.intent.lists kind objectId = false := by
  obtain ⟨hcaught, hmem, hkey, hrun, hvalid⟩ := assertConsumable_spec h
  obtain ⟨processedAt, hview⟩ := hview
  intro event hevent
  rw [Bool.eq_false_iff]
  intro hlists
  obtain ⟨first, hfirst⟩ := @exists_firstListing checked (kind, objectId) event hevent hlists
  obtain ⟨hfirstMem, hfirstLists, -⟩ := firstListing_spec hchecked hfirst
  have hfirst' : read.firstListing binding.key = some first := by
    rw [hkey]
    exact hgrows.firstListing hfirst
  have hfirstRun : first.runId = runId := by
    rw [← hrun]
    refine runId_of_lists hread hmem (hgrows.ledger.subset hfirstMem) ?_
    rw [hkey]
    exact hfirstLists
  have hcarried : read.Carried first :=
    hgrows.carried (carried_of_caughtUp hchecked hcaught first hfirstMem hfirstRun)
  have hstate := hvalid
  rw [hview.bindings binding hmem, state_of_view] at hstate
  exact hstate first hfirst' hcarried

end Consumers

/-! ## The law -/

/-- Invalidation is safe and leaves no trace of the order of its transactions. A consumer is
only given an object that no event recorded before lists; a run that is caught up has the tables
of an uninterrupted `catch_up`; a binding is withdrawn by the first event that lists its object;
and no watermark is taken back. -/
structure ResumableInvalidation (P : Platform) (ops : List EngineOp) : Prop where
  consumable : ∀ early late after, ops = early ++ late ++ after →
    ∀ runId kind objectId required binding,
      assertConsumable (engineReached P early) (engineReached P (early ++ late)) runId kind
        objectId required = .ok binding →
      (∀ event ∈ (engineReached P early).ledger, event.intent.lists kind objectId = false) ∧
        ∀ event ∈ (engineReached P early).ledger, event.runId = runId →
          (engineReached P early).Carried event
  uninterrupted : ∀ runId, ((engineReached P ops).watermark runId).caughtUp = true →
    ∃ times done, catchUpTurns runId times ((engineReached P ops).rewound runId) = .ok done ∧
      (∀ event ∈ (engineReached P ops).ledger, event.runId = runId → done.Carried event) ∧
      done.bindings = (engineReached P ops).bindings ∧
      ∀ row, row ∈ done.materializations ↔ row ∈ (engineReached P ops).materializations
  first : ∀ binding ∈ (engineReached P ops).bindings, ∀ id, binding.invalidatedByEventId = some id →
    ∃ event ∈ (engineReached P ops).ledger, event.kernelEventId = id ∧
      event.intent.lists binding.objectKind binding.objectId = true ∧
      ∀ other ∈ (engineReached P ops).ledger,
        other.intent.lists binding.objectKind binding.objectId = true →
          event.sequence ≤ other.sequence
  withdrawn : ∀ binding ∈ (engineReached P ops).bindings,
    ((engineReached P ops).watermark binding.runId).caughtUp = true →
    (∃ event ∈ (engineReached P ops).ledger,
      event.intent.lists binding.objectKind binding.objectId = true) →
    binding.invalidatedByEventId ≠ none
  untouched : ∀ binding ∈ (engineReached P ops).bindings,
    (∀ event ∈ (engineReached P ops).ledger,
      event.intent.lists binding.objectKind binding.objectId = false) →
    binding = binding.registered
  bounded : ∀ runId, ((engineReached P ops).watermark runId).processedSequence ≤
    ((engineReached P ops).watermark runId).recordedSequence
  monotone : ∀ early late after, ops = early ++ late ++ after → ∀ runId,
    ((engineReached P early).watermark runId).recordedSequence ≤
        ((engineReached P (early ++ late)).watermark runId).recordedSequence ∧
      ((engineReached P early).watermark runId).processedSequence ≤
        ((engineReached P (early ++ late)).watermark runId).processedSequence

theorem recorded_le_of_caughtUp {row : WatermarkRow} (h : row.caughtUp = true) :
    row.recordedSequence ≤ row.processedSequence := by
  unfold WatermarkRow.caughtUp at h
  rw [Bool.and_eq_true, beq_iff_eq] at h
  exact h.1.ge

variable {processedAt : Id → Stamp}

/-- A run that is caught up has the tables of an uninterrupted `catch_up`. -/
theorem uninterrupted_of_caughtUp {store : Store} (h : store.Recorded)
    (hview : store.Materialized processedAt) {runId : Id}
    (hcaught : (store.watermark runId).caughtUp = true) :
    ∃ times done, catchUpTurns runId times (store.rewound runId) = .ok done ∧
      (∀ event ∈ store.ledger, event.runId = runId → done.Carried event) ∧
      done.bindings = store.bindings ∧
      ∀ row, row ∈ done.materializations ↔ row ∈ store.materializations := by
  obtain ⟨times, done, hdone, -, hdoneView, hledger, hregistered, hcarried⟩ :=
    exists_catchUpTurns (hview.rewound h runId) (h.rewound runId) runId
  have hall := carried_of_caughtUp h (recorded_le_of_caughtUp hcaught)
  have hsame : ∀ event ∈ store.ledger, done.Carried event ↔ store.Carried event := by
    intro event hevent
    rw [hcarried event hevent, carried_rewound h hevent]
    constructor
    · rintro (hrun | hboth)
      · exact hall event hevent hrun
      · exact hboth.2
    · intro hprocessed
      by_cases hrun : event.runId = runId
      · exact Or.inl hrun
      · exact Or.inr ⟨hrun, hprocessed⟩
  have hregistered' : done.bindings.map BindingRow.registered =
      store.bindings.map BindingRow.registered :=
    hregistered.trans (map_updateWhere (by exact fun _ => rfl) store.bindings)
  refine ⟨times, done, hdone, ?_, ?_, ?_⟩
  · intro event hevent hrun
    exact (hcarried event hevent).mpr (Or.inl hrun)
  · exact hview.bindings_eq hdoneView hledger hsame hregistered'
  · exact hview.rows_iff hdoneView hledger hsame

/-- What the view says about a binding that is withdrawn. -/
theorem first_of_view {store : Store} (hview : store.Materialized processedAt)
    {binding : BindingRow} (hmem : binding ∈ store.bindings) {id : Id}
    (hid : binding.invalidatedByEventId = some id) :
    ∃ event, store.firstListing binding.key = some event ∧ store.Carried event ∧
      event.kernelEventId = id := by
  rw [hview.bindings binding hmem] at hid
  unfold view at hid
  split at hid
  · cases hid
  · next event hevent =>
    rw [Option.filter_eq_some_iff] at hevent
    exact ⟨event, hevent.1, by simpa using hevent.2, Option.some.inj hid⟩

/-- Invalidation is safe and leaves no trace of the order of its transactions, in every run. -/
theorem resumable_invalidation (P : Platform) (ops : List EngineOp) :
    ResumableInvalidation P ops := by
  have hrecorded := @recorded_engineReached P ops
  obtain ⟨processedAt, hview⟩ := @materialized_engineReached P ops
  constructor
  · rintro early late after rfl runId kind objectId required binding hok
    refine ⟨?_, ?_⟩
    · exact not_listed_of_consumable (recorded_engineReached _) (recorded_engineReached _)
        (materialized_engineReached _) (grows_engineReached early late) hok
    · exact carried_of_caughtUp (recorded_engineReached _) (assertConsumable_spec hok).1
  · intro runId hcaught
    exact uninterrupted_of_caughtUp hrecorded hview hcaught
  · intro binding hbinding id hid
    obtain ⟨event, hevent, -, hid'⟩ := first_of_view hview hbinding hid
    obtain ⟨hmem, hlists, hleast⟩ := firstListing_spec hrecorded hevent
    exact ⟨event, hmem, hid', hlists, hleast⟩
  · rintro binding hbinding hcaught ⟨event, hevent, hlists⟩ hnone
    obtain ⟨first, hfirst⟩ := @exists_firstListing _ binding.key event hevent hlists
    obtain ⟨hmem, hfirstLists, -⟩ := firstListing_spec hrecorded hfirst
    have hrun := runId_of_lists hrecorded hbinding hmem hfirstLists
    have hcarried := carried_of_caughtUp hrecorded (recorded_le_of_caughtUp hcaught) first hmem hrun
    rw [hview.bindings binding hbinding] at hnone
    unfold view at hnone
    rw [hfirst] at hnone
    simp [Option.filter, hcarried, Store.withdrawn] at hnone
  · intro binding hbinding hunlisted
    have hnone : (engineReached P ops).firstListing binding.key = none := by
      unfold firstListing
      rw [List.find?_eq_none]
      intro event hevent hlists
      have hlists' : event.intent.lists binding.objectKind binding.objectId = true := hlists
      rw [hunlisted event hevent] at hlists'
      cases hlists'
    have hsame := hview.bindings binding hbinding
    unfold view at hsame
    rw [hnone] at hsame
    exact hsame
  · exact hrecorded.processed
  · rintro early late after rfl runId
    have hgrows := @grows_engineReached P early late
    exact ⟨hgrows.recorded runId, hgrows.processed runId⟩

end ResearchKernel.Product
