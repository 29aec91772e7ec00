import ResearchKernel.Product.Accepting

/-!
# What the invalidations have withdrawn

The tables of the engine are a function of the ledger, of what was registered and of how far
each run was processed: a binding is withdrawn by the first event that lists its object, and
every processed event has one row for each of its objects. The order in which events were
recorded, registered and processed, and the processes that died in between, leave no trace.
-/

namespace ResearchKernel.Product

open Foundation

namespace Store

/-! ## The view of a ledger -/

def Carried (store : Store) (event : LedgerRow) : Prop :=
  event.sequence ≤ (store.watermark event.runId).processedSequence

instance (store : Store) (event : LedgerRow) : Decidable (store.Carried event) :=
  inferInstanceAs (Decidable (_ ≤ _))

/-- The first event of the ledger that lists an object. -/
def firstListing (store : Store) (key : AuthorityObjectKind × Id) : Option LedgerRow :=
  store.ledger.find? (·.intent.lists key.1 key.2)

/-- A binding as the ledger has it: withdrawn by the first event that lists its object, if that
event was processed. The argument tells when each event was processed. -/
def view (store : Store) (processedAt : Id → Stamp) (row : BindingRow) : BindingRow :=
  match (store.firstListing row.key).filter (store.Carried ·) with
  | none => row.registered
  | some event => withdrawn event (processedAt event.kernelEventId) row

def note (store : Store) (processedAt : Id → Stamp) (event : LedgerRow)
    (object : InvalidatedObject) : Materialization where
  kernelEventId := event.kernelEventId
  objectKind := object.objectKind
  objectId := object.objectId
  previousState :=
    if (store.firstListing object.key).map (·.kernelEventId) = some event.kernelEventId then .valid
    else .invalidated
  materializedAt := processedAt event.kernelEventId

/-- The tables of the engine are the view of its ledger. -/
structure Materialized (processedAt : Id → Stamp) (store : Store) : Prop where
  bindings : ∀ row ∈ store.bindings, row = store.view processedAt row
  rows : ∀ row, row ∈ store.materializations ↔ ∃ event ∈ store.ledger, store.Carried event ∧
    ∃ object ∈ event.intent.affectedObjects, row = store.note processedAt event object

/-- The tables before anything is written. -/
theorem materialized_empty (processedAt : Id → Stamp) : Materialized processedAt {} where
  bindings row hrow := by cases hrow
  rows row := by
    constructor
    · intro hrow
      cases hrow
    · rintro ⟨event, hevent, -⟩
      cases hevent

variable {store store' : Store} {processedAt : Id → Stamp}

/-! ## Listings -/

theorem lists_iff {intent : InvalidationIntent} {key : AuthorityObjectKind × Id} :
    intent.lists key.1 key.2 = true ↔ ∃ object ∈ intent.affectedObjects, object.key = key := by
  rw [InvalidationIntent.lists_iff]
  constructor
  · rintro ⟨object, hobject, hkind, hid⟩
    exact ⟨object, hobject, Prod.ext hkind hid⟩
  · rintro ⟨object, hobject, rfl⟩
    exact ⟨object, hobject, rfl, rfl⟩

variable {event : LedgerRow}

/-- The first event that lists an object comes before all others that do. -/
theorem firstListing_spec (h : store.Recorded) {key : AuthorityObjectKind × Id}
    (hfirst : store.firstListing key = some event) :
    event ∈ store.ledger ∧ event.intent.lists key.1 key.2 = true ∧
      ∀ other ∈ store.ledger, other.intent.lists key.1 key.2 = true →
        event.sequence ≤ other.sequence := by
  have hfirstLists := List.find?_some hfirst
  refine ⟨List.mem_of_find?_eq_some hfirst, hfirstLists, ?_⟩
  intro other hother hlists
  obtain ⟨before, after, hsplit, hbefore⟩ := (List.find?_eq_some_iff_append.mp hfirst).2
  have hordered := h.ordered
  rw [hsplit] at hother hordered
  rcases List.mem_append.mp hother with hearly | hlate
  · have hmiss := hbefore other hearly
    rw [hlists] at hmiss
    cases hmiss
  · rcases List.mem_cons.mp hlate with rfl | hlate
    · exact le_rfl
    · rw [List.pairwise_append, List.pairwise_cons] at hordered
      exact Nat.le_of_lt (hordered.2.1.1 other hlate)

theorem exists_firstListing {key : AuthorityObjectKind × Id} {event : LedgerRow}
    (hevent : event ∈ store.ledger) (hlists : event.intent.lists key.1 key.2 = true) :
    ∃ first, store.firstListing key = some first := by
  refine Option.isSome_iff_exists.mp ?_
  exact List.find?_isSome.mpr ⟨event, hevent, hlists⟩

theorem runId_of_lists (h : store.Recorded) {row : BindingRow} (hrow : row ∈ store.bindings)
    (hevent : event ∈ store.ledger) (hlists : event.intent.lists row.key.1 row.key.2 = true) :
    event.runId = row.runId := by
  obtain ⟨object, hobject, hkey⟩ := lists_iff.mp hlists
  obtain ⟨binding, hbinding, hkey', hrun⟩ := h.bound event hevent object hobject
  have heq : binding = row :=
    List.inj_on_of_nodup_map h.keys hbinding hrow (hkey'.trans hkey)
  rw [← hrun, heq]

/-- Events with the same number are the same. -/
theorem eq_of_sequence (h : store.Recorded) {a b : LedgerRow} (ha : a ∈ store.ledger)
    (hb : b ∈ store.ledger) (heq : a.sequence = b.sequence) : a = b := by
  have hnodup : (store.ledger.map (·.sequence)).Nodup :=
    List.pairwise_map.mpr (h.ordered.imp fun hlt => Nat.ne_of_lt hlt)
  exact List.inj_on_of_nodup_map hnodup ha hb heq

/-- Events with the same identifier are the same. -/
theorem eq_of_kernelEventId (h : store.Recorded) {a b : LedgerRow} (ha : a ∈ store.ledger)
    (hb : b ∈ store.ledger) (heq : a.kernelEventId = b.kernelEventId) : a = b :=
  List.inj_on_of_nodup_map h.events ha hb heq

/-- The view of a binding whose object was withdrawn, and of one whose object was not. -/
theorem state_of_view (row : BindingRow) : (store.view processedAt row).state = .valid ↔
    ∀ event, store.firstListing row.key = some event → ¬ store.Carried event := by
  unfold view
  cases hfirst : store.firstListing row.key with
  | none =>
    simp [BindingRow.registered]
  | some event =>
    by_cases hcarried : store.Carried event
    · simp [Option.filter, hcarried, withdrawn]
    · simp [Option.filter, hcarried, BindingRow.registered]

variable {processedAt' : Id → Stamp}

/-- Two stores with the same first events and the same processed ones have the same view. -/
theorem view_congr {row : BindingRow} (h : (store'.firstListing row.key).filter (store'.Carried ·) =
      (store.firstListing row.key).filter (store.Carried ·))
    (hstamps : ∀ event, (store.firstListing row.key).filter (store.Carried ·) = some event →
      processedAt' event.kernelEventId = processedAt event.kernelEventId) :
    store'.view processedAt' row = store.view processedAt row := by
  unfold view
  rw [h]
  cases hfirst : (store.firstListing row.key).filter (store.Carried ·) with
  | none => rfl
  | some event =>
    dsimp only
    rw [hstamps event hfirst]

/-! ## Preservation -/

variable {now : Stamp}

/-- A registration leaves the view of the old bindings, and the object that it binds is listed
by no event. -/
theorem Materialized.registerBinding (h : store.Materialized processedAt)
    (hrecorded : store.Recorded) {b : BindingArguments}
    (hok : store.registerBinding b now = .ok store') : store'.Materialized processedAt := by
  rcases registerBinding_spec hok with ⟨rfl, -⟩ | ⟨-, hfresh, hstore⟩
  · exact h
  have hwatermark := watermark_registered
    (show store'.watermarks = store.registeredWatermarks b now by rw [hstore])
  have hledger : store'.ledger = store.ledger := by rw [hstore]
  have hbindings : store'.bindings = store.bindings ++ [b.row] := by rw [hstore]
  have hmaterializations : store'.materializations = store.materializations := by rw [hstore]
  have hcarried : ∀ event, store'.Carried event ↔ store.Carried event := by
    intro event
    unfold Carried
    rw [hwatermark]
    split <;> exact Iff.rfl
  have hfirst : ∀ key, store'.firstListing key = store.firstListing key := by
    intro key
    unfold firstListing
    rw [hledger]
  constructor
  · intro row hrow
    have hview : store'.view processedAt row = store.view processedAt row := by
      refine view_congr ?_ fun _ _ => rfl
      simp only [hfirst, hcarried]
    rw [hview]
    rw [hbindings] at hrow
    rcases List.mem_append.mp hrow with hold | hnew
    · exact h.bindings row hold
    · rw [List.mem_singleton.mp hnew]
      have hnone : store.firstListing b.row.key = none := by
        unfold firstListing
        rw [List.find?_eq_none]
        intro event hevent hlists
        obtain ⟨object, hobject, hkey⟩ := lists_iff.mp hlists
        obtain ⟨binding, hbinding, hkey', -⟩ := hrecorded.bound event hevent object hobject
        obtain ⟨hkind, hid⟩ := Prod.mk.inj (hkey'.trans hkey)
        have hclash := hfresh binding hbinding
        simp [BindingRow.clash, hkind, hid] at hclash
      unfold view
      rw [hnone]
      rfl
  · intro row
    rw [hmaterializations, h.rows row, hledger]
    simp only [hcarried, note, hfirst]

/-- A new event is not processed, and it is the first one only for objects that no other event
lists. -/
theorem Materialized.record (h : store.Materialized processedAt) (hrecorded : store.Recorded)
    {P : Platform} {invalidation : AuthorityInvalidation}
    (hok : store.record P invalidation now = .ok store') : store'.Materialized processedAt := by
  obtain ⟨intent, -, ⟨rfl, -⟩ | ⟨-, -, -, hstore⟩⟩ := record_spec hok
  · exact h
  have hwatermark := watermark_recorded
    (show store'.watermarks = store.recordedWatermarks invalidation now by rw [hstore])
  have hledger : store'.ledger = store.ledger ++ [store.eventRow P invalidation intent] := by
    rw [hstore]
  have hbindings : store'.bindings = store.bindings := by rw [hstore]
  have hmaterializations : store'.materializations = store.materializations := by rw [hstore]
  have hcarried : ∀ event, store'.Carried event ↔ store.Carried event := by
    intro event
    unfold Carried
    rw [hwatermark]
    split <;> exact Iff.rfl
  have hnew : ¬ store.Carried (store.eventRow P invalidation intent) := by
    have hprocessed := hrecorded.processed invalidation.runId
    have hnumbered := hrecorded.numbered invalidation.runId
    show ¬ store.nextSequence ≤ (store.watermark invalidation.runId).processedSequence
    omega
  have hfirst : ∀ key, (store'.firstListing key).filter (store'.Carried ·) =
      (store.firstListing key).filter (store.Carried ·) := by
    intro key
    unfold firstListing
    simp only [hcarried]
    rw [hledger, List.find?_append]
    cases hold : store.ledger.find? (·.intent.lists key.1 key.2) with
    | some event => rfl
    | none =>
      rw [Option.none_or, List.find?_singleton]
      split
      · simp [Option.filter, hnew]
      · rfl
  have hknown : ∀ event ∈ store.ledger, ∀ object ∈ event.intent.affectedObjects,
      store'.firstListing object.key = store.firstListing object.key := by
    intro event hevent object hobject
    obtain ⟨first, hfirst⟩ := exists_firstListing hevent (lists_iff.mpr ⟨object, hobject, rfl⟩)
    unfold firstListing at hfirst ⊢
    rw [hledger, List.find?_append, hfirst]
    rfl
  constructor
  · intro row hrow
    rw [hbindings] at hrow
    rw [view_congr (hfirst row.key) fun _ _ => rfl]
    exact h.bindings row hrow
  · intro row
    rw [hmaterializations, h.rows row, hledger]
    constructor
    · rintro ⟨event, hevent, hdone, object, hobject, rfl⟩
      refine ⟨event, List.mem_append_left _ hevent, (hcarried event).mpr hdone, object, hobject, ?_⟩
      unfold note
      rw [hknown event hevent object hobject]
    · rintro ⟨event, hevent, hdone, object, hobject, rfl⟩
      rw [hcarried event] at hdone
      rcases List.mem_append.mp hevent with hold | hlast
      · refine ⟨event, hold, hdone, object, hobject, ?_⟩
        unfold note
        rw [hknown event hold object hobject]
      · rw [List.mem_singleton.mp hlast] at hdone
        exact absurd hdone hnew

/-- The tables are the same view when the times agree for the processed events. -/
theorem Materialized.congr (h : store.Materialized processedAt)
    (hstamps : ∀ event ∈ store.ledger, store.Carried event →
      processedAt' event.kernelEventId = processedAt event.kernelEventId) :
    store.Materialized processedAt' where
  bindings := by
    intro row hrow
    have hview : store.view processedAt' row = store.view processedAt row := by
      refine view_congr rfl ?_
      intro event hevent
      rw [Option.filter_eq_some_iff] at hevent
      exact hstamps event (List.mem_of_find?_eq_some hevent.1) (by simpa using hevent.2)
    rw [hview]
    exact h.bindings row hrow
  rows := by
    intro row
    rw [h.rows row]
    refine exists_congr fun event => and_congr_right fun hevent => and_congr_right fun hcarried => ?_
    unfold note
    rw [hstamps event hevent hcarried]

/-- The event that is processed next, with the tables after it. -/
structure Processes (store store' : Store) (event : LedgerRow) (now : Stamp) : Prop where
  mem : event ∈ store.ledger
  pending : ¬ store.Carried event
  next : ∀ other ∈ store.ledger, other.runId = event.runId → ¬ store.Carried other →
    event.sequence ≤ other.sequence
  ledger : store'.ledger = store.ledger
  bindings : store'.bindings = updateWhere (fun row => row.state == .valid &&
    event.intent.affectedObjects.any fun object => object.key == row.key)
      (withdrawn event now) store.bindings
  materializations : store'.materializations = store.materializations ++
    event.intent.affectedObjects.map (fun object =>
      ⟨event.kernelEventId, object.objectKind, object.objectId, store.stateOf object, now⟩)
  carried : ∀ other ∈ store.ledger, store'.Carried other ↔ store.Carried other ∨ other = event

theorem Materialized.stateOf_eq (h : store.Materialized processedAt) (hrecorded : store.Recorded)
    (hevent : event ∈ store.ledger) {object : InvalidatedObject}
    (hobject : object ∈ event.intent.affectedObjects) : store.stateOf object = .valid ↔
      ∀ first, store.firstListing object.key = some first → ¬ store.Carried first := by
  obtain ⟨binding, hbinding, hkey, -⟩ := hrecorded.bound event hevent object hobject
  have hget : store.getBinding? object.objectKind object.objectId = some binding :=
    (find?_of_key hrecorded.keys hbinding hkey).1
  unfold stateOf
  rw [hget, Option.map_some, Option.getD_some, ← hkey]
  have hview := congrArg BindingRow.state (h.bindings binding hbinding)
  rw [hview]
  exact state_of_view binding

theorem Processes.first {event : LedgerRow} {now : Stamp} (h : Processes store store' event now)
    (hrecorded : store.Recorded) {key : AuthorityObjectKind × Id} {first : LedgerRow}
    (hlists : event.intent.lists key.1 key.2 = true)
    (hfirst : store.firstListing key = some first) : first = event ∨ store.Carried first := by
  obtain ⟨hmem, hfirstLists, hleast⟩ := firstListing_spec hrecorded hfirst
  by_cases hcarried : store.Carried first
  · exact Or.inr hcarried
  · left
    obtain ⟨object, hobject, hkey⟩ := lists_iff.mp hlists
    obtain ⟨binding, hbinding, hkey', hrun⟩ := hrecorded.bound event h.mem object hobject
    have hbindingKey : binding.key = key := hkey'.trans hkey
    have hfirstRun : first.runId = binding.runId :=
      runId_of_lists hrecorded hbinding hmem (by rwa [hbindingKey])
    have hle := h.next first hmem (hfirstRun.trans hrun) hcarried
    exact eq_of_sequence hrecorded hmem h.mem (le_antisymm (hleast event h.mem hlists) hle)

/-- The processing of an event keeps the view: its objects that no earlier event lists are
withdrawn by it. -/
theorem Materialized.processes (h : store.Materialized processedAt) (hrecorded : store.Recorded)
    (hprocesses : Processes store store' event now) (hnow : processedAt event.kernelEventId = now) :
    store'.Materialized processedAt := by
  have hfirst : ∀ key, store'.firstListing key = store.firstListing key := by
    intro key
    unfold firstListing
    rw [hprocesses.ledger]
  have hcarriedEvent : store'.Carried event :=
    (hprocesses.carried event hprocesses.mem).mpr (Or.inr rfl)
  constructor
  · intro row' hrow'
    rw [hprocesses.bindings] at hrow'
    obtain ⟨row, hrow, rfl⟩ := mem_updateWhere.mp hrow'
    have hview := h.bindings row hrow
    by_cases hlisted : event.intent.lists row.key.1 row.key.2 = true
    · obtain ⟨first, hfirstRow⟩ := exists_firstListing hprocesses.mem hlisted
      have hany : (event.intent.affectedObjects.any fun object => object.key == row.key) = true := by
        obtain ⟨object, hobject, hkey⟩ := lists_iff.mp hlisted
        exact List.any_eq_true.mpr ⟨object, hobject, by simp [hkey]⟩
      rcases hprocesses.first hrecorded hlisted hfirstRow with rfl | hcarried
      · -- the event is the first one: the binding is valid, and is withdrawn by it
        have hvalid : row.state = .valid := by
          rw [hview, state_of_view]
          intro other hother
          rw [hfirstRow] at hother
          cases hother
          exact hprocesses.pending
        have htest : (row.state == .valid &&
            first.intent.affectedObjects.any fun object => object.key == row.key) = true := by
          rw [hvalid, hany]
          rfl
        rw [if_pos htest]
        unfold view
        have hkey : (withdrawn first now row).key = row.key := rfl
        rw [hkey, hfirst, hfirstRow]
        simp only [Option.filter, decide_eq_true hcarriedEvent, if_true, hnow]
        rfl
      · -- an earlier event has withdrawn the binding
        have hinvalid : row.state ≠ .valid := by
          rw [hview, Ne, state_of_view]
          intro hnone
          exact hnone first hfirstRow hcarried
        have htest : ¬ (row.state == .valid &&
            event.intent.affectedObjects.any fun object => object.key == row.key) = true := by
          simp [hinvalid]
        rw [if_neg htest]
        have hcarried' : store'.Carried first :=
          (hprocesses.carried first (List.mem_of_find?_eq_some hfirstRow)).mpr (Or.inl hcarried)
        have hsame : store'.view processedAt row = store.view processedAt row := by
          refine view_congr ?_ fun _ _ => rfl
          rw [hfirst, hfirstRow]
          simp [Option.filter, hcarried, hcarried']
        rw [hsame]
        exact hview
    · have hany : (event.intent.affectedObjects.any fun object => object.key == row.key) = false := by
        rw [Bool.eq_false_iff]
        intro hany
        obtain ⟨object, hobject, hkey⟩ := List.any_eq_true.mp hany
        exact hlisted (lists_iff.mpr ⟨object, hobject, beq_iff_eq.mp hkey⟩)
      have htest : ¬ (row.state == .valid &&
          event.intent.affectedObjects.any fun object => object.key == row.key) = true := by
        simp [hany]
      rw [if_neg htest]
      have hsame : store'.view processedAt row = store.view processedAt row := by
        refine view_congr ?_ fun _ _ => rfl
        rw [hfirst]
        cases hfirstRow : store.firstListing row.key with
        | none => rfl
        | some first =>
          have hmem := List.mem_of_find?_eq_some hfirstRow
          have hne : first ≠ event := by
            rintro rfl
            exact hlisted (firstListing_spec hrecorded hfirstRow).2.1
          have hiff : store'.Carried first ↔ store.Carried first := by
            rw [hprocesses.carried first hmem]
            exact or_iff_left hne
          simp only [Option.filter, hiff]
      rw [hsame]
      exact hview
  · intro row
    rw [hprocesses.materializations, List.mem_append, h.rows row, hprocesses.ledger]
    have hnote : ∀ other object, store'.note processedAt other object =
        store.note processedAt other object := by
      intro other object
      unfold note
      rw [hfirst]
    have hlast : ∀ object ∈ event.intent.affectedObjects,
        store.note processedAt event object =
          ⟨event.kernelEventId, object.objectKind, object.objectId, store.stateOf object, now⟩ := by
      intro object hobject
      have hlists : event.intent.lists object.key.1 object.key.2 = true :=
        lists_iff.mpr ⟨object, hobject, rfl⟩
      obtain ⟨first, hfirstRow⟩ := exists_firstListing hprocesses.mem hlists
      have hstate := h.stateOf_eq hrecorded hprocesses.mem hobject
      unfold note
      rw [hfirstRow, hnow, Option.map_some]
      by_cases hsame : first = event
      · subst hsame
        have hvalid : store.stateOf object = .valid := by
          rw [hstate]
          intro other hother
          rw [hfirstRow] at hother
          cases hother
          exact hprocesses.pending
        rw [if_pos rfl, hvalid]
      · have hcarried : store.Carried first :=
          (hprocesses.first hrecorded hlists hfirstRow).resolve_left hsame
        have hinvalid : store.stateOf object = .invalidated := by
          cases hcase : store.stateOf object with
          | invalidated => rfl
          | valid => exact absurd hcarried (hstate.mp hcase first hfirstRow)
        have hids : ¬ some first.kernelEventId = some event.kernelEventId := by
          intro heq
          exact hsame (eq_of_kernelEventId hrecorded (List.mem_of_find?_eq_some hfirstRow)
            hprocesses.mem (Option.some.inj heq))
        rw [if_neg hids, hinvalid]
    constructor
    · rintro (⟨other, hother, hcarried, object, hobject, rfl⟩ | hnew)
      · exact ⟨other, hother, (hprocesses.carried other hother).mpr (Or.inl hcarried), object,
          hobject, (hnote other object).symm⟩
      · obtain ⟨object, hobject, rfl⟩ := List.mem_map.mp hnew
        refine ⟨event, hprocesses.mem, hcarriedEvent, object, hobject, ?_⟩
        rw [hnote, hlast object hobject]
    · rintro ⟨other, hother, hcarried, object, hobject, rfl⟩
      rw [hnote]
      rcases (hprocesses.carried other hother).mp hcarried with hold | rfl
      · exact Or.inl ⟨other, hother, hold, object, hobject, rfl⟩
      · right
        rw [hlast object hobject]
        exact List.mem_map.mpr ⟨object, hobject, rfl⟩

/-! ## Turns of `catch_up` -/

/-- The objects of an event that was not processed can be withdrawn. -/
theorem Materialized.withdrawable (h : store.Materialized processedAt) (hrecorded : store.Recorded)
    (hevent : event ∈ store.ledger) (hpending : ¬ store.Carried event) :
    store.Withdrawable event event.intent.affectedObjects where
  keys := hrecorded.keys
  bound := hrecorded.bound event hevent
  distinct := by
    have hdistinct := hrecorded.distinct event hevent
    simp only [InvalidationIntent.distinct, Bool.and_eq_true, decide_eq_true_eq] at hdistinct
    exact hdistinct.1.1.1.1
  unknown := by
    intro object hobject row hrow hid
    obtain ⟨other, hother, hcarried, noted, _, hnote⟩ := (h.rows row).mp hrow
    have hother' : other.kernelEventId = event.kernelEventId := by
      rw [hnote] at hid
      exact hid
    rw [eq_of_kernelEventId hrecorded hother hevent hother'] at hcarried
    exact absurd hcarried hpending

variable {runId : Id}

/-- A turn of `catchUp` finds nothing to do, or processes the next event of the run. -/
theorem catchUp_processes (h : store.Materialized processedAt) (hrecorded : store.Recorded)
    {later : Stamp} (hok : store.catchUp runId now later = .ok store') :
    (store' = store ∧ ∀ event ∈ store.ledger, event.runId = runId → store.Carried event) ∨
      ∃ event, event.runId = runId ∧ Processes store store' event now ∧
        ∀ other, store'.watermark other = if other = runId then
          { store.watermark other with
            processedSequence := event.sequence
            processedRevision := event.researchRevision
            updatedAt := later }
          else store.watermark other := by
  rcases catchUp_watermark hrecorded hok with
    ⟨hsame, hall⟩ | ⟨event, done, hevent, hrun, hlt, hnext, hdone, hstore, hwatermark⟩
  · left
    refine ⟨hsame, ?_⟩
    intro event hevent hrun
    unfold Carried
    rw [hrun]
    exact hall event hevent hrun
  · right
    have hpending : ¬ store.Carried event := by
      unfold Carried
      rw [hrun]
      omega
    obtain ⟨done', hdone', hledger, -, hmaterializations, hbindings⟩ :=
      materialize_spec now (h.withdrawable hrecorded hevent hpending)
    rw [hdone] at hdone'
    cases hdone'
    refine ⟨event, hrun, ⟨hevent, hpending, ?_, by rw [hstore, hledger], by rw [hstore, hbindings],
      by rw [hstore, hmaterializations], ?_⟩, hwatermark⟩
    · intro other hother hotherRun hotherPending
      have hrun' : other.runId = runId := hotherRun.trans hrun
      refine hnext other hother hrun' ?_
      unfold Carried at hotherPending
      rw [hrun'] at hotherPending
      omega
    · intro other hother
      unfold Carried
      rw [hwatermark]
      by_cases hotherRun : other.runId = runId
      · rw [if_pos hotherRun, hotherRun]
        show other.sequence ≤ event.sequence ↔ _
        constructor
        · intro hle
          by_cases hcarried : other.sequence ≤ (store.watermark runId).processedSequence
          · exact Or.inl hcarried
          · right
            exact eq_of_sequence hrecorded hother hevent
              (le_antisymm hle (hnext other hother hotherRun (by omega)))
        · rintro (hcarried | rfl)
          · omega
          · exact le_rfl
      · rw [if_neg hotherRun]
        refine ⟨Or.inl, ?_⟩
        rintro (hcarried | rfl)
        · exact hcarried
        · exact absurd hrun hotherRun

/-- A turn of `catchUp` keeps the tables a view of the ledger, with the time at which it
processed an event. -/
theorem Materialized.catchUp (h : store.Materialized processedAt) (hrecorded : store.Recorded)
    {later : Stamp} (hok : store.catchUp runId now later = .ok store') :
    ∃ processedAt', store'.Materialized processedAt' := by
  rcases catchUp_processes h hrecorded hok with ⟨rfl, -⟩ | ⟨event, -, hprocesses, -⟩
  · exact ⟨processedAt, h⟩
  · refine ⟨Function.update processedAt event.kernelEventId now, ?_⟩
    refine (h.congr ?_).processes hrecorded hprocesses (Function.update_self ..)
    intro other hother hcarried
    refine Function.update_of_ne ?_ ..
    intro heq
    rw [eq_of_kernelEventId hrecorded hother hprocesses.mem heq] at hcarried
    exact hprocesses.pending hcarried

/-- A turn of `catchUp` is carried out wherever a run has an event that was not processed. -/
theorem exists_catchUp (h : store.Materialized processedAt) (hrecorded : store.Recorded)
    (hevent : event ∈ store.ledger) (hpending : ¬ store.Carried event) (now later : Stamp) :
    ∃ store', store.catchUp event.runId now later = .ok store' := by
  have hwatermark := hrecorded.watermark?_eq hevent
  have hrun : (store.watermark event.runId).runId = event.runId := runId_of_watermark? hwatermark
  have hnext := @nextEvent_eq store (store.watermark event.runId) hrecorded.ordered
  have hsome : (store.nextEvent (store.watermark event.runId)).isSome = true := by
    rw [hnext, hrun]
    refine List.find?_isSome.mpr ⟨event, hevent, ?_⟩
    unfold Carried at hpending
    simp only [beq_self_eq_true, Bool.true_and, decide_eq_true_eq]
    omega
  obtain ⟨first, hfirst⟩ := Option.isSome_iff_exists.mp hsome
  have hfirst' := hfirst
  rw [hnext, hrun] at hfirst'
  have hmem := List.mem_of_find?_eq_some hfirst'
  have htest := List.find?_some hfirst'
  simp only [Bool.and_eq_true, beq_iff_eq, decide_eq_true_eq] at htest
  have hfirstPending : ¬ store.Carried first := by
    unfold Carried
    rw [htest.1]
    omega
  obtain ⟨done, hdone, -⟩ :=
    materialize_spec now (h.withdrawable hrecorded hmem hfirstPending)
  obtain ⟨hsequence, hrevision⟩ := hrecorded.within first hmem
  rw [htest.1] at hsequence hrevision
  unfold Store.catchUp
  unfold watermark? at hwatermark
  rw [orReject_bind_of_some hwatermark]
  simp only [hfirst]
  refine ⟨_, bind_eq_ok.mpr ⟨done, hdone, bind_eq_ok.mpr ⟨(), ?_, rfl⟩⟩⟩
  rw [rejectIf_eq_ok, Bool.or_eq_false_iff, decide_eq_false_iff_not, decide_eq_false_iff_not]
  exact ⟨not_lt.mpr hsequence, not_lt.mpr hrevision⟩

/-- `catch_up` in one process, with the times that its turns read. -/
def catchUpTurns (runId : Id) : List (Stamp × Stamp) → Store → Except JobError Store
  | [], store => .ok store
  | (now, later) :: times, store => do
    let store ← store.catchUp runId now later
    catchUpTurns runId times store

/-- An uninterrupted `catch_up` processes all events of its run, with times that may be given
for each event. -/
theorem exists_catchUpTurns (h : store.Materialized processedAt) (hrecorded : store.Recorded)
    (runId : Id) : ∃ times done, catchUpTurns runId times store = .ok done ∧ done.Recorded ∧
      done.Materialized processedAt ∧ done.ledger = store.ledger ∧
      done.bindings.map BindingRow.registered = store.bindings.map BindingRow.registered ∧
      (∀ event ∈ store.ledger, done.Carried event ↔ event.runId = runId ∨ store.Carried event) := by
  -- the induction is on the number of events that are not processed
  generalize hcount : (store.ledger.countP fun event =>
    decide (event.runId = runId ∧ ¬ store.Carried event)) = count
  induction count using Nat.strong_induction_on generalizing store with
  | _ count ih =>
    by_cases hall : ∀ event ∈ store.ledger, event.runId = runId → store.Carried event
    · refine ⟨[], store, rfl, hrecorded, h, rfl, rfl, ?_⟩
      intro event hevent
      exact ⟨Or.inr, fun hor => hor.elim (hall event hevent) id⟩
    · push Not at hall
      obtain ⟨pending, hpendingMem, hpendingRun, hpending⟩ := hall
      -- the time is the one given for the event that the turn takes
      have hturn : ∃ event now store', store.catchUp runId now now = .ok store' ∧
          event.runId = runId ∧ Processes store store' event now ∧
          processedAt event.kernelEventId = now := by
        obtain ⟨first, hfirst⟩ := exists_catchUp h hrecorded hpendingMem hpending "" ""
        rw [hpendingRun] at hfirst
        rcases catchUp_processes h hrecorded hfirst with ⟨-, hnone⟩ | ⟨event, hrun, hprocesses, -⟩
        · exact absurd (hnone pending hpendingMem hpendingRun) hpending
        · obtain ⟨store', hok⟩ := exists_catchUp h hrecorded hprocesses.mem hprocesses.pending
            (processedAt event.kernelEventId) (processedAt event.kernelEventId)
          rw [hrun] at hok
          rcases catchUp_processes h hrecorded hok with
            ⟨-, hnone⟩ | ⟨event', hrun', hprocesses', -⟩
          · exact absurd (hnone event hprocesses.mem hrun) hprocesses.pending
          · have heq : event' = event := by
              refine eq_of_sequence hrecorded hprocesses'.mem hprocesses.mem (le_antisymm ?_ ?_)
              · exact hprocesses'.next event hprocesses.mem (hrun.trans hrun'.symm)
                  hprocesses.pending
              · exact hprocesses.next event' hprocesses'.mem (hrun'.trans hrun.symm)
                  hprocesses'.pending
            subst heq
            exact ⟨event', _, store', hok, hrun, hprocesses', rfl⟩
      obtain ⟨event, now, store', hok, hrun, hprocesses, hnow⟩ := hturn
      have hrecorded' := hrecorded.catchUp hok
      have hfewer : (store'.ledger.countP fun other =>
          decide (other.runId = runId ∧ ¬ store'.Carried other)) < count := by
        rw [← hcount, hprocesses.ledger]
        refine countP_lt_countP ?_ hprocesses.mem ?_ ?_
        · intro other hother hstill
          rw [decide_eq_true_eq] at hstill ⊢
          refine ⟨hstill.1, fun hcarried => hstill.2 ?_⟩
          exact (hprocesses.carried other hother).mpr (Or.inl hcarried)
        · rw [decide_eq_false_iff_not]
          rintro ⟨-, hstill⟩
          exact hstill ((hprocesses.carried event hprocesses.mem).mpr (Or.inr rfl))
        · rw [decide_eq_true_eq]
          exact ⟨hrun, hprocesses.pending⟩
      obtain ⟨times, done, hdone, hdoneRecorded, hview, hledger, hregistered, hcarried⟩ :=
        ih _ hfewer (h.processes hrecorded hprocesses hnow) hrecorded' rfl
      refine ⟨(now, now) :: times, done, bind_eq_ok.mpr ⟨store', hok, hdone⟩, hdoneRecorded, hview,
        hledger.trans hprocesses.ledger, hregistered.trans ?_, ?_⟩
      · rw [hprocesses.bindings]
        exact map_updateWhere (by exact fun _ => rfl) store.bindings
      · intro other hother
        rw [hcarried other (hprocesses.ledger.symm ▸ hother), hprocesses.carried other hother]
        constructor
        · rintro (hotherRun | hotherCarried | rfl)
          · exact Or.inl hotherRun
          · exact Or.inr hotherCarried
          · exact Or.inl hrun
        · rintro (hotherRun | hotherCarried)
          · exact Or.inl hotherRun
          · exact Or.inr (Or.inl hotherCarried)

/-! ## Before anything of a run was processed -/

/-- The tables with nothing of a run processed: its bindings as they were registered, no rows
of its events, and its watermark at the start. -/
def rewound (store : Store) (runId : Id) : Store :=
  { store with
    bindings := updateWhere (·.runId == runId) BindingRow.registered store.bindings
    materializations := store.materializations.filter fun row => !store.ledger.any fun event =>
      event.kernelEventId == row.kernelEventId && event.runId == runId
    watermarks := updateWhere (·.runId == runId)
      (fun row => { row with processedSequence := 0, processedRevision := 0 }) store.watermarks }

theorem watermark_rewound (runId other : Id) : (store.rewound runId).watermark other =
    if other = runId then
      { store.watermark other with processedSequence := 0, processedRevision := 0 }
    else store.watermark other := by
  unfold watermark watermark? rewound
  rw [find?_updateWhere (by exact fun _ _ => rfl)]
  cases hfind : store.watermarks.find? (·.runId == other) with
  | none => split <;> rfl
  | some row =>
    have hid : row.runId = other := by simpa using List.find?_some hfind
    rw [Option.map_some, Option.getD_some, Option.getD_some]
    by_cases hrun : other = runId
    · rw [if_pos (beq_iff_eq.mpr (hid.trans hrun)), if_pos hrun]
    · rw [if_neg (fun h => hrun (hid.symm.trans (beq_iff_eq.mp h))), if_neg hrun]

/-- The events of the run are not processed in the rewound tables, the others as before. -/
theorem carried_rewound (hrecorded : store.Recorded) (hevent : event ∈ store.ledger) :
    (store.rewound runId).Carried event ↔ event.runId ≠ runId ∧ store.Carried event := by
  unfold Carried
  rw [watermark_rewound]
  by_cases hrun : event.runId = runId
  · rw [if_pos hrun]
    have hpositive := hrecorded.positive event hevent
    constructor
    · intro hle
      have hzero : event.sequence ≤ 0 := hle
      omega
    · rintro ⟨hne, -⟩
      exact absurd hrun hne
  · rw [if_neg hrun]
    exact ⟨fun hle => ⟨hrun, hle⟩, fun hboth => hboth.2⟩

/-- The rewound tables keep the invariant of the ledger. -/
theorem Recorded.rewound (h : store.Recorded) (runId : Id) : (store.rewound runId).Recorded := by
  refine h.of_ledger_eq rfl ?_ ?_ ?_ ?_ ?_
  · intro other
    rw [watermark_rewound]
    split <;> rfl
  · intro other
    rw [watermark_rewound]
    split <;> exact le_rfl
  · intro other
    rw [watermark_rewound]
    split
    · exact Nat.zero_le _
    · exact h.processed other
  · exact nodup_map_updateWhere (by exact fun _ => rfl) h.keys
  · intro binding hbinding
    refine ⟨_, mem_updateWhere.mpr ⟨binding, hbinding, rfl⟩, ?_⟩
    split <;> exact ⟨rfl, rfl⟩

/-- The rewound tables are the view of the ledger. -/
theorem Materialized.rewound (h : store.Materialized processedAt) (hrecorded : store.Recorded)
    (runId : Id) : (store.rewound runId).Materialized processedAt := by
  have hfirst : ∀ key, (store.rewound runId).firstListing key = store.firstListing key :=
    fun _ => rfl
  constructor
  · intro row' hrow'
    obtain ⟨row, hrow, rfl⟩ := mem_updateWhere.mp hrow'
    by_cases hrun : row.runId = runId
    · rw [if_pos (beq_iff_eq.mpr hrun)]
      unfold view
      have hkey : row.registered.key = row.key := rfl
      rw [hkey, hfirst]
      cases hfirstRow : store.firstListing row.key with
      | none => rfl
      | some event =>
        obtain ⟨hmem, hlists, -⟩ := firstListing_spec hrecorded hfirstRow
        have hpending : ¬ (store.rewound runId).Carried event := by
          rw [carried_rewound hrecorded hmem]
          rintro ⟨hne, -⟩
          exact hne ((runId_of_lists hrecorded hrow hmem hlists).trans hrun)
        simp only [Option.filter, decide_eq_false hpending]
        rfl
    · rw [if_neg fun heq => hrun (beq_iff_eq.mp heq)]
      have hsame : (store.rewound runId).view processedAt row = store.view processedAt row := by
        refine view_congr ?_ fun _ _ => rfl
        rw [hfirst]
        cases hfirstRow : store.firstListing row.key with
        | none => rfl
        | some event =>
          obtain ⟨hmem, hlists, -⟩ := firstListing_spec hrecorded hfirstRow
          have hne : event.runId ≠ runId := by
            rw [runId_of_lists hrecorded hrow hmem hlists]
            exact hrun
          have hiff : (store.rewound runId).Carried event ↔ store.Carried event := by
            rw [carried_rewound hrecorded hmem]
            exact and_iff_right hne
          simp only [Option.filter, hiff]
      rw [hsame]
      exact h.bindings row hrow
  · intro row
    have hrows : row ∈ (store.rewound runId).materializations ↔
        row ∈ store.materializations ∧ ∀ event ∈ store.ledger,
          event.kernelEventId = row.kernelEventId → event.runId ≠ runId := by
      simp [Store.rewound, List.mem_filter]
    rw [hrows, h.rows row]
    constructor
    · rintro ⟨⟨event, hevent, hcarried, object, hobject, rfl⟩, hother⟩
      exact ⟨event, hevent, (carried_rewound hrecorded hevent).mpr
        ⟨hother event hevent rfl, hcarried⟩, object, hobject, rfl⟩
    · rintro ⟨event, hevent, hcarried, object, hobject, rfl⟩
      obtain ⟨hrun, hcarried⟩ := (carried_rewound hrecorded hevent).mp hcarried
      refine ⟨⟨event, hevent, hcarried, object, hobject, rfl⟩, ?_⟩
      intro other hother hid
      rw [eq_of_kernelEventId hrecorded hother hevent hid]
      exact hrun

/-- The bindings of two views of one ledger with the same processed events are the same. -/
theorem Materialized.bindings_eq (h : store.Materialized processedAt)
    (h' : store'.Materialized processedAt) (hledger : store'.ledger = store.ledger)
    (hcarried : ∀ event ∈ store.ledger, store'.Carried event ↔ store.Carried event)
    (hregistered : store'.bindings.map BindingRow.registered =
      store.bindings.map BindingRow.registered) : store'.bindings = store.bindings := by
  have hfirst : ∀ key, (store'.firstListing key).filter (store'.Carried ·) =
      (store.firstListing key).filter (store.Carried ·) := by
    intro key
    have hsame : store'.firstListing key = store.firstListing key := by
      unfold firstListing
      rw [hledger]
    rw [hsame]
    cases hfirst : store.firstListing key with
    | none => rfl
    | some event =>
      simp only [Option.filter, hcarried event (List.mem_of_find?_eq_some hfirst)]
  -- the view of a binding is that of the binding as it was registered
  have hview : ∀ store : Store, store.Materialized processedAt → store.bindings =
      (store.bindings.map BindingRow.registered).map (store.view processedAt) := by
    intro store h
    rw [List.map_map]
    conv_lhs => rw [← List.map_id store.bindings]
    apply List.map_congr_left
    intro row hrow
    have hrow' := h.bindings row hrow
    rw [id_eq, Function.comp_apply]
    conv_lhs => rw [hrow']
    unfold view
    have hkey : row.registered.key = row.key := rfl
    rw [hkey]
    split <;> rfl
  rw [hview store' h', hview store h, hregistered]
  apply List.map_congr_left
  intro row _
  exact view_congr (hfirst row.key) fun _ _ => rfl

theorem Materialized.rows_iff (h : store.Materialized processedAt)
    (h' : store'.Materialized processedAt) (hledger : store'.ledger = store.ledger)
    (hcarried : ∀ event ∈ store.ledger, store'.Carried event ↔ store.Carried event)
    (row : Materialization) : row ∈ store'.materializations ↔ row ∈ store.materializations := by
  rw [h.rows, h'.rows, hledger]
  refine exists_congr fun event => and_congr_right fun hevent => ?_
  rw [hcarried event hevent]
  unfold note firstListing
  rw [hledger]

end Store

end ResearchKernel.Product
