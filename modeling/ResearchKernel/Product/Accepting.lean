import ResearchKernel.Product.Ledger

/-!
# Which events the ledger accepts

An event is recorded only if its revision is above the recorded one of its run. Besides the
events that were recorded before, the bindings that were registered while the run was caught
up count for that revision, so that a binding can shut out an event of the kernel that is
older than it and was not delivered yet.
-/

namespace ResearchKernel.Product

open Foundation Store

section Runs

variable {P : Platform}

variable {store : Store}

/-- Every transaction of the engine keeps the invariant of the ledger. -/
theorem recorded_engineStep (h : store.Recorded) (op : EngineOp) :
    (engineStep P store op).Recorded := by
  unfold engineStep
  split
  · next store' hok =>
    cases op with
    | registerBinding b now => exact h.registerBinding hok
    | record invalidation now => exact h.record hok
    | catchUp runId now later => exact h.catchUp hok
  · exact h

/-- The invariant of the ledger holds in every state that the engine reaches. -/
theorem recorded_engineReached (ops : List EngineOp) : (engineReached P ops).Recorded :=
  runFrom_invariant recorded_empty (fun _ op h => recorded_engineStep h op) ops

/-! ## The recorded revision -/

/-- An object of the run is bound, which it was not before, while the run is caught up. -/
def BindsCaughtUp (runId : Id) (b : BindingArguments) (store : Store) (op : EngineOp) : Prop :=
  ∃ now, op = .registerBinding b now ∧ b.runId = runId ∧
    (store.watermark runId).caughtUp = true ∧
    store.getBinding? b.objectKind b.objectId = none ∧
    ∃ store', store.registerBinding b now = .ok store'

/-- The recorded revision of a run is the largest one of its events and of the bindings that
were registered while it was caught up. -/
def RevisionIsLargest (P : Platform) (ops : List EngineOp) (store : Store) : Prop :=
  ∀ (runId : Id) (n : ℤ), ((store.watermark runId).recordedRevision : ℤ) < n ↔
    0 < n ∧ (∀ event ∈ store.ledger, event.runId = runId → (event.researchRevision : ℤ) < n) ∧
      ∀ b, Performs (engineStep P) {} ops (BindsCaughtUp runId b) → b.boundRevision < n

/-- An object that is bound anew was not bound before. -/
theorem getBinding?_of_fresh {b : BindingArguments}
    (hfresh : ∀ old ∈ store.bindings, b.row.clash old = false) :
    store.getBinding? b.objectKind b.objectId = none := by
  unfold getBinding?
  rw [List.find?_eq_none]
  intro old hold hnames
  simp only [Bool.and_eq_true, beq_iff_eq] at hnames
  have hclash := hfresh old hold
  simp [BindingRow.clash, BindingArguments.row, hnames] at hclash

variable {ops : List EngineOp} {op : EngineOp}

/-- A step that binds nothing while a run is caught up and changes neither the events nor the
recorded revision. -/
theorem RevisionIsLargest.of_eq {store' : Store} (h : RevisionIsLargest P ops store)
    (hrevision : ∀ runId, (store'.watermark runId).recordedRevision =
      (store.watermark runId).recordedRevision) (hledger : store'.ledger = store.ledger)
    (hnone : ∀ runId b, Performs (engineStep P) {} (ops ++ [op]) (BindsCaughtUp runId b) →
      Performs (engineStep P) {} ops (BindsCaughtUp runId b) ∨
        b.boundRevision ≤ (store.watermark runId).recordedRevision) :
    RevisionIsLargest P (ops ++ [op]) store' := by
  intro runId n
  rw [hrevision, hledger, h runId n]
  constructor
  · rintro ⟨hpos, hevents, hbindings⟩
    refine ⟨hpos, hevents, ?_⟩
    intro b hperforms
    rcases hnone runId b hperforms with hold | hle
    · exact hbindings b hold
    · exact hle.trans_lt ((h runId n).mpr ⟨hpos, hevents, hbindings⟩)
  · rintro ⟨hpos, hevents, hbindings⟩
    exact ⟨hpos, hevents, fun b hold => hbindings b hold.left⟩

theorem binds_of_binds_concat (hknown : ∀ b now, op = .registerBinding b now →
      ∀ store', (engineReached P ops).registerBinding b now = .ok store' →
        ((engineReached P ops).getBinding? b.objectKind b.objectId).isSome = true) {runId : Id}
    {b : BindingArguments} (h : Performs (engineStep P) {} (ops ++ [op]) (BindsCaughtUp runId b)) :
    Performs (engineStep P) {} ops (BindsCaughtUp runId b) := by
  rcases performs_concat.mp h with hold | ⟨now, hop, -, -, hnone, store', hok⟩
  · exact hold
  · have hsome := hknown b now hop store' hok
    have hnone' : (engineReached P ops).getBinding? b.objectKind b.objectId = none := hnone
    rw [hnone'] at hsome
    cases hsome

/-- Registrations keep the recorded revision the largest: where one advances the watermark, its
revision is the new recorded one. -/
theorem RevisionIsLargest.registerBinding {ops : List EngineOp} {store' : Store}
    {b : BindingArguments} {now : Stamp} (h : RevisionIsLargest P ops (engineReached P ops))
    (hok : (engineReached P ops).registerBinding b now = .ok store') :
    RevisionIsLargest P (ops ++ [.registerBinding b now]) store' := by
  rcases registerBinding_spec hok with ⟨hsame, hknown⟩ | ⟨hnonneg, hfresh, hstore⟩
  · rw [hsame]
    refine h.of_eq (fun _ => rfl) rfl fun runId b' hperforms =>
      Or.inl (binds_of_binds_concat ?_ hperforms)
    intro b' now' hop _ _
    cases hop
    exact hknown
  have hledger : store'.ledger = (engineReached P ops).ledger := by rw [hstore]
  have hwatermark := watermark_registered (show store'.watermarks =
    (engineReached P ops).registeredWatermarks b now by rw [hstore])
  have hlast : ∀ runId b', Performs (engineStep P) {} (ops ++ [.registerBinding b now])
      (BindsCaughtUp runId b') → Performs (engineStep P) {} ops (BindsCaughtUp runId b') ∨
        b' = b ∧ runId = b.runId ∧
          ((engineReached P ops).watermark runId).caughtUp = true := by
    intro runId b' hperforms
    rcases performs_concat.mp hperforms with hold | ⟨now', hop, hrun, hcaught, -⟩
    · exact Or.inl hold
    · cases hop
      exact Or.inr ⟨rfl, hrun.symm, hcaught⟩
  by_cases hadvances : (engineReached P ops).Advances b
  · intro runId n
    rw [hwatermark runId, hledger]
    by_cases hrun : runId = b.runId
    · rw [if_pos ⟨hrun, hadvances⟩]
      subst hrun
      have hbinds : Performs (engineStep P) {} (ops ++ [.registerBinding b now])
          (BindsCaughtUp b.runId b) :=
        Performs.last ⟨now, rfl, rfl, hadvances.1, getBinding?_of_fresh hfresh, store', hok⟩
      have hbound : ((b.boundRevision.toNat : ℕ) : ℤ) = b.boundRevision :=
        Int.toNat_of_nonneg hnonneg
      constructor
      · intro hlt
        have hlt' : b.boundRevision < n := hbound ▸ hlt
        obtain ⟨hpos, hevents, hbindings⟩ := (h b.runId n).mp (hadvances.2.trans hlt')
        refine ⟨hpos, hevents, ?_⟩
        intro b' hperforms
        rcases hlast b.runId b' hperforms with hold | ⟨rfl, -, -⟩
        · exact hbindings b' hold
        · exact hlt'
      · rintro ⟨-, -, hbindings⟩
        exact hbound.symm ▸ hbindings b hbinds
    · rw [if_neg fun hboth => hrun hboth.1, h runId n]
      constructor
      · rintro ⟨hpos, hevents, hbindings⟩
        refine ⟨hpos, hevents, ?_⟩
        intro b' hperforms
        rcases hlast runId b' hperforms with hold | ⟨-, hrun', -⟩
        · exact hbindings b' hold
        · exact absurd hrun' hrun
      · rintro ⟨hpos, hevents, hbindings⟩
        exact ⟨hpos, hevents, fun b' hold => hbindings b' hold.left⟩
  · refine h.of_eq ?_ hledger ?_
    · intro runId
      rw [hwatermark runId, if_neg fun hboth => hadvances hboth.2]
    · intro runId b' hperforms
      rcases hlast runId b' hperforms with hold | ⟨rfl, rfl, hcaught⟩
      · exact Or.inl hold
      · exact Or.inr (not_lt.mp fun hlt => hadvances ⟨hcaught, hlt⟩)

/-- The recording of an event keeps the recorded revision the largest: it is that of the
event. -/
theorem RevisionIsLargest.record {ops : List EngineOp} {store' : Store}
    {invalidation : AuthorityInvalidation} {now : Stamp}
    (h : RevisionIsLargest P ops (engineReached P ops))
    (hok : (engineReached P ops).record P invalidation now = .ok store') :
    RevisionIsLargest P (ops ++ [.record invalidation now]) store' := by
  have hperforms : ∀ runId b, Performs (engineStep P) {} (ops ++ [.record invalidation now])
      (BindsCaughtUp runId b) → Performs (engineStep P) {} ops (BindsCaughtUp runId b) :=
    fun runId b => binds_of_binds_concat fun b now hop => by cases hop
  obtain ⟨intent, -, ⟨hsame, -⟩ | ⟨habove, -, -, hstore⟩⟩ := record_spec hok
  · rw [hsame]
    exact h.of_eq (fun _ => rfl) rfl fun runId b hbinds => Or.inl (hperforms runId b hbinds)
  have hledger : store'.ledger = (engineReached P ops).ledger ++
      [(engineReached P ops).eventRow P invalidation intent] := by rw [hstore]
  have hwatermark := watermark_recorded (show store'.watermarks =
    (engineReached P ops).recordedWatermarks invalidation now by rw [hstore])
  have hevent : (((engineReached P ops).eventRow P invalidation intent).researchRevision : ℤ) =
      invalidation.researchRevision :=
    Int.toNat_of_nonneg ((Int.natCast_nonneg _).trans habove.le)
  have hbindings : ∀ runId b, Performs (engineStep P) {} (ops ++ [.record invalidation now])
      (BindsCaughtUp runId b) ↔ Performs (engineStep P) {} ops (BindsCaughtUp runId b) :=
    fun runId b => ⟨hperforms runId b, fun hbinds => hbinds.left⟩
  intro runId n
  rw [hwatermark runId, hledger]
  simp only [hbindings]
  by_cases hrun : runId = invalidation.runId
  · rw [if_pos hrun]
    subst hrun
    constructor
    · intro hlt
      have hlt' : invalidation.researchRevision < n := hevent ▸ hlt
      obtain ⟨hpos, hevents, hbinds⟩ := (h invalidation.runId n).mp (habove.trans hlt')
      refine ⟨hpos, ?_, hbinds⟩
      intro event hmem heventRun
      rcases List.mem_append.mp hmem with hold | hnew
      · exact hevents event hold heventRun
      · rw [List.mem_singleton.mp hnew, hevent]
        exact hlt'
    · rintro ⟨-, hevents, -⟩
      exact hevents _ (List.mem_append_right _ (List.mem_singleton_self _)) rfl
  · rw [if_neg hrun, h runId n]
    constructor
    · rintro ⟨hpos, hevents, hbinds⟩
      refine ⟨hpos, ?_, hbinds⟩
      intro event hmem heventRun
      rcases List.mem_append.mp hmem with hold | hnew
      · exact hevents event hold heventRun
      · rw [List.mem_singleton.mp hnew] at heventRun
        exact absurd heventRun.symm hrun
    · rintro ⟨hpos, hevents, hbinds⟩
      exact ⟨hpos, fun event hmem => hevents event (List.mem_append_left _ hmem), hbinds⟩

/-- A turn of `catchUp` leaves the recorded revision. -/
theorem RevisionIsLargest.catchUp {ops : List EngineOp} {store' : Store} {runId : Id}
    {now later : Stamp} (h : RevisionIsLargest P ops (engineReached P ops))
    (hok : (engineReached P ops).catchUp runId now later = .ok store') :
    RevisionIsLargest P (ops ++ [.catchUp runId now later]) store' := by
  have hperforms : ∀ other b, Performs (engineStep P) {} (ops ++ [.catchUp runId now later])
      (BindsCaughtUp other b) → Performs (engineStep P) {} ops (BindsCaughtUp other b) ∨
        b.boundRevision ≤ ((engineReached P ops).watermark other).recordedRevision :=
    fun other b hbinds => Or.inl (binds_of_binds_concat (fun b now hop => by cases hop) hbinds)
  rcases catchUp_watermark (recorded_engineReached ops) hok with
    ⟨hsame, -⟩ | ⟨event, done, -, -, -, -, hdone, hstore, hwatermark⟩
  · rw [hsame]
    exact h.of_eq (fun _ => rfl) rfl hperforms
  · refine h.of_eq ?_ ?_ hperforms
    · intro other
      rw [hwatermark other]
      split <;> rfl
    · rw [hstore]
      exact (materialize_frame hdone).1

/-- One transaction keeps the recorded revision the largest. -/
theorem revisionIsLargest_step (h : RevisionIsLargest P ops (engineReached P ops)) :
    RevisionIsLargest P (ops ++ [op]) (engineStep P (engineReached P ops) op) := by
  unfold engineStep
  split
  · next store' hok =>
    cases op with
    | registerBinding b now => exact h.registerBinding hok
    | record invalidation now => exact h.record hok
    | catchUp runId now later => exact h.catchUp hok
  · next hraises =>
    refine h.of_eq (fun _ => rfl) rfl fun runId b hbinds =>
      Or.inl (binds_of_binds_concat ?_ hbinds)
    intro b now hop store' hok
    subst hop
    have hraises' : (engineReached P ops).registerBinding b now = .error _ := hraises
    rw [hok] at hraises'
    cases hraises'

theorem revisionIsLargest (ops : List EngineOp) :
    RevisionIsLargest P ops (engineReached P ops) := by
  refine runFrom_history ?_ (fun ops op h => revisionIsLargest_step h) ops
  intro runId n
  constructor
  · intro hpos
    refine ⟨hpos, ?_, ?_⟩
    · intro event hevent
      cases hevent
    · intro b hperforms
      exact absurd hperforms not_performs_nil
  · rintro ⟨hpos, -, -⟩
    exact hpos

/-! ## Events of the kernel -/

/-- An event that the ledger has not recorded: its objects and siblings are bound as it says,
and its revision is above those of all recorded events of its run. -/
structure Genuine (store : Store) (invalidation : AuthorityInvalidation)
    (intent : InvalidationIntent) : Prop where
  reads : InvalidationIntent.ofMapping invalidation.intent = .ok intent
  unknown : ∀ event ∈ store.ledger, event.kernelEventId ≠ invalidation.kernelEventId
  objects : ∀ object ∈ intent.affectedObjects, ∃ binding ∈ store.bindings,
    binding.key = object.key ∧ binding.runId = invalidation.runId ∧
      binding.stableLabel = object.stableLabel ∧ binding.objectDigest = object.objectDigest
  siblings : ∀ sibling ∈ intent.preservedSiblingIds, ∃ binding ∈ store.bindings,
    binding.runId = invalidation.runId ∧ binding.objectId = sibling
  above : ∀ event ∈ store.ledger, event.runId = invalidation.runId →
    (event.researchRevision : ℤ) < invalidation.researchRevision

/-- The objects and siblings of a genuine event are validated. -/
theorem Genuine.validateBindings {store : Store} {invalidation : AuthorityInvalidation}
    {intent : InvalidationIntent} (h : Genuine store invalidation intent)
    (hkeys : (store.bindings.map BindingRow.key).Nodup) :
    store.validateBindings invalidation.runId intent = .ok () := by
  have hdistinct := InvalidationIntent.distinct_of_ofMapping h.reads
  unfold Store.validateBindings
  refine bind_eq_ok.mpr ⟨(), ?_, ?_⟩
  · rw [checkAll_eq_ok]
    intro object hobject
    obtain ⟨binding, hmem, hkey, hrun, hlabel, hdigest⟩ := h.objects object hobject
    rw [rejectIf_eq_ok, (find?_of_key hkeys hmem hkey).1]
    simp [hrun, hlabel, hdigest]
  · rw [checkAll_eq_ok]
    intro sibling hsibling
    obtain ⟨binding, hmem, hrun, hid⟩ := h.siblings sibling hsibling
    refine bind_eq_ok.mpr ⟨(), ?_, ?_⟩
    · simp only [InvalidationIntent.distinct, Bool.and_eq_true, Bool.not_eq_true',
        List.any_eq_false] at hdistinct
      rw [rejectIf_eq_ok]
      exact Bool.eq_false_iff.mpr (hdistinct.2 sibling hsibling)
    · rw [rejectIf_eq_ok, Bool.not_eq_false', List.any_eq_true]
      exact ⟨binding, hmem, by simp [hrun, hid]⟩

/-- A genuine event is recorded exactly if its revision is above the recorded one. -/
theorem Genuine.record_iff {invalidation : AuthorityInvalidation} {intent : InvalidationIntent}
    (h : Genuine store invalidation intent) (hrecorded : store.Recorded) (now : Stamp) :
    (∃ store', store.record P invalidation now = .ok store' ∧ ∃ event ∈ store'.ledger,
      event.kernelEventId = invalidation.kernelEventId ∧ event.runId = invalidation.runId ∧
        (event.researchRevision : ℤ) = invalidation.researchRevision) ↔
      ((store.watermark invalidation.runId).recordedRevision : ℤ) <
        invalidation.researchRevision := by
  constructor
  · rintro ⟨store', hok, -⟩
    obtain ⟨-, -, ⟨-, existing, hmem, hid⟩ | ⟨habove, -⟩⟩ := record_spec hok
    · exact absurd hid (h.unknown existing hmem)
    · exact habove
  · intro habove
    have hnone : store.ledger.find? (·.kernelEventId == invalidation.kernelEventId) = none := by
      rw [List.find?_eq_none]
      intro event hevent hid
      exact h.unknown event hevent (beq_iff_eq.mp hid)
    have hfresh : insertRow LedgerRow.clash (store.eventRow P invalidation intent) store.ledger =
        some (store.ledger ++ [store.eventRow P invalidation intent]) := by
      refine insertRow_eq_some.mpr ⟨?_, rfl⟩
      intro old hold
      have hnumber := lt_nextSequence hold
      have hid := h.unknown old hold
      simp only [LedgerRow.clash, eventRow, Bool.or_eq_false_iff, Bool.and_eq_false_iff,
        beq_eq_false_iff_ne]
      refine ⟨⟨by omega, hid.symm⟩, ?_⟩
      by_cases hrun : old.runId = invalidation.runId
      · right
        have hlt := h.above old hold hrun
        omega
      · exact Or.inl fun heq => hrun heq.symm
    refine ⟨{ store with
      ledger := store.ledger ++ [store.eventRow P invalidation intent]
      watermarks := store.recordedWatermarks invalidation now }, ?_,
      store.eventRow P invalidation intent,
      List.mem_append_right _ (List.mem_singleton_self _), rfl, rfl,
      Int.toNat_of_nonneg ((Int.natCast_nonneg _).trans habove.le)⟩
    unfold Store.record
    refine bind_eq_ok.mpr ⟨intent, h.reads, ?_⟩
    simp only [hnone]
    refine bind_eq_ok.mpr ⟨(), rejectIf_eq_ok.mpr (decide_eq_false (not_le.mpr habove)), ?_⟩
    refine bind_eq_ok.mpr ⟨(), h.validateBindings hrecorded.keys, ?_⟩
    exact bind_eq_ok.mpr ⟨_, orReject_eq_ok.mpr hfresh, rfl⟩

/-- A genuine event is recorded exactly if it has a positive revision and no object of its run
was bound at that revision or a later one while the run was caught up. -/
theorem genuine_recorded_iff {ops : List EngineOp} {invalidation : AuthorityInvalidation}
    {intent : InvalidationIntent} {now : Stamp}
    (h : Genuine (engineReached P ops) invalidation intent) :
    (∃ store', (engineReached P ops).record P invalidation now = .ok store' ∧
      ∃ event ∈ store'.ledger, event.kernelEventId = invalidation.kernelEventId ∧
        event.runId = invalidation.runId ∧
          (event.researchRevision : ℤ) = invalidation.researchRevision) ↔
      0 < invalidation.researchRevision ∧ ∀ b,
        Performs (engineStep P) {} ops (BindsCaughtUp invalidation.runId b) →
          b.boundRevision < invalidation.researchRevision := by
  rw [h.record_iff (recorded_engineReached ops) now, revisionIsLargest ops]
  constructor
  · rintro ⟨hpos, -, hbindings⟩
    exact ⟨hpos, hbindings⟩
  · rintro ⟨hpos, hbindings⟩
    exact ⟨hpos, h.above, hbindings⟩

end Runs

/-! ## A binding ahead of an event -/

namespace Sample

/-- A review that rests on the given revision. -/
def review (revision : ℤ) : BindingArguments where
  objectKind := .review
  objectId := "review"
  runId := "run"
  contractVersion := 1
  boundRevision := revision
  stableLabel := "review"
  objectDigest := digest

/-- The review is withdrawn. -/
def reviewIntent : InvalidationIntent :=
  ⟨"SUPERSEDED", [⟨.review, "review", "review", digest⟩], [], []⟩

/-- The event of the kernel at revision 1 by which the review is withdrawn. -/
def reviewEvent : AuthorityInvalidation := ⟨"event", "run", 1, reviewIntent.toDict⟩

/-- The review is bound at the given revision. -/
def bound (revision : ℤ) : List EngineOp :=
  [.registerBinding (review revision) "2026-01-01T00:00:00Z"]

/-- The event is read, and only the binding at revision 0 leaves it acceptable. -/
theorem review_states :
    (InvalidationIntent.ofMapping reviewEvent.intent).toOption = some reviewIntent ∧
      (∀ revision ∈ [(0 : ℤ), 2], (engineReached platform (bound revision)).ledger.isEmpty ∧
        (engineReached platform (bound revision)).bindings = [(review revision).row]) ∧
      ((engineReached platform (bound 2)).watermark "run").recordedRevision = 2 := by
  decide +kernel

end Sample

/-- The event by which a review is withdrawn is genuine while the review is bound and nothing is
recorded. -/
theorem genuine_reviewEvent {revision : ℤ} (h : revision ∈ [(0 : ℤ), 2]) :
    Genuine (engineReached Sample.platform (Sample.bound revision)) Sample.reviewEvent
      Sample.reviewIntent := by
  obtain ⟨hreads, hstates, -⟩ := Sample.review_states
  obtain ⟨hledger, hbindings⟩ := hstates revision h
  rw [List.isEmpty_iff] at hledger
  refine ⟨eq_ok_of_toOption hreads, ?_, ?_, ?_, ?_⟩
  · simp [hledger]
  · intro object hobject
    rw [List.mem_singleton.mp hobject, hbindings]
    exact ⟨_, List.mem_singleton_self _, rfl, rfl, rfl, rfl⟩
  · intro sibling hsibling
    cases hsibling
  · simp [hledger]

/-- A review that was bound at revision 2, when the event of revision 1 that withdraws it was
not delivered yet: the event is refused. -/
theorem binding_shuts_out_event :
    ¬ ∀ invalidation intent now,
      Genuine (engineReached Sample.platform (Sample.bound 2)) invalidation intent →
        ∃ store', (engineReached Sample.platform (Sample.bound 2)).record Sample.platform
            invalidation now = .ok store' ∧ ∃ event ∈ store'.ledger,
          event.kernelEventId = invalidation.kernelEventId ∧ event.runId = invalidation.runId ∧
            (event.researchRevision : ℤ) = invalidation.researchRevision := by
  intro h
  have hgenuine := @genuine_reviewEvent 2 (by simp)
  have habove := (hgenuine.record_iff (P := Sample.platform) (recorded_engineReached _) "").mp
    (h _ _ "" hgenuine)
  have hrevision : ((engineReached Sample.platform (Sample.bound 2)).watermark
      Sample.reviewEvent.runId).recordedRevision = 2 := Sample.review_states.2.2
  rw [hrevision] at habove
  exact absurd habove (by decide)

/-- A review that was bound at revision 0 is withdrawn by the event of revision 1. -/
theorem genuine_recorded_of_earlier :
    ∃ store', (engineReached Sample.platform (Sample.bound 0)).record Sample.platform
        Sample.reviewEvent "2026-01-01T00:01:00Z" = .ok store' ∧
      ∃ event ∈ store'.ledger, event.kernelEventId = "event" ∧ event.runId = "run" ∧
        (event.researchRevision : ℤ) = 1 := by
  have hgenuine := @genuine_reviewEvent 0 (by simp)
  refine (genuine_recorded_iff hgenuine).mpr ⟨by decide, ?_⟩
  intro b hperforms
  rcases (@performs_concat _ _ _ _ _ [] _).mp hperforms with hnothing | ⟨now, hop, -⟩
  · exact absurd hnothing not_performs_nil
  · cases hop
    decide

end ResearchKernel.Product
