import ResearchKernel.Foundation.Sums
import ResearchKernel.Product.Terminal
import ResearchKernel.Product.Invalidation

/-!
# What the ledger holds

The events of the ledger are numbered in the order in which they were recorded, and those of
one run in the order of their revisions. The watermark of a run bounds its events. It is also
advanced by bindings that are registered while the run is caught up, and these decide whether
a later event is still accepted.
-/

namespace ResearchKernel.Product

open Foundation

/-! ## Readers -/

section Readers

variable {P : Platform}

variable {intent : InvalidationIntent}

/-- An intent that was read names nothing twice. -/
theorem InvalidationIntent.distinct_of_ofMapping {value : JsonObject}
    (h : InvalidationIntent.ofMapping value = .ok intent) : intent.distinct = true := by
  unfold InvalidationIntent.ofMapping at h
  obtain ⟨⟨⟩, -, h⟩ := bind_eq_ok.mp h
  obtain ⟨affectedRaw, -, h⟩ := bind_eq_ok.mp h
  obtain ⟨siblingsRaw, -, h⟩ := bind_eq_ok.mp h
  obtain ⟨reopenedRaw, -, h⟩ := bind_eq_ok.mp h
  obtain ⟨affected, -, h⟩ := bind_eq_ok.mp h
  obtain ⟨⟨⟩, -, h⟩ := bind_eq_ok.mp h
  obtain ⟨siblings, -, h⟩ := bind_eq_ok.mp h
  obtain ⟨reopened, -, h⟩ := bind_eq_ok.mp h
  obtain ⟨⟨⟩, hdistinct, h⟩ := bind_eq_ok.mp h
  obtain ⟨reason, -, h⟩ := bind_eq_ok.mp h
  cases pure_eq_ok.mp h
  rw [rejectIf_eq_ok, Bool.not_eq_false'] at hdistinct
  exact hdistinct

/-- Whether an object is named by its kind and identifier. -/
theorem InvalidationIntent.lists_iff {kind : AuthorityObjectKind} {objectId : Id} :
    intent.lists kind objectId = true ↔
      ∃ object ∈ intent.affectedObjects, object.objectKind = kind ∧ object.objectId = objectId := by
  simp [InvalidationIntent.lists]

end Readers

namespace Store

variable {store store' : Store}

/-! ## Watermarks -/

variable {row : WatermarkRow} {change : WatermarkRow → WatermarkRow}

/-- A change of the watermark of one run. -/
theorem watermark?_upsert (hchange : ∀ w, (change w).runId = w.runId)
    (hwatermarks : store'.watermarks = store.upsertWatermark row change) (runId : Id) :
    store'.watermark? runId =
      if runId = row.runId then some (((store.watermark? runId).map change).getD row)
      else store.watermark? runId := by
  unfold watermark?
  rw [hwatermarks]
  unfold upsertWatermark
  by_cases hknown : store.watermarks.any (·.runId == row.runId) = true
  · rw [if_pos hknown]
    have hkeep : ∀ w : WatermarkRow, (w.runId == row.runId) = true →
        ((change w).runId == runId) = (w.runId == runId) := fun w _ => by rw [hchange]
    rw [find?_updateWhere hkeep]
    by_cases hrun : runId = row.runId
    · subst hrun
      rw [if_pos rfl]
      obtain ⟨old, hold, hid⟩ := List.any_eq_true.mp hknown
      have hsome : (store.watermarks.find? (·.runId == row.runId)).isSome = true :=
        List.find?_isSome.mpr ⟨old, hold, hid⟩
      obtain ⟨found, hfound⟩ := Option.isSome_iff_exists.mp hsome
      rw [hfound, Option.map_some, Option.map_some, if_pos (List.find?_some hfound)]
      rfl
    · rw [if_neg hrun]
      cases hfind : store.watermarks.find? (·.runId == runId) with
      | none => rfl
      | some found =>
        have hid : found.runId = runId := by simpa using List.find?_some hfind
        have hmiss : ¬ (found.runId == row.runId) = true := by simpa [hid] using hrun
        rw [Option.map_some, if_neg hmiss]
  · rw [if_neg hknown, List.find?_append]
    by_cases hrun : runId = row.runId
    · subst hrun
      have hnone : store.watermarks.find? (·.runId == row.runId) = none := by
        rw [List.find?_eq_none]
        intro old hold hid
        exact hknown (List.any_eq_true.mpr ⟨old, hold, hid⟩)
      rw [if_pos rfl, hnone]
      simp
    · rw [if_neg hrun]
      have hmiss : ¬ (row.runId == runId) = true := by simpa using fun h => hrun h.symm
      simp [hmiss]

theorem watermark_upsert (hrow : row = change ⟨row.runId, 0, 0, 0, 0, ""⟩)
    (hchange : ∀ w, (change w).runId = w.runId)
    (hwatermarks : store'.watermarks = store.upsertWatermark row change) (runId : Id) :
    store'.watermark runId =
      if runId = row.runId then change (store.watermark runId) else store.watermark runId := by
  unfold watermark
  rw [watermark?_upsert hchange hwatermarks]
  by_cases hrun : runId = row.runId
  · rw [if_pos hrun, if_pos hrun, Option.getD_some]
    cases store.watermark? runId with
    | none =>
      rw [Option.map_none, Option.getD_none, Option.getD_none, hrun]
      exact hrow
    | some found => rfl
  · rw [if_neg hrun, if_neg hrun]

variable {runId : Id}

theorem runId_of_watermark? (h : store.watermark? runId = some row) : row.runId = runId := by
  simpa using List.find?_some h

/-! ## Bindings -/

/-- Whether a registration advances the watermark of its run. -/
def Advances (store : Store) (b : BindingArguments) : Prop :=
  (store.watermark b.runId).caughtUp = true ∧
    ((store.watermark b.runId).recordedRevision : ℤ) < b.boundRevision

instance (b : BindingArguments) : Decidable (store.Advances b) :=
  inferInstanceAs (Decidable (_ ∧ _))

/-- The watermarks after a registration. -/
def registeredWatermarks (store : Store) (b : BindingArguments) (now : Stamp) :
    List WatermarkRow :=
  if store.Advances b then
    store.upsertWatermark ⟨b.runId, 0, b.boundRevision.toNat, 0, b.boundRevision.toNat, now⟩
      (fun row => { row with
        recordedRevision := b.boundRevision.toNat
        processedRevision := b.boundRevision.toNat
        updatedAt := now })
  else store.watermarks

variable {b : BindingArguments} {now : Stamp}

/-- `registerBinding` finds the object bound as it says, or binds it. -/
theorem registerBinding_spec (h : store.registerBinding b now = .ok store') :
    (store' = store ∧ (store.getBinding? b.objectKind b.objectId).isSome = true) ∨
      0 ≤ b.boundRevision ∧ (∀ old ∈ store.bindings, b.row.clash old = false) ∧
        store' = { store with
          bindings := store.bindings ++ [b.row]
          watermarks := store.registeredWatermarks b now } := by
  unfold registerBinding at h
  obtain ⟨⟨⟩, -, h⟩ := bind_eq_ok.mp h
  obtain ⟨⟨⟩, -, h⟩ := bind_eq_ok.mp h
  obtain ⟨⟨⟩, hbounds, h⟩ := bind_eq_ok.mp h
  simp only [rejectIf_eq_ok, Bool.or_eq_false_iff, decide_eq_false_iff_not, not_lt] at hbounds
  split at h
  · next bindings hbindings =>
    obtain ⟨hfresh, rfl⟩ := insertRow_eq_some.mp hbindings
    right
    refine ⟨hbounds.2, hfresh, ?_⟩
    unfold registeredWatermarks
    dsimp only at h
    split at h
    · next hadvances =>
      have hadvances' : store.Advances b := by simpa [Advances] using hadvances
      rw [if_pos hadvances']
      exact (pure_eq_ok.mp h).symm
    · next hadvances =>
      have hadvances' : ¬ store.Advances b := by simpa [Advances] using hadvances
      rw [if_neg hadvances']
      exact (pure_eq_ok.mp h).symm
  · obtain ⟨existing, hexisting, h⟩ := bind_eq_ok.mp h
    obtain ⟨⟨⟩, -, h⟩ := bind_eq_ok.mp h
    rw [orReject_eq_ok] at hexisting
    exact Or.inl ⟨(pure_eq_ok.mp h).symm, by rw [hexisting]; rfl⟩

/-- The watermark of a run after a registration. -/
theorem watermark_registered (hwatermarks : store'.watermarks = store.registeredWatermarks b now)
    (runId : Id) :
    store'.watermark runId =
      if runId = b.runId ∧ store.Advances b then
        { store.watermark runId with
          recordedRevision := b.boundRevision.toNat
          processedRevision := b.boundRevision.toNat
          updatedAt := now }
      else store.watermark runId := by
  unfold registeredWatermarks at hwatermarks
  by_cases hadvances : store.Advances b
  · rw [if_pos hadvances] at hwatermarks
    rw [watermark_upsert rfl (by exact fun _ => rfl) hwatermarks]
    simp only [hadvances, and_true]
  · rw [if_neg hadvances] at hwatermarks
    rw [if_neg fun h => hadvances h.2]
    unfold watermark watermark?
    rw [hwatermarks]

/-! ## The ledger -/

/-- The number of a new event is above those of all others. -/
theorem lt_nextSequence {event : LedgerRow} (h : event ∈ store.ledger) :
    event.sequence < store.nextSequence :=
  Nat.lt_succ_of_le (le_foldl_max.mpr (Or.inr ⟨_, List.mem_map_of_mem h, le_rfl⟩))

def eventRow (store : Store) (P : Platform) (invalidation : AuthorityInvalidation)
    (intent : InvalidationIntent) : LedgerRow :=
  ⟨store.nextSequence, invalidation.kernelEventId, invalidation.runId,
    invalidation.researchRevision.toNat, intent.digest P, intent⟩

/-- The watermarks after an event was recorded. -/
def recordedWatermarks (store : Store) (invalidation : AuthorityInvalidation) (now : Stamp) :
    List WatermarkRow :=
  store.upsertWatermark
    ⟨invalidation.runId, store.nextSequence, invalidation.researchRevision.toNat, 0, 0, now⟩
    (fun row => { row with
      recordedSequence := store.nextSequence
      recordedRevision := invalidation.researchRevision.toNat
      updatedAt := now })

variable {invalidation : AuthorityInvalidation}

/-- `record` finds the event in the ledger, or appends it. -/
theorem record_spec {P : Platform} (h : store.record P invalidation now = .ok store') :
    ∃ intent, InvalidationIntent.ofMapping invalidation.intent = .ok intent ∧
      ((store' = store ∧ ∃ existing ∈ store.ledger,
          existing.kernelEventId = invalidation.kernelEventId) ∨
        ((store.watermark invalidation.runId).recordedRevision : ℤ) <
            invalidation.researchRevision ∧
          store.validateBindings invalidation.runId intent = .ok () ∧
          (∀ old ∈ store.ledger, (store.eventRow P invalidation intent).clash old = false) ∧
          store' = { store with
            ledger := store.ledger ++ [store.eventRow P invalidation intent]
            watermarks := store.recordedWatermarks invalidation now }) := by
  unfold record at h
  obtain ⟨intent, hintent, h⟩ := bind_eq_ok.mp h
  refine ⟨intent, hintent, ?_⟩
  dsimp only at h
  split at h
  · next existing hexisting =>
    obtain ⟨⟨⟩, -, h⟩ := bind_eq_ok.mp h
    obtain ⟨_, -, h⟩ := bind_eq_ok.mp h
    exact Or.inl ⟨(pure_eq_ok.mp h).symm, existing, List.mem_of_find?_eq_some hexisting,
      by simpa using List.find?_some hexisting⟩
  · obtain ⟨⟨⟩, hrevision, h⟩ := bind_eq_ok.mp h
    obtain ⟨⟨⟩, hbindings, h⟩ := bind_eq_ok.mp h
    obtain ⟨ledger, hledger, h⟩ := bind_eq_ok.mp h
    simp only [rejectIf_eq_ok, decide_eq_false_iff_not, not_le] at hrevision
    rw [orReject_eq_ok, insertRow_eq_some] at hledger
    obtain ⟨hfresh, rfl⟩ := hledger
    exact Or.inr ⟨hrevision, hbindings, hfresh, (pure_eq_ok.mp h).symm⟩

theorem watermark_recorded
    (hwatermarks : store'.watermarks = store.recordedWatermarks invalidation now) (runId : Id) :
    store'.watermark runId =
      if runId = invalidation.runId then
        { store.watermark runId with
          recordedSequence := store.nextSequence
          recordedRevision := invalidation.researchRevision.toNat
          updatedAt := now }
      else store.watermark runId :=
  watermark_upsert rfl (by exact fun _ => rfl) hwatermarks runId

theorem nextEvent_eq {watermark : WatermarkRow}
    (hordered : store.ledger.Pairwise fun a b => a.sequence < b.sequence) :
    store.nextEvent watermark = store.ledger.find? fun row =>
      row.runId == watermark.runId && decide (watermark.processedSequence < row.sequence) := by
  unfold nextEvent
  have hsorted : (store.ledger.filter fun row => row.runId == watermark.runId &&
      decide (watermark.processedSequence < row.sequence)).Pairwise
        fun a b => a.sequence ≤ b.sequence :=
    (hordered.filter _).imp fun h => Nat.le_of_lt h
  rw [List.Pairwise.insertionSort_eq hsorted, List.head?_filter]

/-! ## Withdrawals -/

/-- The withdrawal in another table leaves those of the engine. -/
theorem materializeExistingTable_frame (store : Store) (object : InvalidatedObject)
    (reason : String) (now : Stamp) :
    (store.materializeExistingTable object reason now).bindings = store.bindings ∧
      (store.materializeExistingTable object reason now).materializations =
        store.materializations ∧
      (store.materializeExistingTable object reason now).ledger = store.ledger ∧
      (store.materializeExistingTable object reason now).watermarks = store.watermarks := by
  unfold materializeExistingTable
  split
  · split <;> exact ⟨rfl, rfl, rfl, rfl⟩
  · exact ⟨rfl, rfl, rfl, rfl⟩
  · exact ⟨rfl, rfl, rfl, rfl⟩

/-- The materializations after an object was withdrawn. -/
def noted (store : Store) (event : LedgerRow) (now : Stamp) (object : InvalidatedObject)
    (previous : BindingState) : List Materialization :=
  if store.materializations.any fun row => row.kernelEventId == event.kernelEventId &&
      row.objectKind == object.objectKind && row.objectId == object.objectId then
    store.materializations
  else store.materializations ++
    [⟨event.kernelEventId, object.objectKind, object.objectId, previous, now⟩]

/-- A binding after its object was withdrawn. -/
def withdrawn (event : LedgerRow) (now : Stamp) (row : BindingRow) : BindingRow :=
  { row with
    state := .invalidated
    invalidatedByEventId := some event.kernelEventId
    invalidatedAt := some now
    invalidationReason := some event.intent.reason }

variable {event : LedgerRow}

/-- The withdrawal of an object that is bound notes it and marks its binding. -/
theorem materializeObject_spec {object : InvalidatedObject} {binding : BindingRow} (now : Stamp)
    (hbinding : store.binding? event.runId object = some binding) :
    ∃ store', store.materializeObject event now object = .ok store' ∧
      store'.ledger = store.ledger ∧ store'.watermarks = store.watermarks ∧
      store'.materializations = store.noted event now object binding.state ∧
      store'.bindings = if binding.state = .valid then
        updateWhere (fun row => row.objectKind == object.objectKind &&
          row.objectId == object.objectId && row.state == .valid) (withdrawn event now)
          store.bindings
        else store.bindings := by
  unfold materializeObject
  rw [orReject_bind_of_some hbinding]
  unfold noted
  dsimp only
  by_cases hvalid : binding.state = .valid
  · rw [if_pos (by simp [hvalid]), if_pos hvalid]
    refine ⟨_, rfl, ?_⟩
    obtain ⟨hbindings, hmaterializations, hledger, hwatermarks⟩ :=
      materializeExistingTable_frame { (if store.materializations.any fun row =>
          row.kernelEventId == event.kernelEventId && row.objectKind == object.objectKind &&
            row.objectId == object.objectId then store
        else { store with materializations := store.materializations ++
          [⟨event.kernelEventId, object.objectKind, object.objectId, binding.state, now⟩] }) with
        bindings := updateWhere (fun row => row.objectKind == object.objectKind &&
          row.objectId == object.objectId && row.state == .valid) (withdrawn event now)
          (if store.materializations.any fun row =>
            row.kernelEventId == event.kernelEventId && row.objectKind == object.objectKind &&
              row.objectId == object.objectId then store
          else { store with materializations := store.materializations ++
            [⟨event.kernelEventId, object.objectKind, object.objectId, binding.state, now⟩] }).bindings }
        object event.intent.reason now
    refine ⟨hledger.trans ?_, hwatermarks.trans ?_, hmaterializations.trans ?_, hbindings.trans ?_⟩
    · split <;> rfl
    · split <;> rfl
    · split <;> rfl
    · split <;> rfl
  · rw [if_neg (by simp [hvalid]), if_neg hvalid]
    refine ⟨_, rfl, ?_⟩
    split <;> exact ⟨rfl, rfl, rfl, rfl⟩

/-- The objects of an event are named differently, bound in its run and not yet noted. -/
structure Withdrawable (store : Store) (event : LedgerRow) (objects : List InvalidatedObject) :
    Prop where
  keys : (store.bindings.map BindingRow.key).Nodup
  bound : ∀ object ∈ objects, ∃ binding ∈ store.bindings,
    binding.key = object.key ∧ binding.runId = event.runId
  distinct : (objects.map InvalidatedObject.key).Nodup
  unknown : ∀ object ∈ objects, ∀ row ∈ store.materializations,
    row.kernelEventId = event.kernelEventId → (row.objectKind, row.objectId) ≠ object.key

/-- The state of an object's binding. -/
def stateOf (store : Store) (object : InvalidatedObject) : BindingState :=
  ((store.getBinding? object.objectKind object.objectId).map (·.state)).getD .valid

/-- Where objects are bound once, the binding of an object is found by its name. -/
theorem find?_of_key (hkeys : (store.bindings.map BindingRow.key).Nodup) {binding : BindingRow}
    (hmem : binding ∈ store.bindings) {kind : AuthorityObjectKind} {objectId : Id}
    (hkey : binding.key = (kind, objectId)) :
    store.getBinding? kind objectId = some binding ∧
      store.bindings.find? (fun row => row.objectKind == kind && row.objectId == objectId &&
        row.runId == binding.runId) = some binding := by
  have hnamed : binding.objectKind = kind ∧ binding.objectId = objectId := by
    simpa [BindingRow.key] using hkey
  have hunique : ∀ row ∈ store.bindings,
      (row.objectKind == kind && row.objectId == objectId) = true → row = binding := by
    intro row hrow hnames
    simp only [Bool.and_eq_true, beq_iff_eq] at hnames
    refine List.inj_on_of_nodup_map hkeys hrow hmem ?_
    rw [hkey]
    exact Prod.ext hnames.1 hnames.2
  constructor
  · unfold getBinding?
    have hsome : (store.bindings.find? fun row =>
        row.objectKind == kind && row.objectId == objectId).isSome = true :=
      List.find?_isSome.mpr ⟨binding, hmem, by simp [hnamed]⟩
    obtain ⟨found, hfound⟩ := Option.isSome_iff_exists.mp hsome
    have htest := List.find?_some hfound
    rw [hfound, hunique found (List.mem_of_find?_eq_some hfound) htest]
  · have hsome : (store.bindings.find? fun row => row.objectKind == kind &&
        row.objectId == objectId && row.runId == binding.runId).isSome = true :=
      List.find?_isSome.mpr ⟨binding, hmem, by simp [hnamed]⟩
    obtain ⟨found, hfound⟩ := Option.isSome_iff_exists.mp hsome
    have htest := List.find?_some hfound
    rw [Bool.and_eq_true] at htest
    rw [hfound, hunique found (List.mem_of_find?_eq_some hfound) htest.1]

variable {objects : List InvalidatedObject}

/-- The withdrawal of the objects of an event marks the bindings that are still valid, and
notes each object with the state that its binding had. -/
theorem materialize_spec (now : Stamp) (h : store.Withdrawable event objects) :
    ∃ done, materialize event now objects store = .ok done ∧
      done.ledger = store.ledger ∧ done.watermarks = store.watermarks ∧
      done.materializations = store.materializations ++ objects.map (fun object =>
        ⟨event.kernelEventId, object.objectKind, object.objectId, store.stateOf object, now⟩) ∧
      done.bindings = updateWhere (fun row => row.state == .valid &&
        objects.any fun object => object.key == row.key) (withdrawn event now) store.bindings := by
  induction objects generalizing store with
  | nil =>
    refine ⟨store, rfl, rfl, rfl, by simp, ?_⟩
    exact (updateWhere_of_miss fun row _ => by simp).symm
  | cons object objects ih =>
    obtain ⟨binding, hmem, hkey, hrun⟩ := h.bound object List.mem_cons_self
    have hnamed : binding.objectKind = object.objectKind ∧ binding.objectId = object.objectId := by
      simpa [BindingRow.key, InvalidatedObject.key] using hkey
    obtain ⟨hget, hfind⟩ := find?_of_key h.keys hmem hkey
    rw [hrun] at hfind
    obtain ⟨middle, hmiddle, hledger, hwatermarks, hnoted, hbindings⟩ :=
      materializeObject_spec now (show store.binding? event.runId object = _ from hfind)
    -- whether the binding is valid or not, its row is the only one of the object
    have hmarked : middle.bindings = updateWhere (fun row => row.state == .valid &&
        object.key == row.key) (withdrawn event now) store.bindings := by
      rw [hbindings]
      split
      · refine congrArg (updateWhere · (withdrawn event now) store.bindings) ?_
        funext row
        rw [Bool.eq_iff_iff]
        simp only [BindingRow.key, InvalidatedObject.key, Bool.and_eq_true, beq_iff_eq,
          Prod.mk.injEq]
        grind
      · next hinvalid =>
        refine (updateWhere_of_miss fun row hrow => ?_).symm
        rw [Bool.eq_false_iff]
        intro htest
        simp only [Bool.and_eq_true, beq_iff_eq] at htest
        have heq : row = binding :=
          List.inj_on_of_nodup_map h.keys hrow hmem (htest.2.symm.trans hkey.symm)
        exact hinvalid (heq ▸ htest.1)
    have hnew : middle.materializations = store.materializations ++
        [⟨event.kernelEventId, object.objectKind, object.objectId, store.stateOf object, now⟩] := by
      have hstate : store.stateOf object = binding.state := by
        unfold stateOf
        rw [hget]
        rfl
      rw [hnoted, hstate]
      unfold noted
      refine if_neg ?_
      rw [List.any_eq_true]
      rintro ⟨row, hrow, htest⟩
      simp only [Bool.and_eq_true, beq_iff_eq] at htest
      exact h.unknown object List.mem_cons_self row hrow htest.1.1 (Prod.ext htest.1.2 htest.2)
    have hcolumns : ∀ {κ : Type} (f : BindingRow → κ),
        (∀ row, f (withdrawn event now row) = f row) →
        middle.bindings.map f = store.bindings.map f := by
      intro κ f hf
      rw [hmarked]
      exact map_updateWhere hf store.bindings
    obtain ⟨hhead, htail⟩ := List.nodup_cons.mp h.distinct
    have hother : ∀ other ∈ objects, other.key ≠ object.key := by
      intro other hother heq
      exact hhead (heq ▸ List.mem_map_of_mem hother)
    have hrest : middle.Withdrawable event objects := by
      refine ⟨?_, ?_, htail, ?_⟩
      · rw [hcolumns BindingRow.key fun _ => rfl]
        exact h.keys
      · intro other hmemOther
        obtain ⟨row, hrow, hrowKey, hrowRun⟩ := h.bound other (List.mem_cons_of_mem _ hmemOther)
        have hpair : (row.key, row.runId) ∈ middle.bindings.map fun b => (b.key, b.runId) := by
          rw [hcolumns (fun b => (b.key, b.runId)) fun _ => rfl]
          exact List.mem_map.mpr ⟨row, hrow, rfl⟩
        obtain ⟨row', hrow', heq⟩ := List.mem_map.mp hpair
        obtain ⟨hkey', hrun'⟩ := Prod.mk.inj heq
        exact ⟨row', hrow', hkey'.trans hrowKey, hrun'.trans hrowRun⟩
      · intro other hmemOther row hrow hevent
        rw [hnew] at hrow
        rcases List.mem_append.mp hrow with hrow | hrow
        · exact h.unknown other (List.mem_cons_of_mem _ hmemOther) row hrow hevent
        · rw [List.mem_singleton.mp hrow]
          exact fun heq => hother other hmemOther heq.symm
    obtain ⟨done, hdone, hledger', hwatermarks', hmaterializations, hbindings'⟩ := ih hrest
    refine ⟨done, bind_eq_ok.mpr ⟨middle, hmiddle, hdone⟩, hledger'.trans hledger,
      hwatermarks'.trans hwatermarks, ?_, ?_⟩
    · have hstates : ∀ other ∈ objects, middle.stateOf other = store.stateOf other := by
        intro other hmemOther
        unfold stateOf getBinding?
        rw [hmarked, find?_updateWhere_of_miss]
        · intro row htest
          simp only [Bool.and_eq_true, beq_iff_eq] at htest
          rw [Bool.eq_false_iff]
          intro hnames
          simp only [Bool.and_eq_true, beq_iff_eq] at hnames
          refine hother other hmemOther (Eq.trans ?_ htest.2.symm)
          exact (Prod.ext hnames.1 hnames.2).symm
        · intro row htest
          simp only [Bool.and_eq_true, beq_iff_eq] at htest
          rw [Bool.eq_false_iff]
          intro hnames
          simp only [withdrawn, Bool.and_eq_true, beq_iff_eq] at hnames
          refine hother other hmemOther (Eq.trans ?_ htest.2.symm)
          exact (Prod.ext hnames.1 hnames.2).symm
      rw [hmaterializations, hnew, List.append_assoc, List.map_cons]
      refine congrArg (store.materializations ++ ·) ?_
      rw [List.singleton_append]
      refine congrArg (_ :: ·) (List.map_congr_left fun other hmemOther => ?_)
      rw [hstates other hmemOther]
    · rw [hbindings', hmarked, updateWhere_updateWhere (fun _ => rfl)]
      refine congrArg (updateWhere · (withdrawn event now) store.bindings) ?_
      funext row
      rw [List.any_cons, Bool.and_or_distrib_left]

theorem bound_of_validateBindings {intent : InvalidationIntent}
    (h : store.validateBindings runId intent = .ok ()) : ∀ object ∈ intent.affectedObjects,
      ∃ binding ∈ store.bindings, binding.key = object.key ∧ binding.runId = runId := by
  unfold validateBindings at h
  obtain ⟨⟨⟩, hobjects, -⟩ := bind_eq_ok.mp h
  rw [checkAll_eq_ok] at hobjects
  intro object hobject
  have hcheck := hobjects object hobject
  rw [rejectIf_eq_ok, Bool.not_eq_false', Option.any_eq_true] at hcheck
  obtain ⟨binding, hbinding, hmatches⟩ := hcheck
  have hnames := List.find?_some hbinding
  simp only [Bool.and_eq_true, beq_iff_eq] at hnames hmatches
  exact ⟨binding, List.mem_of_find?_eq_some hbinding, Prod.ext hnames.1 hnames.2, hmatches.1.1⟩

/-! ## The invariant of the ledger -/

/-- What the tables of the engine satisfy. The events are numbered as they were recorded, those
of one run also by their revisions, each within the watermark of its run; their objects are
bound in their run. -/
structure Recorded (store : Store) : Prop where
  ordered : store.ledger.Pairwise fun a b => a.sequence < b.sequence
  positive : ∀ event ∈ store.ledger, 0 < event.sequence
  revisions : store.ledger.Pairwise fun a b =>
    a.runId = b.runId → a.researchRevision < b.researchRevision
  events : (store.ledger.map (·.kernelEventId)).Nodup
  within : ∀ event ∈ store.ledger,
    event.sequence ≤ (store.watermark event.runId).recordedSequence ∧
      event.researchRevision ≤ (store.watermark event.runId).recordedRevision
  numbered : ∀ runId, (store.watermark runId).recordedSequence < store.nextSequence
  processed : ∀ runId,
    (store.watermark runId).processedSequence ≤ (store.watermark runId).recordedSequence
  keys : (store.bindings.map BindingRow.key).Nodup
  bound : ∀ event ∈ store.ledger, ∀ object ∈ event.intent.affectedObjects,
    ∃ binding ∈ store.bindings, binding.key = object.key ∧ binding.runId = event.runId
  distinct : ∀ event ∈ store.ledger, event.intent.distinct = true

/-- The tables before anything is written. -/
theorem recorded_empty : Recorded {} where
  ordered := List.Pairwise.nil
  positive event hevent := by cases hevent
  revisions := List.Pairwise.nil
  events := List.nodup_nil
  within event hevent := by cases hevent
  numbered runId := Nat.zero_lt_one
  processed runId := le_rfl
  keys := List.nodup_nil
  bound event hevent := by cases hevent
  distinct event hevent := by cases hevent

theorem Recorded.watermark?_eq (h : store.Recorded) (hevent : event ∈ store.ledger) :
    store.watermark? event.runId = some (store.watermark event.runId) := by
  have hwithin := (h.within event hevent).1
  have hpositive := h.positive event hevent
  unfold watermark at hwithin ⊢
  cases hfind : store.watermark? event.runId with
  | some row => rfl
  | none =>
    rw [hfind] at hwithin
    have hzero : event.sequence ≤ 0 := hwithin
    omega

/-- What leaves the ledger, takes back no watermark and keeps the objects bound keeps the
invariant. -/
theorem Recorded.of_ledger_eq (h : store.Recorded) (hledger : store'.ledger = store.ledger)
    (hsequence : ∀ runId, (store'.watermark runId).recordedSequence =
      (store.watermark runId).recordedSequence)
    (hrevision : ∀ runId, (store.watermark runId).recordedRevision ≤
      (store'.watermark runId).recordedRevision)
    (hprocessed : ∀ runId, (store'.watermark runId).processedSequence ≤
      (store'.watermark runId).recordedSequence)
    (hkeys : (store'.bindings.map BindingRow.key).Nodup)
    (hbound : ∀ binding ∈ store.bindings, ∃ binding' ∈ store'.bindings,
      binding'.key = binding.key ∧ binding'.runId = binding.runId) : store'.Recorded where
  ordered := hledger ▸ h.ordered
  positive := hledger ▸ h.positive
  revisions := hledger ▸ h.revisions
  events := hledger ▸ h.events
  within := by
    rw [hledger]
    intro event hevent
    obtain ⟨hevents, hrevisions⟩ := h.within event hevent
    rw [hsequence]
    exact ⟨hevents, hrevisions.trans (hrevision event.runId)⟩
  numbered := by
    intro runId
    have hnext : store'.nextSequence = store.nextSequence := by
      unfold nextSequence
      rw [hledger]
    rw [hsequence, hnext]
    exact h.numbered runId
  processed := hprocessed
  keys := hkeys
  bound := by
    rw [hledger]
    intro event hevent object hobject
    obtain ⟨binding, hbinding, hkey, hrun⟩ := h.bound event hevent object hobject
    obtain ⟨binding', hbinding', hkey', hrun'⟩ := hbound binding hbinding
    exact ⟨binding', hbinding', hkey'.trans hkey, hrun'.trans hrun⟩
  distinct := hledger ▸ h.distinct

/-- A registration keeps the invariant. -/
theorem Recorded.registerBinding (h : store.Recorded)
    (hok : store.registerBinding b now = .ok store') : store'.Recorded := by
  rcases registerBinding_spec hok with ⟨rfl, -⟩ | ⟨hnonneg, hfresh, hstore⟩
  · exact h
  have hwatermark : ∀ runId, store'.watermark runId = if runId = b.runId ∧ store.Advances b then
      { store.watermark runId with
        recordedRevision := b.boundRevision.toNat
        processedRevision := b.boundRevision.toNat
        updatedAt := now }
      else store.watermark runId := watermark_registered (congrArg Store.watermarks hstore)
  have hbindings : store'.bindings = store.bindings ++ [b.row] := by rw [hstore]
  have hledger : store'.ledger = store.ledger := by rw [hstore]
  refine h.of_ledger_eq hledger ?_ ?_ ?_ ?_ ?_
  · intro runId
    rw [hwatermark]
    split <;> rfl
  · intro runId
    rw [hwatermark]
    split
    · next hadvances =>
      have hlt := hadvances.2.2
      rw [← hadvances.1] at hlt
      show (store.watermark runId).recordedRevision ≤ b.boundRevision.toNat
      omega
    · exact le_rfl
  · intro runId
    rw [hwatermark]
    split <;> exact h.processed runId
  · rw [hbindings, List.map_append]
    refine nodup_concat_of_fresh h.keys ?_
    intro key hkey heq
    obtain ⟨old, hold, rfl⟩ := List.mem_map.mp hkey
    obtain ⟨hkind, hid⟩ := Prod.mk.inj heq
    have hclash := hfresh old hold
    simp [BindingRow.clash, hkind, hid] at hclash
  · intro binding hbinding
    rw [hbindings]
    exact ⟨binding, List.mem_append_left _ hbinding, rfl, rfl⟩

/-- The recording of an event keeps the invariant. -/
theorem Recorded.record (h : store.Recorded) {P : Platform}
    (hok : store.record P invalidation now = .ok store') : store'.Recorded := by
  obtain ⟨intent, hintent, ⟨rfl, -⟩ | ⟨habove, hvalid, hfresh, hstore⟩⟩ := record_spec hok
  · exact h
  have hwatermark : ∀ runId, store'.watermark runId = if runId = invalidation.runId then
      { store.watermark runId with
        recordedSequence := store.nextSequence
        recordedRevision := invalidation.researchRevision.toNat
        updatedAt := now }
      else store.watermark runId := watermark_recorded (congrArg Store.watermarks hstore)
  have hledger : store'.ledger = store.ledger ++ [store.eventRow P invalidation intent] := by
    rw [hstore]
  have hbindings : store'.bindings = store.bindings := by rw [hstore]
  have hnext : store.nextSequence < store'.nextSequence := by
    refine @lt_nextSequence store' (store.eventRow P invalidation intent) ?_
    rw [hledger]
    exact List.mem_append_right _ (List.mem_singleton_self _)
  constructor
  · rw [hledger, List.pairwise_append]
    refine ⟨h.ordered, List.pairwise_singleton _ _, ?_⟩
    intro old hold new hnew
    rw [List.mem_singleton.mp hnew]
    exact lt_nextSequence hold
  · intro event hevent
    rw [hledger] at hevent
    rcases List.mem_append.mp hevent with hold | hnew
    · exact h.positive event hold
    · rw [List.mem_singleton.mp hnew]
      exact Nat.succ_pos _
  · rw [hledger, List.pairwise_append]
    refine ⟨h.revisions, List.pairwise_singleton _ _, ?_⟩
    intro old hold new hnew hrun
    rw [List.mem_singleton.mp hnew] at hrun ⊢
    have hbound := (h.within old hold).2
    have hrun' : old.runId = invalidation.runId := hrun
    rw [hrun'] at hbound
    show old.researchRevision < invalidation.researchRevision.toNat
    omega
  · rw [hledger, List.map_append]
    refine nodup_concat_of_fresh h.events ?_
    intro id hid heq
    obtain ⟨old, hold, rfl⟩ := List.mem_map.mp hid
    have hclash := hfresh old hold
    simp [LedgerRow.clash, heq, eventRow] at hclash
  · intro event hevent
    rw [hledger] at hevent
    rw [hwatermark]
    rcases List.mem_append.mp hevent with hold | hnew
    · obtain ⟨hsequence, hrevision⟩ := h.within event hold
      split
      · next hrun =>
        rw [hrun] at hrevision
        refine ⟨Nat.le_of_lt (lt_nextSequence hold), ?_⟩
        show event.researchRevision ≤ invalidation.researchRevision.toNat
        omega
      · exact ⟨hsequence, hrevision⟩
    · rw [List.mem_singleton.mp hnew, if_pos (by rfl)]
      exact ⟨le_rfl, le_rfl⟩
  · intro runId
    rw [hwatermark]
    split
    · exact hnext
    · exact (h.numbered runId).trans hnext
  · intro runId
    rw [hwatermark]
    split
    · exact (h.processed runId).trans (Nat.le_of_lt (h.numbered runId))
    · exact h.processed runId
  · rw [hbindings]
    exact h.keys
  · intro event hevent object hobject
    rw [hledger] at hevent
    rw [hbindings]
    rcases List.mem_append.mp hevent with hold | hnew
    · exact h.bound event hold object hobject
    · rw [List.mem_singleton.mp hnew] at hobject ⊢
      exact bound_of_validateBindings hvalid object hobject
  · intro event hevent
    rw [hledger] at hevent
    rcases List.mem_append.mp hevent with hold | hnew
    · exact h.distinct event hold
    · rw [List.mem_singleton.mp hnew]
      exact InvalidationIntent.distinct_of_ofMapping hintent

/-- The withdrawal of objects leaves the ledger, the watermarks and what was registered. -/
theorem materialize_frame (h : materialize event now objects store = .ok store') :
    store'.ledger = store.ledger ∧ store'.watermarks = store.watermarks ∧
      store'.bindings.map BindingRow.registered = store.bindings.map BindingRow.registered := by
  induction objects generalizing store with
  | nil =>
    cases h
    exact ⟨rfl, rfl, rfl⟩
  | cons object objects ih =>
    obtain ⟨middle, hmiddle, hrest⟩ := bind_eq_ok.mp h
    obtain ⟨hledger, hwatermarks, hregistered⟩ := ih hrest
    have hbinding : ∃ binding, store.binding? event.runId object = some binding := by
      unfold materializeObject at hmiddle
      obtain ⟨binding, hbinding, -⟩ := bind_eq_ok.mp hmiddle
      exact ⟨binding, orReject_eq_ok.mp hbinding⟩
    obtain ⟨binding, hbinding⟩ := hbinding
    obtain ⟨other, hother, hledger', hwatermarks', -, hbindings⟩ :=
      materializeObject_spec now hbinding
    rw [hmiddle] at hother
    cases hother
    refine ⟨hledger.trans hledger', hwatermarks.trans hwatermarks', hregistered.trans ?_⟩
    rw [hbindings]
    split
    · exact map_updateWhere (by exact fun _ => rfl) store.bindings
    · rfl

variable {later : Stamp}

/-- The watermark of a run after one of its events was carried out. -/
theorem watermark_carried (hknown : (store.watermark? runId).isSome = true)
    (hwatermarks : store'.watermarks = updateWhere (·.runId == runId)
      (fun row => { row with
        processedSequence := event.sequence
        processedRevision := event.researchRevision
        updatedAt := later }) store.watermarks) (other : Id) :
    store'.watermark other = if other = runId then
      { store.watermark other with
        processedSequence := event.sequence
        processedRevision := event.researchRevision
        updatedAt := later }
      else store.watermark other := by
  unfold watermark watermark? at *
  rw [hwatermarks, find?_updateWhere (by exact fun _ _ => rfl)]
  cases hfind : store.watermarks.find? (·.runId == other) with
  | none =>
    have hrun : other ≠ runId := by
      rintro rfl
      rw [hfind] at hknown
      cases hknown
    rw [if_neg hrun]
    rfl
  | some row =>
    have hid : row.runId = other := by simpa using List.find?_some hfind
    rw [Option.map_some, Option.getD_some, Option.getD_some]
    by_cases hrun : other = runId
    · rw [if_pos (beq_iff_eq.mpr (hid.trans hrun)), if_pos hrun]
    · rw [if_neg (fun h => hrun (hid.symm.trans (beq_iff_eq.mp h))), if_neg hrun]

/-- What a turn of `catchUp` does to the watermark: the next event of the run, which is a row
of the ledger that was not carried out, has been carried out. -/
theorem catchUp_watermark (h : store.Recorded) (hok : store.catchUp runId now later = .ok store') :
    (store' = store ∧ ∀ event ∈ store.ledger, event.runId = runId →
        event.sequence ≤ (store.watermark runId).processedSequence) ∨
      ∃ event done, event ∈ store.ledger ∧ event.runId = runId ∧
        (store.watermark runId).processedSequence < event.sequence ∧
        (∀ other ∈ store.ledger, other.runId = runId →
          (store.watermark runId).processedSequence < other.sequence →
            event.sequence ≤ other.sequence) ∧
        materialize event now event.intent.affectedObjects store = .ok done ∧
        store' = { done with watermarks := store'.watermarks } ∧
        ∀ other, store'.watermark other = if other = runId then
          { store.watermark other with
            processedSequence := event.sequence
            processedRevision := event.researchRevision
            updatedAt := later }
          else store.watermark other := by
  obtain ⟨watermark, hwatermark, hcases⟩ := catchUp_spec hok
  have hrun : watermark.runId = runId := runId_of_watermark? hwatermark
  have hdefault : store.watermark runId = watermark := by
    unfold Store.watermark watermark?
    rw [hwatermark]
    rfl
  rw [nextEvent_eq h.ordered, hrun] at hcases
  rw [hdefault]
  rcases hcases with ⟨hnone, rfl⟩ | ⟨event, done, hevent, hdone, -, -, hstore⟩
  · left
    refine ⟨rfl, ?_⟩
    intro event hevent heventRun
    have htest := List.find?_eq_none.mp hnone event hevent
    simpa [heventRun] using htest
  · right
    obtain ⟨hmem, htest⟩ := And.intro (List.mem_of_find?_eq_some hevent) (List.find?_some hevent)
    simp only [Bool.and_eq_true, beq_iff_eq, decide_eq_true_eq] at htest
    obtain ⟨hledger, hwatermarks, -⟩ := materialize_frame hdone
    refine ⟨event, done, hmem, htest.1, htest.2, ?_, hdone, by rw [hstore], ?_⟩
    · intro other hother hotherRun hpending
      obtain ⟨before, after, hsplit, hbefore⟩ := (List.find?_eq_some_iff_append.mp hevent).2
      rw [hsplit] at hother
      have hordered := h.ordered
      rw [hsplit, List.pairwise_append] at hordered
      rcases List.mem_append.mp hother with hearly | hlate
      · have hmiss := hbefore other hearly
        simp [hotherRun, hpending] at hmiss
      · rcases List.mem_cons.mp hlate with rfl | hlate
        · exact le_rfl
        · exact Nat.le_of_lt ((List.pairwise_cons.mp hordered.2.1).1 other hlate)
    · have hsame : ∀ other, done.watermark other = store.watermark other := by
        intro other
        unfold Store.watermark watermark?
        rw [hwatermarks]
      have hknown : (done.watermark? runId).isSome = true := by
        unfold watermark?
        rw [hwatermarks, hwatermark]
        rfl
      intro other
      rw [watermark_carried hknown (by rw [hstore]) other, hsame]

/-- A turn of `catchUp` keeps the invariant. -/
theorem Recorded.catchUp (h : store.Recorded) (hok : store.catchUp runId now later = .ok store') :
    store'.Recorded := by
  rcases catchUp_watermark h hok with
    ⟨rfl, -⟩ | ⟨event, done, hevent, hrun, -, -, hdone, hstore, hwatermark⟩
  · exact h
  obtain ⟨hledger, -, hregistered⟩ := materialize_frame hdone
  have hledger' : store'.ledger = store.ledger := by rw [hstore, hledger]
  have hregistered' : store'.bindings.map BindingRow.registered =
      store.bindings.map BindingRow.registered := by rw [hstore, hregistered]
  refine h.of_ledger_eq hledger' ?_ ?_ ?_ ?_ ?_
  · intro other
    rw [hwatermark]
    split <;> rfl
  · intro other
    rw [hwatermark]
    split <;> exact le_rfl
  · intro other
    rw [hwatermark]
    split
    · next hother =>
      have hwithin := (h.within event hevent).1
      rw [hrun, ← hother] at hwithin
      exact hwithin
    · exact h.processed other
  · have hkeys := congrArg (List.map BindingRow.key) hregistered'
    rw [List.map_map, List.map_map] at hkeys
    exact (show store'.bindings.map BindingRow.key = store.bindings.map BindingRow.key from
      hkeys) ▸ h.keys
  · intro binding hbinding
    have hmem : binding.registered ∈ store'.bindings.map BindingRow.registered :=
      hregistered' ▸ List.mem_map_of_mem hbinding
    obtain ⟨binding', hbinding', heq⟩ := List.mem_map.mp hmem
    have hkey : binding'.registered.key = binding.registered.key := by rw [heq]
    have hrun' : binding'.registered.runId = binding.registered.runId := by rw [heq]
    exact ⟨binding', hbinding', hkey, hrun'⟩

end Store

end ResearchKernel.Product
