import ResearchKernel.Product.Revocation

/-!
# When an object counts as restored

A recovery names one revoked target, while the report that an object is restored looks at
revisions only: a recovery above every processed event that lists the object is enough, also
when the object depends on the closure of another revoked target. This file describes the report
by the events and the recoveries of the object, and says which steps keep it from being given
too early.
-/

namespace ResearchKernel.Product

open Foundation Store

namespace RevocationStore

/-! ## Events and recoveries of an object -/

/-- A processed event of a run lists an object. -/
def Withdrew (tables : RevocationStore) (runId : Id) (kind : AuthorityObjectKind) (objectId : Id)
    (event : LedgerRow) : Prop :=
  event ∈ tables.engine.ledger ∧ tables.engine.Carried event ∧ event.runId = runId ∧
    event.intent.lists kind objectId = true

def Recovers (tables : RevocationStore) (runId : Id) (kind : AuthorityObjectKind) (objectId : Id)
    (row : RecoveryRow) : Prop :=
  row ∈ tables.recoveries ∧ row.runId = runId ∧ row.restoredObjectKind = kind ∧
    row.restoredObjectId = objectId

/-- A recovery of an object is above every processed event that lists it. -/
def Outlives (tables : RevocationStore) (runId : Id) (kind : AuthorityObjectKind) (objectId : Id) :
    Prop :=
  ∃ row, tables.Recovers runId kind objectId row ∧
    ∀ event, tables.Withdrew runId kind objectId event → event.researchRevision < row.kernelRevision

/-- A recovery of an object covers a revoked target. -/
def Covered (tables : RevocationStore) (runId : Id) (kind : AuthorityObjectKind) (objectId : Id)
    (targetFactId : Id) : Prop :=
  ∃ row, tables.Recovers runId kind objectId row ∧ row.revokedTargetFactId = targetFactId

/-- What the tables satisfy: those of the engine are a view of its ledger, and only withdrawn
objects were recovered. -/
structure Restorable (tables : RevocationStore) : Prop where
  recorded : tables.engine.Recorded
  view : ∃ processedAt, tables.engine.Materialized processedAt
  positive : ∀ row ∈ tables.recoveries, 0 < row.kernelRevision
  withdrawn : ∀ row ∈ tables.recoveries, ∃ binding ∈ tables.engine.bindings,
    binding.key = (row.restoredObjectKind, row.restoredObjectId) ∧ binding.runId = row.runId ∧
      binding.state = .invalidated

variable {tables tables' : RevocationStore} {runId : Id} {kind : AuthorityObjectKind}
  {objectId : Id}

/-! ## The report -/

/-- The revision up to which an object is withdrawn is that of a processed event. -/
theorem lt_invalidatedRevision (h : tables.Restorable) {n : ℕ} :
    n < tables.invalidatedRevision runId kind objectId ↔
      ∃ event, tables.Withdrew runId kind objectId event ∧ n < event.researchRevision := by
  obtain ⟨processedAt, hview⟩ := h.view
  unfold invalidatedRevision
  rw [lt_foldl_max]
  constructor
  · rintro ⟨revision, hmem, hlt⟩
    obtain ⟨row, hrow, hmem⟩ := List.mem_flatMap.mp hmem
    obtain ⟨event, hevent, rfl⟩ := List.mem_map.mp hmem
    obtain ⟨hrow', hnames⟩ := List.mem_filter.mp hrow
    obtain ⟨hledger, hids⟩ := List.mem_filter.mp hevent
    simp only [Bool.and_eq_true, beq_iff_eq] at hnames hids
    obtain ⟨noted, hnoted, hcarried, object, hobject, rfl⟩ := (hview.rows row).mp hrow'
    have hsame : event = noted := eq_of_kernelEventId h.recorded hledger hnoted hids.1
    subst hsame
    refine ⟨event, ⟨hledger, hcarried, hids.2, ?_⟩, hlt⟩
    rw [InvalidationIntent.lists_iff]
    exact ⟨object, hobject, hnames.1, hnames.2⟩
  · rintro ⟨event, ⟨hevent, hcarried, hrun, hlists⟩, hlt⟩
    obtain ⟨object, hobject, hkind, hid⟩ := InvalidationIntent.lists_iff.mp hlists
    have hrow : tables.engine.note processedAt event object ∈ tables.engine.materializations :=
      (hview.rows _).mpr ⟨event, hevent, hcarried, object, hobject, rfl⟩
    refine ⟨event.researchRevision, List.mem_flatMap.mpr ⟨_, List.mem_filter.mpr ⟨hrow, ?_⟩,
      List.mem_map.mpr ⟨event, List.mem_filter.mpr ⟨hevent, ?_⟩, rfl⟩⟩, hlt⟩
    · simp [note, hkind, hid]
    · simp [note, hrun]

theorem lt_recoveredRevision {n : ℕ} : n < tables.recoveredRevision runId kind objectId ↔
    ∃ row, tables.Recovers runId kind objectId row ∧ n < row.kernelRevision := by
  unfold recoveredRevision
  rw [lt_foldl_max]
  simp only [List.mem_map, List.mem_filter, Bool.and_eq_true, beq_iff_eq, Recovers]
  constructor
  · rintro ⟨revision, ⟨row, ⟨hrow, ⟨hrun, hkind⟩, hid⟩, rfl⟩, hlt⟩
    exact ⟨row, ⟨hrow, hrun, hkind, hid⟩, hlt⟩
  · rintro ⟨row, ⟨hrow, hrun, hkind, hid⟩, hlt⟩
    exact ⟨_, ⟨row, ⟨hrow, ⟨hrun, hkind⟩, hid⟩, rfl⟩, hlt⟩

/-- The comparison of revisions finds out whether a recovery is above all events. -/
theorem invalidated_lt_recovered (h : tables.Restorable) :
    tables.invalidatedRevision runId kind objectId < tables.recoveredRevision runId kind objectId ↔
      tables.Outlives runId kind objectId := by
  rw [lt_recoveredRevision]
  refine exists_congr fun row => and_congr_right fun hrow => ?_
  constructor
  · intro hlt event hevent
    by_contra hle
    have habove : event.researchRevision - 1 < tables.invalidatedRevision runId kind objectId :=
      (lt_invalidatedRevision h).mpr ⟨event, hevent, by have := h.positive row hrow.1; omega⟩
    omega
  · intro hall
    by_contra hle
    have hpositive := h.positive row hrow.1
    have hbelow : row.kernelRevision - 1 < tables.invalidatedRevision runId kind objectId := by omega
    obtain ⟨event, hevent, hlt⟩ := (lt_invalidatedRevision h).mp hbelow
    have := hall event hevent
    omega

theorem getBinding?_eq_some (h : tables.engine.Recorded) {binding : BindingRow} :
    tables.engine.getBinding? kind objectId = some binding ↔
      binding ∈ tables.engine.bindings ∧ binding.key = (kind, objectId) := by
  constructor
  · intro hfind
    have hnames := List.find?_some hfind
    simp only [Bool.and_eq_true, beq_iff_eq] at hnames
    exact ⟨List.mem_of_find?_eq_some hfind, Prod.ext hnames.1 hnames.2⟩
  · rintro ⟨hmem, hkey⟩
    exact (find?_of_key h.keys hmem hkey).1

/-- An object is reported restored if it is bound in the run and a recovery is above all events
that list it. -/
theorem effectiveState_restored (h : tables.Restorable) :
    tables.effectiveState runId kind objectId = .ok .restored ↔
      tables.Outlives runId kind objectId := by
  unfold effectiveState
  constructor
  · intro hok
    obtain ⟨binding, -, hok⟩ := bind_eq_ok.mp hok
    obtain ⟨⟨⟩, -, hok⟩ := bind_eq_ok.mp hok
    split at hok
    · cases hok
    · split at hok
      · next hlt => exact (invalidated_lt_recovered h).mp hlt
      · cases hok
  · intro houtlives
    obtain ⟨row, ⟨hrow, hrun, hkind, hid⟩, -⟩ := id houtlives
    obtain ⟨binding, hmem, hkey, hbound, hstate⟩ := h.withdrawn row hrow
    rw [hkind, hid] at hkey
    refine bind_eq_ok.mpr ⟨binding, orReject_eq_ok.mpr
      ((getBinding?_eq_some h.recorded).mpr ⟨hmem, hkey⟩), ?_⟩
    refine bind_eq_ok.mpr ⟨(), ?_, ?_⟩
    · rw [rejectIf_eq_ok, bne_eq_false_iff_eq, hbound, hrun]
    · rw [hstate, if_neg (by decide), if_pos ((invalidated_lt_recovered h).mpr houtlives)]
      rfl

/-! ## What the calls write -/

variable {now : Stamp}

/-- A dependency that is registered belongs to an object of the run. -/
theorem registerDependency_spec {factId : Id}
    (hok : tables.registerDependency kind objectId factId runId now = .ok tables') :
    (∃ binding, tables.engine.getBinding? kind objectId = some binding ∧ binding.runId = runId) ∧
      (tables' = { tables with
        dependencies := tables.dependencies ++ [⟨kind, objectId, factId, runId, now⟩] } ∨
      tables' = tables ∧ ∃ row ∈ tables.dependencies, row.objectKind = kind ∧
        row.objectId = objectId ∧ row.factId = factId ∧ row.runId = runId) := by
  unfold registerDependency at hok
  obtain ⟨binding, hbinding, hok⟩ := bind_eq_ok.mp hok
  obtain ⟨⟨⟩, hscope, hok⟩ := bind_eq_ok.mp hok
  rw [orReject_eq_ok] at hbinding
  rw [rejectIf_eq_ok, Bool.or_eq_false_iff, bne_eq_false_iff_eq] at hscope
  refine ⟨⟨binding, hbinding, hscope.1⟩, ?_⟩
  split at hok
  · exact Or.inl (pure_eq_ok.mp hok).symm
  · next existing hfind =>
    obtain ⟨⟨⟩, hsame, hok⟩ := bind_eq_ok.mp hok
    rw [rejectIf_eq_ok, bne_eq_false_iff_eq] at hsame
    have hnames := List.find?_some hfind
    simp only [Bool.and_eq_true, beq_iff_eq] at hnames
    exact Or.inr ⟨(pure_eq_ok.mp hok).symm, existing, List.mem_of_find?_eq_some hfind,
      hnames.1.1, hnames.1.2, hnames.2, hsame⟩

/-- A preview is kept as an active row. -/
theorem preview_spec {P : Platform} {computed : RevocationClosure} {targetFactId previewId : Id}
    {row : PreviewRow}
    (hok : tables.preview P computed runId targetFactId previewId now = .ok (tables', row)) :
    tables' = { tables with previews := tables.previews ++ [row] } ∧
      row = ⟨previewId, computed, previewDigest P computed, .active, now, none, none, none⟩ ∧
      computed.runId = runId ∧ computed.targetFactId = targetFactId ∧
      ∀ old ∈ tables.previews, old.previewId ≠ previewId ∧
        old.previewDigest ≠ previewDigest P computed := by
  unfold preview at hok
  obtain ⟨⟨⟩, hscope, hok⟩ := bind_eq_ok.mp hok
  obtain ⟨previews, hinsert, hok⟩ := bind_eq_ok.mp hok
  rw [rejectIf_eq_ok, Bool.or_eq_false_iff, bne_eq_false_iff_eq, bne_eq_false_iff_eq] at hscope
  obtain ⟨hfresh, rfl⟩ := insertRow_eq_some.mp (orReject_eq_ok.mp hinsert)
  cases pure_eq_ok.mp hok
  refine ⟨rfl, rfl, hscope.1, hscope.2, ?_⟩
  intro old hold
  have hclash := hfresh old hold
  rw [Bool.or_eq_false_iff, beq_eq_false_iff_ne, beq_eq_false_iff_ne] at hclash
  exact ⟨hclash.1.symm, hclash.2.symm⟩

/-- The preview of a confirmation, marked. -/
def markPreview (tables : RevocationStore) (previewId : Id) (change : PreviewRow → PreviewRow) :
    RevocationStore :=
  { tables with
    previews := updateWhere (fun row => row.previewId == previewId && row.state == .active) change
      tables.previews }

/-- A confirmation writes nothing, or marks an active preview as stale or as consumed; only the
last is a success. -/
theorem confirm_cases (tables : RevocationStore) (previewId : Id) (digest : Digest)
    (kernelEventId : Id) (kernelRevision : ℤ) (recomputed : Option RevocationClosure)
    (now : Stamp) :
    ((tables.confirm previewId digest kernelEventId kernelRevision recomputed now).1 = tables ∨
      (tables.confirm previewId digest kernelEventId kernelRevision recomputed now).1 =
        tables.markPreview previewId
          fun row => { row with state := .stale, staleAt := some now }) ∧
      (∀ confirmed,
        (tables.confirm previewId digest kernelEventId kernelRevision recomputed now).2 ≠
          .ok confirmed) ∨
    ∃ row event, tables.previews.find? (·.previewId == previewId) = some row ∧
      row.state = .active ∧ row.previewDigest = digest ∧ recomputed = some row.closure ∧
      row.closure.researchRevision < kernelRevision ∧
      tables.invalidation row.closure kernelEventId kernelRevision = .ok event ∧
      tables.confirm previewId digest kernelEventId kernelRevision recomputed now =
        (tables.markPreview previewId fun row => { row with
          state := .consumed
          consumedAt := some now
          kernelEventId := some kernelEventId },
        .ok ⟨previewId, kernelEventId, kernelRevision, event⟩) := by
  unfold confirm
  split
  · exact Or.inl ⟨Or.inl rfl, by simp⟩
  cases hfind : tables.previews.find? (·.previewId == previewId) with
  | none => exact Or.inl ⟨Or.inl rfl, by simp⟩
  | some row =>
    dsimp only
    split
    · exact Or.inl ⟨Or.inl rfl, by simp⟩
    next hactive =>
    cases recomputed with
    | none => exact Or.inl ⟨Or.inl rfl, by simp⟩
    | some current =>
      dsimp only
      split
      · exact Or.inl ⟨Or.inr rfl, by simp⟩
      next hsame =>
      simp only [not_or, not_not, not_le] at hsame
      obtain ⟨rfl, hlt⟩ := hsame
      simp only [Bool.or_eq_true, bne_iff_ne, not_or, not_not] at hactive
      cases hevent : tables.invalidation row.closure kernelEventId kernelRevision with
      | error error => exact Or.inl ⟨Or.inl rfl, by simp⟩
      | ok event =>
        exact Or.inr ⟨row, event, rfl, hactive.1, hactive.2, rfl, hlt, hevent, rfl⟩

/-- The tables with the recoveries of some objects. -/
def withRecoveries (tables : RevocationStore) (receipt : KernelReplacementReceipt) (now : Stamp)
    (objects : List ReplacementObject) : RevocationStore :=
  { tables with recoveries := tables.recoveries ++ objects.map (recoveryRow receipt now) }

variable {receipt : KernelReplacementReceipt}

/-- Only withdrawn objects that depend on the revoked target are recovered. -/
theorem recoverObjects_spec {objects : List ReplacementObject}
    (hok : recoverObjects receipt now objects tables = .ok tables') :
    tables' = tables.withRecoveries receipt now objects ∧ ∀ object ∈ objects,
      (∃ binding ∈ tables.engine.bindings,
        binding.key = (object.objectKind, object.objectId) ∧ binding.runId = receipt.runId ∧
        binding.state = .invalidated) ∧
      tables.dependsOnRevoked receipt.runId object.objectKind object.objectId
        receipt.revokedTargetFactId = true := by
  induction objects generalizing tables with
  | nil =>
    cases hok
    unfold withRecoveries
    rw [List.map_nil, List.append_nil]
    exact ⟨rfl, fun object hobject => by cases hobject⟩
  | cons object objects ih =>
    unfold recoverObjects at hok
    obtain ⟨⟨⟩, hbound, hok⟩ := bind_eq_ok.mp hok
    obtain ⟨recoveries, hinsert, hok⟩ := bind_eq_ok.mp hok
    obtain ⟨-, rfl⟩ := insertRow_eq_some.mp (orReject_eq_ok.mp hinsert)
    rw [rejectIf_eq_ok, Bool.or_eq_false_iff, Bool.not_eq_false', Bool.not_eq_false',
      Option.any_eq_true] at hbound
    obtain ⟨⟨binding, hfind, hstate⟩, hdepends⟩ := hbound
    rw [Bool.and_eq_true, beq_iff_eq, beq_iff_eq] at hstate
    have hnames := List.find?_some hfind
    simp only [Bool.and_eq_true, beq_iff_eq] at hnames
    obtain ⟨rfl, hrest⟩ := ih hok
    refine ⟨?_, ?_⟩
    · unfold withRecoveries
      rw [List.map_cons, List.append_assoc, List.singleton_append]
    · intro other hother
      rcases List.mem_cons.mp hother with rfl | hother
      · exact ⟨⟨binding, List.mem_of_find?_eq_some hfind, Prod.ext hnames.1 hnames.2, hstate.1,
          hstate.2⟩, hdepends⟩
      · exact hrest other hother

variable {inspected : Option ℤ}

/-- A replacement that is accepted has a positive revision and recovers the objects of its
receipt. -/
theorem recoverWithReplacement_spec
    (hok : tables.recoverWithReplacement receipt inspected now = .ok tables') :
    1 ≤ receipt.kernelRevision ∧
      tables' = tables.withRecoveries receipt now receipt.restoredObjects ∧
      ∀ object ∈ receipt.restoredObjects,
        (∃ binding ∈ tables.engine.bindings,
          binding.key = (object.objectKind, object.objectId) ∧ binding.runId = receipt.runId ∧
          binding.state = .invalidated) ∧
        tables.dependsOnRevoked receipt.runId object.objectKind object.objectId
          receipt.revokedTargetFactId = true := by
  unfold recoverWithReplacement at hok
  obtain ⟨⟨⟩, hreceipt, hok⟩ := bind_eq_ok.mp hok
  obtain ⟨verified, -, hok⟩ := bind_eq_ok.mp hok
  obtain ⟨⟨⟩, hverified, hok⟩ := bind_eq_ok.mp hok
  rw [rejectIf_eq_ok, bne_eq_false_iff_eq] at hverified
  subst hverified
  simp only [rejectIf_eq_ok, Bool.or_eq_false_iff, decide_eq_false_iff_not, not_lt] at hreceipt
  exact ⟨hreceipt.1.1.1.1.2, recoverObjects_spec hok⟩

/-! ## The tables stay restorable -/

/-- What leaves the tables of the engine and the recoveries keeps the invariant. -/
theorem Restorable.of_eq (h : tables.Restorable) (hengine : tables'.engine = tables.engine)
    (hrecoveries : tables'.recoveries = tables.recoveries) : tables'.Restorable where
  recorded := hengine ▸ h.recorded
  view := hengine ▸ h.view
  positive := hrecoveries ▸ h.positive
  withdrawn := by
    rw [hrecoveries, hengine]
    exact h.withdrawn

/-- A transaction of the engine keeps the invariant: what is withdrawn stays so. -/
theorem Restorable.engine {P : Platform} (h : tables.Restorable) (op : EngineOp) :
    Restorable { tables with engine := engineStep P tables.engine op } where
  recorded := recorded_engineStep h.recorded op
  view := materialized_engineStep h.recorded op h.view
  positive := h.positive
  withdrawn := by
    intro row hrow
    obtain ⟨binding, hmem, hkey, hrun, hstate⟩ := h.withdrawn row hrow
    obtain ⟨binding', hmem', hsame, hstate'⟩ := (grows_engineStep h.recorded op).binding h.view
      (materialized_engineStep (P := P) h.recorded op h.view) hmem
    have hkey' : binding'.registered.key = binding.registered.key :=
      congrArg BindingRow.key hsame
    have hrun' : binding'.registered.runId = binding.registered.runId :=
      congrArg BindingRow.runId hsame
    exact ⟨binding', hmem', hkey'.trans hkey, hrun'.trans hrun, hstate' hstate⟩

/-- A recovery keeps the invariant. -/
theorem Restorable.recover (h : tables.Restorable)
    (hok : tables.recoverWithReplacement receipt inspected now = .ok tables') :
    tables'.Restorable := by
  obtain ⟨hrevision, rfl, hobjects⟩ := recoverWithReplacement_spec hok
  constructor
  · exact h.recorded
  · exact h.view
  · intro row hrow
    rcases List.mem_append.mp hrow with hold | hnew
    · exact h.positive row hold
    · obtain ⟨object, -, rfl⟩ := List.mem_map.mp hnew
      have hnat : (recoveryRow receipt now object).kernelRevision = receipt.kernelRevision.toNat :=
        rfl
      omega
  · intro row hrow
    rcases List.mem_append.mp hrow with hold | hnew
    · exact h.withdrawn row hold
    · obtain ⟨object, hobject, rfl⟩ := List.mem_map.mp hnew
      exact (hobjects object hobject).1

/-- The tables after a call are those before it, or those that it returns. -/
theorem after_cases (tables : RevocationStore) (result : Except RevocationError RevocationStore) :
    tables.after result = tables ∧ (∀ tables', result ≠ .ok tables') ∨
      result = .ok (tables.after result) := by
  cases result with
  | ok tables' => exact Or.inr rfl
  | error error => exact Or.inl ⟨rfl, by simp⟩

/-- Every step keeps the invariant. -/
theorem Restorable.step {P : Platform} (h : tables.Restorable) (op : RevocationOp) :
    (revocationStep P tables op).Restorable := by
  cases op with
  | engine op => exact h.engine op
  | registerDependency kind objectId factId runId now =>
    rcases tables.after_cases (tables.registerDependency kind objectId factId runId now) with
      ⟨hsame, -⟩ | hok
    · exact h.of_eq (congrArg RevocationStore.engine hsame :) (congrArg recoveries hsame :)
    · rcases (registerDependency_spec hok).2 with hstore | ⟨hstore, -⟩
      · exact h.of_eq (congrArg RevocationStore.engine hstore :) (congrArg recoveries hstore :)
      · exact h.of_eq (congrArg RevocationStore.engine hstore :) (congrArg recoveries hstore :)
  | preview computed runId targetFactId previewId now =>
    rcases tables.after_cases
      ((tables.preview P computed runId targetFactId previewId now).map Prod.fst) with
      ⟨hsame, -⟩ | hok
    · exact h.of_eq (congrArg RevocationStore.engine hsame :) (congrArg recoveries hsame :)
    · obtain ⟨row, hok⟩ := map_fst_eq_ok.mp hok
      have hstore := (preview_spec hok).1
      exact h.of_eq (congrArg RevocationStore.engine hstore :) (congrArg recoveries hstore :)
  | confirm previewId digest kernelEventId kernelRevision recomputed now =>
    rcases tables.confirm_cases previewId digest kernelEventId kernelRevision recomputed now with
      ⟨hsame | hsame, -⟩ | ⟨row, event, -, -, -, -, -, -, hsame⟩
    · exact h.of_eq (congrArg RevocationStore.engine hsame :) (congrArg recoveries hsame :)
    · exact h.of_eq (congrArg RevocationStore.engine hsame :) (congrArg recoveries hsame :)
    · have hstore := congrArg Prod.fst hsame
      exact h.of_eq (congrArg RevocationStore.engine hstore :) (congrArg recoveries hstore :)
  | recover receipt inspected now =>
    rcases tables.after_cases (tables.recoverWithReplacement receipt inspected now) with
      ⟨hsame, -⟩ | hok
    · exact h.of_eq (congrArg RevocationStore.engine hsame :) (congrArg recoveries hsame :)
    · exact h.recover hok

/-- The tables before anything is written. -/
theorem restorable_empty : Restorable {} where
  recorded := recorded_empty
  view := ⟨fun _ => "", materialized_empty _⟩
  positive row hrow := by cases hrow
  withdrawn row hrow := by cases hrow

end RevocationStore

/-- The invariant holds in every state that the service reaches. -/
theorem restorable_revocationsReached (P : Platform) (ops : List RevocationOp) :
    (revocationsReached P ops).Restorable :=
  @runFrom_invariant RevocationStore RevocationOp (revocationStep P) (fun tables => tables.Restorable)
    {} RevocationStore.restorable_empty (fun _ op h => h.step op) ops

namespace RevocationStore

/-! ## Targets without a recovery -/

/-- Every revoked target of an object with a recovery above all events is covered. -/
def Replaced (tables : RevocationStore) : Prop :=
  ∀ runId kind objectId, tables.Outlives runId kind objectId → ∀ targetFactId,
    tables.dependsOnRevoked runId kind objectId targetFactId = true →
      tables.Covered runId kind objectId targetFactId

/-- What a step may do to objects with other revoked targets. A recovery is above all events that
list an object only if the other targets of the object are covered; a target that is revoked, or
that an object is found to depend on later, is covered if a recovery of the object is above all
events. -/
def ReplacesAll (tables : RevocationStore) : RevocationOp → Prop
  | .recover receipt inspected now =>
    (∃ tables', tables.recoverWithReplacement receipt inspected now = .ok tables') →
      ∀ object ∈ receipt.restoredObjects, ∀ targetFactId, targetFactId ≠ receipt.revokedTargetFactId →
        tables.dependsOnRevoked receipt.runId object.objectKind object.objectId targetFactId = true →
          (∀ event, tables.Withdrew receipt.runId object.objectKind object.objectId event →
            (event.researchRevision : ℤ) < receipt.kernelRevision) →
          tables.Covered receipt.runId object.objectKind object.objectId targetFactId
  | .confirm previewId digest kernelEventId kernelRevision recomputed now =>
    (∃ confirmed, (tables.confirm previewId digest kernelEventId kernelRevision recomputed now).2 =
        .ok confirmed) →
      ∀ preview ∈ tables.previews, preview.previewId = previewId → preview.state = .active →
        ∀ row ∈ tables.dependencies, row.runId = preview.closure.runId →
          row.factId ∈ preview.closure.affectedFactIds →
          tables.Outlives row.runId row.objectKind row.objectId →
          tables.Covered row.runId row.objectKind row.objectId preview.closure.targetFactId
  | .registerDependency kind objectId factId runId now =>
    (∃ tables', tables.registerDependency kind objectId factId runId now = .ok tables') →
      ∀ preview ∈ tables.previews, preview.state = .consumed → preview.closure.runId = runId →
        factId ∈ preview.closure.affectedFactIds → tables.Outlives runId kind objectId →
        tables.Covered runId kind objectId preview.closure.targetFactId
  | .engine _ => True
  | .preview .. => True

variable {tables tables' : RevocationStore} {runId : Id} {kind : AuthorityObjectKind}
  {objectId : Id}

theorem dependsOnRevoked_iff {targetFactId : Id} :
    tables.dependsOnRevoked runId kind objectId targetFactId = true ↔
      ∃ row ∈ tables.dependencies, row.objectKind = kind ∧ row.objectId = objectId ∧
        row.runId = runId ∧ ∃ preview ∈ tables.previews, preview.closure.runId = runId ∧
          row.factId ∈ preview.closure.affectedFactIds ∧
          preview.closure.targetFactId = targetFactId ∧ preview.state = .consumed := by
  unfold dependsOnRevoked
  simp only [List.any_eq_true, Bool.and_eq_true, beq_iff_eq, List.contains_iff_mem]
  constructor
  · rintro ⟨row, hrow, ⟨⟨hkind, hid⟩, rfl⟩, preview, hpreview, ⟨⟨hrun, hfact⟩, htarget⟩, hstate⟩
    exact ⟨row, hrow, hkind, hid, rfl, preview, hpreview, hrun, hfact, htarget, hstate⟩
  · rintro ⟨row, hrow, hkind, hid, rfl, preview, hpreview, hrun, hfact, htarget, hstate⟩
    exact ⟨row, hrow, ⟨⟨hkind, hid⟩, rfl⟩, preview, hpreview, ⟨⟨hrun, hfact⟩, htarget⟩, hstate⟩

/-- A transaction of the engine adds events only. -/
theorem Outlives.of_engine {P : Platform} (hrecorded : tables.engine.Recorded) {op : EngineOp}
    (h : Outlives { tables with engine := engineStep P tables.engine op } runId kind objectId) :
    tables.Outlives runId kind objectId := by
  obtain ⟨row, hrow, hall⟩ := h
  refine ⟨row, hrow, ?_⟩
  rintro event ⟨hmem, hcarried, hrun, hlists⟩
  have hgrows := grows_engineStep (P := P) hrecorded op
  exact hall event ⟨hgrows.ledger.subset hmem, hgrows.carried hcarried, hrun, hlists⟩

/-- A dependency that is registered leaves all targets covered exactly if those that it adds
are. -/
theorem replaced_registerDependency (hreplaced : tables.Replaced) {factId : Id} {now : Stamp}
    (hok : tables.registerDependency kind objectId factId runId now = .ok tables') :
    tables'.Replaced ↔ tables.ReplacesAll (.registerDependency kind objectId factId runId now) := by
  rcases (registerDependency_spec hok).2 with hstore | ⟨hstore, row, hrow, hkind, hid, hfact, hrun⟩
  · constructor
    · intro h _ preview hpreview hstate hrun hfact houtlives
      subst hstore
      refine h runId kind objectId houtlives _ (dependsOnRevoked_iff.mpr ?_)
      exact ⟨⟨kind, objectId, factId, runId, now⟩,
        List.mem_append_right _ (List.mem_singleton_self _), rfl, rfl, rfl, preview, hpreview, hrun,
        hfact, rfl, hstate⟩
    · intro hadds run' kind' id' houtlives target hdepends
      have hcond := hadds ⟨_, hok⟩
      subst hstore
      obtain ⟨row, hrow, hkind, hid, hrun, preview, hpreview, hscope, hfact, htarget, hstate⟩ :=
        dependsOnRevoked_iff.mp hdepends
      rcases List.mem_append.mp hrow with hold | hnew
      · exact hreplaced run' kind' id' houtlives target (dependsOnRevoked_iff.mpr
          ⟨row, hold, hkind, hid, hrun, preview, hpreview, hscope, hfact, htarget, hstate⟩)
      · cases List.mem_singleton.mp hnew
        subst hkind hid hrun htarget
        exact hcond preview hpreview hstate hscope hfact houtlives
  · subst hstore
    refine ⟨fun _ _ preview hpreview hstate hscope hfact' houtlives => ?_, fun _ => hreplaced⟩
    refine hreplaced runId kind objectId houtlives _ (dependsOnRevoked_iff.mpr ?_)
    exact ⟨row, hrow, hkind, hid, hrun, preview, hpreview, hscope, hfact ▸ hfact', rfl, hstate⟩

/-- A preview that is marked as anything but consumed revokes nothing. -/
theorem replaced_markPreview_of_not_consumed (hreplaced : tables.Replaced) {previewId : Id}
    {change : PreviewRow → PreviewRow} (hchange : ∀ row, (change row).state ≠ .consumed) :
    (tables.markPreview previewId change).Replaced := by
  intro runId kind objectId houtlives target hdepends
  refine hreplaced runId kind objectId houtlives target (dependsOnRevoked_iff.mpr ?_)
  obtain ⟨row, hrow, hkind, hid, hrun, preview, hpreview, hscope, hfact, htarget, hstate⟩ :=
    dependsOnRevoked_iff.mp hdepends
  obtain ⟨old, hold, hsame⟩ := mem_updateWhere.mp hpreview
  split at hsame
  · subst hsame
    exact absurd hstate (hchange old)
  · subst hsame
    exact ⟨row, hrow, hkind, hid, hrun, old, hold, hscope, hfact, htarget, hstate⟩

/-- A preview that is marked as consumed leaves all targets covered exactly if its target is, for
the objects that depend on its closure. -/
theorem replaced_markPreview (hreplaced : tables.Replaced) {previewId : Id}
    {change : PreviewRow → PreviewRow} (hclosure : ∀ row, (change row).closure = row.closure)
    (hchange : ∀ row, (change row).state = .consumed) :
    (tables.markPreview previewId change).Replaced ↔
      ∀ preview ∈ tables.previews, preview.previewId = previewId → preview.state = .active →
        ∀ row ∈ tables.dependencies, row.runId = preview.closure.runId →
          row.factId ∈ preview.closure.affectedFactIds →
          tables.Outlives row.runId row.objectKind row.objectId →
          tables.Covered row.runId row.objectKind row.objectId preview.closure.targetFactId := by
  constructor
  · intro h preview hpreview hid hactive row hrow hscope hfact houtlives
    refine h row.runId row.objectKind row.objectId houtlives _ (dependsOnRevoked_iff.mpr ?_)
    refine ⟨row, hrow, rfl, rfl, rfl, change preview, mem_updateWhere.mpr
      ⟨preview, hpreview, if_pos ?_⟩, ?_⟩
    · rw [hid, hactive]
      simp
    · rw [hclosure]
      exact ⟨hscope.symm, hfact, rfl, hchange preview⟩
  · intro hcond runId kind objectId houtlives target hdepends
    obtain ⟨row, hrow, hkind, hid, hrun, preview, hpreview, hscope, hfact, htarget, hstate⟩ :=
      dependsOnRevoked_iff.mp hdepends
    obtain ⟨old, hold, hsame⟩ := mem_updateWhere.mp hpreview
    split at hsame
    · next htest =>
      rw [Bool.and_eq_true, beq_iff_eq, beq_iff_eq] at htest
      subst hsame
      rw [hclosure] at hscope hfact htarget
      subst hkind hid hrun htarget
      exact hcond old hold htest.1 htest.2 row hrow hscope.symm hfact houtlives
    · subst hsame
      exact hreplaced runId kind objectId houtlives target (dependsOnRevoked_iff.mpr
        ⟨row, hrow, hkind, hid, hrun, old, hold, hscope, hfact, htarget, hstate⟩)

/-- A recovery leaves all targets covered exactly if the other targets of its objects are, unless
an event that lists the object is above it. -/
theorem replaced_recover (hreplaced : tables.Replaced) {receipt : KernelReplacementReceipt}
    {inspected : Option ℤ} {now : Stamp}
    (hok : tables.recoverWithReplacement receipt inspected now = .ok tables') :
    tables'.Replaced ↔ tables.ReplacesAll (.recover receipt inspected now) := by
  obtain ⟨hrevision, hstore, hobjects⟩ := recoverWithReplacement_spec hok
  have hnat : ∀ object, ((recoveryRow receipt now object).kernelRevision : ℤ) =
      receipt.kernelRevision := fun object => Int.toNat_of_nonneg (by omega)
  constructor
  · intro h _ object hobject target hother hdepends habove
    subst hstore
    obtain ⟨row, ⟨hrow, hrun, hkind, hid⟩, htarget⟩ := h receipt.runId object.objectKind
      object.objectId ⟨recoveryRow receipt now object, ⟨List.mem_append_right _
        (List.mem_map_of_mem hobject), rfl, rfl, rfl⟩, fun event hevent => by
          have hlt := habove event hevent
          have hrow := hnat object
          omega⟩ target hdepends
    rcases List.mem_append.mp hrow with hold | hnew
    · exact ⟨row, ⟨hold, hrun, hkind, hid⟩, htarget⟩
    · obtain ⟨_, -, rfl⟩ := List.mem_map.mp hnew
      exact absurd htarget.symm hother
  · intro hadds runId kind objectId houtlives target hdepends
    have hcond := hadds ⟨_, hok⟩
    subst hstore
    have hkept : tables.Covered runId kind objectId target →
        (tables.withRecoveries receipt now receipt.restoredObjects).Covered runId kind objectId
          target := by
      rintro ⟨row, ⟨hrow, hnames⟩, htarget⟩
      exact ⟨row, ⟨List.mem_append_left _ hrow, hnames⟩, htarget⟩
    obtain ⟨row, ⟨hrow, hrun, hkind, hid⟩, habove⟩ := houtlives
    rcases List.mem_append.mp hrow with hold | hnew
    · exact hkept (hreplaced runId kind objectId ⟨row, ⟨hold, hrun, hkind, hid⟩, habove⟩ target
        hdepends)
    · obtain ⟨object, hobject, rfl⟩ := List.mem_map.mp hnew
      subst hrun hkind hid
      by_cases hother : target = receipt.revokedTargetFactId
      · exact ⟨_, ⟨List.mem_append_right _ hnew, rfl, rfl, rfl⟩, hother.symm⟩
      · refine hkept (hcond object hobject target hother hdepends ?_)
        intro event hevent
        have hlt := habove event hevent
        have hrow := hnat object
        omega

/-- A step leaves all targets covered exactly if it replaces all that it has to. -/
theorem replaced_step_iff {P : Platform} (h : tables.Restorable) (hreplaced : tables.Replaced)
    (op : RevocationOp) :
    (revocationStep P tables op).Replaced ↔ tables.ReplacesAll op := by
  cases op with
  | engine op =>
    refine iff_of_true ?_ trivial
    intro runId kind objectId houtlives
    exact hreplaced runId kind objectId (houtlives.of_engine h.recorded)
  | registerDependency kind objectId factId runId now =>
    rcases tables.after_cases (tables.registerDependency kind objectId factId runId now) with
      ⟨hsame, hraises⟩ | hok
    · refine iff_of_true ?_ fun ⟨tables', hok⟩ => absurd hok (hraises tables')
      exact Eq.subst hsame.symm hreplaced
    · exact replaced_registerDependency hreplaced hok
  | preview computed runId targetFactId previewId now =>
    refine iff_of_true ?_ trivial
    rcases tables.after_cases
      ((tables.preview P computed runId targetFactId previewId now).map Prod.fst) with
      ⟨hsame, -⟩ | hok
    · exact Eq.subst hsame.symm hreplaced
    · obtain ⟨row, hok⟩ := map_fst_eq_ok.mp hok
      obtain ⟨hstore, hrow, -⟩ := preview_spec hok
      refine Eq.subst hstore.symm ?_
      intro runId kind objectId houtlives target hdepends
      refine hreplaced runId kind objectId houtlives target (dependsOnRevoked_iff.mpr ?_)
      obtain ⟨dependency, hmem, hkind, hid, hrun, other, hother, hrest⟩ :=
        dependsOnRevoked_iff.mp hdepends
      rcases List.mem_append.mp hother with hold | hnew
      · exact ⟨dependency, hmem, hkind, hid, hrun, other, hold, hrest⟩
      · have hstate := hrest.2.2.2
        rw [List.mem_singleton.mp hnew, hrow] at hstate
        cases hstate
  | confirm previewId digest kernelEventId kernelRevision recomputed now =>
    rcases tables.confirm_cases previewId digest kernelEventId kernelRevision recomputed now with
      ⟨hsame | hsame, hraises⟩ | ⟨row, event, -, -, -, -, -, -, hsame⟩
    · refine iff_of_true ?_ fun ⟨confirmed, hok⟩ => absurd hok (hraises confirmed)
      exact Eq.subst hsame.symm hreplaced
    · refine iff_of_true ?_ fun ⟨confirmed, hok⟩ => absurd hok (hraises confirmed)
      exact Eq.subst hsame.symm (replaced_markPreview_of_not_consumed hreplaced (by simp))
    · have hstore := congrArg Prod.fst hsame
      have hmark := @replaced_markPreview tables hreplaced previewId
        (fun row => { row with
          state := .consumed
          consumedAt := some now
          kernelEventId := some kernelEventId }) (fun _ => rfl) (fun _ => rfl)
      refine (Iff.of_eq (congrArg Replaced hstore)).trans (hmark.trans ?_)
      exact ⟨fun hcond _ => hcond, fun hcond => hcond ⟨_, congrArg Prod.snd hsame⟩⟩
  | recover receipt inspected now =>
    rcases tables.after_cases (tables.recoverWithReplacement receipt inspected now) with
      ⟨hsame, hraises⟩ | hok
    · refine iff_of_true ?_ fun ⟨tables', hok⟩ => absurd hok (hraises tables')
      exact Eq.subst hsame.symm hreplaced
    · exact replaced_recover hreplaced hok

end RevocationStore

/-! ## The law -/

/-- An object is reported restored only when each of its revoked targets is covered by a recovery,
in every state of a run; a recovery that leaves a target uncovered leaves the object withdrawn for
all its consumers. -/
structure RestoredWhenReplaced (P : Platform) (ops : List RevocationOp) : Prop where
  covered : ∀ early late, ops = early ++ late → ∀ runId kind objectId targetFactId,
    (revocationsReached P early).effectiveState runId kind objectId = .ok .restored →
    (revocationsReached P early).dependsOnRevoked runId kind objectId targetFactId = true →
      (revocationsReached P early).Covered runId kind objectId targetFactId
  uncovered : ∀ early receipt inspected now late,
    ops = early ++ .recover receipt inspected now :: late → ∀ tables,
    (revocationsReached P early).recoverWithReplacement receipt inspected now = .ok tables →
    ∀ object ∈ receipt.restoredObjects, ∀ targetFactId,
      tables.dependsOnRevoked receipt.runId object.objectKind object.objectId targetFactId = true →
      ¬ tables.Covered receipt.runId object.objectKind object.objectId targetFactId →
        tables.effectiveState receipt.runId object.objectKind object.objectId = .ok .invalidated ∧
          ∀ required binding, assertConsumable tables.engine tables.engine receipt.runId
            object.objectKind object.objectId required ≠ .ok binding

/-- A withdrawn object that is not restored is reported withdrawn, and no consumer gets it. -/
theorem invalidated_of_not_restored {tables : RevocationStore} (h : tables.Restorable)
    {kind : AuthorityObjectKind} {objectId : Id} {binding : BindingRow}
    (hmem : binding ∈ tables.engine.bindings) (hkey : binding.key = (kind, objectId))
    (hstate : binding.state = .invalidated)
    (hnot : tables.effectiveState binding.runId kind objectId ≠ .ok .restored) :
    tables.effectiveState binding.runId kind objectId = .ok .invalidated ∧
      ∀ required found, assertConsumable tables.engine tables.engine binding.runId kind objectId
        required ≠ .ok found := by
  have hfind := (RevocationStore.getBinding?_eq_some h.recorded).mpr ⟨hmem, hkey⟩
  constructor
  · unfold RevocationStore.effectiveState at hnot ⊢
    rw [hfind] at hnot ⊢
    rw [orReject_bind_of_some rfl, rejectIf_bind_of_passes (by simp)] at hnot ⊢
    rw [hstate, if_neg (by decide)] at hnot ⊢
    split
    · next hlt => exact absurd (if_pos hlt) hnot
    · rfl
  · intro required found hok
    obtain ⟨-, hfound, hkey', -, hvalid⟩ := assertConsumable_spec hok
    have hsame : found = binding :=
      List.inj_on_of_nodup_map h.recorded.keys hfound hmem (hkey'.trans hkey.symm)
    rw [hsame, hstate] at hvalid
    cases hvalid

/-- In a run every state of which has all targets covered, objects are restored only when their
targets are replaced. -/
theorem RestoredWhenReplaced.of_replaced {P : Platform} {ops : List RevocationOp}
    (h : ∀ early late, ops = early ++ late → (revocationsReached P early).Replaced) :
    RestoredWhenReplaced P ops where
  covered := by
    intro early late hsplit runId kind objectId target hrestored hdepends
    have houtlives := (RevocationStore.effectiveState_restored
      (restorable_revocationsReached P early)).mp hrestored
    exact h early late hsplit runId kind objectId houtlives target hdepends
  uncovered := by
    intro early receipt inspected now late hsplit tables hok object hobject target hdepends
      huncovered
    have hreached : revocationsReached P (early ++ [.recover receipt inspected now]) = tables := by
      refine (runFrom_concat ..).trans ?_
      exact congrArg (RevocationStore.after (revocationsReached P early)) hok
    have hrestorable := restorable_revocationsReached P (early ++ [.recover receipt inspected now])
    have hreplaced := h (early ++ [.recover receipt inspected now]) late (by simp [hsplit])
    rw [hreached] at hrestorable hreplaced
    obtain ⟨-, hstore, hobjects⟩ := RevocationStore.recoverWithReplacement_spec hok
    obtain ⟨⟨binding, hmem, hkey, hrun, hstate⟩, -⟩ := hobjects object hobject
    have hmem' : binding ∈ tables.engine.bindings := by
      rw [hstore]
      exact hmem
    rw [← hrun] at hdepends huncovered ⊢
    refine invalidated_of_not_restored hrestorable hmem' hkey hstate ?_
    intro hrestored
    refine huncovered (hreplaced _ _ _ ?_ target hdepends)
    exact (RevocationStore.effectiveState_restored hrestorable).mp hrestored

/-- All targets are covered in every state of a run exactly if every step replaces all that it
has to. -/
theorem replaced_iff {P : Platform} {ops : List RevocationOp} :
    (∀ early late, ops = early ++ late → (revocationsReached P early).Replaced) ↔
      StepsSatisfy (revocationStep P) (fun tables op => tables.ReplacesAll op) {} ops := by
  constructor
  · rintro h before op after rfl
    have hbefore := h before (op :: after) rfl
    have hafter := h (before ++ [op]) after (by simp)
    unfold revocationsReached at hafter
    rw [runFrom_concat] at hafter
    exact (RevocationStore.replaced_step_iff (restorable_revocationsReached P before) hbefore
      op).mp hafter
  · rintro h early late rfl
    have hboth : (revocationsReached P early).Restorable ∧ (revocationsReached P early).Replaced :=
      @runFrom_invariant_of RevocationStore RevocationOp (revocationStep P)
        (fun tables => tables.Restorable ∧ tables.Replaced) (fun tables op => tables.ReplacesAll op)
        {} ⟨RevocationStore.restorable_empty, by rintro _ _ _ ⟨row, ⟨hrow, -⟩, -⟩; cases hrow⟩
        (fun _ op h hcond =>
          ⟨h.1.step op, (RevocationStore.replaced_step_iff h.1 h.2 op).mpr hcond⟩) early h.left
    exact hboth.2

/-- Objects are restored only when all their targets are replaced, exactly in the runs whose steps
replace all that they have to. -/
theorem restored_when_replaced_iff (P : Platform) (ops : List RevocationOp) :
    RestoredWhenReplaced P ops ↔
      StepsSatisfy (revocationStep P) (fun tables op => tables.ReplacesAll op) {} ops := by
  rw [← replaced_iff]
  constructor
  · intro h early late hsplit runId kind objectId houtlives target hdepends
    refine h.covered early late hsplit runId kind objectId target ?_ hdepends
    exact (RevocationStore.effectiveState_restored
      (restorable_revocationsReached P early)).mpr houtlives
  · exact RestoredWhenReplaced.of_replaced

/-! ## A replacement of one of two targets -/

namespace Sample

/-- A platform that tells the two revoked targets of the samples apart. -/
def targetPlatform : Platform :=
  { platform with
    sha256 := fun text => String.ofList (List.replicate 64 (if text.contains 'X' then 'a' else 'b')) }

/-- The closure of a target without consequences. -/
def closureOf (target : Id) : RevocationClosure :=
  ⟨"run", 4, 1, target, digest, [target], [], []⟩

/-- A target is previewed and its revocation confirmed by an event at the given revision. -/
def revoked (target eventId : Id) (revision : ℤ) : List RevocationOp :=
  [.preview (closureOf target) "run" target target "2026-01-01T00:01:00Z",
    .confirm target (previewDigest targetPlatform (closureOf target)) eventId revision
      (some (closureOf target)) "2026-01-01T00:02:00Z"]

/-- The event that withdraws the review because of a revoked closure. -/
def withdrawsReview (eventId : Id) (revision : ℤ) : RevocationOp :=
  .engine (.record ⟨eventId, "run", revision,
    InvalidationIntent.toDict ⟨"FACT_CLOSURE_REVOKED",
      [⟨.review, "review", "review", digest⟩], [], []⟩⟩ "2026-01-01T00:03:00Z")

/-- The kernel proved a replacement of a target at revision 7. -/
def replacement (target : Id) : KernelReplacementReceipt :=
  ⟨"RESEARCH_KERNEL", "PROVE_REPLACEMENT", "run", target, "replacement", digest,
    [⟨.review, "review"⟩], 7, "receipt", "event-7"⟩

/-- A review that depends on two targets is withdrawn because of both, and one of them is
replaced. -/
def halfReplaced : List RevocationOp :=
  .engine (.registerBinding (review 0) "2026-01-01T00:00:00Z") ::
    .registerDependency .review "review" "fact-X" "run" "2026-01-01T00:00:00Z" ::
    .registerDependency .review "review" "fact-Y" "run" "2026-01-01T00:00:00Z" ::
    revoked "fact-X" "event-5" 5 ++ revoked "fact-Y" "event-6" 6 ++
    [withdrawsReview "event-5" 5, withdrawsReview "event-6" 6,
      .engine (.catchUp "run" "2026-01-01T00:04:00Z" "2026-01-01T00:04:00Z"),
      .engine (.catchUp "run" "2026-01-01T00:05:00Z" "2026-01-01T00:05:00Z"),
      .recover (replacement "fact-X") (some 7) "2026-01-01T00:06:00Z"]

/-- The review is reported restored although one target has no recovery. -/
theorem halfReplaced_states :
    ((revocationsReached targetPlatform halfReplaced).effectiveState "run" .review
        "review").toOption = some .restored ∧
      (revocationsReached targetPlatform halfReplaced).dependsOnRevoked "run" .review "review"
        "fact-Y" = true ∧
      (revocationsReached targetPlatform halfReplaced).recoveries.map (·.revokedTargetFactId) =
        ["fact-X"] := by
  decide +kernel

end Sample

/-- A review that depends on two revoked targets is reported restored when one of them is
replaced. -/
theorem restored_with_target_left : ¬ ∀ P ops, RestoredWhenReplaced P ops := by
  intro h
  obtain ⟨hrestored, hdepends, hrecoveries⟩ := Sample.halfReplaced_states
  obtain ⟨row, ⟨hrow, -⟩, htarget⟩ := (h Sample.targetPlatform Sample.halfReplaced).covered _ []
    (List.append_nil _).symm "run" .review "review" "fact-Y" (eq_ok_of_toOption hrestored) hdepends
  have hmem := List.mem_map_of_mem (f := (·.revokedTargetFactId)) hrow
  rw [hrecoveries, htarget] at hmem
  exact absurd hmem (by decide)

end ResearchKernel.Product
