import ResearchKernel.Product.Specs

/-!
# The ledger of authority invalidations

The kernel withdraws authority by events. The engine records them in a ledger and carries
them out later, one event after the other and each in a transaction of its own. Objects are
bound to the run and revision that they rest on, and consumers ask the engine before they use
one. The watermark of a run holds how far the ledger was recorded and carried out.
-/

namespace ResearchKernel.Product

open Foundation

/-! ## Intents -/

def nonempty? (value : Json) : Option String :=
  value.text?.filter fun text => !isBlank text

def digest? (value : Json) : Option Digest :=
  (nonempty? value).filter isDigest

def AuthorityObjectKind.all : List AuthorityObjectKind :=
  [.checkpoint, .queue, .toolFeedback, .composition, .review, .witness, .publication]

/-- The kind with the given text. -/
def AuthorityObjectKind.ofJson? (value : Json) : Option AuthorityObjectKind :=
  AuthorityObjectKind.all.find? fun kind => value.isText kind.wire

/-- What identifies an object. -/
def InvalidatedObject.key (object : InvalidatedObject) : AuthorityObjectKind × Id :=
  (object.objectKind, object.objectId)

def BindingRow.key (row : BindingRow) : AuthorityObjectKind × Id := (row.objectKind, row.objectId)

def BindingRow.registered (row : BindingRow) : BindingRow :=
  { row with
    state := .valid
    invalidatedByEventId := none
    invalidatedAt := none
    invalidationReason := none }

/-- An affected object is read from an event. -/
def InvalidatedObject.ofMapping (value : JsonObject) : Except JobError InvalidatedObject := do
  rejectIf (!value.hasExactly ["object_kind", "object_id", "stable_label", "object_digest"])
    (.invalidation "affected object fields are not exact")
  let invalid := JobError.invalidation "affected object values are invalid"
  let kind ← orReject (AuthorityObjectKind.ofJson? (value.get "object_kind")) invalid
  let objectId ← orReject (nonempty? (value.get "object_id")) invalid
  let stableLabel ← orReject (nonempty? (value.get "stable_label")) invalid
  let objectDigest ← orReject (digest? (value.get "object_digest")) invalid
  return ⟨kind, objectId, stableLabel, objectDigest⟩

/-- An affected object is written out. -/
def InvalidatedObject.toDict (object : InvalidatedObject) : JsonObject :=
  [("object_kind", .str object.objectKind.wire), ("object_id", .str object.objectId),
    ("stable_label", .str object.stableLabel), ("object_digest", .str object.objectDigest)]

namespace InvalidationIntent

/-- The version of intents. -/
def version : String := "rk.authority_invalidation.v1"

/-- No object, label, sibling or obligation is named twice, and no sibling is affected. -/
def distinct (intent : InvalidationIntent) : Bool :=
  decide (intent.affectedObjects.map InvalidatedObject.key).Nodup &&
    decide (intent.affectedObjects.map fun object =>
      (object.objectKind, object.stableLabel)).Nodup &&
    decide intent.preservedSiblingIds.Nodup && decide intent.reopenedObligationIds.Nodup &&
    !intent.preservedSiblingIds.any fun sibling =>
      intent.affectedObjects.any (·.objectId == sibling)

/-- The intent of an event is read. -/
def ofMapping (value : JsonObject) : Except JobError InvalidationIntent := do
  rejectIf (!(value.hasExactly ["schema_version", "reason", "affected_objects",
      "preserved_sibling_ids", "reopened_obligation_ids"] &&
      (value.get "schema_version").isText version))
    (.invalidation "authority invalidation intent fields are not exact")
  let affectedRaw ← orReject (value.get "affected_objects").sequence?
    (.invalidation "affected_objects must be an array")
  let siblingsRaw ← orReject (value.get "preserved_sibling_ids").sequence?
    (.invalidation "preserved_sibling_ids must be an array")
  let reopenedRaw ← orReject (value.get "reopened_obligation_ids").sequence?
    (.invalidation "reopened_obligation_ids must be an array")
  let affected ← (affectedRaw.filterMap Json.mapping?).mapM InvalidatedObject.ofMapping
  rejectIf (affected.length != affectedRaw.length || affected.isEmpty)
    (.invalidation "affected_objects must contain objects")
  let blank := JobError.value "value must be a non-empty string"
  let siblings ← siblingsRaw.mapM fun item => orReject (nonempty? item) blank
  let reopened ← reopenedRaw.mapM fun item => orReject (nonempty? item) blank
  rejectIf (!distinct ⟨"", affected, siblings, reopened⟩)
    (.invalidation "invalidation closure contains duplicates or sibling overlap")
  let reason ← orReject (nonempty? (value.get "reason")) blank
  return ⟨reason, affected, siblings, reopened⟩

/-- An intent is written out. -/
def toDict (intent : InvalidationIntent) : JsonObject :=
  [("schema_version", .str version), ("reason", .str intent.reason),
    ("affected_objects", .arr (intent.affectedObjects.map fun object => .obj object.toDict)),
    ("preserved_sibling_ids", Json.ofTexts intent.preservedSiblingIds),
    ("reopened_obligation_ids", Json.ofTexts intent.reopenedObligationIds)]

def digest (P : Platform) (intent : InvalidationIntent) : Digest :=
  P.sha256 (dumps (.obj intent.toDict))

/-- Whether an intent lists an object. -/
def lists (intent : InvalidationIntent) (kind : AuthorityObjectKind) (objectId : Id) : Bool :=
  intent.affectedObjects.any fun object => object.objectKind == kind && object.objectId == objectId

end InvalidationIntent

/-- An event by which the kernel withdraws authority. -/
structure AuthorityInvalidation where
  kernelEventId : Id
  runId : Id
  researchRevision : ℤ
  intent : JsonObject

/-! ## The engine -/

/-- Whether everything that was recorded for a run was carried out. -/
def WatermarkRow.caughtUp (row : WatermarkRow) : Bool :=
  row.processedSequence == row.recordedSequence && row.processedRevision == row.recordedRevision

/-- The arguments of `register_binding`. -/
structure BindingArguments where
  objectKind : AuthorityObjectKind
  objectId : Id
  runId : Id
  contractVersion : ℤ
  boundRevision : ℤ
  stableLabel : String
  objectDigest : Digest

/-- The row of a new binding. -/
def BindingArguments.row (b : BindingArguments) : BindingRow where
  objectKind := b.objectKind
  objectId := b.objectId
  runId := b.runId
  contractVersion := b.contractVersion.toNat
  boundRevision := b.boundRevision.toNat
  stableLabel := b.stableLabel
  objectDigest := b.objectDigest
  state := .valid

namespace Store

variable (store : Store)

def watermark? (runId : Id) : Option WatermarkRow :=
  store.watermarks.find? (·.runId == runId)

/-- The watermark of a run, nothing recorded if there is none. -/
def watermark (runId : Id) : WatermarkRow :=
  (store.watermark? runId).getD ⟨runId, 0, 0, 0, 0, ""⟩

/-- The watermark of a run is written, or changed if there is one. -/
def upsertWatermark (row : WatermarkRow) (change : WatermarkRow → WatermarkRow) :
    List WatermarkRow :=
  if store.watermarks.any (·.runId == row.runId) then
    updateWhere (·.runId == row.runId) change store.watermarks
  else store.watermarks ++ [row]

def getBinding? (kind : AuthorityObjectKind) (objectId : Id) : Option BindingRow :=
  store.bindings.find? fun row => row.objectKind == kind && row.objectId == objectId

/-- Bind an object. A run that is caught up takes over the revision of the binding. -/
def registerBinding (b : BindingArguments) (now : Stamp) : Except JobError Store := do
  rejectIf (isBlank b.objectId || isBlank b.runId || isBlank b.stableLabel ||
    isBlank b.objectDigest) (.value "value must be a non-empty string")
  rejectIf (!isDigest b.objectDigest) (.value "value must be a lowercase sha256")
  rejectIf (decide (b.contractVersion < 1) || decide (b.boundRevision < 0))
    (.value "binding contract version or revision is invalid")
  match insertRow BindingRow.clash b.row store.bindings with
  | some bindings =>
    let watermark := store.watermark b.runId
    if watermark.caughtUp && decide ((watermark.recordedRevision : ℤ) < b.boundRevision) then
      let revision := b.boundRevision.toNat
      return { store with
        bindings := bindings
        watermarks := store.upsertWatermark ⟨b.runId, 0, revision, 0, revision, now⟩
          (fun row => { row with
            recordedRevision := revision
            processedRevision := revision
            updatedAt := now }) }
    else return { store with bindings := bindings }
  | none =>
    let existing ← orReject (store.getBinding? b.objectKind b.objectId)
      (.conflict "stable label is already bound to another object or digest")
    rejectIf (existing.runId != b.runId || (existing.contractVersion : ℤ) != b.contractVersion ||
        (existing.boundRevision : ℤ) != b.boundRevision || existing.stableLabel != b.stableLabel ||
        existing.objectDigest != b.objectDigest)
      (.conflict "stable label or object identity has a different digest binding")
    return store

/-- The objects and siblings of an intent are bound as it says. -/
def validateBindings (runId : Id) (intent : InvalidationIntent) : Except JobError Unit := do
  checkAll (fun affected => rejectIf
    (!(store.getBinding? affected.objectKind affected.objectId).any fun row =>
      row.runId == runId && row.stableLabel == affected.stableLabel &&
        row.objectDigest == affected.objectDigest)
    (.conflict "affected object does not match its stable label and digest binding"))
    intent.affectedObjects
  checkAll (fun sibling => do
    rejectIf (intent.affectedObjects.any (·.objectId == sibling))
      (.conflict "preserved sibling appears in affected closure")
    rejectIf (!store.bindings.any fun row => row.runId == runId && row.objectId == sibling)
      (.conflict "preserved sibling is not registered in run")) intent.preservedSiblingIds

/-- The sequence number of the next event in the ledger. -/
def nextSequence : ℕ := (store.ledger.map (·.sequence)).foldl max 0 + 1

/-- Record an event in the ledger, if it was not recorded before. -/
def record (P : Platform) (invalidation : AuthorityInvalidation) (now : Stamp) :
    Except JobError Store := do
  let intent ← InvalidationIntent.ofMapping invalidation.intent
  let digest := intent.digest P
  match store.ledger.find? (·.kernelEventId == invalidation.kernelEventId) with
  | some existing =>
    rejectIf (!(existing.runId == invalidation.runId &&
        (existing.researchRevision : ℤ) == invalidation.researchRevision &&
        existing.intentDigest == digest))
      (.conflict "kernel event ID is already bound to another invalidation")
    let _ ← orReject (store.watermark? invalidation.runId) (.key invalidation.runId)
    return store
  | none =>
    rejectIf (decide (invalidation.researchRevision ≤
        (store.watermark invalidation.runId).recordedRevision))
      (.conflict "invalidation revision must advance monotonically")
    store.validateBindings invalidation.runId intent
    let revision := invalidation.researchRevision.toNat
    let ledger ← orReject (insertRow LedgerRow.clash
      ⟨store.nextSequence, invalidation.kernelEventId, invalidation.runId, revision, digest, intent⟩
      store.ledger) .integrity
    return { store with
      ledger := ledger
      watermarks := store.upsertWatermark
        ⟨invalidation.runId, store.nextSequence, revision, 0, 0, now⟩
        (fun row => { row with
          recordedSequence := store.nextSequence
          recordedRevision := revision
          updatedAt := now }) }

end Store

/-- Whether an object may be used. The watermark and the binding are read in transactions of
their own, so that others may write in between. -/
def assertConsumable (checked read : Store) (runId : Id) (kind : AuthorityObjectKind)
    (objectId : Id) (requiredRevision : ℤ) : Except JobError BindingRow := do
  let watermark ← orReject (checked.watermark? runId) (.key runId)
  rejectIf (decide ((watermark.processedRevision : ℤ) < requiredRevision) ||
      decide (watermark.processedSequence < watermark.recordedSequence))
    (.projectionLag requiredRevision)
  let binding ← orReject (read.getBinding? kind objectId) (.key objectId)
  rejectIf (binding.runId != runId) (.conflict "authority binding crossed run scope")
  rejectIf (binding.state != .valid) (.objectInvalidated objectId)
  return binding

/-! ## The machine -/

/-- The transactions of the engine. Both `consume` and `catch_up` are sequences of these. -/
inductive EngineOp where
  | registerBinding (arguments : BindingArguments) (now : Stamp)
  | record (invalidation : AuthorityInvalidation) (now : Stamp)
  | catchUp (runId : Id) (now later : Stamp)

/-- A transaction of the engine that may raise, in which case nothing is written. -/
def EngineOp.transaction (P : Platform) (store : Store) : EngineOp → Except JobError Store
  | .registerBinding arguments now => store.registerBinding arguments now
  | .record invalidation now => store.record P invalidation now
  | .catchUp runId now later => store.catchUp runId now later

def engineStep (P : Platform) (store : Store) (op : EngineOp) : Store :=
  match op.transaction P store with
  | .ok store => store
  | .error _ => store

/-- The tables that a list of transactions of the engine reaches from empty ones. -/
def engineReached (P : Platform) (ops : List EngineOp) : Store := runFrom (engineStep P) {} ops

end ResearchKernel.Product
