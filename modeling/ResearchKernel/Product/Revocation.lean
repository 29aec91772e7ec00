import ResearchKernel.Product.GraphQuery
import ResearchKernel.Product.Resumable

/-!
# Revocations and replacements

The product previews the claims that a revocation takes along, confirms the preview against
what the kernel computes then, and derives from it the event that withdraws the objects which
depend on these claims. A replacement that the kernel has proved records that an object is
restored. The binding of the object stays withdrawn; whether it counts as restored is read from
the revisions of its recoveries and of the events that list it.
-/

namespace ResearchKernel.Product

open Foundation

/-! ## Tables -/

/-- A row of `product_revocation_dependencies`. -/
structure DependencyRow where
  objectKind : AuthorityObjectKind
  objectId : Id
  factId : Id
  runId : Id
  createdAt : Stamp

/-- State of a preview. -/
inductive PreviewState where
  | active | stale | consumed
deriving DecidableEq

/-- A row of `product_revocation_previews`. -/
structure PreviewRow where
  previewId : Id
  closure : RevocationClosure
  previewDigest : Digest
  state : PreviewState
  createdAt : Stamp
  staleAt : Option Stamp := none
  consumedAt : Option Stamp := none
  kernelEventId : Option Id := none

/-- A row of `product_revocation_recoveries`. -/
structure RecoveryRow where
  runId : Id
  revokedTargetFactId : Id
  replacementFactId : Id
  replacementFactDigest : Digest
  restoredObjectKind : AuthorityObjectKind
  restoredObjectId : Id
  kernelRevision : ℕ
  kernelReceiptId : Id
  kernelEventId : Id
  createdAt : Stamp

/-- The tables of the revocation service, over those of the invalidation engine. -/
structure RevocationStore where
  engine : Store := {}
  dependencies : List DependencyRow := []
  previews : List PreviewRow := []
  recoveries : List RecoveryRow := []

/-! ## Errors and arguments -/

/-- What the revocation service raises. -/
inductive RevocationError where
  /-- `ValueError`. -/
  | value (message : String)
  /-- `KeyError`. -/
  | key (key : String)
  /-- `RevocationConflict`. -/
  | conflict (message : String)
  /-- `RevocationPreviewStale`. -/
  | previewStale (previewId : Id)
  /-- A constraint of the tables. -/
  | integrity
  /-- What the kernel raises when it is asked. -/
  | kernel

/-- An object that a replacement restores. -/
structure ReplacementObject where
  objectKind : AuthorityObjectKind
  objectId : Id
deriving DecidableEq

/-- What the kernel says about a replacement. -/
structure KernelReplacementReceipt where
  authoritySource : String
  commandType : String
  runId : Id
  revokedTargetFactId : Id
  replacementFactId : Id
  replacementFactDigest : Digest
  restoredObjects : List ReplacementObject
  kernelRevision : ℤ
  kernelReceiptId : Id
  kernelEventId : Id

/-- A confirmed revocation with the event that withdraws its objects. -/
structure ConfirmedRevocation where
  previewId : Id
  kernelEventId : Id
  kernelRevision : ℤ
  invalidation : AuthorityInvalidation

/-- Whether an object may be used after revocations and recoveries. -/
inductive EffectiveState where
  | valid | restored | invalidated
deriving DecidableEq

def previewDigest (P : Platform) (closure : RevocationClosure) : Digest :=
  P.sha256 (dumps (.obj
    [("run_id", .str closure.runId), ("preview_revision", .int closure.researchRevision),
      ("contract_version", .int closure.contractVersion),
      ("target_fact_id", .str closure.targetFactId),
      ("target_fact_digest", .str closure.targetFactDigest),
      ("affected_fact_ids", Json.ofTexts closure.affectedFactIds),
      ("preserved_sibling_ids", Json.ofTexts closure.preservedSiblingIds),
      ("reopened_obligation_ids", Json.ofTexts closure.reopenedObligationIds)]))

/-! ## The service -/

namespace RevocationStore

variable (tables : RevocationStore)

/-- An object of a run depends on a fact. -/
def registerDependency (kind : AuthorityObjectKind) (objectId factId runId : Id) (now : Stamp) :
    Except RevocationError RevocationStore := do
  let binding ← orReject (tables.engine.getBinding? kind objectId) (.key objectId)
  rejectIf (binding.runId != runId || factId == "")
    (.conflict "revocation dependency crossed authority binding scope")
  match tables.dependencies.find? fun row => row.objectKind == kind && row.objectId == objectId &&
      row.factId == factId with
  | none =>
    return { tables with
      dependencies := tables.dependencies ++ [⟨kind, objectId, factId, runId, now⟩] }
  | some existing =>
    rejectIf (existing.runId != runId) (.conflict "dependency identity has another run binding")
    return tables

/-- The preview that the kernel computes is kept under a new identifier. -/
def preview (P : Platform) (computed : RevocationClosure) (runId targetFactId previewId : Id)
    (now : Stamp) : Except RevocationError (RevocationStore × PreviewRow) := do
  rejectIf (computed.runId != runId || computed.targetFactId != targetFactId)
    (.conflict "kernel preview crossed requested target scope")
  let row : PreviewRow := ⟨previewId, computed, previewDigest P computed, .active, now, none, none, none⟩
  let previews ← orReject (insertRow
    (fun a b => a.previewId == b.previewId || a.previewDigest == b.previewDigest)
    row tables.previews) .integrity
  return ({ tables with previews := previews }, row)

/-- The objects of a run that depend on one of the facts. -/
def objectsForFacts (runId : Id) (factIds : List Id) : List InvalidatedObject :=
  ((tables.engine.bindings.filter fun binding => tables.dependencies.any fun row =>
      row.objectKind == binding.objectKind && row.objectId == binding.objectId &&
        row.runId == runId && factIds.contains row.factId).insertionSort fun a b =>
    a.objectKind.wire < b.objectKind.wire ∨
      a.objectKind.wire = b.objectKind.wire ∧ a.objectId ≤ b.objectId).map fun binding =>
    ⟨binding.objectKind, binding.objectId, binding.stableLabel, binding.objectDigest⟩

/-- The event that withdraws the objects of a revoked closure. -/
def invalidation (closure : RevocationClosure) (kernelEventId : Id) (kernelRevision : ℤ) :
    Except RevocationError AuthorityInvalidation := do
  let affected := tables.objectsForFacts closure.runId closure.affectedFactIds
  rejectIf affected.isEmpty (.conflict "revoked fact closure has no registered consumers")
  let preserved := ((tables.objectsForFacts closure.runId closure.preservedSiblingIds).filter
    fun object => !affected.any (·.objectId == object.objectId)).map (·.objectId)
  return ⟨kernelEventId, closure.runId, kernelRevision,
    InvalidationIntent.toDict ⟨"FACT_CLOSURE_REVOKED", affected, sortedSet preserved,
      closure.reopenedObligationIds⟩⟩

/-- Confirm a preview against what the kernel computes now. A preview that differs is marked
stale, although the call raises. -/
def confirm (previewId : Id) (digest : Digest) (kernelEventId : Id) (kernelRevision : ℤ)
    (recomputed : Option RevocationClosure) (now : Stamp) :
    RevocationStore × Except RevocationError ConfirmedRevocation :=
  if previewId == "" || !isDigest digest || kernelEventId == "" then
    (tables, .error (.value "confirm requires preview ID/digest and kernel event ID"))
  else
    match tables.previews.find? (·.previewId == previewId) with
    | none => (tables, .error (.key previewId))
    | some row =>
      if row.state != .active || row.previewDigest != digest then
        (tables, .error (.previewStale previewId))
      else
        match recomputed with
        | none => (tables, .error .kernel)
        | some current =>
          if current ≠ row.closure ∨ kernelRevision ≤ current.researchRevision then
            ({ tables with
              previews := updateWhere
                (fun row => row.previewId == previewId && row.state == .active)
                (fun row => { row with state := .stale, staleAt := some now }) tables.previews },
              .error (.previewStale previewId))
          else
            match tables.invalidation current kernelEventId kernelRevision with
            | .error error => (tables, .error error)
            | .ok event =>
              ({ tables with
                previews := updateWhere
                  (fun row => row.previewId == previewId && row.state == .active)
                  (fun row => { row with
                    state := .consumed
                    consumedAt := some now
                    kernelEventId := some kernelEventId }) tables.previews },
                .ok ⟨previewId, kernelEventId, kernelRevision, event⟩)

/-- Whether an object of a run depends on the closure of a target that was revoked. -/
def dependsOnRevoked (runId : Id) (kind : AuthorityObjectKind) (objectId targetFactId : Id) : Bool :=
  tables.dependencies.any fun row => row.objectKind == kind && row.objectId == objectId &&
    row.runId == runId && tables.previews.any fun preview => preview.closure.runId == row.runId &&
      preview.closure.affectedFactIds.contains row.factId &&
      preview.closure.targetFactId == targetFactId && preview.state == .consumed

/-- The kernel checks a replacement: it knows the facts and is at the revision of the receipt. -/
def validateReplacement (inspected : Option ℤ) (receipt : KernelReplacementReceipt) :
    Except RevocationError (List ReplacementObject) := do
  let revision ← orReject inspected .kernel
  rejectIf (revision != receipt.kernelRevision)
    (.value "replacement receipt is not at current kernel revision")
  return receipt.restoredObjects

/-- The row of an object that a replacement restores. -/
def recoveryRow (receipt : KernelReplacementReceipt) (now : Stamp) (object : ReplacementObject) :
    RecoveryRow where
  runId := receipt.runId
  revokedTargetFactId := receipt.revokedTargetFactId
  replacementFactId := receipt.replacementFactId
  replacementFactDigest := receipt.replacementFactDigest
  restoredObjectKind := object.objectKind
  restoredObjectId := object.objectId
  kernelRevision := receipt.kernelRevision.toNat
  kernelReceiptId := receipt.kernelReceiptId
  kernelEventId := receipt.kernelEventId
  createdAt := now

/-- Unique columns of `product_revocation_recoveries`. -/
def recoveryClash (a b : RecoveryRow) : Bool :=
  a.kernelEventId == b.kernelEventId && a.restoredObjectKind == b.restoredObjectKind &&
    a.restoredObjectId == b.restoredObjectId

/-- Record that the objects of a receipt are restored, one after the other. -/
def recoverObjects (receipt : KernelReplacementReceipt) (now : Stamp) :
    List ReplacementObject → RevocationStore → Except RevocationError RevocationStore
  | [], tables => .ok tables
  | object :: objects, tables => do
    rejectIf (!((tables.engine.getBinding? object.objectKind object.objectId).any fun binding =>
        binding.runId == receipt.runId && binding.state == .invalidated) ||
        !tables.dependsOnRevoked receipt.runId object.objectKind object.objectId
          receipt.revokedTargetFactId)
      (.conflict "replacement can restore only invalidated target-bound objects")
    let recoveries ← orReject
      (insertRow recoveryClash (recoveryRow receipt now object) tables.recoveries) .integrity
    recoverObjects receipt now objects { tables with recoveries := recoveries }

/-- Record the objects that a replacement restores. -/
def recoverWithReplacement (receipt : KernelReplacementReceipt) (inspected : Option ℤ)
    (now : Stamp) : Except RevocationError RevocationStore := do
  rejectIf (receipt.authoritySource != "RESEARCH_KERNEL" ||
      receipt.commandType != "PROVE_REPLACEMENT" || decide (receipt.kernelRevision < 1) ||
      !isDigest receipt.replacementFactDigest || receipt.kernelReceiptId == "" ||
      receipt.kernelEventId == "" || receipt.restoredObjects.isEmpty)
    (.conflict "replacement is not an authority-bearing kernel receipt")
  let verified ← validateReplacement inspected receipt
  rejectIf (verified != receipt.restoredObjects)
    (.conflict "replacement restored closure differs from kernel proof")
  recoverObjects receipt now verified tables

/-- The largest revision of the processed events of a run that list an object. -/
def invalidatedRevision (runId : Id) (kind : AuthorityObjectKind) (objectId : Id) : ℕ :=
  ((tables.engine.materializations.filter fun row =>
    row.objectKind == kind && row.objectId == objectId).flatMap fun row =>
      (tables.engine.ledger.filter fun event =>
        event.kernelEventId == row.kernelEventId && event.runId == runId).map
          (·.researchRevision)).foldl max 0

/-- The largest revision of the recoveries of an object in a run. -/
def recoveredRevision (runId : Id) (kind : AuthorityObjectKind) (objectId : Id) : ℕ :=
  ((tables.recoveries.filter fun row => row.runId == runId && row.restoredObjectKind == kind &&
    row.restoredObjectId == objectId).map (·.kernelRevision)).foldl max 0

/-- Whether an object of a run may be used after revocations and recoveries. -/
def effectiveState (runId : Id) (kind : AuthorityObjectKind) (objectId : Id) :
    Except RevocationError EffectiveState := do
  let binding ← orReject (tables.engine.getBinding? kind objectId) (.key objectId)
  rejectIf (binding.runId != runId) (.conflict "effective state crossed run scope")
  if binding.state == .valid then return .valid
  if tables.invalidatedRevision runId kind objectId < tables.recoveredRevision runId kind objectId then
    return .restored
  else return .invalidated

end RevocationStore

/-! ## The machine -/

/-- The transactions of the revocation service and of the engine below it. What the kernel
answers in a call is an argument. -/
inductive RevocationOp where
  | engine (op : EngineOp)
  | registerDependency (kind : AuthorityObjectKind) (objectId factId runId : Id) (now : Stamp)
  | preview (computed : RevocationClosure) (runId targetFactId previewId : Id) (now : Stamp)
  | confirm (previewId : Id) (digest : Digest) (kernelEventId : Id) (kernelRevision : ℤ)
      (recomputed : Option RevocationClosure) (now : Stamp)
  | recover (receipt : KernelReplacementReceipt) (inspected : Option ℤ) (now : Stamp)

/-- The tables after a call that raises are those before it. -/
def RevocationStore.after (tables : RevocationStore) (result : Except RevocationError RevocationStore) :
    RevocationStore :=
  match result with
  | .ok tables => tables
  | .error _ => tables

/-- One transaction of the revocation service or of the engine. -/
def revocationStep (P : Platform) (tables : RevocationStore) : RevocationOp → RevocationStore
  | .engine op => { tables with engine := engineStep P tables.engine op }
  | .registerDependency kind objectId factId runId now =>
    tables.after (tables.registerDependency kind objectId factId runId now)
  | .preview computed runId targetFactId previewId now =>
    tables.after ((tables.preview P computed runId targetFactId previewId now).map Prod.fst)
  | .confirm previewId digest kernelEventId kernelRevision recomputed now =>
    (tables.confirm previewId digest kernelEventId kernelRevision recomputed now).1
  | .recover receipt inspected now => tables.after (tables.recoverWithReplacement receipt inspected now)

/-- The tables that a list of transactions reaches from empty ones. -/
def revocationsReached (P : Platform) (ops : List RevocationOp) : RevocationStore :=
  runFrom (revocationStep P) {} ops

end ResearchKernel.Product
