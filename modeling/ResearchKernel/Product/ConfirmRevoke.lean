import Mathlib.Data.Fintype.EquivFin
import ResearchKernel.Product.Restoration

/-!
# Confirming a revocation

The command `CONFIRM_REVOKE` previews the target, compares the preview with what the client saw,
has the kernel revoke the fact, and confirms the preview. Each of these commits on its own, and
what is left behind when a later one fails stays. The kernel and the authority that computes
closures are ports of the service, given here by functions on the state of the kernel.
-/

namespace ResearchKernel.Product

open Foundation

/-! ## Commands -/

/-- What the handler of a command raises. -/
inductive CommandError where
  /-- `DomainCommandRejected`, which is reported as a rejection. -/
  | rejected (code : String)
  /-- `DomainCommandError`. -/
  | domain (message : String)
  /-- `ValueError`. -/
  | value (message : String)
  /-- `RuntimeError`. -/
  | runtime (message : String)
  /-- What the revocation service raises. -/
  | revocation (error : RevocationError)
  /-- What the kernel raises. -/
  | kernel

/-- The run that a command is about, with what the client knows of it. -/
structure RunScope where
  runId : Id
  expectedRevision : ℤ
  expectedContractVersion : ℤ

/-- The authority that a command meets. -/
structure CommandFence where
  scopeKind : String
  scopeId : Id
  revision : ℤ
  contractVersion : ℤ

/-- How a command was decided. -/
structure ProductDecision where
  accepted : Bool
  revisionBefore : ℤ
  revisionAfter : ℤ
  contractVersion : ℤ
  eventCursorAfter : ℤ
  rejectionCode : Option String := none
  missingConditions : List JsonObject := []
  createdArtifactRefs : List JsonObject := []
  createdRunId : Option Id := none
  kernelReceipts : List JsonObject := []

/-- A command `CONFIRM_REVOKE` with what the environment decides. -/
structure RevokeCall where
  requestId : Id
  scope : RunScope
  payload : JsonObject
  /-- The role of the capability that is resolved for the session; an error if that raises. -/
  subjectRole : Except CommandError (Option String)
  fence : CommandFence
  previewId : Id
  previewedAt : Stamp
  confirmedAt : Stamp

/-- What the handler asks the kernel. -/
structure RevokeRequest where
  requestId : Id
  scope : RunScope
  factId : Id
  targetFactDigest : Digest
  affectedFactIds : List Id
  reasonArtifact : JsonObject

/-- The ports of the handler: what the authority previews and recomputes in a state of the
kernel, and what the kernel does with a request. -/
structure RevocationPorts (κ : Type) where
  preview : κ → Id → Id → Except RevocationError RevocationClosure
  recompute : κ → PreviewRow → Option RevocationClosure
  apply : κ → RevokeRequest → κ × Except CommandError ProductDecision

/-- The kernel and the tables of the revocation service. -/
structure ProductState (κ : Type) where
  kernel : κ
  revocations : RevocationStore

/-! ## Fields of the payload -/

/-- A text of the payload that is not blank. -/
def textField (payload : JsonObject) (name : String) : Except CommandError String :=
  orReject (nonempty? (payload.get name)) (.value (name ++ " must be non-empty text"))

def integerField (payload : JsonObject) (name : String) : Except CommandError ℤ :=
  orReject (payload.get name).int? (.value (name ++ " must be an integer"))

def objectField (payload : JsonObject) (name : String) : Except CommandError JsonObject :=
  orReject (payload.get name).mapping? (.value (name ++ " must be an object"))

def stringsField (payload : JsonObject) (name : String) : Except CommandError (List String) :=
  orReject ((payload.get name).sequence?.bind fun items => items.mapM Json.text?)
    (.value (name ++ " must be a string array"))

/-! ## The handler -/

section Handler

variable {κ : Type} (P : Platform) (ports : RevocationPorts κ)

/-- The target is previewed as the authority computes its closure now. -/
def previewTarget (kernel : κ) (runId factId previewId : Id) (now : Stamp)
    (tables : RevocationStore) : Except RevocationError (RevocationStore × PreviewRow) := do
  let computed ← ports.preview kernel runId factId
  tables.preview P computed runId factId previewId now

/-- The request to the kernel, if the client saw what is previewed. -/
def revokeRequest (call : RevokeCall) (closure : RevocationClosure) :
    Except CommandError RevokeRequest := do
  let stale := CommandError.rejected "REVOCATION_PREVIEW_STALE"
  let digest ← textField call.payload "target_fact_digest"
  rejectIf (closure.targetFactDigest != digest) stale
  let revision ← integerField call.payload "preview_revision"
  rejectIf (closure.researchRevision != revision) stale
  let preserved ← stringsField call.payload "preserved_sibling_ids"
  rejectIf (closure.preservedSiblingIds != preserved) stale
  let reopened ← stringsField call.payload "reopened_obligation_ids"
  rejectIf (closure.reopenedObligationIds != reopened) stale
  let reason ← objectField call.payload "reason_artifact"
  return ⟨call.requestId, call.scope, closure.targetFactId, closure.targetFactDigest,
    closure.affectedFactIds, reason⟩

/-- The event of the kernel that a decision names. -/
def ProductDecision.eventId (decision : ProductDecision) : Except CommandError Id := do
  let receipt ← orReject decision.kernelReceipts.getLast? (.runtime "kernel receipt missing")
  orReject (do (← (← (receipt.get "event_ids").sequence?).getLast?).text?)
    (.runtime "kernel event identity missing")

/-- What follows the answer of the kernel: an accepted revocation is confirmed. -/
def settleRevoke (call : RevokeCall) (row : PreviewRow) (state : ProductState κ)
    (decision : ProductDecision) : ProductState κ × Except CommandError ProductDecision :=
  if decision.accepted then
    match decision.eventId with
    | .error error => (state, .error error)
    | .ok event =>
      match state.revocations.confirm row.previewId row.previewDigest event decision.revisionAfter
          (ports.recompute state.kernel row) call.confirmedAt with
      | (tables, .error error) => ({ state with revocations := tables }, .error (.revocation error))
      | (tables, .ok _) => ({ state with revocations := tables }, .ok decision)
  else (state, .ok decision)

/-- The handler of `CONFIRM_REVOKE`. -/
def confirmRevoke (state : ProductState κ) (call : RevokeCall) :
    ProductState κ × Except CommandError ProductDecision :=
  match textField call.payload "fact_id" with
  | .error error => (state, .error error)
  | .ok factId =>
    match previewTarget P ports state.kernel call.scope.runId factId call.previewId call.previewedAt
        state.revocations with
    | .error error => (state, .error (.revocation error))
    | .ok (tables, row) =>
      match revokeRequest call row.closure with
      | .error error => ({ state with revocations := tables }, .error error)
      | .ok request =>
        match ports.apply state.kernel request with
        | (kernel, .error error) => (⟨kernel, tables⟩, .error error)
        | (kernel, .ok decision) => settleRevoke ports call row ⟨kernel, tables⟩ decision

/-! ## The command -/

/-- A command that is rejected without a decision of the kernel. -/
def rejectedDecision (revision contractVersion : ℤ) (code : String) : ProductDecision where
  accepted := false
  revisionBefore := revision
  revisionAfter := revision
  contractVersion := contractVersion
  eventCursorAfter := 0
  rejectionCode := some code

/-- The command is about the state that the client knows. -/
def RevokeCall.assertFence (call : RevokeCall) : Except CommandError Unit := do
  rejectIf (call.fence.scopeKind != "RUN" || call.fence.scopeId != call.scope.runId)
    (.domain "authority fence belongs to another command scope")
  rejectIf (call.scope.expectedRevision != call.fence.revision) (.rejected "REVISION_CONFLICT")
  rejectIf (call.scope.expectedContractVersion != call.fence.contractVersion)
    (.rejected "CONTRACT_VERSION_MISMATCH")

/-- The decision of a service is consistent. -/
def CommandFence.assertDecision (fence : CommandFence) (decision : ProductDecision) :
    Except CommandError Unit := do
  rejectIf (decision.revisionBefore != fence.revision)
    (.domain "service receipt revision_before differs from authority fence")
  rejectIf (decision.contractVersion != fence.contractVersion)
    (.domain "service receipt contract version differs from authority fence")
  rejectIf (decide (decision.revisionAfter < decision.revisionBefore))
    (.domain "service receipt moves revision backwards")
  rejectIf (decide (decision.eventCursorAfter < 0))
    (.domain "service receipt event cursor is invalid")
  if decision.accepted then
    rejectIf (decision.rejectionCode.isSome || !decision.missingConditions.isEmpty)
      (.domain "accepted service receipt contains rejection fields")
    rejectIf decision.kernelReceipts.isEmpty
      (.domain "mathematical authority command lacks a kernel receipt")
  else
    rejectIf (decision.rejectionCode.all (· == ""))
      (.domain "rejected service receipt has no typed rejection code")
    rejectIf (decision.revisionAfter != decision.revisionBefore ||
        !decision.createdArtifactRefs.isEmpty || decision.createdRunId.isSome)
      (.domain "rejected service receipt reports authority mutation")

/-- The command `CONFIRM_REVOKE`: what it leaves behind, and what it reports unless it raises. -/
def applyConfirmRevoke (state : ProductState κ) (call : RevokeCall) :
    ProductState κ × Except CommandError ProductDecision :=
  match call.subjectRole with
  | .error error => (state, .error error)
  | .ok role =>
    if role ≠ some "MAIN" then
      (state, .ok (rejectedDecision call.scope.expectedRevision call.scope.expectedContractVersion
        "CAPABILITY_DENIED"))
    else
      let rejected := rejectedDecision call.fence.revision call.fence.contractVersion
      match call.assertFence with
      | .error (.rejected code) => (state, .ok (rejected code))
      | .error error => (state, .error error)
      | .ok () =>
        match confirmRevoke P ports state call with
        | (state, .error (.rejected code)) => (state, .ok (rejected code))
        | (state, .error error) => (state, .error error)
        | (state, .ok decision) =>
          (state, (call.fence.assertDecision decision).map fun _ => decision)

end Handler

/-! ## The law -/

section Law

variable {κ γ : Type} (P : Platform) (ports : RevocationPorts κ) (state : ProductState κ)

/-- The command gets as far as asking the kernel: its target was previewed by the row, and the
request is the given one. -/
def Asks (call : RevokeCall) (tables : RevocationStore) (row : PreviewRow)
    (request : RevokeRequest) : Prop :=
  call.subjectRole = .ok (some "MAIN") ∧ call.assertFence = .ok () ∧
    ∃ factId, textField call.payload "fact_id" = .ok factId ∧
      previewTarget P ports state.kernel call.scope.runId factId call.previewId call.previewedAt
        state.revocations = .ok (tables, row) ∧
      revokeRequest call row.closure = .ok request

/-- The target is previewed several times in one state of the kernel. -/
def previewTimes (runId factId : Id) : List (Id × Stamp) → RevocationStore →
    Except RevocationError RevocationStore
  | [], tables => .ok tables
  | (previewId, now) :: later, tables => do
    let (tables, _) ← previewTarget P ports state.kernel runId factId previewId now tables
    previewTimes runId factId later tables

/-- Earlier previews of a target make neither a later one fail nor its confirmation. -/
def Repeatable (runId factId : Id) : Prop :=
  ∀ (earlier : List (Id × Stamp)) (previewId : Id) (now : Stamp),
    (earlier.map Prod.fst ++ [previewId]).Nodup →
    (∀ id ∈ earlier.map Prod.fst ++ [previewId], ∀ row ∈ state.revocations.previews,
      row.previewId ≠ id) →
    ∀ once row, previewTarget P ports state.kernel runId factId previewId now state.revocations =
        .ok (once, row) →
      ∃ tables repeated row', previewTimes P ports state runId factId earlier state.revocations =
          .ok tables ∧
        previewTarget P ports state.kernel runId factId previewId now tables =
          .ok (repeated, row') ∧
        ∀ kernelEventId kernelRevision recomputed now confirmed,
          (once.confirm previewId row.previewDigest kernelEventId kernelRevision recomputed
            now).2 = .ok confirmed →
          ∃ confirmed', (repeated.confirm previewId row'.previewDigest kernelEventId kernelRevision
            recomputed now).2 = .ok confirmed'

/-- A confirmed revocation is all or nothing. If the kernel accepts it, the command is reported
accepted, its preview is consumed and no consumer gets an object of the revoked closure any more;
a command that is reported rejected leaves everything as it was; and previews may be repeated. -/
structure AllOrNothing (graph : κ → γ) (call : RevokeCall) : Prop where
  confirmed : ∀ tables row request kernel decision,
    Asks P ports state call tables row request →
    ports.apply state.kernel request = (kernel, .ok decision) → decision.accepted = true →
    (∃ reported, (applyConfirmRevoke P ports state call).2 = .ok reported ∧
      reported.accepted = true) ∧
    (∃ preview ∈ (applyConfirmRevoke P ports state call).1.revocations.previews,
      preview.previewId = row.previewId ∧ preview.state = .consumed) ∧
    ∀ later, ∀ dependency ∈ (applyConfirmRevoke P ports state call).1.revocations.dependencies,
      dependency.runId = row.closure.runId → dependency.factId ∈ row.closure.affectedFactIds →
      ∀ required found,
        assertConsumable
          (runFrom (revocationStep P) (applyConfirmRevoke P ports state call).1.revocations
            later).engine
          (runFrom (revocationStep P) (applyConfirmRevoke P ports state call).1.revocations
            later).engine
          dependency.runId dependency.objectKind dependency.objectId required ≠ .ok found
  unchanged : ∀ decision, (applyConfirmRevoke P ports state call).2 = .ok decision →
    decision.accepted = false →
    graph (applyConfirmRevoke P ports state call).1.kernel = graph state.kernel ∧
      (applyConfirmRevoke P ports state call).1.revocations.previews =
        state.revocations.previews ∧
      (applyConfirmRevoke P ports state call).1.revocations.engine.bindings =
        state.revocations.engine.bindings
  repeatable : ∀ factId, textField call.payload "fact_id" = .ok factId →
    Repeatable P ports state call.scope.runId factId

variable {P ports state}

variable {runId factId previewId : Id}

end Law

/-! ## A target that is previewed twice -/

namespace Sample

/-- The closure of a target that nothing depends on, at a revision of the kernel. -/
def closureAt (revision : ℤ) (runId factId : Id) : RevocationClosure :=
  ⟨runId, revision, 1, factId, digest, [factId], [], []⟩

/-- A kernel that is at a revision, and an authority that computes closures at this revision. -/
def ports : RevocationPorts ℤ where
  preview revision runId factId := .ok (closureAt revision runId factId)
  recompute revision row := some (closureAt revision row.closure.runId row.closure.targetFactId)
  apply revision request := (revision + 1, .ok
    { accepted := true
      revisionBefore := revision
      revisionAfter := revision + 1
      contractVersion := request.scope.expectedContractVersion
      eventCursorAfter := revision + 1
      kernelReceipts := [[("event_ids", Json.ofTexts ["event"])]] })

/-- The kernel is at revision 4 and nothing was previewed. -/
def fresh : ProductState ℤ := ⟨4, {}⟩

end Sample

end ResearchKernel.Product
