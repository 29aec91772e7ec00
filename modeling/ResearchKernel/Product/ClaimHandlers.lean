import ResearchKernel.Product.CommandContexts
import ResearchKernel.Product.ProductClaims

/-!
# The commands on claims

`SUBMIT_CLAIM` turns the payload of a worker into a submission. `IMPORT_VERIFICATION` looks up
the evidence that the host has imported for a review task, checks it against the claim it names,
and turns it into a result. Both are recorded by a projection in the transaction of the kernel.
-/

namespace ResearchKernel.Product.Claims

open Foundation

/-! ## Reading a submission -/

/-- The kind of claim with a text. -/
def ClaimKind.ofWire : Json → Option ClaimKind
  | .str "ROOT" => some .root
  | .str "LEMMA" => some .lemma_
  | .str "DEFINITION" => some .definition
  | .str "COUNTEREXAMPLE" => some .counterexample
  | .str "COMPUTATION" => some .computation
  | _ => none

/-- The artifacts that the host has committed. -/
def artifactCatalog (evidenceSummary : JsonObject) : Option JsonObject :=
  (evidenceSummary.get "committed_artifacts").mapping?

/-- An artifact that a payload names must be committed with the digest given. -/
def binding (catalog : JsonObject) (value : Json) : Option ClaimArtifactBinding := do
  let fields ← value.mapping?
  require (fields.hasExactly ["artifact_id", "sha256"])
  let artifactId ← nonemptyText (fields.get "artifact_id")
  let metadata ← (catalog.get artifactId).mapping?
  require ((metadata.get "sha256").eqv (fields.get "sha256") &&
    (metadata.get "ingest_state").isText "COMMITTED")
  let sha256 ← nonemptyText (fields.get "sha256")
  let byteCount ← naturalInt (metadata.get "byte_count")
  let mediaType ← nonemptyText (metadata.get "media_type")
  require (isDigest sha256)
  return { artifactId := artifactId, sha256 := sha256, byteCount := byteCount
           mediaType := mediaType }

/-- The members that the payload of a submission must have. -/
def submitFields : List String :=
  ["statement", "claim_kind", "proof_or_evidence_artifacts", "predecessor_fact_ids",
    "source_binding_artifact", "work_item_id", "worker_run_id", "attempt_id"]

/-- The members that it may have. -/
def submitOptional : List String := ["route_id", "supersedes_claim_id", "public_summary"]

section Handlers

variable (P : Platform) (s : ClaimLedger)

/-- The submission in the payload of a command. -/
def submissionOf (context : CommandContext) : Option ClaimSubmission := do
  let payload := context.payload
  require (hasFields payload submitFields submitOptional)
  let catalog ← artifactCatalog context.evidenceSummary
  let proof ← (payload.get "proof_or_evidence_artifacts").sequence?
  let facts ← (payload.get "predecessor_fact_ids").sequence?
  let statement ← nonemptyText (payload.get "statement")
  let kind ← ClaimKind.ofWire (payload.get "claim_kind")
  let artifacts ← proof.mapM (binding catalog)
  let factIds ← facts.mapM nonemptyText
  let source ← binding catalog (payload.get "source_binding_artifact")
  let workItemId ← nonemptyText (payload.get "work_item_id")
  let workerRunId ← nonemptyText (payload.get "worker_run_id")
  let attemptId ← nonemptyText (payload.get "attempt_id")
  let routeId ← optionalNonempty (payload.get "route_id")
  let supersedes ← optionalNonempty (payload.get "supersedes_claim_id")
  let summary ← optionalNonempty (payload.get "public_summary")
  let submission : ClaimSubmission :=
    { runId := context.runId
      contractVersion := context.contractVersion
      kernelRevision := context.revision
      statement := statement
      claimKind := kind
      proofOrEvidenceArtifacts := artifacts
      predecessorFactIds := factIds
      sourceBindingArtifact := source
      workItemId := workItemId
      workerRunId := workerRunId
      attemptId := attemptId
      routeId := routeId
      supersedesClaimId := supersedes
      publicSummary := summary }
  (submission.validate P).toOption
  return submission

/-- The mutation of an accepted submission. -/
structure SubmitMutation where
  submission : ClaimSubmission
  subjectId : Id

/-- The handler of `SUBMIT_CLAIM`. -/
def submitClaim (context : CommandContext) : Checked SubmitMutation := do
  rejectIf (!context.hasRole "WORKER") (roleRejection "WORKER")
  let frozen := (context.snapshot.get "contract").mapping?.any fun contract =>
    (contract.get "status").isText "FROZEN"
  rejectIf (!frozen)
    (refuse .contractNotFrozen "CONTRACT_STATE" "/contract" [("required", .str "FROZEN")])
  let submission ← orReject (submissionOf P context)
    (refuse .ingestSchemaInvalid "ATOMIC_CLAIM" "/command/payload")
  return { submission := { submission with statement := submission.normalizedStatement P }
           subjectId := context.capability.subjectId }

/-- The checks of an artifact in a stored submission. -/
def ClaimArtifactBinding.restore (artifact : ClaimArtifactBinding) : Except ClaimError Unit := do
  rejectIf (isBlank artifact.artifactId || isBlank artifact.sha256 || isBlank artifact.mediaType)
    (.value "value must be a non-empty string")
  rejectIf (decide (artifact.byteCount < 0)) (.value "value must be a natural integer")
  rejectIf (!isDigest artifact.sha256) (.value "artifact identity and sha256 are required")

/-- The checks of a stored submission. -/
def ClaimSubmission.restore (submission : ClaimSubmission) : Except ClaimError Unit := do
  rejectIf (isBlank submission.runId) (.value "value must be a non-empty string")
  rejectIf (decide (submission.contractVersion < 1)) (.value "value must be a positive integer")
  rejectIf (decide (submission.kernelRevision < 0)) (.value "value must be a natural integer")
  rejectIf (isBlank submission.statement) (.value "value must be a non-empty string")
  checkAll ClaimArtifactBinding.restore submission.proofOrEvidenceArtifacts
  rejectIf (submission.predecessorFactIds.any isBlank) (.value "value must be a non-empty string")
  submission.sourceBindingArtifact.restore
  rejectIf (isBlank submission.workItemId || isBlank submission.workerRunId ||
      isBlank submission.attemptId || submission.routeId.any isBlank ||
      submission.supersedesClaimId.any isBlank || submission.publicSummary.any isBlank)
    (.value "value must be a non-empty string")
  submission.validate P

def applySubmit (context : CommandContext) (mutation : SubmitMutation) (claimId : Id)
    (now : Stamp) : Except ClaimError ClaimLedger := do
  mutation.submission.restore P
  rejectIf (mutation.submission.runId != context.runId ||
      decide (mutation.submission.contractVersion ≠ context.contractVersion) ||
      decide (mutation.submission.kernelRevision ≠ context.revision))
    (.value "B10 Claim mutation is not bound to kernel projection context")
  let (_, s') ← submit P s mutation.submission mutation.subjectId claimId now
  return s'

/-! ## Evidence -/

/-- The evidence of a validation. -/
structure ValidationEvidence where
  validationId : Id
  claimId : Id
  runId : Id
  contractVersion : ℤ
  statementDigest : Digest
  selectedSubgraphDigest : Digest
  backend : ValidationBackend
  verdict : ValidationVerdict
  verifierReferenceId : Id
  authorityEffect : String
  proofChecked : Bool
  scopeChecked : Bool
  independenceVerified : Bool
  repairFeedback : Option String := none

/-- The backend with a text. -/
def ValidationBackend.ofWire : Json → Option ValidationBackend
  | .str "LEAN" => some .lean
  | .str "DETERMINISTIC_CHECKER" => some .deterministicChecker
  | .str "MANAGED_HUMAN" => some .managedHuman
  | .str "SOFT_VERIFIER" => some .softVerifier
  | _ => none

/-- The verdict with a text. -/
def ValidationVerdict.ofWire : Json → Option ValidationVerdict
  | .str "ACCEPTED" => some .accepted
  | .str "REJECTED" => some .rejected
  | _ => none

/-- A truth value. -/
def flag : Json → Option Bool
  | .bool value => some value
  | _ => none

/-- The members of the evidence of a validation. -/
def evidenceFields : List String :=
  ["validation_id", "claim_id", "run_id", "contract_version", "statement_digest",
    "selected_subgraph_digest", "backend", "verdict", "verifier_reference_id", "authority_effect",
    "proof_checked", "scope_checked", "independence_verified"]

/-- The evidence in an object. -/
def ValidationEvidence.ofFields (value : JsonObject) : Option ValidationEvidence := do
  require (hasFields value evidenceFields ["repair_feedback"])
  let proofChecked ← flag (value.get "proof_checked")
  let scopeChecked ← flag (value.get "scope_checked")
  let independenceVerified ← flag (value.get "independence_verified")
  let validationId ← nonemptyText (value.get "validation_id")
  let claimId ← nonemptyText (value.get "claim_id")
  let runId ← nonemptyText (value.get "run_id")
  let contractVersion ← positiveInt (value.get "contract_version")
  let statementDigest ← digestText (value.get "statement_digest")
  let selectedSubgraphDigest ← digestText (value.get "selected_subgraph_digest")
  let backend ← ValidationBackend.ofWire (value.get "backend")
  let verdict ← ValidationVerdict.ofWire (value.get "verdict")
  let verifierReferenceId ← nonemptyText (value.get "verifier_reference_id")
  let authorityEffect ← nonemptyText (value.get "authority_effect")
  let repairFeedback ← if value.has "repair_feedback"
    then (nonemptyText (value.get "repair_feedback")).map some else some none
  return { validationId := validationId
           claimId := claimId
           runId := runId
           contractVersion := contractVersion
           statementDigest := statementDigest
           selectedSubgraphDigest := selectedSubgraphDigest
           backend := backend
           verdict := verdict
           verifierReferenceId := verifierReferenceId
           authorityEffect := authorityEffect
           proofChecked := proofChecked
           scopeChecked := scopeChecked
           independenceVerified := independenceVerified
           repairFeedback := repairFeedback }

/-- The evidence that the host has imported for the review task in a payload. -/
def importedEvidence (context : CommandContext) : Option ValidationEvidence := do
  let payload := context.payload
  let taskId ← nonemptyText (payload.get "review_task_id")
  let values ← (context.evidenceSummary.get "validation_evidence_by_review_task").mapping?
  let imported ← (values.get taskId).mapping?
  require (imported.hasExactly ["signed_review_artifact", "verifier_receipt_ids", "validation"])
  require ((imported.get "signed_review_artifact").eqv (payload.get "signed_review_artifact"))
  let supplied ← (payload.get "verifier_receipt_ids").sequence?
  let importedRefs ← (imported.get "verifier_receipt_ids").sequence?
  require (Json.eqvItems supplied importedRefs)
  let validation ← (imported.get "validation").mapping?
  ValidationEvidence.ofFields validation

/-! ## The gateway -/

/-- Whether the checks behind an acceptance are complete for the backend that made them. -/
def eligible (evidence : ValidationEvidence) : Bool :=
  match evidence.backend with
  | .lean | .deterministicChecker =>
    evidence.proofChecked && evidence.scopeChecked && evidence.authorityEffect == "MACHINE_CHECKED"
  | .managedHuman =>
    evidence.proofChecked && evidence.scopeChecked && evidence.independenceVerified &&
      evidence.authorityEffect == "HUMAN_ATTESTED"
  | .softVerifier => false

/-- The result that evidence gives for a claim. -/
def resultOf (claim : ClaimRecord) (evidence : ValidationEvidence) (digest : Digest)
    (promotionEligible : Bool) (repairFeedback : Option String) : ValidationResult where
  validationId := evidence.validationId
  claimId := claim.claimId
  statementDigest := claim.statementDigest
  contractVersion := claim.contractVersion
  selectedSubgraphDigest := digest
  backend := evidence.backend
  verdict := evidence.verdict
  verifierReferenceId := evidence.verifierReferenceId
  promotionEligible := promotionEligible
  authorityEffect := evidence.authorityEffect
  repairFeedback := repairFeedback

/-- Check evidence against a claim. A rejection is returned before the backend is looked at. -/
def evaluate (claim : ClaimRecord) (evidence : ValidationEvidence)
    (expectedSubgraphDigest : Digest) : Option ValidationResult := do
  require (!isBlank expectedSubgraphDigest && isDigest expectedSubgraphDigest)
  require (evidence.claimId == claim.claimId && evidence.runId == claim.runId &&
    decide (evidence.contractVersion = claim.contractVersion) &&
    evidence.statementDigest == claim.statementDigest &&
    evidence.selectedSubgraphDigest == expectedSubgraphDigest)
  match evidence.verdict with
  | .rejected => do
    require (evidence.repairFeedback.any (· != ""))
    return resultOf claim evidence expectedSubgraphDigest false evidence.repairFeedback
  | .accepted => do
    require (evidence.backend != .softVerifier || evidence.authorityEffect == "NONE")
    require (eligible evidence || evidence.backend == .softVerifier)
    return resultOf claim evidence expectedSubgraphDigest (eligible evidence) none

/-- The members of the payload of an import. -/
def importFields : List String :=
  ["review_task_id", "signed_review_artifact", "target_digest", "verifier_receipt_ids"]

/-- The result that the evidence of an import gives for the claim it names. -/
def importedResult (context : CommandContext) : Option ValidationResult := do
  let evidence ← importedEvidence context
  let claim ← (get s evidence.claimId).toOption
  let subgraph ← (necessarySubgraph P s claim.claimId 200).toOption
  let result ← evaluate claim evidence subgraph.digest
  require ((context.payload.get "target_digest").isText claim.statementDigest)
  return result

/-- The handler of `IMPORT_VERIFICATION`. -/
def importVerification (context : CommandContext) : Checked ValidationResult := do
  rejectIf (!(context.hasRole "MACHINE_VERIFIER" || context.hasRole "PEER_REVIEWER"))
    (roleRejection "VERIFIER")
  rejectIf (!context.payload.hasExactly importFields)
    (refuse .ingestSchemaInvalid "VERIFICATION_ENVELOPE" "/command/payload")
  orReject (importedResult P s context)
    (refuse .evidenceScopeMismatch "VERIFICATION_BINDING" "/command/payload")

/-- The verdict of the kernel that a result stands for. -/
def verdictOf (context : CommandContext) (applied : AppliedAs) (result : ValidationResult) :
    KernelVerdictReceipt where
  authoritySource := "RESEARCH_KERNEL"
  commandType := "IMPORT_VERIFICATION"
  receiptId := applied.commandId
  eventId := applied.eventId
  kernelRevision := context.revision + 1
  claimId := result.claimId
  statementDigest := result.statementDigest
  contractVersion := result.contractVersion
  validationId := result.validationId
  accepted := result.verdict == .accepted
  promotionEligible := result.promotionEligible
  repairFeedback := result.repairFeedback

/-- The projection of a validation. An acceptance without authority is only recorded. -/
def applyValidation (context : CommandContext) (applied : AppliedAs) (result : ValidationResult) :
    Except ClaimError ClaimLedger := do
  let recorded ← recordValidation s result applied.commandId applied.eventId applied.recordedAt
  if result.verdict = .accepted ∧ result.promotionEligible = false then return recorded
  else do
    let (_, decided) ← recordKernelVerdict recorded (verdictOf context applied result)
      applied.recordedAt
    return decided

end Handlers

/-! ## Runs -/

/-- A command on claims. -/
inductive ClaimCommand where
  /-- `SUBMIT_CLAIM`, with the identifier for the new claim. -/
  | submitClaim (context : CommandContext) (applied : AppliedAs) (claimId : Id)
  /-- `IMPORT_VERIFICATION`. -/
  | importVerification (context : CommandContext) (applied : AppliedAs)

/-- What a command does when it is accepted and applied. -/
def ClaimCommand.run (P : Platform) (s : ClaimLedger) : ClaimCommand → Option ClaimLedger
  | .submitClaim context applied claimId => do
    let mutation ← (Claims.submitClaim P context).toOption
    (applySubmit P s context mutation claimId applied.recordedAt).toOption
  | .importVerification context applied => do
    let result ← (Claims.importVerification P s context).toOption
    (applyValidation s context applied result).toOption

/-- One command. A command that is rejected, or whose projection raises, changes nothing. -/
def commandStep (P : Platform) (s : ClaimLedger) (command : ClaimCommand) : ClaimLedger :=
  (command.run P s).getD s

def afterCommands (P : Platform) (history : List ClaimCommand) : ClaimLedger :=
  runFrom (commandStep P) {} history

end ResearchKernel.Product.Claims
