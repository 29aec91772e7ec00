import ResearchKernel.Canonical
import ResearchKernel.Foundation.Collect
import ResearchKernel.Foundation.Runs
import ResearchKernel.Product.Jobs

/-!
# Product claims

A worker submits a claim with the facts it rests on. The kernel decides it. A rejected claim is
repaired by a new one that supersedes it. The facts that a claim rests on, directly or through
other facts, are its necessary subgraph.
-/

namespace ResearchKernel.Product.Claims

open Foundation

/-! ## Tables -/

/-- Where a claim is. -/
inductive ClaimLifecycle where
  | pendingVerification | accepted | rejected | invalidated | revoked
deriving DecidableEq

/-- What a claim is. -/
inductive ClaimKind where
  | root | lemma_ | definition | counterexample | computation
deriving DecidableEq

/-- What authority a claim has. -/
inductive ClaimAuthorityClass where
  | researchHistory | verified
deriving DecidableEq

/-- An artifact that is bound to a claim. -/
structure ClaimArtifactBinding where
  artifactId : Id
  sha256 : Digest
  byteCount : ℤ
  mediaType : String
deriving DecidableEq

/-- What a worker submits. -/
structure ClaimSubmission where
  runId : Id
  contractVersion : ℤ
  kernelRevision : ℤ
  statement : String
  claimKind : ClaimKind
  proofOrEvidenceArtifacts : List ClaimArtifactBinding
  predecessorFactIds : List Id
  sourceBindingArtifact : ClaimArtifactBinding
  workItemId : Id
  workerRunId : Id
  attemptId : Id
  routeId : Option Id := none
  supersedesClaimId : Option Id := none
  stableLabel : Option String := none
  publicSummary : Option String := none

/-- A row of `product_claims`. -/
structure ProductClaim where
  claimId : Id
  runId : Id
  contractVersion : ℤ
  kernelRevisionCreated : ℤ
  kernelRevisionDecided : Option ℤ := none
  statement : String
  statementDigest : Digest
  claimKind : ClaimKind
  lifecycle : ClaimLifecycle
  authorityClass : ClaimAuthorityClass
  promotionEligible : Bool
  sourceBinding : ClaimArtifactBinding
  workItemId : Id
  workerRunId : Id
  attemptId : Id
  submittedBySubjectId : Id
  routeId : Option Id
  supersedesClaimId : Option Id
  supersededByClaimId : Option Id := none
  stableLabel : String
  publicSummary : Option String
  repairFeedback : Option String := none
  validationId : Option Id := none
  kernelReceiptId : Option Id := none
  kernelEventId : Option Id := none
  createdAt : Stamp
  updatedAt : Stamp
deriving DecidableEq

/-- Unique columns of `product_claims`. -/
def ProductClaim.clash (a b : ProductClaim) : Bool :=
  a.claimId == b.claimId ||
  a.runId == b.runId && a.workerRunId == b.workerRunId && a.attemptId == b.attemptId ||
  a.runId == b.runId && a.stableLabel == b.stableLabel ||
  a.kernelReceiptId.isSome && a.kernelReceiptId == b.kernelReceiptId ||
  a.kernelEventId.isSome && a.kernelEventId == b.kernelEventId

/-- The check of `product_claims` on what a lifecycle goes with. -/
def ProductClaim.consistent (row : ProductClaim) : Bool :=
  match row.lifecycle with
  | .accepted =>
    row.authorityClass == .verified && row.promotionEligible && row.validationId.isSome &&
    row.kernelReceiptId.isSome && row.kernelEventId.isSome && row.repairFeedback.isNone &&
    row.kernelRevisionDecided.isSome
  | .rejected =>
    row.authorityClass == .researchHistory && !row.promotionEligible && row.validationId.isSome &&
    row.kernelReceiptId.isSome && row.kernelEventId.isSome && row.repairFeedback.isSome &&
    row.kernelRevisionDecided.isSome
  | .pendingVerification | .invalidated | .revoked =>
    row.authorityClass == .researchHistory && !row.promotionEligible

/-- A row of `product_claim_predecessors`. -/
structure ClaimPredecessor where
  claimId : Id
  factId : Id
  ordinal : ℕ
deriving DecidableEq

/-- Unique columns of `product_claim_predecessors`. -/
def ClaimPredecessor.clash (a b : ClaimPredecessor) : Bool :=
  a.claimId == b.claimId && (a.factId == b.factId || a.ordinal == b.ordinal)

/-- A row of `product_claim_evidence`. -/
structure ClaimEvidence where
  claimId : Id
  ordinal : ℕ
  binding : ClaimArtifactBinding
deriving DecidableEq

/-- Unique columns of `product_claim_evidence`. -/
def ClaimEvidence.clash (a b : ClaimEvidence) : Bool :=
  a.claimId == b.claimId && a.ordinal == b.ordinal

/-- What checks a claim. -/
inductive ValidationBackend where
  | lean | deterministicChecker | managedHuman | softVerifier
deriving DecidableEq

/-- What a check says. -/
inductive ValidationVerdict where
  | accepted | rejected
deriving DecidableEq

/-- The result of a validation. -/
structure ValidationResult where
  validationId : Id
  claimId : Id
  statementDigest : Digest
  contractVersion : ℤ
  selectedSubgraphDigest : Digest
  backend : ValidationBackend
  verdict : ValidationVerdict
  verifierReferenceId : Id
  promotionEligible : Bool
  authorityEffect : String
  repairFeedback : Option String
deriving DecidableEq

/-- A row of `product_claim_validations`. -/
structure ClaimValidation where
  validationId : Id
  claimId : Id
  result : ValidationResult
  kernelReceiptId : Id
  kernelEventId : Id
  createdAt : Stamp
deriving DecidableEq

/-- Unique columns of `product_claim_validations`. -/
def ClaimValidation.clash (a b : ClaimValidation) : Bool := a.validationId == b.validationId

/-- The tables of claims. -/
structure ClaimLedger where
  claims : List ProductClaim := []
  predecessors : List ClaimPredecessor := []
  evidence : List ClaimEvidence := []
  validations : List ClaimValidation := []
deriving DecidableEq

/-- A claim as it is read, with the facts it rests on and its evidence. -/
structure ClaimRecord extends ProductClaim where
  predecessorFactIds : List Id
  evidenceArtifacts : List ClaimArtifactBinding

/-- What the claim store raises. -/
inductive ClaimError where
  /-- `ValueError`. -/
  | value (message : String)
  /-- `ClaimConflict`. -/
  | conflict (message : String)
  /-- `ClaimScopeError`. -/
  | scope (message : String)
  /-- `KeyError`. -/
  | key (claimId : Id)
  /-- `sqlite3.IntegrityError`. -/
  | integrity

/-! ## Submissions -/

/-- What `str.strip` leaves of a text. -/
def strip (text : String) : String :=
  String.ofList (((text.toList.dropWhile isSpace).reverse.dropWhile isSpace).reverse)

section Store

variable (P : Platform) (s : ClaimLedger)

/-- The statement of a submission in its normal form. -/
def ClaimSubmission.normalizedStatement (submission : ClaimSubmission) : String :=
  strip (P.nfc submission.statement)

/-- The digest of the normal form of a statement. -/
def ClaimSubmission.statementDigest (submission : ClaimSubmission) : Digest :=
  P.sha256 (submission.normalizedStatement P).toList

/-- The checks of a submission. -/
def ClaimSubmission.validate (submission : ClaimSubmission) : Except ClaimError Unit := do
  rejectIf (submission.runId == "" || decide (submission.contractVersion < 1) ||
      decide (submission.kernelRevision < 0) || submission.normalizedStatement P == "" ||
      submission.workItemId == "" || submission.workerRunId == "" || submission.attemptId == "")
    (.value "Claim submission scope or identity is invalid")
  rejectIf (!decide submission.predecessorFactIds.Nodup)
    (.value "predecessor facts must be unique")
  rejectIf (!decide (submission.proofOrEvidenceArtifacts.map
      ClaimArtifactBinding.artifactId).Nodup)
    (.value "proof or evidence artifacts must be unique")
  rejectIf (submission.supersedesClaimId == some "")
    (.value "supersedes_claim_id must be non-empty")

/-- The facts of a claim, in the order of the submission. -/
def predecessorFactIds (claimId : Id) : List Id :=
  ((s.predecessors.filter (·.claimId == claimId)).insertionSort
    (·.ordinal ≤ ·.ordinal)).map ClaimPredecessor.factId

/-- The evidence of a claim, in the order of the submission. -/
def evidenceArtifacts (claimId : Id) : List ClaimArtifactBinding :=
  ((s.evidence.filter (·.claimId == claimId)).insertionSort
    (·.ordinal ≤ ·.ordinal)).map ClaimEvidence.binding

/-- Read a claim. -/
def get (claimId : Id) : Except ClaimError ClaimRecord := do
  let row ← orReject (s.claims.find? (·.claimId == claimId)) (.key claimId)
  return { toProductClaim := row
           predecessorFactIds := predecessorFactIds s claimId
           evidenceArtifacts := evidenceArtifacts s claimId }

/-- The facts of a submission must be current verified facts of its run. -/
def validatePredecessors (submission : ClaimSubmission) : Except ClaimError Unit :=
  checkAll (fun factId => do
    let fact ← get s factId
    rejectIf (fact.runId != submission.runId ||
        decide (fact.contractVersion ≠ submission.contractVersion) ||
        fact.lifecycle != .accepted || fact.authorityClass != .verified ||
        !fact.promotionEligible)
      (.scope "predecessor is not a current verified fact")) submission.predecessorFactIds

def validateRepair (submission : ClaimSubmission) : Except ClaimError Unit :=
  match submission.supersedesClaimId with
  | none => .ok ()
  | some oldId => do
    let old ← get s oldId
    rejectIf (old.runId != submission.runId ||
        decide (old.contractVersion ≠ submission.contractVersion) ||
        old.lifecycle != .rejected || old.supersededByClaimId.isSome ||
        old.statementDigest == submission.statementDigest P)
      (.scope "repair must supersede one rejected Claim with new content")

/-- The row of a new claim. -/
def newClaim (submission : ClaimSubmission) (subjectId claimId : Id) (now : Stamp) :
    ProductClaim where
  claimId := claimId
  runId := submission.runId
  contractVersion := submission.contractVersion
  kernelRevisionCreated := submission.kernelRevision
  statement := submission.normalizedStatement P
  statementDigest := submission.statementDigest P
  claimKind := submission.claimKind
  lifecycle := .pendingVerification
  authorityClass := .researchHistory
  promotionEligible := false
  sourceBinding := submission.sourceBindingArtifact
  workItemId := submission.workItemId
  workerRunId := submission.workerRunId
  attemptId := submission.attemptId
  submittedBySubjectId := subjectId
  routeId := submission.routeId
  supersedesClaimId := submission.supersedesClaimId
  stableLabel := (submission.stableLabel.filter (· != "")).getD claimId
  publicSummary := submission.publicSummary
  createdAt := now
  updatedAt := now

/-- Mark the claim that a new one supersedes. -/
def markSuperseded (claims : List ProductClaim) (oldId : Option Id) (claimId : Id) (now : Stamp) :
    Except ClaimError (List ProductClaim) :=
  match oldId with
  | none => .ok claims
  | some oldId => do
    let test := fun row : ProductClaim => row.claimId == oldId && (row.lifecycle == .rejected &&
      row.supersededByClaimId.isNone)
    rejectIf (decide (claims.countP test ≠ 1))
      (.conflict "rejected Claim was concurrently superseded")
    return updateWhere test
      (fun row => { row with supersededByClaimId := some claimId, updatedAt := now }) claims

/-- Submit a claim. An attempt that has submitted one before finds it again. -/
def submit (submission : ClaimSubmission) (subjectId claimId : Id) (now : Stamp) :
    Except ClaimError (ClaimRecord × ClaimLedger) := do
  rejectIf (subjectId == "") (.value "subject_id must be non-empty")
  match s.claims.find? fun row => row.runId == submission.runId &&
      row.workerRunId == submission.workerRunId && row.attemptId == submission.attemptId with
  | some existing => do
    rejectIf (existing.statementDigest != submission.statementDigest P)
      (.conflict "one attempt cannot submit more than one Claim")
    return (← get s existing.claimId, s)
  | none => do
    validatePredecessors s submission
    validateRepair P s submission
    let row := newClaim P submission subjectId claimId now
    rejectIf (s.claims.any fun other => other.runId == row.runId &&
        other.stableLabel == row.stableLabel && other.statementDigest != row.statementDigest)
      (.conflict "STABLE_LABEL_CONFLICT")
    let claims ← orReject (insertRow ProductClaim.clash row s.claims) .integrity
    let predecessors ← orReject (insertRows ClaimPredecessor.clash
      (submission.predecessorFactIds.mapIdx fun ordinal factId =>
        { claimId := claimId, factId := factId, ordinal := ordinal }) s.predecessors) .integrity
    let evidence ← orReject (insertRows ClaimEvidence.clash
      (submission.proofOrEvidenceArtifacts.mapIdx fun ordinal binding =>
        { claimId := claimId, ordinal := ordinal, binding := binding }) s.evidence) .integrity
    let claims ← markSuperseded claims submission.supersedesClaimId claimId now
    let s' := { s with claims := claims, predecessors := predecessors, evidence := evidence }
    return (← get s' claimId, s')

/-! ## Verdicts -/

/-- A verdict of the kernel. -/
structure KernelVerdictReceipt where
  authoritySource : String
  commandType : String
  receiptId : Id
  eventId : Id
  kernelRevision : ℤ
  claimId : Id
  statementDigest : Digest
  contractVersion : ℤ
  validationId : Id
  accepted : Bool
  promotionEligible : Bool
  repairFeedback : Option String := none

/-- A claim with a verdict. -/
def decided (receipt : KernelVerdictReceipt) (now : Stamp) (row : ProductClaim) : ProductClaim :=
  { row with
    lifecycle := if receipt.accepted then .accepted else .rejected
    authorityClass := if receipt.accepted then .verified else .researchHistory
    promotionEligible := receipt.promotionEligible
    repairFeedback := receipt.repairFeedback
    validationId := some receipt.validationId
    kernelReceiptId := some receipt.receiptId
    kernelEventId := some receipt.eventId
    kernelRevisionDecided := some receipt.kernelRevision
    updatedAt := now }

/-- Record a verdict of the kernel on a claim that is pending. -/
def recordKernelVerdict (receipt : KernelVerdictReceipt) (now : Stamp) :
    Except ClaimError (ClaimRecord × ClaimLedger) := do
  let claim ← get s receipt.claimId
  rejectIf (receipt.authoritySource != "RESEARCH_KERNEL" ||
      receipt.commandType != "IMPORT_VERIFICATION" ||
      claim.statementDigest != receipt.statementDigest ||
      decide (claim.contractVersion ≠ receipt.contractVersion) ||
      claim.lifecycle != .pendingVerification ||
      decide (receipt.kernelRevision < claim.kernelRevisionCreated) ||
      receipt.receiptId == "" || receipt.eventId == "")
    (.scope "kernel verdict is not bound to the pending Claim")
  rejectIf (receipt.accepted != receipt.promotionEligible)
    (.scope "only promotion-eligible acceptance can enter VERIFIED")
  rejectIf (!receipt.accepted && !receipt.repairFeedback.any (fun text => !isBlank text))
    (.scope "rejection requires actionable repair feedback")
  let row := decided receipt now claim.toProductClaim
  rejectIf (!row.consistent || s.claims.any fun other =>
    other.claimId != row.claimId && row.clash other) .integrity
  let s' := { s with
    claims := updateWhere (·.claimId == receipt.claimId) (decided receipt now) s.claims }
  return (← get s' receipt.claimId, s')

/-- Record a validation of a claim that is pending. -/
def recordValidation (result : ValidationResult) (kernelReceiptId kernelEventId : Id)
    (now : Stamp) : Except ClaimError ClaimLedger := do
  let claim ← get s result.claimId
  rejectIf (claim.statementDigest != result.statementDigest ||
      decide (claim.contractVersion ≠ result.contractVersion) ||
      claim.lifecycle != .pendingVerification)
    (.scope "validation result is not bound to pending Claim")
  match s.validations.find? (·.validationId == result.validationId) with
  | some existing => do
    rejectIf (existing.result != result || existing.kernelReceiptId != kernelReceiptId ||
        existing.kernelEventId != kernelEventId)
      (.conflict "validation_id is already bound to another result")
    return s
  | none => do
    let validations ← orReject (insertRow ClaimValidation.clash
        { validationId := result.validationId
          claimId := claim.claimId
          result := result
          kernelReceiptId := kernelReceiptId
          kernelEventId := kernelEventId
          createdAt := now } s.validations) .integrity
    return { s with validations := validations }

/-! ## The necessary subgraph -/

/-- The facts that a claim rests on, and their digest. -/
structure NecessarySubgraph where
  targetClaimId : Id
  facts : List ClaimRecord
  digest : Digest

/-- Read a fact that a claim rests on. -/
def currentFact (target : ClaimRecord) (factId : Id) : Except ClaimError ClaimRecord := do
  let fact ← get s factId
  rejectIf (fact.lifecycle != .accepted || fact.authorityClass != .verified ||
      fact.runId != target.runId || decide (fact.contractVersion ≠ target.contractVersion))
    (.scope "necessary subgraph contains a non-current fact")
  return fact

/-- What the digest of a subgraph says about a fact. -/
def factValue (fact : ClaimRecord) : Json :=
  .obj [("claim_id", .str fact.claimId), ("statement_digest", .str fact.statementDigest),
    ("predecessor_fact_ids", Json.ofTexts fact.predecessorFactIds)]

def subgraphDigest (facts : List ClaimRecord) : Digest :=
  P.sha256 (dumps (.arr (facts.map factValue)))

/-- All facts that a claim rests on, directly or through other facts. -/
def necessarySubgraph (claimId : Id) (nodeLimit : ℤ) : Except ClaimError NecessarySubgraph := do
  rejectIf (!(decide (1 ≤ nodeLimit) && decide (nodeLimit ≤ 200)))
    (.value "necessary subgraph node_limit must be between 1 and 200")
  let target ← get s claimId
  let collected ← collect (currentFact s target) ClaimRecord.predecessorFactIds
    (.scope "necessary subgraph exceeds the declared node limit") nodeLimit.toNat [] []
    target.predecessorFactIds
  let facts := collected.insertionSort (·.claimId ≤ ·.claimId)
  return { targetClaimId := claimId, facts := facts, digest := subgraphDigest P facts }

end Store

/-! ## Runs -/

/-- What happens to the claims. -/
inductive ClaimOp where
  /-- A worker submits a claim; the identifier is a new one. -/
  | submit (submission : ClaimSubmission) (subjectId claimId : Id) (now : Stamp)
  /-- A verdict of the kernel arrives. -/
  | verdict (receipt : KernelVerdictReceipt) (now : Stamp)

def checkedSubmit (P : Platform) (s : ClaimLedger) (submission : ClaimSubmission)
    (subjectId claimId : Id) (now : Stamp) : Except ClaimError (ClaimRecord × ClaimLedger) := do
  submission.validate P
  submit P s submission subjectId claimId now

/-- One operation. A transaction that raises is rolled back. -/
def step (P : Platform) (s : ClaimLedger) : ClaimOp → ClaimLedger
  | .submit submission subjectId claimId now =>
    ((checkedSubmit P s submission subjectId claimId now).map Prod.snd).toOption.getD s
  | .verdict receipt now => ((recordKernelVerdict s receipt now).map Prod.snd).toOption.getD s

def reached (P : Platform) (history : List ClaimOp) : ClaimLedger := runFrom (step P) {} history

end ResearchKernel.Product.Claims
