import ResearchKernel.Canonical
import ResearchKernel.Product.Sessions
import ResearchKernel.Product.Uploads

/-!
# Review tasks and signed reviews

A review task is given to a reviewer, who claims it. A signed review is imported in two steps:
the artifact is checked against the task as it is then, and later, in a transaction of its own,
it is recorded for the task. Between the two, other calls may come.
-/

namespace ResearchKernel.Product.Reviews

open Foundation
open Sessions (Accounts ProductRole ProductIdentity IdentityRow SessionStep)
open Uploads (ArtifactRef)

/-! ## Tasks -/

/-- What is reviewed. -/
inductive ReviewType where
  | atomic | composition | paper
deriving DecidableEq

/-- Text of a review type. -/
def ReviewType.wire : ReviewType → String
  | .atomic => "ATOMIC"
  | .composition => "COMPOSITION"
  | .paper => "PAPER"

/-- The role that a reviewer must have. -/
def ReviewType.requiredRole : ReviewType → ProductRole
  | .paper => .paperReviewer
  | _ => .peerReviewer

/-- State of a review task. -/
inductive ReviewTaskStatus where
  | open_ | claimed | submitted | expired | reassigned | invalidated
deriving DecidableEq

/-- The states in which a task may be claimed. -/
def ReviewTaskStatus.isClaimable : ReviewTaskStatus → Bool
  | .open_ | .reassigned => true
  | _ => false

/-- The states that a task does not leave. -/
def ReviewTaskStatus.isSettled : ReviewTaskStatus → Bool
  | .submitted | .invalidated => true
  | _ => false

/-- Whether the reviewer is known to be independent of the authors. -/
inductive IndependenceStatus where
  | pending | verified | failed

/-- What the task store and the importer raise. -/
inductive ReviewError where
  /-- `ReviewTaskStateError`. -/
  | state (code : String)
  /-- `ReviewTaskConflict`. -/
  | conflict (message : String)
  /-- `ReviewIndependenceError`. -/
  | independence (code : String)
  /-- `AttestationImportError`. -/
  | attestation (code detail : String)
  /-- `RequestValidationError`. -/
  | request
  /-- `ValueError`. -/
  | value (message : String)
  /-- `KeyError`. -/
  | key (id : Id)
  /-- `sqlite3.IntegrityError`. -/
  | integrity
deriving DecidableEq

/-- Whether a text is a UUID in its canonical lowercase form. -/
def isUuid (text : String) : Bool :=
  text.toList.length == 36 && text.toList.zipIdx.all fun (c, i) =>
    if i = 8 ∨ i = 13 ∨ i = 18 ∨ i = 23 then c == '-' else "0123456789abcdef".toList.contains c

/-- What a review is about. -/
structure ReviewBinding where
  runId : Id
  kernelRevision : ℤ
  contractVersion : ℤ
  targetId : Id
  targetDigest : Digest
  selectedSubgraphDigest : Option Digest := none
  closureWitnessId : Option Id := none
  candidateTexArtifactId : Option Id := none
  terminalRootDigest : Option Digest := none
  dependencyClosureDigest : Option Digest := none
deriving DecidableEq

def checkUuid (value name : String) : Except ReviewError Unit :=
  rejectIf (!isUuid value) (.value (name ++ " must use canonical lowercase UUID form"))

def checkHash (value name : String) : Except ReviewError Unit :=
  rejectIf (!isDigest value) (.value (name ++ " must be a lowercase SHA-256 digest"))

namespace ReviewBinding

variable (binding : ReviewBinding)

/-- The fields that only the review of a paper has. -/
def paperFields : List (Option String) :=
  [binding.candidateTexArtifactId, binding.terminalRootDigest, binding.dependencyClosureDigest]

/-- A binding must have the fields of its review type, and no others. -/
def validateFor (reviewType : ReviewType) : Except ReviewError Unit := do
  checkUuid binding.runId "run_id"
  checkUuid binding.targetId "target_id"
  checkHash binding.targetDigest "target_digest"
  rejectIf (decide (binding.kernelRevision < 0) || decide (binding.contractVersion < 1))
    (.value "invalid kernel revision or contract version")
  checkAll (checkHash · "selected_subgraph_digest") binding.selectedSubgraphDigest.toList
  match reviewType with
  | .composition => do
    rejectIf (binding.selectedSubgraphDigest.isNone || binding.closureWitnessId.isNone)
      (.value "composition requires subgraph digest and closure witness")
    checkAll (checkUuid · "closure_witness_id") binding.closureWitnessId.toList
    rejectIf (binding.paperFields.any (·.isSome))
      (.value "composition cannot contain paper binding fields")
  | .paper => do
    rejectIf (binding.paperFields.any (·.isNone))
      (.value "paper requires TeX, root, and dependency closure")
    checkAll (checkUuid · "candidate_tex_artifact_id") binding.candidateTexArtifactId.toList
    checkAll (checkHash · "terminal_root_digest") binding.terminalRootDigest.toList
    checkAll (checkHash · "dependency_closure_digest") binding.dependencyClosureDigest.toList
    rejectIf binding.closureWitnessId.isSome (.value "paper cannot contain closure_witness_id")
  | .atomic =>
    rejectIf (binding.closureWitnessId.isSome || binding.paperFields.any (·.isSome))
      (.value "atomic cannot contain composition or paper binding fields")

/-- The binding as it stands in a signed review. -/
def reviewBinding : JsonObject :=
  [("run_id", .str binding.runId), ("kernel_revision", .int binding.kernelRevision),
    ("contract_version", .int binding.contractVersion), ("target_id", .str binding.targetId),
    ("target_digest", .str binding.targetDigest)] ++
    (binding.selectedSubgraphDigest.toList.map fun digest =>
      ("selected_subgraph_digest", .str digest))

end ReviewBinding

/-- A row of `product_review_tasks`. -/
structure ReviewTaskRow where
  reviewTaskId : Id
  reviewType : ReviewType
  binding : ReviewBinding
  authorSubjectIds : List Id
  assigneeIdentityId : Id
  independenceStatus : IndependenceStatus := .pending
  status : ReviewTaskStatus := .open_
  signedArtifact : Option ArtifactRef := none
  createdAt : Stamp
  expiresAt : Stamp
  claimedAt : Option Stamp := none
  submittedAt : Option Stamp := none

/-- A task as it is read, with the subject of its assignee. -/
structure ReviewTask extends ReviewTaskRow where
  assigneeSubjectId : Id

/-- The rest of a call that has its transaction before it. -/
inductive PendingReview where
  /-- `create`, after its checks. -/
  | create (row : ReviewTaskRow)
  /-- `import_artifact`, after the artifact has been checked against the task. -/
  | record (task : ReviewTask) (artifact : ArtifactRef) (submittedAt : Stamp)

/-- The identities, the review tasks, and the calls that are under way. -/
structure ReviewDesk where
  accounts : Accounts := {}
  tasks : List ReviewTaskRow := []
  pending : List PendingReview := []

/-- What became of an attempt to claim a task. -/
inductive Claiming where
  /-- The task is claimed now. -/
  | taken
  /-- The task was claimed before. -/
  | kept
  /-- The task has expired. This is noted, and then the call raises. -/
  | expired

/-! ## The task store -/

section Store

variable (R : Sessions.Runtime)

/-- The moment that a text denotes. -/
def instant (text : Stamp) : Except ReviewError ℤ :=
  orReject (R.parseUtc text) (.value "review task timestamps must include a timezone")

/-- The authors of a task, in order. -/
def authors (values : List Id) : Except ReviewError (List Id) := do
  rejectIf (values.isEmpty || values.any (· == "") || !decide values.Nodup)
    (.value "review task authors must be non-empty and unique")
  return values.insertionSort (· ≤ ·)

namespace ReviewDesk

variable (desk : ReviewDesk)

/-- Rewrite the tasks that satisfy a test. -/
def updateTasks (test : ReviewTaskRow → Bool) (change : ReviewTaskRow → ReviewTaskRow) :
    ReviewDesk :=
  { desk with tasks := updateWhere test change desk.tasks }

/-- Rewrite the one task that satisfies a test. -/
def updateOne (test : ReviewTaskRow → Bool) (change : ReviewTaskRow → ReviewTaskRow)
    (error : ReviewError) : Except ReviewError ReviewDesk := do
  rejectIf (desk.tasks.countP test != 1) error
  return desk.updateTasks test change

/-- Read a task together with the subject of its assignee. -/
def getTask (taskId : Id) : Except ReviewError ReviewTask := do
  let row ← orReject (desk.tasks.find? (·.reviewTaskId == taskId)) (.key taskId)
  let identity ← orReject (Sessions.identityRow? row.assigneeIdentityId desk.accounts) (.key taskId)
  return { toReviewTaskRow := row, assigneeSubjectId := identity.subjectId }

/-- An enabled identity that may review. -/
def reviewer (identityId : Id) (reviewType : ReviewType) : Except ReviewError ProductIdentity := do
  let identity ← orReject ((Sessions.getIdentity identityId desk.accounts).toOption)
    (.key identityId)
  rejectIf (!identity.enabled || identity.role != reviewType.requiredRole)
    (.state "ASSIGNEE_ROLE_DOES_NOT_MATCH_REVIEW_TYPE")
  return identity

/-- Whether an identity is enabled and has a role. -/
def isReviewer (identityId : Id) (role : ProductRole) : Bool :=
  desk.accounts.identities.any fun row =>
    row.identityId == identityId && row.enabled && row.role == role

/-- The checks of `create`, and the row that it is going to insert. -/
def prepareCreate (taskId : Id) (reviewType : ReviewType) (binding : ReviewBinding)
    (authorSubjectIds : List Id) (assigneeIdentityId : Id) (createdAt expiresAt : Stamp) :
    Except ReviewError ReviewTaskRow := do
  checkUuid taskId "review_task_id"
  binding.validateFor reviewType
  let authors ← authors authorSubjectIds
  let assignee ← desk.reviewer assigneeIdentityId reviewType
  rejectIf (authors.contains assignee.subjectId) (.independence "REVIEWER_IS_TASK_AUTHOR")
  let expires ← instant R expiresAt
  let created ← instant R createdAt
  rejectIf (decide (expires ≤ created)) (.value "expires_at must follow created_at")
  return { reviewTaskId := taskId
           reviewType := reviewType
           binding := binding
           authorSubjectIds := authors
           assigneeIdentityId := assigneeIdentityId
           createdAt := createdAt
           expiresAt := expiresAt }

/-- The transaction of `create`. -/
def insertTask (row : ReviewTaskRow) : Except ReviewError ReviewDesk := do
  rejectIf (!decide (row.createdAt < row.expiresAt))
    (.conflict "review task identity already exists")
  let tasks ← orReject (insertRow (fun a b => a.reviewTaskId == b.reviewTaskId) row desk.tasks)
    (.conflict "review task identity already exists")
  return { desk with tasks := tasks }

/-- Claim a task. -/
def claim (taskId identityId : Id) (now : Stamp) : Except ReviewError (ReviewDesk × Claiming) := do
  let task ← desk.getTask taskId
  let reviewer ← desk.reviewer identityId task.reviewType
  rejectIf (task.assigneeIdentityId != reviewer.identityId)
    (.state "TASK_ASSIGNED_TO_ANOTHER_IDENTITY")
  rejectIf (task.authorSubjectIds.contains reviewer.subjectId)
    (.independence "REVIEWER_IS_TASK_AUTHOR")
  let moment ← instant R now
  let expires ← instant R task.expiresAt
  if expires ≤ moment then
    return (desk.updateTasks (fun row => row.reviewTaskId == taskId && row.status.isClaimable)
      fun row => { row with status := .expired }, .expired)
  else if task.status = .claimed then return (desk, .kept)
  else do
    rejectIf (!task.status.isClaimable) (.state "REVIEW_TASK_NOT_CLAIMABLE")
    let claimed ← desk.updateOne
      (fun row => row.reviewTaskId == taskId && row.status.isClaimable &&
        desk.isReviewer row.assigneeIdentityId task.reviewType.requiredRole)
      (fun row => { row with status := .claimed, claimedAt := some now })
      (.conflict "review task changed while claimed")
    return (claimed, .taken)

/-- Give a task to another reviewer. -/
def reassign (taskId assigneeIdentityId : Id) (reassignedAt expiresAt : Stamp) :
    Except ReviewError ReviewDesk := do
  let expires ← instant R expiresAt
  let reassigned ← instant R reassignedAt
  rejectIf (decide (expires ≤ reassigned)) (.value "expires_at must follow reassigned_at")
  let task ← desk.getTask taskId
  let assignee ← desk.reviewer assigneeIdentityId task.reviewType
  rejectIf task.status.isSettled (.state "REVIEW_TASK_NOT_REASSIGNABLE")
  rejectIf (task.authorSubjectIds.contains assignee.subjectId)
    (.independence "REVIEWER_IS_TASK_AUTHOR")
  rejectIf (!decide (task.createdAt < expiresAt)) .integrity
  desk.updateOne
    (fun row => row.reviewTaskId == taskId && !row.status.isSettled &&
      desk.isReviewer assigneeIdentityId task.reviewType.requiredRole)
    (fun row => { row with
      assigneeIdentityId := assigneeIdentityId
      status := .reassigned
      independenceStatus := .pending
      expiresAt := expiresAt
      claimedAt := none })
    (.conflict "review task changed while reassigned")

/-- Record an artifact that has been checked. -/
def recordVerifiedArtifact (taskId : Id) (artifact : ArtifactRef) (submittedAt : Stamp) :
    Except ReviewError ReviewDesk := do
  let task ← desk.getTask taskId
  if task.status = .submitted then do
    rejectIf (task.signedArtifact != some artifact)
      (.conflict "task is bound to another signed artifact")
    return desk
  else do
    rejectIf (task.status != .claimed) (.state "REVIEW_TASK_NOT_CLAIMED")
    let submitted ← instant R submittedAt
    let expires ← instant R task.expiresAt
    rejectIf (decide (expires ≤ submitted)) (.state "REVIEW_TASK_EXPIRED")
    desk.updateOne
      (fun row => row.reviewTaskId == taskId && row.status == .claimed &&
        desk.isReviewer row.assigneeIdentityId task.reviewType.requiredRole)
      (fun row => { row with
        status := .submitted
        independenceStatus := .verified
        signedArtifact := some artifact
        submittedAt := some submittedAt })
      (.conflict "review task changed while artifact was recorded")

/-- What the invalidation of the authority behind a task does to the task. -/
def invalidate (taskId : Id) : ReviewDesk :=
  desk.updateTasks (fun row => row.reviewTaskId == taskId && !row.status.isSettled)
    fun row => { row with status := .invalidated }

end ReviewDesk

end Store

/-! ## The importer -/

/-- How far a signing key is trusted. -/
inductive TrustClass where
  | managedPeerReview | unmanagedReview
deriving DecidableEq

/-- What a signature with a key may bring about. -/
inductive AuthorityEffect where
  | peerPromotionEligible | none_
deriving DecidableEq

/-- The authority behind a signature. -/
structure SignatureAuthority where
  signatureValid : Bool
  trustClass : TrustClass
  authorityEffect : AuthorityEffect
  promotionEligible : Bool

/-- A key for HMAC signatures, with its authority. -/
structure HmacAttestationKey where
  secret : List ℕ
  verifierIdentityId : Id
  trustClass : TrustClass
  authorityEffect : AuthorityEffect
  promotionEligible : Bool

/-- What the importer takes from its surroundings. The content of an artifact is immutable. The
JSON value of a text keeps the members of an object as they stand there, a repeated key too. -/
structure ReviewHost where
  sessions : Sessions.Runtime
  organizationId : Id
  platform : Platform
  sha256 : List UInt8 → Digest
  readBytes : ArtifactRef → Option (List UInt8)
  decodeUtf8 : List UInt8 → Option String
  loads : String → Option Json
  conforms : JsonObject → Bool
  verify : (algorithm keyId verifierIdentityId : String) → (signedPayload : List Char) →
    (signatureValue : String) → Except ReviewError SignatureAuthority

/-- The verifier over a ring of HMAC keys. -/
def hmacVerify (P : Platform) (keys : List (String × HmacAttestationKey))
    (algorithm keyId verifierIdentityId : String) (signedPayload : List Char)
    (signatureValue : String) : Except ReviewError SignatureAuthority := do
  let key ← orReject (keys.lookup keyId) (.attestation "SIGNING_KEY_UNKNOWN" keyId)
  return { signatureValid := algorithm == "HMAC_SHA256" &&
             verifierIdentityId == key.verifierIdentityId &&
             P.hmacSha256 key.secret signedPayload == signatureValue
           trustClass := key.trustClass
           authorityEffect := key.authorityEffect
           promotionEligible := key.promotionEligible }

mutual

/-- Whether an object in a value has a key twice. -/
def repeatsKey : Json → Bool
  | .arr items => repeatsKeyItems items
  | .obj fields => repeatsKeyFields fields
  | _ => false
termination_by structural value => value

/-- Whether an object in one of the elements has a key twice. -/
def repeatsKeyItems : List Json → Bool
  | [] => false
  | item :: items => repeatsKey item || repeatsKeyItems items
termination_by structural items => items

/-- Whether the members have a key twice, or an object in one of them does. -/
def repeatsKeyFields : List (String × Json) → Bool
  | [] => false
  | field :: fields =>
    fields.any (·.1 == field.1) || repeatsKeyField field || repeatsKeyFields fields
termination_by structural fields => fields

/-- Whether an object in a member has a key twice. -/
def repeatsKeyField : String × Json → Bool
  | (_, value) => repeatsKey value
termination_by structural field => field

end

section Importer

variable (host : ReviewHost)

/-- The bytes of an artifact, if they are what its reference says. -/
def readExactArtifact (artifact : ArtifactRef) : Except ReviewError (List UInt8) := do
  rejectIf (artifact.mediaType != "application/json")
    (.attestation "REVIEW_ARTIFACT_MEDIA_TYPE_INVALID" artifact.mediaType)
  let raw ← orReject (host.readBytes artifact) (.key artifact.artifactId)
  rejectIf (raw.length != artifact.byteCount)
    (.attestation "REVIEW_ARTIFACT_LENGTH_MISMATCH" "ArtifactRef byte_count differs")
  rejectIf (host.sha256 raw != artifact.sha256)
    (.attestation "REVIEW_ARTIFACT_DIGEST_MISMATCH" "ArtifactRef sha256 differs")
  return raw

/-- The object in the text of an artifact. -/
def decodeObject (raw : List UInt8) : Except ReviewError JsonObject := do
  let decoded ← orReject (host.decodeUtf8 raw)
    (.attestation "REVIEW_ARTIFACT_ENCODING_INVALID" "artifact is not UTF-8")
  let value ← orReject (host.loads decoded) (.attestation "REVIEW_ARTIFACT_JSON_INVALID" decoded)
  rejectIf (repeatsKey value) (.attestation "REVIEW_ARTIFACT_DUPLICATE_KEY" decoded)
  orReject value.mapping?
    (.attestation "REVIEW_ARTIFACT_JSON_INVALID" "top-level JSON must be an object")

/-- The member of a review as a text. -/
def reviewText (review : JsonObject) (name : String) : String :=
  (review.get name).toText host.platform

/-- The object that is a member of a review. -/
def reviewObject (review : JsonObject) (name : String) : JsonObject :=
  ((review.get name).mapping?).getD []

/-- The canonical text that a signature covers. The signature itself is left out. -/
def canonicalReviewPayload (review : JsonObject) : Option (List Char) :=
  Wire.canonicalJsonBytes host.platform (.obj (review.filter (·.1 != "signature")))

/-- A member of a review must be equal to an optional field of the task. -/
def sameField (review : JsonObject) (name : String) (field : Option String) : Bool :=
  (review.get name).eqv (Json.ofText? field)

/-- A review must be one for the task, by its assignee. -/
def verifyTaskBinding (task : ReviewTask) (review : JsonObject) : Except ReviewError Unit := do
  rejectIf (task.status != .claimed && task.status != .submitted) (.state "REVIEW_TASK_NOT_CLAIMED")
  rejectIf (reviewText host review "review_task_id" != task.reviewTaskId)
    (.attestation "TASK_BINDING_MISMATCH" "review_task_id differs")
  rejectIf (reviewText host review "review_type" != task.reviewType.wire)
    (.attestation "TASK_BINDING_MISMATCH" "review_type differs")
  rejectIf (reviewText host review "verifier_identity_id" != task.assigneeIdentityId)
    (.attestation "ASSIGNEE_BINDING_MISMATCH" "verifier identity differs")
  rejectIf (reviewText host review "reviewer_subject_id" != task.assigneeSubjectId)
    (.attestation "ASSIGNEE_BINDING_MISMATCH" "reviewer subject differs")
  let authors := (((reviewObject review "independence").get "author_subject_ids").sequence?).getD []
  rejectIf (authors.map (·.toText host.platform) != task.authorSubjectIds)
    (.attestation "AUTHOR_BINDING_MISMATCH" "author set differs")
  rejectIf (task.authorSubjectIds.contains task.assigneeSubjectId)
    (.attestation "REVIEWER_IS_TASK_AUTHOR" task.assigneeSubjectId)
  rejectIf (!(Json.obj (reviewObject review "binding")).eqv (.obj task.binding.reviewBinding))
    (.attestation "TASK_BINDING_MISMATCH" "binding differs")
  match task.reviewType with
  | .composition =>
    rejectIf (!sameField review "closure_witness_id" task.binding.closureWitnessId)
      (.attestation "TASK_BINDING_MISMATCH" "closure_witness_id differs")
  | .paper =>
    rejectIf (!(sameField review "candidate_tex_artifact_id" task.binding.candidateTexArtifactId &&
        sameField review "terminal_root_digest" task.binding.terminalRootDigest &&
        sameField review "dependency_closure_digest" task.binding.dependencyClosureDigest))
      (.attestation "TASK_BINDING_MISMATCH" "paper artifact or digest differs")
  | .atomic => return ()

/-- The signature of a review must be valid, and its key one whose reviews count. -/
def verifySignature (review : JsonObject) : Except ReviewError Unit := do
  let signedPayload ← orReject (canonicalReviewPayload host review) .request
  let signature := reviewObject review "signature"
  rejectIf (reviewText host signature "signed_payload_sha256" != host.platform.sha256 signedPayload)
    (.attestation "SIGNED_PAYLOAD_DIGEST_MISMATCH"
      "signature digest does not bind the submitted review payload")
  let authority ← host.verify (reviewText host signature "algorithm")
    (reviewText host signature "key_id") (reviewText host review "verifier_identity_id")
    signedPayload (reviewText host signature "value")
  rejectIf (!authority.signatureValid)
    (.attestation "SIGNATURE_INVALID" "signature verification failed")
  rejectIf (authority.trustClass != .managedPeerReview ||
      authority.authorityEffect != .peerPromotionEligible || !authority.promotionEligible)
    (.attestation "REVIEW_AUTHORITY_INELIGIBLE"
      "review key is UNMANAGED_REVIEW or has NONE authority effect")

def readReview (artifact : ArtifactRef) : Except ReviewError JsonObject := do
  let raw ← readExactArtifact host artifact
  let review ← decodeObject host raw
  rejectIf (!host.conforms review) (.attestation "REVIEW_SCHEMA_INVALID" "")
  return review

/-- The checks of `import_artifact`, with the task as it is read for them. -/
def checkArtifact (desk : ReviewDesk) (taskId : Id) (artifact : ArtifactRef) :
    Except ReviewError ReviewTask := do
  let review ← readReview host artifact
  let task ← desk.getTask taskId
  verifyTaskBinding host task review
  verifySignature host review
  return task

end Importer

/-! ## Histories -/

/-- A step of a call. Two kinds of calls have their transaction in a step of its own. -/
inductive ReviewOp where
  /-- The identities and the sessions change. -/
  | account (op : SessionStep)
  /-- The checks of `create`. -/
  | create (taskId : Id) (reviewType : ReviewType) (binding : ReviewBinding)
      (authorSubjectIds : List Id) (assigneeIdentityId : Id) (createdAt expiresAt : Stamp)
  | claim (taskId identityId : Id) (now : Stamp)
  | reassign (taskId assigneeIdentityId : Id) (reassignedAt expiresAt : Stamp)
  /-- The checks of `import_artifact`. -/
  | importArtifact (taskId : Id) (artifact : ArtifactRef) (submittedAt : Stamp)
  /-- A call that is under way carries out its transaction. -/
  | finish (index : ℕ)
  /-- The authority behind a task is revoked. -/
  | invalidate (taskId : Id)

/-- Note a call that has its transaction before it, unless its checks have raised. -/
def ReviewDesk.later (desk : ReviewDesk) (call : Except ReviewError PendingReview) : ReviewDesk :=
  match call with
  | .ok pending => { desk with pending := desk.pending ++ [pending] }
  | .error _ => desk

/-- The transaction of a call. -/
def PendingReview.run (R : Sessions.Runtime) (desk : ReviewDesk) :
    PendingReview → Except ReviewError ReviewDesk
  | .create row => desk.insertTask row
  | .record task artifact submittedAt =>
    desk.recordVerifiedArtifact R task.reviewTaskId artifact submittedAt

/-- A call that is under way carries out its transaction, or raises. -/
def ReviewDesk.finish (R : Sessions.Runtime) (desk : ReviewDesk) (index : ℕ) : ReviewDesk :=
  match desk.pending[index]? with
  | none => desk
  | some pending =>
    let rest := { desk with pending := desk.pending.eraseIdx index }
    ((pending.run R rest).toOption).getD rest

/-- One step. A call that raises leaves the tables. -/
def step (host : ReviewHost) (desk : ReviewDesk) : ReviewOp → ReviewDesk
  | .account op =>
    { desk with accounts := Sessions.step host.sessions host.organizationId desk.accounts op }
  | .create taskId reviewType binding authorSubjectIds assigneeIdentityId createdAt expiresAt =>
    desk.later (PendingReview.create <$> desk.prepareCreate host.sessions taskId reviewType binding
      authorSubjectIds assigneeIdentityId createdAt expiresAt)
  | .claim taskId identityId now =>
    ((desk.claim host.sessions taskId identityId now).toOption.map Prod.fst).getD desk
  | .reassign taskId assigneeIdentityId reassignedAt expiresAt =>
    (desk.reassign host.sessions taskId assigneeIdentityId reassignedAt expiresAt).toOption.getD desk
  | .importArtifact taskId artifact submittedAt =>
    desk.later ((fun task => PendingReview.record task artifact submittedAt) <$>
      checkArtifact host desk taskId artifact)
  | .finish index => desk.finish host.sessions index
  | .invalidate taskId => desk.invalidate taskId

/-- The desk after a history that begins with empty tables. -/
def reached (host : ReviewHost) (history : List ReviewOp) : ReviewDesk :=
  runFrom (step host) {} history

end ResearchKernel.Product.Reviews
