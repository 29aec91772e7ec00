import Mathlib.Data.List.Sort
import ResearchKernel.Foundation.Dict
import ResearchKernel.Database

/-!
# What a decision reads

A decision is taken on a snapshot of one run: the rows of that run, with evidence joined
to its root and to the capability that submitted it. Rows are looked up under their
identifiers.
-/

namespace ResearchKernel

open Foundation

/-- An evidence row with its root and with the subject that submitted it. -/
structure EvidenceView extends Evidence where
  rootKind : RootKind
  verifierProfileId : Option String
  submitterSubjectId : Id

/-- The rows of one run. -/
structure Snapshot where
  runId : Id
  status : RunStatus
  revision : ℕ
  currentContractVersion : ℕ
  rootClaimId : Option Id
  contracts : List ContractVersion
  claims : List Claim
  routes : List Route
  attempts : List Attempt
  leases : List Lease
  artifacts : List Artifact
  literature : List LiteratureRecord
  peerReviews : List PeerReview
  qualityReviews : List QualityReview
  bridges : List Bridge
  edges : List ClaimEdge
  obligations : List Obligation
  closureWitnesses : List ClosureWitness
  bindings : List ExecutionBinding
  evidence : List EvidenceView
  leanFeedback : List LeanFeedback
  budgetEvents : List BudgetEvent
  hostReceipts : List HostReceipt
  /-- Ordered by time and then by identifier. -/
  atomicVerifications : List AtomicVerification
  /-- The last interruption of the run. -/
  lastInterrupt : Option Interrupt
  budgetFuseTripped : Bool

/-- Whether a budget event predates the host's own accounting. -/
def legacyBudgetEvent (event : BudgetEvent) : Bool :=
  (event.providerUsage.get "_rk_trust").isText "LEGACY_UNTRUSTED"

/-- The order in which verifications are read. -/
def AtomicVerification.earlier (a b : AtomicVerification) : Prop :=
  a.createdAt < b.createdAt ∨ a.createdAt = b.createdAt ∧ a.verificationId ≤ b.verificationId

instance : DecidableRel AtomicVerification.earlier :=
  fun _ _ => inferInstanceAs (Decidable (_ ∨ _))

namespace Db

/-- The run with the given identifier. -/
def run? (db : Db) (id : Id) : Option Run := db.runs.find? (·.runId == id)

/-- The evidence of a run, joined with its roots and with its submitters. -/
def evidenceViews (db : Db) (runId : Id) : List EvidenceView :=
  (db.evidence.filter (·.runId == runId)).filterMap fun item => do
    let root ← db.evidenceRoots.find? (·.evidenceRootId == item.evidenceRootId)
    let command ← db.commands.find? (·.commandId == item.submittedByCommandId)
    let capability ← db.capabilities.find? (·.capabilityId == command.capabilityId)
    return { item with
      rootKind := root.rootKind
      verifierProfileId := root.verifierProfileId
      submitterSubjectId := capability.subjectId }

def linkedArtifacts (db : Db) (runId : Id) : List Artifact :=
  (db.runArtifacts.filter (·.runId == runId)).filterMap fun link =>
    db.artifacts.find? (·.artifactId == link.artifactId)

/-- The last interruption of a run. -/
def lastInterrupt (db : Db) (runId : Id) : Option Interrupt :=
  (db.events.filterMap fun event =>
    match event.command with
    | some (.interrupt payload) => if event.runId == runId then some payload else none
    | _ => none).getLast?

/-- The snapshot of a run; none when the run does not exist. -/
def guardSnapshot (db : Db) (runId : Id) : Option Snapshot := do
  let run ← db.run? runId
  return {
    runId := run.runId
    status := run.status
    revision := run.revision
    currentContractVersion := run.currentContractVersion
    rootClaimId := run.rootClaimId
    contracts := db.contractVersions.filter (·.runId == runId)
    claims := db.claims.filter (·.runId == runId)
    routes := db.routes.filter (·.runId == runId)
    attempts := db.attempts.filter (·.runId == runId)
    leases := db.leases.filter fun lease =>
      db.attempts.any fun attempt =>
        attempt.attemptId == lease.attemptId && attempt.runId == runId
    artifacts := db.linkedArtifacts runId
    literature := db.literatureRecords.filter (·.runId == runId)
    peerReviews := db.peerReviews.filter (·.runId == runId)
    qualityReviews := db.qualityReviews.filter (·.runId == runId)
    bridges := db.bridges.filter (·.runId == runId)
    edges := db.claimEdges.filter (·.runId == runId)
    obligations := db.obligations.filter (·.runId == runId)
    closureWitnesses := db.closureWitnesses.filter (·.runId == runId)
    bindings := db.bindings.filter (·.runId == runId)
    evidence := db.evidenceViews runId
    leanFeedback := db.leanFeedback.filter (·.runId == runId)
    budgetEvents := db.budgetEvents.filter (·.runId == runId)
    hostReceipts := db.hostReceipts.filter (·.runId == runId)
    atomicVerifications := (db.atomicVerifications.filter (·.runId == runId)).insertionSort
      AtomicVerification.earlier
    lastInterrupt := db.lastInterrupt runId
    budgetFuseTripped := db.budgetEvents.any fun event =>
      event.runId == runId && event.eventKind == .fuseTrip && !legacyBudgetEvent event }

end Db

namespace Snapshot

variable (snapshot : Snapshot)

def contract? : Option ContractVersion :=
  snapshot.contracts.find? (·.version == snapshot.currentContractVersion)

/-- The status of the current contract version. -/
def contractStatus? : Option ContractStatus := snapshot.contract?.map (·.status)

def claim? (id : Id) : Option Claim := (records (·.claimId) snapshot.claims).lookup id

def route? (id : Id) : Option Route := (records (·.routeId) snapshot.routes).lookup id

def attempt? (id : Id) : Option Attempt := (records (·.attemptId) snapshot.attempts).lookup id

def lease? (id : Id) : Option Lease := (records (·.leaseId) snapshot.leases).lookup id

def artifact? (id : Id) : Option Artifact := (records (·.artifactId) snapshot.artifacts).lookup id

def literature? (id : Id) : Option LiteratureRecord :=
  (records (·.literatureRecordId) snapshot.literature).lookup id

def review? (id : Id) : Option PeerReview := (records (·.reviewId) snapshot.peerReviews).lookup id

def qualityReview? (id : Id) : Option QualityReview :=
  (records (·.qualityReviewId) snapshot.qualityReviews).lookup id

def bridge? (id : Id) : Option Bridge := (records (·.bridgeId) snapshot.bridges).lookup id

def edge? (id : Id) : Option ClaimEdge := (records (·.edgeId) snapshot.edges).lookup id

def obligation? (id : Id) : Option Obligation :=
  (records (·.obligationId) snapshot.obligations).lookup id

def witness? (id : Id) : Option ClosureWitness :=
  (records (·.witnessId) snapshot.closureWitnesses).lookup id

def evidence? (id : Id) : Option EvidenceView :=
  (records (·.evidenceId) snapshot.evidence).lookup id

def receipt? (id : Id) : Option HostReceipt :=
  (records (·.receiptId) snapshot.hostReceipts).lookup id

/-- The first binding of an attempt. -/
def bindingOf? (attemptId : Id) : Option ExecutionBinding :=
  snapshot.bindings.find? (·.attemptId == attemptId)

/-- Whether an artifact is committed and linked to the run. -/
def artifactCommitted (id : Id) : Bool :=
  match snapshot.artifact? id with
  | some artifact => artifact.ingestState == .committed
  | none => false

/-- The obligations of the run that are open. -/
def openObligationIds : List Id :=
  (snapshot.obligations.filter (·.status == .isOpen)).map (·.obligationId)

def activeLeases (now : Instant) : List Lease :=
  snapshot.leases.filter fun lease => lease.status == .active && now < lease.expiresAt

def defectProposals : List ContractVersion :=
  snapshot.contracts.filter (·.status == .defectProposed)

end Snapshot

/-- The text of an identifier that may be absent. -/
def idText (id : Option Id) : Id := id.getD "None"

/-! ## Independence of reviews -/

/-- The dimensions in which a review is to be independent. -/
def independenceDimensions : List String :=
  ["idea_independence", "derivation_independence", "verification_independence",
    "implementation_independence", "retrieval_independence"]

/-- Accept the derived profile of a managed, blinded human review. -/
def independenceProfileIsIndependent (profile : JsonObject) : Bool :=
  (profile.get "managed_human").isTrue &&
    independenceDimensions.all (fun name => (profile.get name).isText "INDEPENDENT") &&
    !(profile.get "shared_ancestors").truthy

/-- A review that may promote: managed, independent and accepting. The snapshot derives
its trust class, its effect and its eligibility from the same profile. -/
def PeerReview.promotionEligible (review : PeerReview) : Bool :=
  independenceProfileIsIndependent review.independenceProfile && review.verdict == .accept

end ResearchKernel
