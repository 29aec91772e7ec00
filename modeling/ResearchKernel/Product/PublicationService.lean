import Mathlib.Data.List.SplitOn
import ResearchKernel.Product.Publication

/-!
# The publication service

The service renders the candidate text of a finalized run, gives it to a reviewer, and compiles
it once the review accepts it. A compilation reads what it needs first, and notes its attempt
when the compiler has ended; other calls and commands may come between.
-/

namespace ResearchKernel.Product.Publication

open Foundation
open Registry (ContentStore ContentRuntime ContentOp artifactRef)
open Reviews (ReviewDesk ReviewHost ReviewOp ReviewTaskRow ReviewBinding)
open Uploads (ArtifactRef)

/-- What the service raises. -/
inductive ServiceError where
  /-- `PublicationArtifactError`. -/
  | artifact (message : String)
  /-- `ArtifactReadError`. -/
  | read (artifactId : Id)
  /-- `KeyError`. -/
  | key (id : Id)
  /-- `ValueError`. -/
  | value (message : String)
  /-- `sqlite3.IntegrityError`. -/
  | integrity

/-- What the service takes from its surroundings. -/
structure PublicationHost where
  platform : Platform
  content : ContentRuntime
  reviews : ReviewHost
  compiler : String

/-- The words of a text, with one space between them. -/
def collapse (text : String) : List Char :=
  [' '].intercalate ((text.toList.splitOnP isSpace).filter (!·.isEmpty))

/-- Text of an outcome. -/
def FinalOutcome.wire : FinalOutcome → String
  | .proved => "PROVED"
  | .disproved => "DISPROVED"
  | .unresolved => "UNRESOLVED"

section Service

variable (host : PublicationHost) (store : PublicationStore)

/-! ## Rendering and review -/

/-- Whether a snapshot is that of a finalization. -/
def isSnapshotOf (snapshot : JsonObject) (finalization : Finalization) : Bool :=
  let root := Json.ofText? finalization.terminalRootId
  (snapshot.get "status").isText "CLOSED" &&
    (snapshot.get "revision").eqv (.int finalization.finalizedRevision) &&
    (snapshot.get "final_outcome").isText finalization.finalOutcome.wire &&
    (snapshot.get "root_claim_id").eqv root &&
    (snapshot.getOr "terminal_claim_ids" (.arr [])).elements.any fun ids => Json.eqvItems ids [root]

/-- The artifact with an identifier, if it has a media type. -/
def committedWith (artifactId : Id) (mediaType : String) : Except ServiceError ArtifactRef := do
  let artifact ← orReject (store.content.findById artifactId) (.read artifactId)
  rejectIf (artifact.mediaType != mediaType) (.read artifactId)
  return artifactRef artifact

/-- Note that the candidate text of a run has been rendered. The text has been committed, in steps
of the content store, under an artifact that stands for it. -/
def renderCandidate (renderRequestId runId : Id) (snapshot : JsonObject) (abstract : String)
    (texArtifactId : Id) (now : Stamp) : Except ServiceError PublicationStore := do
  rejectIf (renderRequestId == "" || runId == "" || isBlank abstract)
    (.value "render request, run, and abstract are required")
  let finalization ← orReject (finalizationOf store runId)
    (.artifact "run is not authority-finalized")
  rejectIf (!finalization.finalOutcome.isDecided) (.artifact "run is not authority-finalized")
  rejectIf (!isSnapshotOf snapshot finalization)
    (.artifact "snapshot does not match finalization")
  let text ← orReject (Wire.canonicalJsonBytes host.platform (.obj snapshot))
    (.value "snapshot has no canonical text")
  let snapshotDigest := host.platform.sha256 text
  let abstractDigest := host.platform.sha256 (collapse abstract)
  match store.renders.find? (·.renderRequestId == renderRequestId) with
  | some known => do
    rejectIf (known.runId != runId || known.finalizedSnapshotDigest != snapshotDigest ||
        known.abstractDigest != abstractDigest)
      (.artifact "render request identity was reused with drift")
    return store
  | none => do
    let tex ← committedWith store texArtifactId "application/x-tex"
    let renders ← orReject (insertRow (fun a b => a.renderRequestId == b.renderRequestId ||
        (a.runId == b.runId && a.candidateTex.sha256 == b.candidateTex.sha256))
      { renderRequestId := renderRequestId
        runId := runId
        finalizedRevision := finalization.finalizedRevision
        finalizedSnapshotDigest := snapshotDigest
        abstractDigest := abstractDigest
        candidateTex := tex
        createdAt := now } store.renders) .integrity
    return { store with renders := renders }

def renderFor (candidate : Candidate) : Except ServiceError CandidateRender :=
  orReject (store.renders.find? fun render => render.runId == candidate.runId &&
      render.candidateTex.artifactId == candidate.candidateTex.artifactId &&
      render.candidateTex.sha256 == candidate.candidateTex.sha256)
    (.artifact "candidate has no deterministic render receipt")

/-- The binding of the review task of a candidate. -/
def reviewBindingOf (candidate : Candidate) : ReviewBinding where
  runId := candidate.runId
  kernelRevision := candidate.finalizedRevision
  contractVersion := candidate.contractVersion
  targetId := candidate.generationCommandId
  targetDigest := candidate.candidateTex.sha256
  candidateTexArtifactId := some candidate.candidateTex.artifactId
  terminalRootDigest := some candidate.terminalRootDigest
  dependencyClosureDigest := some candidate.dependencyClosureDigest

/-- The last transaction of `create_paper_review_task`. The task has been created before. -/
def bindReviewTask (generationCommandId reviewTaskId : Id) (createdAt : Stamp) :
    Except ServiceError PublicationStore := do
  let candidate ← orReject (candidateOf store generationCommandId)
    (.artifact "candidate command is unavailable")
  let render ← renderFor store candidate
  let task ← orReject (store.desk.tasks.find? (·.reviewTaskId == reviewTaskId)) (.key reviewTaskId)
  rejectIf (task.reviewType != .paper || task.binding != reviewBindingOf candidate)
    (.key reviewTaskId)
  let reviewTasks ← orReject (insertRow (fun a b =>
      a.generationCommandId == b.generationCommandId || a.reviewTaskId == b.reviewTaskId)
    { generationCommandId := generationCommandId
      reviewTaskId := reviewTaskId
      renderRequestId := render.renderRequestId
      candidateTexSha256 := candidate.candidateTex.sha256
      abstractDigest := render.abstractDigest
      createdAt := createdAt } store.reviewTasks) .integrity
  return { store with reviewTasks := reviewTasks }

/-! ## Compilation -/

/-- Whether the signed artifact of a task is that of a review. -/
def signedAs (task : ReviewTaskRow) (review : PaperReview) : Bool :=
  task.status == .submitted && task.signedArtifact.any fun artifact =>
    artifact.artifactId == review.signedReviewArtifactId &&
      artifact.sha256 == review.signedReviewSha256

/-- The review that accepts a candidate, and the task that it was signed for. -/
def acceptedReview (generationCommandId paperReviewId : Id) :
    Except ServiceError (PaperReview × CandidateReviewTask) := do
  let unavailable := ServiceError.artifact "exact accepted paper review is unavailable"
  let review ← orReject (reviewOf store paperReviewId) unavailable
  let bound ← orReject
    (store.reviewTasks.find? (·.generationCommandId == generationCommandId)) unavailable
  rejectIf (review.generationCommandId != generationCommandId || review.verdict != .accept)
    unavailable
  let task ← orReject (store.desk.getTask bound.reviewTaskId).toOption (.key bound.reviewTaskId)
  rejectIf (!signedAs task.toReviewTaskRow review) (.artifact "B05 signed task does not match B15 review")
  return (review, bound)

/-- What `compile_reviewed` does before it runs the compiler. -/
def beginCompilation (generationCommandId paperReviewId attemptId : Id) :
    Except ServiceError PublicationStore := do
  let candidate ← orReject (candidateOf store generationCommandId)
    (.artifact "candidate command is unavailable")
  let (review, bound) ← acceptedReview store generationCommandId paperReviewId
  let render ← renderFor store candidate
  rejectIf (review.candidateTexSha256 != candidate.candidateTex.sha256 ||
      bound.candidateTexSha256 != candidate.candidateTex.sha256)
    (.artifact "review and task do not bind the candidate digest")
  let tex ← orReject (store.content.findById candidate.candidateTex.artifactId)
    (.read candidate.candidateTex.artifactId)
  rejectIf (artifactRef tex != candidate.candidateTex) (.read candidate.candidateTex.artifactId)
  return { store with compiling := store.compiling ++
    [{ compilationAttemptId := attemptId
       runId := candidate.runId
       generationCommandId := candidate.generationCommandId
       paperReviewId := paperReviewId
       candidateTexSha256 := candidate.candidateTex.sha256
       abstractDigest := render.abstractDigest
       compilerProfile := host.compiler }] }

/-- How the compiler ends. -/
inductive CompilerResult where
  /-- It gives a document, which has been committed under an artifact. -/
  | document (artifactId : Id)
  /-- It fails. -/
  | failure (failureCode : String)

/-- The outcome of an attempt. -/
def outcomeOf : CompilerResult → Except ServiceError CompilationOutcome
  | .failure failureCode => return .failed failureCode
  | .document artifactId => do
    let pdf ← committedWith store artifactId "application/pdf"
    let bytes ← orReject (store.content.finals pdf.sha256) (.read artifactId)
    rejectIf (!("%PDF-".toList.map fun c => UInt8.ofNat c.toNat).isPrefixOf bytes)
      (.artifact "compiler output is not a PDF")
    return .succeeded pdf.artifactId pdf.sha256

/-- Note the attempt of a compilation that has ended. -/
def recordAttempt (index : ℕ) (result : CompilerResult) (now : Stamp) :
    Except ServiceError PublicationStore := do
  let request ← orReject store.compiling[index]? (.artifact "no such compilation")
  let outcome ← outcomeOf store result
  let attempts ← orReject
    (insertRow (fun a b => a.compilationAttemptId == b.compilationAttemptId)
      { toCompilationRequest := request, outcome := outcome, createdAt := now } store.attempts)
    .integrity
  return { store with
    attempts := attempts
    compiling := store.compiling.eraseIdx index }

/-! ## The home page -/

/-- What the home page of a run shows. -/
structure PublishedPaperSummary where
  runId : Id
  finalOutcome : Option FinalOutcome
  finalizedRevision : Option ℤ
  finalPdfRef : Option ArtifactRef

/-- Whether an attempt has given the document of a compilation. -/
def givesDocument (attempt : CompilationAttempt) (compilation : Compilation) : Bool :=
  attempt.paperReviewId == compilation.paperReviewId &&
    match attempt.outcome with
    | .succeeded _ sha256 => sha256 == compilation.finalPdfSha256
    | .failed _ => false

/-- The compilations of a run for which an attempt has given the document, the latest first. -/
def publicationsOf (runId : Id) : List Compilation :=
  (store.compilations.filter fun compilation => compilation.runId == runId &&
    store.attempts.any (givesDocument · compilation)).insertionSort fun a b =>
      b.publicationRevision ≤ a.publicationRevision

/-- The document of the latest publication of a run. -/
def finalPdfOf (runId : Id) : Except ServiceError (Option ArtifactRef) :=
  match (publicationsOf store runId).head? with
  | none => return none
  | some publication => do
    let artifact ← orReject (store.content.findById publication.finalPdfArtifactId)
      (.read publication.finalPdfArtifactId)
    return some (artifactRef artifact)

/-- The home page of a run. -/
def homepage (runId : Id) : Except ServiceError PublishedPaperSummary := do
  let finalization := finalizationOf store runId
  let finalPdf ← finalPdfOf store runId
  return { runId := runId
           finalOutcome := finalization.map (·.finalOutcome)
           finalizedRevision := finalization.map (·.finalizedRevision)
           finalPdfRef := finalPdf }

end Service

/-! ## Histories -/

/-- A step. The four commands are carried out in the transaction of the kernel. -/
inductive PublicationOp where
  | finalize (context : CommandContext) (applied : AppliedAs)
  | generateCandidateTex (context : CommandContext) (applied : AppliedAs)
  | submitPaperReview (context : CommandContext) (applied : AppliedAs)
  | compileReviewedPaper (context : CommandContext) (applied : AppliedAs)
  | renderCandidate (renderRequestId runId : Id) (snapshot : JsonObject) (abstract : String)
      (texArtifactId : Id) (now : Stamp)
  | bindReviewTask (generationCommandId reviewTaskId : Id) (createdAt : Stamp)
  /-- The reads of `compile_reviewed`. -/
  | beginCompilation (generationCommandId paperReviewId attemptId : Id)
  /-- The write of `compile_reviewed`. -/
  | recordAttempt (index : ℕ) (result : CompilerResult) (now : Stamp)
  /-- A step of the review tasks. -/
  | review (op : ReviewOp)
  /-- A step of the content store. -/
  | content (op : ContentOp)

/-- What a step leaves when it neither is rejected nor raises. -/
def PublicationOp.run (host : PublicationHost) (store : PublicationStore) :
    PublicationOp → Option PublicationStore
  | .finalize context applied => do
    let mutation ← (Publication.finalize host.platform context).toOption
    (applyFinalization store context applied mutation).toOption
  | .generateCandidateTex context applied => do
    let mutation ← (Publication.generateCandidateTex store context).toOption
    (applyCandidate store context applied mutation).toOption
  | .submitPaperReview context applied => do
    let mutation ← (Publication.submitPaperReview store context).toOption
    (applyReview store context applied mutation).toOption
  | .compileReviewedPaper context applied => do
    let mutation ← (Publication.compileReviewedPaper store context).toOption
    (applyCompilation store context applied mutation).toOption
  | .renderCandidate renderRequestId runId snapshot abstract texArtifactId now =>
    (Publication.renderCandidate host store renderRequestId runId snapshot abstract texArtifactId
      now).toOption
  | .bindReviewTask generationCommandId reviewTaskId createdAt =>
    (Publication.bindReviewTask store generationCommandId reviewTaskId createdAt).toOption
  | .beginCompilation generationCommandId paperReviewId attemptId =>
    (Publication.beginCompilation host store generationCommandId paperReviewId attemptId).toOption
  | .recordAttempt index result now => (Publication.recordAttempt store index result now).toOption
  | .review op => some { store with desk := Reviews.step host.reviews store.desk op }
  | .content op => some { store with content := Registry.step host.content store.content op }

/-- One step. A step that is rejected or raises changes nothing. -/
def step (host : PublicationHost) (store : PublicationStore) (op : PublicationOp) :
    PublicationStore :=
  (op.run host store).getD store

/-- The store after a history that begins with empty tables. -/
def reached (host : PublicationHost) (history : List PublicationOp) : PublicationStore :=
  runFrom (step host) {} history

end ResearchKernel.Product.Publication
