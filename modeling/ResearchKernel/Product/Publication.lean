import ResearchKernel.Product.CommandContexts
import ResearchKernel.Product.Registry
import ResearchKernel.Product.ReviewTasks

/-!
# Publication

A run is finalized; a candidate text is generated from it, reviewed by somebody else, and
compiled. Four commands record these in tables of the kernel. A service renders the text, gives
it to a reviewer and runs the compiler; it notes its attempts in tables of its own. The home page
of a run shows the document of the latest compilation.
-/

namespace ResearchKernel.Product.Publication

open Foundation
open Registry (ContentStore ContentRuntime ContentOp artifactRef)
open Reviews (ReviewDesk ReviewHost ReviewOp ReviewTaskRow ReviewBinding)
open Uploads (ArtifactRef)

/-! ## Tables -/

/-- Outcome of a run. -/
inductive FinalOutcome where
  | proved | disproved | unresolved

/-- The outcome with a text. -/
def FinalOutcome.ofWire : Json → Option FinalOutcome
  | .str "PROVED" => some .proved
  | .str "DISPROVED" => some .disproved
  | .str "UNRESOLVED" => some .unresolved
  | _ => none

/-- The outcomes that are published. -/
def FinalOutcome.isDecided : FinalOutcome → Bool
  | .unresolved => false
  | _ => true

/-- Verdict of the review of a paper. -/
inductive PaperVerdict where
  | accept | reject
deriving DecidableEq

/-- The verdict with a text. -/
def PaperVerdict.ofWire : Json → Option PaperVerdict
  | .str "ACCEPT" => some .accept
  | .str "REJECT" => some .reject
  | _ => none

/-- A row of `product_publication_finalizations`. -/
structure Finalization where
  runId : Id
  finalizedRevision : ℤ
  contractVersion : ℤ
  finalOutcome : FinalOutcome
  terminalRootId : Option Id
  terminalRootDigest : Option Digest
  closureWitnessId : Option Id
  dependencyClosureDigest : Option Digest
  finalizeCommandId : Id
  finalizeEventId : Id
  finalizedAt : Stamp

/-- A row of `product_publication_candidates`. -/
structure Candidate where
  generationCommandId : Id
  generationEventId : Id
  runId : Id
  publicationRevision : ℤ
  finalizedRevision : ℤ
  contractVersion : ℤ
  terminalRootId : Id
  terminalRootDigest : Digest
  closureWitnessId : Id
  dependencyClosureDigest : Digest
  candidateTex : ArtifactRef
  generatedBySubjectId : Id
  generatedAt : Stamp

/-- A row of `product_publication_reviews`. -/
structure PaperReview where
  paperReviewId : Id
  reviewCommandId : Id
  reviewEventId : Id
  runId : Id
  publicationRevision : ℤ
  generationCommandId : Id
  finalizedRevision : ℤ
  terminalRootId : Id
  terminalRootDigest : Digest
  closureWitnessId : Id
  dependencyClosureDigest : Digest
  candidateTexArtifactId : Id
  candidateTexSha256 : Digest
  signedReviewArtifactId : Id
  signedReviewSha256 : Digest
  reviewerSubjectId : Id
  paperReviewSchemaVersion : String
  verdict : PaperVerdict
  reviewedAt : Stamp

/-- A row of `product_publication_compilations`. -/
structure Compilation where
  compileCommandId : Id
  compileEventId : Id
  runId : Id
  publicationRevision : ℤ
  generationCommandId : Id
  paperReviewId : Id
  candidateTexArtifactId : Id
  candidateTexSha256 : Digest
  finalPdfArtifactId : Id
  finalPdfSha256 : Digest
  compiledBySubjectId : Id
  compilerProfileId : String
  compilerProfileVersion : String
  compiledAt : Stamp

/-- A row of `product_candidate_renders`. -/
structure CandidateRender where
  renderRequestId : Id
  runId : Id
  finalizedRevision : ℤ
  finalizedSnapshotDigest : Digest
  abstractDigest : Digest
  candidateTex : ArtifactRef
  createdAt : Stamp

/-- A row of `product_publication_review_bindings`. -/
structure CandidateReviewTask where
  generationCommandId : Id
  reviewTaskId : Id
  renderRequestId : Id
  candidateTexSha256 : Digest
  abstractDigest : Digest
  createdAt : Stamp

/-- What became of a compilation. -/
inductive CompilationOutcome where
  | succeeded (finalPdfArtifactId : Id) (finalPdfSha256 : Digest)
  | failed (failureCode : String)

/-- A compilation of a candidate that is under way: what `compile_reviewed` has read for it. -/
structure CompilationRequest where
  compilationAttemptId : Id
  runId : Id
  generationCommandId : Id
  paperReviewId : Id
  candidateTexSha256 : Digest
  abstractDigest : Digest
  compilerProfile : String

/-- A row of `product_compilation_attempts`. -/
structure CompilationAttempt extends CompilationRequest where
  outcome : CompilationOutcome
  createdAt : Stamp

/-- The tables, the review tasks and the artifacts, and the compilations that are under way. -/
structure PublicationStore where
  finalizations : List Finalization := []
  candidates : List Candidate := []
  reviews : List PaperReview := []
  compilations : List Compilation := []
  renders : List CandidateRender := []
  reviewTasks : List CandidateReviewTask := []
  attempts : List CompilationAttempt := []
  desk : ReviewDesk := {}
  content : ContentStore := {}
  compiling : List CompilationRequest := []

/-! ## Chains -/

/-- The fields by which a payload refers to a finalization. -/
def Finalization.refs (finalization : Finalization) : JsonObject :=
  [("finalized_revision", .int finalization.finalizedRevision),
    ("terminal_root_id", Json.ofText? finalization.terminalRootId),
    ("terminal_root_digest", Json.ofText? finalization.terminalRootDigest),
    ("closure_witness_id", Json.ofText? finalization.closureWitnessId),
    ("dependency_closure_digest", Json.ofText? finalization.dependencyClosureDigest)]

/-- The fields by which a payload refers to the finalization of a candidate. -/
def Candidate.refs (candidate : Candidate) : JsonObject :=
  [("finalized_revision", .int candidate.finalizedRevision),
    ("terminal_root_id", .str candidate.terminalRootId),
    ("terminal_root_digest", .str candidate.terminalRootDigest),
    ("closure_witness_id", .str candidate.closureWitnessId),
    ("dependency_closure_digest", .str candidate.dependencyClosureDigest)]

/-- Whether a payload has the values that are expected. -/
def agrees (value expected : JsonObject) : Bool :=
  expected.all fun member => (value.get member.1).eqv member.2

/-- A command must refer to the finalization of its run. -/
def assertChain (value : JsonObject) (finalization : Finalization) : Bool :=
  finalization.finalOutcome.isDecided && agrees value finalization.refs

/-- What an accepted command says of its chain. -/
structure ChainValue where
  finalizedRevision : ℤ
  terminalRootId : Id
  terminalRootDigest : Digest
  closureWitnessId : Id
  dependencyClosureDigest : Digest
  candidateTexArtifact : ArtifactRef

/-- The fields of a chain in a mutation. -/
def ChainValue.refs (chain : ChainValue) : JsonObject :=
  [("finalized_revision", .int chain.finalizedRevision),
    ("terminal_root_id", .str chain.terminalRootId),
    ("terminal_root_digest", .str chain.terminalRootDigest),
    ("closure_witness_id", .str chain.closureWitnessId),
    ("dependency_closure_digest", .str chain.dependencyClosureDigest)]

/-- A reference to an artifact. -/
def fullArtifact (value : Json) : Option ArtifactRef := do
  let fields ← value.mapping?
  require (fields.hasExactly ["artifact_id", "sha256", "byte_count", "media_type"])
  let artifactId ← nonemptyText (fields.get "artifact_id")
  let sha256 ← digestText (fields.get "sha256")
  let byteCount ← naturalInt (fields.get "byte_count")
  let mediaType ← nonemptyText (fields.get "media_type")
  return { artifactId := artifactId, sha256 := sha256, byteCount := byteCount.toNat
           mediaType := mediaType }

/-- The reference to an artifact that is committed with exactly these metadata. -/
def committedArtifact (value : Json) (evidenceSummary : JsonObject) : Option ArtifactRef := do
  let artifact ← fullArtifact value
  let catalog ← (evidenceSummary.get "committed_artifacts").mapping?
  let metadata ← (catalog.get artifact.artifactId).mapping?
  require ((metadata.get "sha256").eqv (.str artifact.sha256) &&
    (metadata.get "byte_count").eqv (.int artifact.byteCount) &&
    (metadata.get "media_type").eqv (.str artifact.mediaType) &&
    (metadata.get "ingest_state").isText "COMMITTED")
  return artifact

def committedAs (value : Json) (evidenceSummary : JsonObject) (mediaType : String) :
    Option ArtifactRef := do
  let artifact ← committedArtifact value evidenceSummary
  require (artifact.mediaType == mediaType)
  return artifact

/-- The chain in a payload. -/
def chainValue (payload : JsonObject) : Option ChainValue := do
  let finalizedRevision ← positiveInt (payload.get "finalized_revision")
  let terminalRootId ← nonemptyText (payload.get "terminal_root_id")
  let terminalRootDigest ← digestText (payload.get "terminal_root_digest")
  let closureWitnessId ← nonemptyText (payload.get "closure_witness_id")
  let dependencyClosureDigest ← digestText (payload.get "dependency_closure_digest")
  let candidateTexArtifact ← fullArtifact (payload.get "candidate_tex_artifact")
  return { finalizedRevision := finalizedRevision
           terminalRootId := terminalRootId
           terminalRootDigest := terminalRootDigest
           closureWitnessId := closureWitnessId
           dependencyClosureDigest := dependencyClosureDigest
           candidateTexArtifact := candidateTexArtifact }

/-! ## Handlers -/

/-- What a projection raises. -/
inductive ProjectionError where
  /-- `PublicationBindingError`. -/
  | binding (message : String)
  /-- `sqlite3.IntegrityError`. -/
  | integrity

/-- A member of a payload that a check reads must be valid, or the command is rejected. -/
def orBinding {α : Type} (value : Option α) : Checked α :=
  orReject value (refuse .evidenceScopeMismatch "PUBLICATION_BINDING" "/command/payload")

/-- A condition on the binding of a command. -/
def checkBinding (test : Bool) : Checked Unit := orBinding (require test)

/-- A member that is read when the decision is made up. -/
def orRaise {α : Type} (value : Option α) : Checked α := orReject value .raised

/-- A command needs a role. -/
def checkRole (context : CommandContext) (role : String) : Checked Unit :=
  rejectIf (!context.hasRole role) (roleRejection role)

/-- The members of the payload of `Finalize`. -/
def finalizeFields : List String :=
  ["outcome", "terminal_claim_ids", "open_obligation_ids", "dossier_spec"]

/-- The members by which a payload refers to a chain. -/
def chainFields : List String :=
  ["finalized_revision", "terminal_root_id", "terminal_root_digest", "closure_witness_id",
    "dependency_closure_digest", "candidate_tex_artifact"]

/-- The members of the payload of `SubmitPaperReview`. -/
def reviewFields : List String :=
  chainFields ++ ["generation_command_id", "paper_review_id", "signed_review_artifact",
    "paper_review_schema_version", "reviewer_subject_id", "verdict"]

/-- The members of the payload of `CompileReviewedPaper`. -/
def compileFields : List String :=
  chainFields ++ ["generation_command_id", "paper_review_id", "final_pdf_artifact",
    "compiler_profile_id", "compiler_profile_version"]

/-- The mutation of an accepted finalization. -/
structure FinalizationMutation where
  finalizedRevision : ℤ
  contractVersion : ℤ
  finalOutcome : FinalOutcome
  terminalRootId : Option Id
  terminalRootDigest : Option Digest
  closureWitnessId : Option Id
  dependencyClosureDigest : Option Digest

/-- The mutation of an accepted candidate. -/
structure CandidateMutation where
  chain : ChainValue
  generatedBySubjectId : Id

/-- The mutation of an accepted review. -/
structure ReviewMutation where
  chain : ChainValue
  generationCommandId : Id
  paperReviewId : Id
  signedReviewArtifact : ArtifactRef
  paperReviewSchemaVersion : String
  reviewerSubjectId : Id
  verdict : PaperVerdict

/-- The mutation of an accepted compilation. -/
structure CompilationMutation where
  chain : ChainValue
  generationCommandId : Id
  paperReviewId : Id
  finalPdfArtifact : ArtifactRef
  compiledBySubjectId : Id
  compilerProfileId : String
  compilerProfileVersion : String

/-- Identifiers, each of them once. -/
def identities (value : Json) : Option (List Id) := do
  let items ← value.sequence?
  let texts ← items.mapM nonemptyText
  require (decide texts.Nodup)
  return texts

/-- The objects of a collection. -/
def mappings (value : Json) : Option (List JsonObject) := do
  let items ← value.sequence?
  items.mapM Json.mapping?

/-- A member under its first name, or under its second one. -/
def field (value : JsonObject) (first second : String) : Json :=
  value.getOr first (value.get second)

/-- The integer that `int` gives for a value. -/
def asInt (P : Platform) : Json → Option ℤ
  | .int n => some n
  | .bool value => some value.toNat
  | .str text => P.parseInt text
  | _ => none

/-- The objects that are bound to a version of the contract. -/
def ofVersion (P : Platform) (contractVersion : ℤ) (values : List JsonObject) :
    Option (List JsonObject) := do
  let versions ← values.mapM fun value => asInt P (value.getOr "contract_version" (.int (-1)))
  return ((values.zip versions).filter (·.2 == contractVersion)).map Prod.fst

/-- Whether a text is one of several. -/
def isAnyOf (value : Json) (texts : List String) : Bool := texts.any (value.isText ·)

/-- Whether a root supports an outcome. -/
def rootSupports (root : JsonObject) (outcome : FinalOutcome) : Bool :=
  let route := field root "route_result" "route"
  let closure := field root "closure_state" "closure"
  let semantic := field root "semantic_verdict" "semantic"
  let machine := isAnyOf (field root "machine_verdict" "machine")
      ["KERNEL_VERIFIED", "CERTIFICATE_VERIFIED"] &&
    isAnyOf semantic ["TESTED", "HUMAN_ATTESTED"] &&
    isAnyOf closure ["CLOSED_MACHINE", "CLOSED_HYBRID"]
  let peer := (field root "peer_verdict" "peer").isText "ACCEPTED" &&
    semantic.isText "HUMAN_ATTESTED" && isAnyOf closure ["CLOSED_HUMAN", "CLOSED_HYBRID"]
  isAnyOf closure ["CLOSED_MACHINE", "CLOSED_HUMAN", "CLOSED_HYBRID"] &&
    match outcome with
    | .disproved => route.isText "REFUTED" && semantic.isText "REFUTED"
    | _ => route.isText "ROUTE_PROVED" && (machine || peer)

/-- The only element of a list. -/
def only {α : Type} : List α → Option α
  | [value] => some value
  | _ => none

section Handlers

variable (P : Platform) (store : PublicationStore)

/-- The finalization that a command asks for, if the state of the run supports it. -/
def finalizationMutation (context : CommandContext) : Option FinalizationMutation := do
  let payload := context.payload
  require (payload.hasExactly finalizeFields)
  let outcome ← FinalOutcome.ofWire (payload.get "outcome")
  let terminals ← identities (payload.get "terminal_claim_ids")
  let declaredOpen ← identities (payload.get "open_obligation_ids")
  let actualOpen ← identities (context.snapshot.getOr "open_obligation_ids" (.arr []))
  require (declaredOpen.all actualOpen.contains && actualOpen.all declaredOpen.contains)
  match outcome with
  | .unresolved => do
    require terminals.isEmpty
    return { finalizedRevision := context.revision + 1
             contractVersion := context.contractVersion
             finalOutcome := outcome
             terminalRootId := none
             terminalRootDigest := none
             closureWitnessId := none
             dependencyClosureDigest := none }
  | _ => do
    require actualOpen.isEmpty
    let claims ← mappings (context.snapshot.get "claims")
    let roots ← ofVersion P context.contractVersion (claims.filter fun claim =>
      (claim.get "claim_kind").isText "ROOT" &&
        (field claim "lifecycle_status" "lifecycle").isText "ACTIVE")
    let root ← only roots
    let rootId ← nonemptyText (root.get "claim_id")
    require (terminals == [rootId] && rootSupports root outcome)
    let witnesses ← mappings (context.snapshot.get "closure_witnesses")
    let accepted ← ofVersion P context.contractVersion (witnesses.filter fun witness =>
      (witness.get "parent_claim_id").isText rootId && (witness.get "status").isText "ACCEPTED")
    let witness ← only accepted
    let rootDigest ← digestText (field root "statement_hash" "statement_digest")
    let witnessId ← nonemptyText (witness.get "witness_id")
    let closureDigest ← digestText (witness.get "selected_subgraph_digest")
    return { finalizedRevision := context.revision + 1
             contractVersion := context.contractVersion
             finalOutcome := outcome
             terminalRootId := some rootId
             terminalRootDigest := some rootDigest
             closureWitnessId := some witnessId
             dependencyClosureDigest := some closureDigest }

/-- The handler of `Finalize`. -/
def finalize (context : CommandContext) : Checked FinalizationMutation := do
  checkRole context "MAIN"
  orReject (finalizationMutation P context)
    (refuse .terminalClaimUnsupported "UNIQUE_ROOT_CLOSURE" "/command/payload")

def finalizationOf (runId : Id) : Option Finalization :=
  store.finalizations.find? (·.runId == runId)

/-- The candidate that a command has generated. -/
def candidateOf (generationCommandId : Id) : Option Candidate :=
  store.candidates.find? (·.generationCommandId == generationCommandId)

def reviewOf (paperReviewId : Id) : Option PaperReview :=
  store.reviews.find? (·.paperReviewId == paperReviewId)

/-- The handler of `GenerateCandidateTex`. -/
def generateCandidateTex (context : CommandContext) : Checked CandidateMutation := do
  checkRole context "PUBLICATION_WORKER"
  let payload := context.payload
  checkBinding (payload.hasExactly chainFields)
  let finalization ← orBinding (finalizationOf store context.runId)
  checkBinding (assertChain payload finalization)
  let artifact ← orBinding (committedAs (payload.get "candidate_tex_artifact")
    context.evidenceSummary "application/x-tex")
  let chain ← orRaise (chainValue payload)
  return { chain := { chain with candidateTexArtifact := artifact }
           generatedBySubjectId := context.capability.subjectId }

/-- A command must name the text of its candidate. -/
def namesCandidateTex (payload : JsonObject) (candidate : Candidate) : Option Unit := do
  let artifact ← fullArtifact (payload.get "candidate_tex_artifact")
  require (artifact.artifactId == candidate.candidateTex.artifactId &&
    artifact.sha256 == candidate.candidateTex.sha256)

/-- The handler of `SubmitPaperReview`. -/
def submitPaperReview (context : CommandContext) : Checked ReviewMutation := do
  checkRole context "PAPER_REVIEWER"
  let payload := context.payload
  checkBinding (payload.hasExactly reviewFields)
  checkBinding ((payload.get "reviewer_subject_id").isText context.capability.subjectId)
  let generationId ← orBinding (nonemptyText (payload.get "generation_command_id"))
  let candidate ← orBinding (candidateOf store generationId)
  checkBinding (agrees payload candidate.refs)
  checkBinding (candidate.generatedBySubjectId != context.capability.subjectId)
  let signed ← orBinding
    (committedArtifact (payload.get "signed_review_artifact") context.evidenceSummary)
  orBinding (namesCandidateTex payload candidate)
  let verdict ← orBinding (PaperVerdict.ofWire (payload.get "verdict"))
  let chain ← orRaise (chainValue payload)
  let paperReviewId ← orRaise (nonemptyText (payload.get "paper_review_id"))
  let schemaVersion ← orRaise (nonemptyText (payload.get "paper_review_schema_version"))
  return { chain := chain
           generationCommandId := generationId
           paperReviewId := paperReviewId
           signedReviewArtifact := signed
           paperReviewSchemaVersion := schemaVersion
           reviewerSubjectId := context.capability.subjectId
           verdict := verdict }

/-- Whether a review accepts a candidate. -/
def accepts (review : PaperReview) (candidate : Candidate) : Bool :=
  review.generationCommandId == candidate.generationCommandId && review.verdict == .accept &&
    review.candidateTexArtifactId == candidate.candidateTex.artifactId &&
    review.candidateTexSha256 == candidate.candidateTex.sha256

/-- The handler of `CompileReviewedPaper`. -/
def compileReviewedPaper (context : CommandContext) : Checked CompilationMutation := do
  checkRole context "PUBLICATION_WORKER"
  let payload := context.payload
  checkBinding (payload.hasExactly compileFields)
  let generationId ← orBinding (nonemptyText (payload.get "generation_command_id"))
  let candidate ← orBinding (candidateOf store generationId)
  checkBinding (agrees payload candidate.refs)
  let paperReviewId ← orBinding (nonemptyText (payload.get "paper_review_id"))
  let review ← orBinding (reviewOf store paperReviewId)
  checkBinding (accepts review candidate)
  orBinding (namesCandidateTex payload candidate)
  let finalPdf ← orBinding (committedAs (payload.get "final_pdf_artifact") context.evidenceSummary
    "application/pdf")
  let chain ← orRaise (chainValue payload)
  let profileId ← orRaise (nonemptyText (payload.get "compiler_profile_id"))
  let profileVersion ← orRaise (nonemptyText (payload.get "compiler_profile_version"))
  return { chain := chain
           generationCommandId := generationId
           paperReviewId := paperReviewId
           finalPdfArtifact := finalPdf
           compiledBySubjectId := context.capability.subjectId
           compilerProfileId := profileId
           compilerProfileVersion := profileVersion }

/-! ## Projections -/

/-- The length that a column of digests must have. -/
def digestLength (digest : Digest) : Bool := digest.toList.length == 64

/-- The constraints on a single row of `product_publication_finalizations`. -/
def Finalization.fits (row : Finalization) : Bool :=
  decide (0 < row.finalizedRevision) && decide (0 < row.contractVersion) &&
    row.terminalRootDigest.all digestLength && row.dependencyClosureDigest.all digestLength &&
    (row.terminalRootId.isSome == row.finalOutcome.isDecided &&
      row.terminalRootDigest.isSome == row.finalOutcome.isDecided &&
      row.closureWitnessId.isSome == row.finalOutcome.isDecided &&
      row.dependencyClosureDigest.isSome == row.finalOutcome.isDecided)

/-- Unique columns of `product_publication_finalizations`. -/
def Finalization.clash (a b : Finalization) : Bool :=
  a.runId == b.runId || a.finalizeCommandId == b.finalizeCommandId ||
    a.finalizeEventId == b.finalizeEventId

/-- The constraints on a single row of `product_publication_candidates`. -/
def Candidate.fits (row : Candidate) : Bool :=
  decide (0 < row.publicationRevision) && decide (0 < row.finalizedRevision) &&
    decide (0 < row.contractVersion) && digestLength row.terminalRootDigest &&
    digestLength row.dependencyClosureDigest && digestLength row.candidateTex.sha256 &&
    row.candidateTex.mediaType == "application/x-tex"

/-- Unique columns of `product_publication_candidates`. -/
def Candidate.clash (a b : Candidate) : Bool :=
  a.generationCommandId == b.generationCommandId || a.generationEventId == b.generationEventId ||
    (a.runId == b.runId && a.candidateTex.artifactId == b.candidateTex.artifactId &&
      a.candidateTex.sha256 == b.candidateTex.sha256)

/-- The constraints on a single row of `product_publication_reviews`. -/
def PaperReview.fits (row : PaperReview) : Bool :=
  decide (0 < row.publicationRevision) && decide (0 < row.finalizedRevision) &&
    digestLength row.terminalRootDigest && digestLength row.dependencyClosureDigest &&
    digestLength row.candidateTexSha256 && digestLength row.signedReviewSha256

/-- Unique columns of `product_publication_reviews`. -/
def PaperReview.clash (a b : PaperReview) : Bool :=
  a.paperReviewId == b.paperReviewId || a.reviewCommandId == b.reviewCommandId ||
    a.reviewEventId == b.reviewEventId

/-- The constraints on a single row of `product_publication_compilations`. -/
def Compilation.fits (row : Compilation) : Bool :=
  decide (0 < row.publicationRevision) && digestLength row.candidateTexSha256 &&
    digestLength row.finalPdfSha256

/-- Unique columns of `product_publication_compilations`. -/
def Compilation.clash (a b : Compilation) : Bool :=
  a.compileCommandId == b.compileCommandId || a.compileEventId == b.compileEventId ||
    a.paperReviewId == b.paperReviewId

/-- Insert a row that must fit its table and clash with none of its rows. -/
def insertFitting {ρ : Type} (fits : ρ → Bool) (clash : ρ → ρ → Bool) (row : ρ) (table : List ρ) :
    Except ProjectionError (List ρ) := do
  rejectIf (!fits row) .integrity
  orReject (insertRow clash row table) .integrity

/-- The projection of a finalization. -/
def applyFinalization (context : CommandContext) (applied : AppliedAs)
    (mutation : FinalizationMutation) : Except ProjectionError PublicationStore := do
  rejectIf (decide (mutation.finalizedRevision ≠ context.revision + 1))
    (.binding "finalization mutation is not revision bound")
  let finalizations ← insertFitting Finalization.fits Finalization.clash
    { runId := context.runId
      finalizedRevision := mutation.finalizedRevision
      contractVersion := mutation.contractVersion
      finalOutcome := mutation.finalOutcome
      terminalRootId := mutation.terminalRootId
      terminalRootDigest := mutation.terminalRootDigest
      closureWitnessId := mutation.closureWitnessId
      dependencyClosureDigest := mutation.dependencyClosureDigest
      finalizeCommandId := applied.commandId
      finalizeEventId := applied.eventId
      finalizedAt := applied.recordedAt } store.finalizations
  return { store with finalizations := finalizations }

/-- The projection of a candidate. -/
def applyCandidate (context : CommandContext) (applied : AppliedAs)
    (mutation : CandidateMutation) : Except ProjectionError PublicationStore := do
  let finalization ← orReject (finalizationOf store context.runId)
    (.binding "run has no finalization projection")
  rejectIf (!assertChain mutation.chain.refs finalization)
    (.binding "command is not bound to finalization")
  let candidates ← insertFitting Candidate.fits Candidate.clash
    { generationCommandId := applied.commandId
      generationEventId := applied.eventId
      runId := context.runId
      publicationRevision := context.revision + 1
      finalizedRevision := mutation.chain.finalizedRevision
      contractVersion := context.contractVersion
      terminalRootId := mutation.chain.terminalRootId
      terminalRootDigest := mutation.chain.terminalRootDigest
      closureWitnessId := mutation.chain.closureWitnessId
      dependencyClosureDigest := mutation.chain.dependencyClosureDigest
      candidateTex := mutation.chain.candidateTexArtifact
      generatedBySubjectId := mutation.generatedBySubjectId
      generatedAt := applied.recordedAt } store.candidates
  return { store with candidates := candidates }

/-- The projection of a review. -/
def applyReview (context : CommandContext) (applied : AppliedAs) (mutation : ReviewMutation) :
    Except ProjectionError PublicationStore := do
  let candidate ← orReject (candidateOf store mutation.generationCommandId)
    (.binding "candidate generation command is unavailable")
  rejectIf (!agrees mutation.chain.refs candidate.refs)
    (.binding "command is not bound to candidate chain")
  let reviews ← insertFitting PaperReview.fits PaperReview.clash
    { paperReviewId := mutation.paperReviewId
      reviewCommandId := applied.commandId
      reviewEventId := applied.eventId
      runId := context.runId
      publicationRevision := context.revision + 1
      generationCommandId := mutation.generationCommandId
      finalizedRevision := mutation.chain.finalizedRevision
      terminalRootId := mutation.chain.terminalRootId
      terminalRootDigest := mutation.chain.terminalRootDigest
      closureWitnessId := mutation.chain.closureWitnessId
      dependencyClosureDigest := mutation.chain.dependencyClosureDigest
      candidateTexArtifactId := mutation.chain.candidateTexArtifact.artifactId
      candidateTexSha256 := mutation.chain.candidateTexArtifact.sha256
      signedReviewArtifactId := mutation.signedReviewArtifact.artifactId
      signedReviewSha256 := mutation.signedReviewArtifact.sha256
      reviewerSubjectId := mutation.reviewerSubjectId
      paperReviewSchemaVersion := mutation.paperReviewSchemaVersion
      verdict := mutation.verdict
      reviewedAt := applied.recordedAt } store.reviews
  return { store with reviews := reviews }

/-- The projection of a compilation. -/
def applyCompilation (context : CommandContext) (applied : AppliedAs)
    (mutation : CompilationMutation) : Except ProjectionError PublicationStore := do
  let candidate ← orReject (candidateOf store mutation.generationCommandId)
    (.binding "candidate generation command is unavailable")
  let review ← orReject (reviewOf store mutation.paperReviewId)
    (.binding "paper review is unavailable")
  rejectIf (review.verdict != .accept ||
      review.generationCommandId != mutation.generationCommandId ||
      review.candidateTexSha256 != candidate.candidateTex.sha256)
    (.binding "compile lacks exact accepted review")
  let compilations ← insertFitting Compilation.fits Compilation.clash
    { compileCommandId := applied.commandId
      compileEventId := applied.eventId
      runId := context.runId
      publicationRevision := context.revision + 1
      generationCommandId := mutation.generationCommandId
      paperReviewId := mutation.paperReviewId
      candidateTexArtifactId := mutation.chain.candidateTexArtifact.artifactId
      candidateTexSha256 := mutation.chain.candidateTexArtifact.sha256
      finalPdfArtifactId := mutation.finalPdfArtifact.artifactId
      finalPdfSha256 := mutation.finalPdfArtifact.sha256
      compiledBySubjectId := mutation.compiledBySubjectId
      compilerProfileId := mutation.compilerProfileId
      compilerProfileVersion := mutation.compilerProfileVersion
      compiledAt := applied.recordedAt } store.compilations
  return { store with compilations := compilations }

end Handlers

end ResearchKernel.Product.Publication
