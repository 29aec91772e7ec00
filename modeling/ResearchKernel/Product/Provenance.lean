import ResearchKernel.Product.OwnReviews
import ResearchKernel.Product.PublicationService

/-!
# Where a published document comes from

The document on the home page of a run goes back to a finalization, a candidate, a review and an
attempt to compile. They all belong to the run when every review and every compilation is
recorded in the run of the candidate that it names; the commands do not check that.
-/

namespace ResearchKernel.Product.Publication

open Foundation
open Registry (ContentStore ContentOp artifactRef)
open Reviews (ReviewDesk ReviewOp ReviewTaskRow)
open Uploads (ArtifactRef)

/-! ## What is to hold -/

/-- A candidate is bound to a finalization of its run that has been decided. -/
structure Candidate.BoundTo (candidate : Candidate) (finalization : Finalization) : Prop where
  run : finalization.runId = candidate.runId
  decided : finalization.finalOutcome.isDecided = true
  revision : finalization.finalizedRevision = candidate.finalizedRevision
  root : finalization.terminalRootId = some candidate.terminalRootId
  rootDigest : finalization.terminalRootDigest = some candidate.terminalRootDigest
  witness : finalization.closureWitnessId = some candidate.closureWitnessId
  closureDigest : finalization.dependencyClosureDigest = some candidate.dependencyClosureDigest

/-- A review is one of the text of a candidate, by somebody else. -/
structure PaperReview.Reviews (review : PaperReview) (candidate : Candidate) : Prop where
  generation : review.generationCommandId = candidate.generationCommandId
  text : review.candidateTexSha256 = candidate.candidateTex.sha256
  independent : review.reviewerSubjectId ≠ candidate.generatedBySubjectId

/-- The rows behind a document, all of one run. -/
structure Chain (runId : Id) (pdf : ArtifactRef) (finalization : Finalization)
    (candidate : Candidate) (review : PaperReview) (task : ReviewTaskRow)
    (attempt : CompilationAttempt) : Prop where
  run : finalization.runId = runId ∧ candidate.runId = runId ∧ review.runId = runId ∧
    attempt.runId = runId
  bound : candidate.BoundTo finalization
  reviewed : review.Reviews candidate
  accepted : review.verdict = .accept
  signed : task.status = .submitted ∧ ∃ artifact, task.signedArtifact = some artifact ∧
    artifact.artifactId = review.signedReviewArtifactId ∧
    artifact.sha256 = review.signedReviewSha256
  attempted : attempt.paperReviewId = review.paperReviewId
  compiled : attempt.candidateTexSha256 = candidate.candidateTex.sha256
  document : ∃ artifactId, attempt.outcome = .succeeded artifactId pdf.sha256

/-- The document of a run has a chain of rows. -/
def HasChain (store : PublicationStore) (runId : Id) (pdf : ArtifactRef) : Prop :=
  ∃ finalization ∈ store.finalizations, ∃ candidate ∈ store.candidates,
    ∃ review ∈ store.reviews, ∃ task ∈ store.desk.tasks, ∃ attempt ∈ store.attempts,
      Chain runId pdf finalization candidate review task attempt

/-- Reviews and compilations refer to candidates of their own run only. -/
def WithinRuns (store : PublicationStore) : Prop :=
  (∀ review ∈ store.reviews, ∀ candidate ∈ store.candidates,
    candidate.generationCommandId = review.generationCommandId → candidate.runId = review.runId) ∧
  ∀ compilation ∈ store.compilations, ∀ candidate ∈ store.candidates,
    candidate.generationCommandId = compilation.generationCommandId →
      candidate.runId = compilation.runId

/-- Every document that a home page shows has a chain of rows of its run. -/
def Provenance (store : PublicationStore) : Prop :=
  (∀ runId summary pdf, homepage store runId = .ok summary → summary.finalPdfRef = some pdf →
    HasChain store runId pdf) ∧ WithinRuns store

/-- The candidate that a payload names is one of the run in which the command is issued. -/
def NamesOwn (store : PublicationStore) (context : CommandContext) : Prop :=
  ∀ candidate ∈ store.candidates,
    context.payload.get "generation_command_id" = .str candidate.generationCommandId →
      candidate.runId = context.runId

/-- What the host says is committed is registered, with that digest. -/
def Catalogued (store : PublicationStore) (evidenceSummary : JsonObject) : Prop :=
  ∀ (catalog : JsonObject) (artifactId : Id) (metadata : JsonObject) (sha256 : Digest),
    evidenceSummary.get "committed_artifacts" = .obj catalog →
    catalog.get artifactId = .obj metadata → metadata.get "ingest_state" = .str "COMMITTED" →
    metadata.get "sha256" = .str sha256 →
      ∃ artifact ∈ store.content.db.artifacts, artifact.artifactId = artifactId ∧
        artifact.sha256 = sha256

/-- Reviews and compilations are recorded in the run of the candidate that they name, and the
host knows the artifacts of documents. -/
def InOwnRun (store : PublicationStore) : PublicationOp → Prop
  | .submitPaperReview context _ => NamesOwn store context
  | .compileReviewedPaper context _ =>
    NamesOwn store context ∧ Catalogued store context.evidenceSummary
  | _ => True

/-! ## Reading a payload -/

section Payloads

variable {payload : JsonObject} {chain : ChainValue}

/-- A chain that agrees with a finalization has its values. -/
theorem eq_of_assertChain {finalization : Finalization}
    (h : assertChain chain.refs finalization = true) :
    finalization.finalOutcome.isDecided = true ∧
      finalization.finalizedRevision = chain.finalizedRevision ∧
      finalization.terminalRootId = some chain.terminalRootId ∧
      finalization.terminalRootDigest = some chain.terminalRootDigest ∧
      finalization.closureWitnessId = some chain.closureWitnessId ∧
      finalization.dependencyClosureDigest = some chain.dependencyClosureDigest := by
  obtain ⟨hdecided, hall⟩ := Bool.and_eq_true_iff.mp h
  have htext : ∀ (text : String) (value : Option String),
      (Json.str text).eqv (Json.ofText? value) = true → value = some text := by
    intro text value heqv
    cases value with
    | none => simp [Json.ofText?, Json.eqv] at heqv
    | some other =>
      have heq : text = other := by simpa [Json.ofText?, Json.eqv] using heqv
      rw [heq]
  simp only [agrees, Finalization.refs, List.all_cons, List.all_nil, Bool.and_true,
    Bool.and_eq_true] at hall
  obtain ⟨hrevision, hroot, hrootDigest, hwitness, hclosure⟩ := hall
  have hsame : chain.finalizedRevision = finalization.finalizedRevision := by
    simpa [ChainValue.refs, JsonObject.get, List.lookup_cons, Json.eqv] using hrevision
  exact ⟨hdecided, hsame.symm, htext _ _ hroot, htext _ _ hrootDigest, htext _ _ hwitness,
    htext _ _ hclosure⟩

variable {evidenceSummary : JsonObject} {artifact : ArtifactRef}

/-- An artifact that is committed is in the catalog of the host. -/
theorem committedArtifact_spec {value : Json}
    (h : committedArtifact value evidenceSummary = some artifact) :
    fullArtifact value = some artifact ∧ ∃ (catalog metadata : JsonObject),
      evidenceSummary.get "committed_artifacts" = .obj catalog ∧
        catalog.get artifact.artifactId = .obj metadata ∧
        metadata.get "ingest_state" = .str "COMMITTED" ∧
        metadata.get "sha256" = .str artifact.sha256 := by
  obtain ⟨read, hread, h⟩ := Option.bind_eq_some_iff.mp h
  obtain ⟨catalog, hcatalog, h⟩ := Option.bind_eq_some_iff.mp h
  obtain ⟨metadata, hmetadata, h⟩ := Option.bind_eq_some_iff.mp h
  obtain ⟨_, hsame, h⟩ := Option.bind_eq_some_iff.mp h
  cases h
  have hsame := require_eq_some.mp hsame
  simp only [Bool.and_eq_true, Json.eqv_str, Json.isText_iff] at hsame
  exact ⟨hread, catalog, metadata, Json.mapping?_eq_some.mp hcatalog,
    Json.mapping?_eq_some.mp hmetadata, hsame.2, hsame.1.1.1⟩

theorem committedAs_spec {value : Json} {mediaType : String}
    (h : committedAs value evidenceSummary mediaType = some artifact) :
    committedArtifact value evidenceSummary = some artifact ∧ artifact.mediaType = mediaType := by
  obtain ⟨read, hread, h⟩ := Option.bind_eq_some_iff.mp h
  obtain ⟨_, htype, h⟩ := Option.bind_eq_some_iff.mp h
  cases h
  exact ⟨hread, beq_iff_eq.mp (require_eq_some.mp htype)⟩

/-- The candidate text that a payload names is the one in its chain. -/
theorem namesCandidateTex_spec {candidate : Candidate} {u : Unit}
    (h : namesCandidateTex payload candidate = some u) (hchain : chainValue payload = some chain) :
    chain.candidateTexArtifact.artifactId = candidate.candidateTex.artifactId ∧
      chain.candidateTexArtifact.sha256 = candidate.candidateTex.sha256 := by
  obtain ⟨named, hnamed, h⟩ := Option.bind_eq_some_iff.mp h
  have hsame := require_eq_some.mp h
  rw [Bool.and_eq_true, beq_iff_eq, beq_iff_eq] at hsame
  obtain ⟨revision, -, hchain⟩ := Option.bind_eq_some_iff.mp hchain
  obtain ⟨root, -, hchain⟩ := Option.bind_eq_some_iff.mp hchain
  obtain ⟨rootDigest, -, hchain⟩ := Option.bind_eq_some_iff.mp hchain
  obtain ⟨witness, -, hchain⟩ := Option.bind_eq_some_iff.mp hchain
  obtain ⟨closure, -, hchain⟩ := Option.bind_eq_some_iff.mp hchain
  obtain ⟨tex, htex, hchain⟩ := Option.bind_eq_some_iff.mp hchain
  cases hchain
  rw [hnamed] at htex
  cases htex
  exact hsame

end Payloads

/-! ## Handlers and projections -/

section Commands

variable {store store' : PublicationStore} {context : CommandContext} {applied : AppliedAs}

/-- A check of a binding passes. -/
theorem orBinding_eq_ok {α : Type} {value : Option α} {a : α} :
    orBinding value = .ok a ↔ value = some a :=
  orReject_eq_ok

/-- A member is read. -/
theorem orRaise_eq_ok {α : Type} {value : Option α} {a : α} :
    orRaise value = .ok a ↔ value = some a :=
  orReject_eq_ok

/-- A condition on a binding holds. -/
theorem checkBinding_eq_ok {test : Bool} {u : Unit} : checkBinding test = .ok u ↔ test = true := by
  rw [checkBinding, orBinding_eq_ok, require_eq_some]

theorem insertFitting_eq_ok {ρ : Type} {fits : ρ → Bool} {clash : ρ → ρ → Bool} {row : ρ}
    {table table' : List ρ} :
    insertFitting fits clash row table = .ok table' ↔
      fits row = true ∧ (∀ old ∈ table, clash row old = false) ∧ table' = table ++ [row] := by
  constructor
  · intro h
    obtain ⟨_, hfits, h⟩ := bind_eq_ok.mp h
    have hfits := rejectIf_eq_ok.mp hfits
    rw [Bool.not_eq_false'] at hfits
    exact ⟨hfits, insertRow_eq_some.mp (orReject_eq_ok.mp h)⟩
  · rintro ⟨hfits, hinserted⟩
    unfold insertFitting
    rw [rejectIf_bind_of_passes (by rw [hfits]; rfl)]
    exact orReject_eq_ok.mpr (insertRow_eq_some.mpr hinserted)

variable {mutation : ReviewMutation}

/-- What an accepted `SubmitPaperReview` has passed. -/
theorem submitPaperReview_spec (h : submitPaperReview store context = .ok mutation) :
    ∃ candidate,
      context.payload.get "generation_command_id" = .str mutation.generationCommandId ∧
      candidateOf store mutation.generationCommandId = some candidate ∧
      agrees context.payload candidate.refs = true ∧
      mutation.reviewerSubjectId ≠ candidate.generatedBySubjectId ∧
      committedArtifact (context.payload.get "signed_review_artifact") context.evidenceSummary =
        some mutation.signedReviewArtifact ∧
      namesCandidateTex context.payload candidate = some () ∧
      chainValue context.payload = some mutation.chain ∧
      context.payload.get "paper_review_id" = .str mutation.paperReviewId := by
  obtain ⟨_, -, h⟩ := bind_eq_ok.mp h
  obtain ⟨_, -, h⟩ := bind_eq_ok.mp h
  obtain ⟨_, -, h⟩ := bind_eq_ok.mp h
  obtain ⟨generationId, hgeneration, h⟩ := bind_eq_ok.mp h
  obtain ⟨candidate, hcandidate, h⟩ := bind_eq_ok.mp h
  obtain ⟨_, hagrees, h⟩ := bind_eq_ok.mp h
  obtain ⟨_, hother, h⟩ := bind_eq_ok.mp h
  obtain ⟨signed, hsigned, h⟩ := bind_eq_ok.mp h
  obtain ⟨_, hnames, h⟩ := bind_eq_ok.mp h
  obtain ⟨verdict, -, h⟩ := bind_eq_ok.mp h
  obtain ⟨chain, hchain, h⟩ := bind_eq_ok.mp h
  obtain ⟨paperReviewId, hreviewId, h⟩ := bind_eq_ok.mp h
  obtain ⟨schemaVersion, -, h⟩ := bind_eq_ok.mp h
  cases pure_eq_ok.mp h
  have hne := bne_iff_ne.mp (checkBinding_eq_ok.mp hother)
  exact ⟨candidate, (nonemptyText_eq_some.mp (orBinding_eq_ok.mp hgeneration)).1,
    orBinding_eq_ok.mp hcandidate, checkBinding_eq_ok.mp hagrees, Ne.symm hne,
    orBinding_eq_ok.mp hsigned, orBinding_eq_ok.mp hnames, orRaise_eq_ok.mp hchain,
    (nonemptyText_eq_some.mp (orRaise_eq_ok.mp hreviewId)).1⟩

/-- What an accepted `CompileReviewedPaper` has passed. -/
theorem compileReviewedPaper_spec {mutation : CompilationMutation}
    (h : compileReviewedPaper store context = .ok mutation) :
    ∃ candidate review,
      context.payload.get "generation_command_id" = .str mutation.generationCommandId ∧
      candidateOf store mutation.generationCommandId = some candidate ∧
      reviewOf store mutation.paperReviewId = some review ∧ accepts review candidate = true ∧
      committedAs (context.payload.get "final_pdf_artifact") context.evidenceSummary
        "application/pdf" = some mutation.finalPdfArtifact ∧
      namesCandidateTex context.payload candidate = some () ∧
      chainValue context.payload = some mutation.chain ∧
      context.payload.get "paper_review_id" = .str mutation.paperReviewId := by
  obtain ⟨_, -, h⟩ := bind_eq_ok.mp h
  obtain ⟨_, -, h⟩ := bind_eq_ok.mp h
  obtain ⟨generationId, hgeneration, h⟩ := bind_eq_ok.mp h
  obtain ⟨candidate, hcandidate, h⟩ := bind_eq_ok.mp h
  obtain ⟨_, -, h⟩ := bind_eq_ok.mp h
  obtain ⟨paperReviewId, hreviewId, h⟩ := bind_eq_ok.mp h
  obtain ⟨review, hreview, h⟩ := bind_eq_ok.mp h
  obtain ⟨_, haccepts, h⟩ := bind_eq_ok.mp h
  obtain ⟨_, hnames, h⟩ := bind_eq_ok.mp h
  obtain ⟨finalPdf, hpdf, h⟩ := bind_eq_ok.mp h
  obtain ⟨chain, hchain, h⟩ := bind_eq_ok.mp h
  obtain ⟨profileId, -, h⟩ := bind_eq_ok.mp h
  obtain ⟨profileVersion, -, h⟩ := bind_eq_ok.mp h
  cases pure_eq_ok.mp h
  exact ⟨candidate, review, (nonemptyText_eq_some.mp (orBinding_eq_ok.mp hgeneration)).1,
    orBinding_eq_ok.mp hcandidate, orBinding_eq_ok.mp hreview, checkBinding_eq_ok.mp haccepts,
    orBinding_eq_ok.mp hpdf, orBinding_eq_ok.mp hnames, orRaise_eq_ok.mp hchain,
    (nonemptyText_eq_some.mp (orBinding_eq_ok.mp hreviewId)).1⟩

/-- A finalization that is found is there. -/
theorem finalizationOf_spec {runId : Id} {finalization : Finalization}
    (h : finalizationOf store runId = some finalization) :
    finalization ∈ store.finalizations ∧ finalization.runId = runId := by
  unfold finalizationOf at h
  have hid := List.find?_some h
  exact ⟨List.mem_of_find?_eq_some h, beq_iff_eq.mp hid⟩

variable {generationCommandId : Id}

/-- A candidate that is found is there. -/
theorem candidateOf_spec {candidate : Candidate}
    (h : candidateOf store generationCommandId = some candidate) :
    candidate ∈ store.candidates ∧ candidate.generationCommandId = generationCommandId := by
  unfold candidateOf at h
  have hid := List.find?_some h
  exact ⟨List.mem_of_find?_eq_some h, beq_iff_eq.mp hid⟩

variable {paperReviewId : Id}

/-- A review that is found is there. -/
theorem reviewOf_spec {review : PaperReview} (h : reviewOf store paperReviewId = some review) :
    review ∈ store.reviews ∧ review.paperReviewId = paperReviewId := by
  unfold reviewOf at h
  have hid := List.find?_some h
  exact ⟨List.mem_of_find?_eq_some h, beq_iff_eq.mp hid⟩

/-- A compilation that has been asked for is one of a reviewed candidate. -/
def Requested (store : PublicationStore) (request : CompilationRequest) : Prop :=
  ∃ candidate ∈ store.candidates, ∃ review ∈ store.reviews, ∃ task ∈ store.desk.tasks,
    candidate.runId = request.runId ∧
      candidate.candidateTex.sha256 = request.candidateTexSha256 ∧
      review.paperReviewId = request.paperReviewId ∧
      review.generationCommandId = candidate.generationCommandId ∧ review.verdict = .accept ∧
      signedAs task review = true

/-- A compilation is one of a candidate that an accepting review names, in the run of the
candidate, with a document that is registered. -/
def Supported (store : PublicationStore) (compilation : Compilation) : Prop :=
  (∃ review ∈ store.reviews, review.paperReviewId = compilation.paperReviewId ∧
    review.generationCommandId = compilation.generationCommandId) ∧
  (∃ candidate ∈ store.candidates,
    candidate.generationCommandId = compilation.generationCommandId ∧
      candidate.runId = compilation.runId) ∧
  ∃ artifact ∈ store.content.db.artifacts, artifact.artifactId = compilation.finalPdfArtifactId ∧
    artifact.sha256 = compilation.finalPdfSha256

/-- What a step does. -/
inductive StoreMove (host : PublicationHost) (store : PublicationStore) : PublicationStore → Prop
  | same : StoreMove host store store
  | finalized (row : Finalization) :
      StoreMove host store { store with finalizations := store.finalizations ++ [row] }
  | generated (row : Candidate)
      (hbound : ∃ finalization ∈ store.finalizations, row.BoundTo finalization)
      (hfresh : ∀ old ∈ store.candidates, old.generationCommandId ≠ row.generationCommandId) :
      StoreMove host store { store with candidates := store.candidates ++ [row] }
  | reviewed (row : PaperReview)
      (hreviews : ∃ candidate ∈ store.candidates, row.Reviews candidate ∧
        candidate.runId = row.runId)
      (hfresh : ∀ old ∈ store.reviews, old.paperReviewId ≠ row.paperReviewId) :
      StoreMove host store { store with reviews := store.reviews ++ [row] }
  | compiled (row : Compilation) (hsupported : Supported store row) :
      StoreMove host store { store with compilations := store.compilations ++ [row] }
  | rendered (renders : List CandidateRender) :
      StoreMove host store { store with renders := renders }
  | bound (reviewTasks : List CandidateReviewTask) :
      StoreMove host store { store with reviewTasks := reviewTasks }
  | began (request : CompilationRequest) (hrequested : Requested store request) :
      StoreMove host store { store with compiling := store.compiling ++ [request] }
  | attempted (attempt : CompilationAttempt) (index : ℕ)
      (hrequest : attempt.toCompilationRequest ∈ store.compiling) :
      StoreMove host store { store with
        attempts := store.attempts ++ [attempt]
        compiling := store.compiling.eraseIdx index }
  | review (op : ReviewOp) :
      StoreMove host store { store with desk := Reviews.step host.reviews store.desk op }
  | content (op : ContentOp) :
      StoreMove host store { store with content := Registry.step host.content store.content op }

variable {host : PublicationHost}

/-- The projection of a finalization inserts a row. -/
theorem applyFinalization_spec {mutation : FinalizationMutation}
    (h : applyFinalization store context applied mutation = .ok store') :
    StoreMove host store store' := by
  obtain ⟨_, -, h⟩ := bind_eq_ok.mp h
  obtain ⟨finalizations, hinsert, h⟩ := bind_eq_ok.mp h
  cases pure_eq_ok.mp h
  obtain ⟨-, -, rfl⟩ := insertFitting_eq_ok.mp hinsert
  exact .finalized _

/-- The projection of a candidate inserts a row that is bound to the finalization of its run. -/
theorem applyCandidate_spec {mutation : CandidateMutation}
    (h : applyCandidate store context applied mutation = .ok store') :
    StoreMove host store store' := by
  obtain ⟨finalization, hfinalization, h⟩ := bind_eq_ok.mp h
  obtain ⟨_, hchain, h⟩ := bind_eq_ok.mp h
  obtain ⟨candidates, hinsert, h⟩ := bind_eq_ok.mp h
  cases pure_eq_ok.mp h
  obtain ⟨-, hclash, rfl⟩ := insertFitting_eq_ok.mp hinsert
  have hchain := rejectIf_eq_ok.mp hchain
  rw [Bool.not_eq_false'] at hchain
  obtain ⟨hdecided, hrevision, hroot, hrootDigest, hwitness, hclosure⟩ := eq_of_assertChain hchain
  obtain ⟨hmem, hrun⟩ := finalizationOf_spec (orReject_eq_ok.mp hfinalization)
  refine .generated _ ⟨finalization, hmem, hrun, hdecided, hrevision, hroot, hrootDigest, hwitness,
    hclosure⟩ fun old hold hsame => ?_
  have hnone := hclash old hold
  simp only [Candidate.clash, Bool.or_eq_false_iff, beq_eq_false_iff_ne] at hnone
  exact hnone.1.1 hsame.symm

/-- An accepted review inserts a row that reviews a candidate of its run. -/
theorem applyReview_spec (hhandled : submitPaperReview store context = .ok mutation)
    (hown : NamesOwn store context) (h : applyReview store context applied mutation = .ok store') :
    StoreMove host store store' := by
  obtain ⟨candidate, hgeneration, hcandidate, -, hother, -, hnames, hvalue, -⟩ :=
    submitPaperReview_spec hhandled
  obtain ⟨again, -, h⟩ := bind_eq_ok.mp h
  obtain ⟨_, -, h⟩ := bind_eq_ok.mp h
  obtain ⟨reviews, hinsert, h⟩ := bind_eq_ok.mp h
  cases pure_eq_ok.mp h
  obtain ⟨-, hclash, rfl⟩ := insertFitting_eq_ok.mp hinsert
  obtain ⟨hmem, hid⟩ := candidateOf_spec hcandidate
  refine .reviewed _ ⟨candidate, hmem, ⟨hid.symm, (namesCandidateTex_spec hnames hvalue).2, hother⟩,
    hown candidate hmem ?_⟩ fun old hold hsame => ?_
  · rw [hgeneration, hid]
  · have hnone := hclash old hold
    simp only [PaperReview.clash, Bool.or_eq_false_iff, beq_eq_false_iff_ne] at hnone
    exact hnone.1.1 hsame.symm

/-- An accepted compilation inserts a row that is supported. -/
theorem applyCompilation_spec {mutation : CompilationMutation}
    (hhandled : compileReviewedPaper store context = .ok mutation)
    (hown : NamesOwn store context) (hcatalogued : Catalogued store context.evidenceSummary)
    (h : applyCompilation store context applied mutation = .ok store') :
    StoreMove host store store' := by
  obtain ⟨candidate, review, hgeneration, hcandidate, hreview, haccepts, hpdf, -, -⟩ :=
    compileReviewedPaper_spec hhandled
  obtain ⟨again, -, h⟩ := bind_eq_ok.mp h
  obtain ⟨reviewAgain, -, h⟩ := bind_eq_ok.mp h
  obtain ⟨_, -, h⟩ := bind_eq_ok.mp h
  obtain ⟨compilations, hinsert, h⟩ := bind_eq_ok.mp h
  cases pure_eq_ok.mp h
  obtain ⟨-, -, rfl⟩ := insertFitting_eq_ok.mp hinsert
  obtain ⟨hmem, hid⟩ := candidateOf_spec hcandidate
  obtain ⟨hreviewMem, hreviewId⟩ := reviewOf_spec hreview
  simp only [accepts, Bool.and_eq_true, beq_iff_eq] at haccepts
  obtain ⟨-, catalog, metadata, hcatalog, hmetadata, hstate, hsha⟩ :=
    committedArtifact_spec (committedAs_spec hpdf).1
  refine .compiled _ ⟨⟨review, hreviewMem, hreviewId, haccepts.1.1.1.trans hid⟩,
    ⟨candidate, hmem, hid, hown candidate hmem ?_⟩,
    hcatalogued catalog _ metadata _ hcatalog hmetadata hstate hsha⟩
  rw [hgeneration, hid]

/-- A compilation that begins is one of a reviewed candidate. -/
theorem beginCompilation_spec {attemptId : Id}
    (h : beginCompilation host store generationCommandId paperReviewId attemptId = .ok store') :
    StoreMove host store store' := by
  obtain ⟨candidate, hcandidate, h⟩ := bind_eq_ok.mp h
  obtain ⟨⟨review, bound⟩, haccepted, h⟩ := bind_eq_ok.mp h
  obtain ⟨render, -, h⟩ := bind_eq_ok.mp h
  obtain ⟨_, -, h⟩ := bind_eq_ok.mp h
  obtain ⟨tex, -, h⟩ := bind_eq_ok.mp h
  obtain ⟨_, -, h⟩ := bind_eq_ok.mp h
  cases pure_eq_ok.mp h
  obtain ⟨read, hread, haccepted⟩ := bind_eq_ok.mp haccepted
  obtain ⟨found, -, haccepted⟩ := bind_eq_ok.mp haccepted
  obtain ⟨_, hexact, haccepted⟩ := bind_eq_ok.mp haccepted
  obtain ⟨task, htask, haccepted⟩ := bind_eq_ok.mp haccepted
  obtain ⟨_, hsigned, haccepted⟩ := bind_eq_ok.mp haccepted
  cases pure_eq_ok.mp haccepted
  obtain ⟨hmem, hid⟩ := candidateOf_spec (orReject_eq_ok.mp hcandidate)
  obtain ⟨hreviewMem, hreviewId⟩ := reviewOf_spec (orReject_eq_ok.mp hread)
  have hexact := rejectIf_eq_ok.mp hexact
  simp only [Bool.or_eq_false_iff, bne_eq_false_iff_eq] at hexact
  have hsigned := rejectIf_eq_ok.mp hsigned
  rw [Bool.not_eq_false'] at hsigned
  have htask := eq_ok_of_toOption (orReject_eq_ok.mp htask)
  exact .began _ ⟨candidate, hmem, review, hreviewMem, task.toReviewTaskRow,
    (Reviews.getTask_spec htask).1, rfl, rfl, hreviewId, hexact.1.trans hid.symm, hexact.2,
    hsigned⟩

/-- An attempt that is noted is one of a compilation that is under way. -/
theorem recordAttempt_spec {index : ℕ} {result : CompilerResult} {now : Stamp}
    (h : recordAttempt store index result now = .ok store') : StoreMove host store store' := by
  obtain ⟨request, hrequest, h⟩ := bind_eq_ok.mp h
  obtain ⟨outcome, -, h⟩ := bind_eq_ok.mp h
  obtain ⟨attempts, hinsert, h⟩ := bind_eq_ok.mp h
  cases pure_eq_ok.mp h
  obtain ⟨-, rfl⟩ := insertRow_eq_some.mp (orReject_eq_ok.mp hinsert)
  exact .attempted _ index (List.mem_of_getElem? (orReject_eq_ok.mp hrequest))

/-- Rendering a candidate inserts a render at most. -/
theorem renderCandidate_spec {renderRequestId runId texArtifactId : Id} {snapshot : JsonObject}
    {abstract : String} {now : Stamp}
    (h : renderCandidate host store renderRequestId runId snapshot abstract texArtifactId now =
      .ok store') : StoreMove host store store' := by
  obtain ⟨_, -, h⟩ := bind_eq_ok.mp h
  obtain ⟨finalization, -, h⟩ := bind_eq_ok.mp h
  obtain ⟨_, -, h⟩ := bind_eq_ok.mp h
  obtain ⟨_, -, h⟩ := bind_eq_ok.mp h
  obtain ⟨text, -, h⟩ := bind_eq_ok.mp h
  split at h
  · obtain ⟨_, -, h⟩ := bind_eq_ok.mp h
    cases pure_eq_ok.mp h
    exact .same
  · obtain ⟨tex, -, h⟩ := bind_eq_ok.mp h
    obtain ⟨renders, -, h⟩ := bind_eq_ok.mp h
    cases pure_eq_ok.mp h
    exact .rendered renders

theorem bindReviewTask_spec {reviewTaskId : Id} {createdAt : Stamp}
    (h : bindReviewTask store generationCommandId reviewTaskId createdAt = .ok store') :
    StoreMove host store store' := by
  obtain ⟨candidate, -, h⟩ := bind_eq_ok.mp h
  obtain ⟨render, -, h⟩ := bind_eq_ok.mp h
  obtain ⟨task, -, h⟩ := bind_eq_ok.mp h
  obtain ⟨_, -, h⟩ := bind_eq_ok.mp h
  obtain ⟨reviewTasks, -, h⟩ := bind_eq_ok.mp h
  cases pure_eq_ok.mp h
  exact .bound reviewTasks

/-- Every step moves the store in one of these ways, when it is one in the run of its candidate. -/
theorem storeMove_step {op : PublicationOp} (hop : InOwnRun store op) :
    StoreMove host store (step host store op) := by
  unfold step
  cases hrun : op.run host store with
  | none => exact .same
  | some store' =>
    show StoreMove host store store'
    cases op with
    | finalize context applied =>
      obtain ⟨mutation, -, happly⟩ := Option.bind_eq_some_iff.mp hrun
      exact applyFinalization_spec (eq_ok_of_toOption happly)
    | generateCandidateTex context applied =>
      obtain ⟨mutation, -, happly⟩ := Option.bind_eq_some_iff.mp hrun
      exact applyCandidate_spec (eq_ok_of_toOption happly)
    | submitPaperReview context applied =>
      obtain ⟨mutation, hhandled, happly⟩ := Option.bind_eq_some_iff.mp hrun
      exact applyReview_spec (eq_ok_of_toOption hhandled) hop (eq_ok_of_toOption happly)
    | compileReviewedPaper context applied =>
      obtain ⟨mutation, hhandled, happly⟩ := Option.bind_eq_some_iff.mp hrun
      exact applyCompilation_spec (eq_ok_of_toOption hhandled) hop.1 hop.2
        (eq_ok_of_toOption happly)
    | renderCandidate renderRequestId runId snapshot abstract texArtifactId now =>
      exact renderCandidate_spec (eq_ok_of_toOption hrun)
    | bindReviewTask generationCommandId reviewTaskId createdAt =>
      exact bindReviewTask_spec (eq_ok_of_toOption hrun)
    | beginCompilation generationCommandId paperReviewId attemptId =>
      exact beginCompilation_spec (eq_ok_of_toOption hrun)
    | recordAttempt index result now => exact recordAttempt_spec (eq_ok_of_toOption hrun)
    | review op =>
      cases hrun
      exact .review op
    | content op =>
      cases hrun
      exact .content op

end Commands

/-! ## The invariant -/

section Runs

variable {host : PublicationHost} {store store' : PublicationStore} {history : List PublicationOp}

/-- What is there stays there. -/
structure Grows (store store' : PublicationStore) : Prop where
  finalizations : ∀ row ∈ store.finalizations, row ∈ store'.finalizations
  candidates : ∀ row ∈ store.candidates, row ∈ store'.candidates
  reviews : ∀ row ∈ store.reviews, row ∈ store'.reviews
  artifacts : ∀ row ∈ store.content.db.artifacts, row ∈ store'.content.db.artifacts
  submitted : ∀ row ∈ store.desk.tasks, row.status = .submitted → row ∈ store'.desk.tasks

/-- A move leaves the rows that others refer to. -/
theorem StoreMove.grows (h : StoreMove host store store')
    (hids : (store.desk.tasks.map (·.reviewTaskId)).Nodup) : Grows store store' := by
  have hsame : Grows store store :=
    ⟨fun _ hrow => hrow, fun _ hrow => hrow, fun _ hrow => hrow, fun _ hrow => hrow,
      fun _ hrow _ => hrow⟩
  cases h with
  | same => exact hsame
  | finalized row =>
    exact { hsame with finalizations := fun _ hrow => List.mem_append_left _ hrow }
  | generated row hbound hfresh =>
    exact { hsame with candidates := fun _ hrow => List.mem_append_left _ hrow }
  | reviewed row hreviews hfresh =>
    exact { hsame with reviews := fun _ hrow => List.mem_append_left _ hrow }
  | compiled | rendered | bound | began | attempted =>
    exact ⟨hsame.finalizations, hsame.candidates, hsame.reviews, hsame.artifacts, hsame.submitted⟩
  | review op =>
    refine { hsame with submitted := fun row hrow hstatus => ?_ }
    have hsettled : row.status.isSettled = true := by
      rw [hstatus]
      rfl
    exact (Reviews.moves_step hids op).tasks.settled hrow hsettled
  | content op =>
    exact { hsame with artifacts := (Registry.grows_step (C := host.content) _ op).artifacts }

/-- A compilation that is under way stays one of a reviewed candidate. -/
theorem Requested.grows (h : Grows store store') {request : CompilationRequest}
    (hrequested : Requested store request) : Requested store' request := by
  obtain ⟨candidate, hcandidate, review, hreview, task, htask, hrun, htext, hid, hgeneration,
    haccepted, hsigned⟩ := hrequested
  have hstatus : task.status = .submitted :=
    beq_iff_eq.mp (Bool.and_eq_true_iff.mp hsigned).1
  exact ⟨candidate, h.candidates candidate hcandidate, review, h.reviews review hreview, task,
    h.submitted task htask hstatus, hrun, htext, hid, hgeneration, haccepted, hsigned⟩

variable {compilation : Compilation}

theorem Supported.grows (h : Grows store store') (hsupported : Supported store compilation) :
    Supported store' compilation := by
  obtain ⟨⟨review, hreview, hnames⟩, ⟨candidate, hcandidate, hrun⟩, artifact, hartifact, hpdf⟩ :=
    hsupported
  exact ⟨⟨review, h.reviews review hreview, hnames⟩,
    ⟨candidate, h.candidates candidate hcandidate, hrun⟩, artifact,
    h.artifacts artifact hartifact, hpdf⟩

/-- What holds along a history of commands in the runs of their candidates. -/
structure Sound (host : PublicationHost) (store : PublicationStore) : Prop where
  taskIds : (store.desk.tasks.map (·.reviewTaskId)).Nodup
  genuine : Registry.Genuine host.content store.content
  candidateIds : (store.candidates.map (·.generationCommandId)).Nodup
  reviewIds : (store.reviews.map (·.paperReviewId)).Nodup
  candidates : ∀ row ∈ store.candidates, ∃ finalization ∈ store.finalizations,
    row.BoundTo finalization
  reviews : ∀ row ∈ store.reviews, ∃ candidate ∈ store.candidates, row.Reviews candidate ∧
    candidate.runId = row.runId
  compilations : ∀ row ∈ store.compilations, Supported store row
  compiling : ∀ request ∈ store.compiling, Requested store request
  attempts : ∀ attempt ∈ store.attempts, Requested store attempt.toCompilationRequest

/-- A table keeps its distinct identifiers when a fresh row is appended. -/
theorem nodup_map_concat {ρ : Type} {column : ρ → Id} {table : List ρ} {row : ρ}
    (h : (table.map column).Nodup) (hfresh : ∀ old ∈ table, column old ≠ column row) :
    ((table ++ [row]).map column).Nodup := by
  rw [List.map_append]
  refine nodup_concat_of_fresh h fun id hid => ?_
  obtain ⟨old, hold, rfl⟩ := List.mem_map.mp hid
  exact hfresh old hold

/-- The tables of a sound store that a move keeps, and those it appends to. -/
theorem Sound.move (h : Sound host store) (hmove : StoreMove host store store') :
    Sound host store' := by
  have hgrows := hmove.grows h.taskIds
  have hcandidates : ∀ row ∈ store.candidates, ∃ finalization ∈ store'.finalizations,
      row.BoundTo finalization := by
    intro row hrow
    obtain ⟨finalization, hmem, hbound⟩ := h.candidates row hrow
    exact ⟨finalization, hgrows.finalizations finalization hmem, hbound⟩
  have hreviews : ∀ row ∈ store.reviews, ∃ candidate ∈ store'.candidates, row.Reviews candidate ∧
      candidate.runId = row.runId := by
    intro row hrow
    obtain ⟨candidate, hmem, hreviews⟩ := h.reviews row hrow
    exact ⟨candidate, hgrows.candidates candidate hmem, hreviews⟩
  have hcompilations : ∀ row ∈ store.compilations, Supported store' row :=
    fun row hrow => (h.compilations row hrow).grows hgrows
  have hcompiling : ∀ request ∈ store.compiling, Requested store' request :=
    fun request hrequest => (h.compiling request hrequest).grows hgrows
  have hattempts : ∀ attempt ∈ store.attempts, Requested store' attempt.toCompilationRequest :=
    fun attempt hattempt => (h.attempts attempt hattempt).grows hgrows
  cases hmove with
  | same => exact h
  | finalized | rendered | bound =>
    exact ⟨h.taskIds, h.genuine, h.candidateIds, h.reviewIds, hcandidates, hreviews, hcompilations,
      hcompiling, hattempts⟩
  | generated row hbound hfresh =>
    refine ⟨h.taskIds, h.genuine, nodup_map_concat h.candidateIds hfresh, h.reviewIds, ?_, hreviews,
      hcompilations, hcompiling, hattempts⟩
    intro candidate hcandidate
    rcases List.mem_append.mp hcandidate with hold | hnew
    · exact hcandidates candidate hold
    · rw [List.mem_singleton.mp hnew]
      exact hbound
  | reviewed row hreview hfresh =>
    refine ⟨h.taskIds, h.genuine, h.candidateIds, nodup_map_concat h.reviewIds hfresh, hcandidates,
      ?_, hcompilations, hcompiling, hattempts⟩
    intro review hmem
    rcases List.mem_append.mp hmem with hold | hnew
    · exact hreviews review hold
    · rw [List.mem_singleton.mp hnew]
      exact hreview
  | compiled row hsupported =>
    refine ⟨h.taskIds, h.genuine, h.candidateIds, h.reviewIds, hcandidates, hreviews, ?_,
      hcompiling, hattempts⟩
    intro compilation hmem
    rcases List.mem_append.mp hmem with hold | hnew
    · exact hcompilations compilation hold
    · rw [List.mem_singleton.mp hnew]
      exact hsupported.grows hgrows
  | began request hrequested =>
    refine ⟨h.taskIds, h.genuine, h.candidateIds, h.reviewIds, hcandidates, hreviews,
      hcompilations, ?_, hattempts⟩
    intro other hmem
    rcases List.mem_append.mp hmem with hold | hnew
    · exact hcompiling other hold
    · rw [List.mem_singleton.mp hnew]
      exact hrequested.grows hgrows
  | attempted attempt index hrequest =>
    refine ⟨h.taskIds, h.genuine, h.candidateIds, h.reviewIds, hcandidates, hreviews,
      hcompilations, fun other hmem => hcompiling other (List.mem_of_mem_eraseIdx hmem), ?_⟩
    intro other hmem
    rcases List.mem_append.mp hmem with hold | hnew
    · exact hattempts other hold
    · rw [List.mem_singleton.mp hnew]
      exact hcompiling _ hrequest
  | review op =>
    exact ⟨(Reviews.moves_step h.taskIds op).tasks.ids h.taskIds, h.genuine, h.candidateIds,
      h.reviewIds, hcandidates, hreviews, hcompilations, hcompiling, hattempts⟩
  | content op =>
    exact ⟨h.taskIds, h.genuine.step op, h.candidateIds, h.reviewIds, hcandidates, hreviews,
      hcompilations, hcompiling, hattempts⟩

theorem sound_empty (host : PublicationHost) : Sound host {} where
  taskIds := List.nodup_nil
  genuine := Registry.genuine_empty
  candidateIds := List.nodup_nil
  reviewIds := List.nodup_nil
  candidates := fun _ hrow => absurd hrow List.not_mem_nil
  reviews := fun _ hrow => absurd hrow List.not_mem_nil
  compilations := fun _ hrow => absurd hrow List.not_mem_nil
  compiling := fun _ hrow => absurd hrow List.not_mem_nil
  attempts := fun _ hrow => absurd hrow List.not_mem_nil

theorem sound_reached (h : StepsSatisfy (step host) InOwnRun {} history) :
    Sound host (reached host history) :=
  runFrom_invariant_of (sound_empty host) (fun _ _ hsound hop => hsound.move (storeMove_step hop)) h

/-! ## The home page -/

variable {summary : PublishedPaperSummary}

/-- The document of a home page is that of a compilation of the run that an attempt has given. -/
theorem homepage_spec {runId : Id} {pdf : ArtifactRef} (h : homepage store runId = .ok summary)
    (hpdf : summary.finalPdfRef = some pdf) :
    ∃ compilation ∈ store.compilations, ∃ attempt ∈ store.attempts, ∃ artifact,
      compilation.runId = runId ∧ givesDocument attempt compilation = true ∧
        store.content.findById compilation.finalPdfArtifactId = some artifact ∧
        artifactRef artifact = pdf := by
  obtain ⟨finalPdf, hread, h⟩ := bind_eq_ok.mp h
  cases pure_eq_ok.mp h
  have hpdf : finalPdf = some pdf := hpdf
  unfold finalPdfOf at hread
  cases hhead : (publicationsOf store runId).head? with
  | none =>
    rw [hhead] at hread
    have hnone := pure_eq_ok.mp hread
    rw [← hnone] at hpdf
    cases hpdf
  | some publication =>
    rw [hhead] at hread
    obtain ⟨artifact, hartifact, hread⟩ := bind_eq_ok.mp hread
    have hsome := pure_eq_ok.mp hread
    rw [← hsome] at hpdf
    have hmem := List.mem_of_mem_head? (Option.mem_def.mpr hhead)
    rw [publicationsOf, List.mem_insertionSort, List.mem_filter, Bool.and_eq_true, beq_iff_eq,
      List.any_eq_true] at hmem
    obtain ⟨hcompilation, hrun, attempt, hattempt, hgives⟩ := hmem
    exact ⟨publication, hcompilation, attempt, hattempt, artifact, hrun, hgives,
      orReject_eq_ok.mp hartifact, Option.some.inj hpdf⟩

theorem givesDocument_spec {attempt : CompilationAttempt}
    (h : givesDocument attempt compilation = true) :
    attempt.paperReviewId = compilation.paperReviewId ∧
      ∃ artifactId, attempt.outcome = .succeeded artifactId compilation.finalPdfSha256 := by
  obtain ⟨hreview, hgives⟩ := Bool.and_eq_true_iff.mp h
  refine ⟨beq_iff_eq.mp hreview, ?_⟩
  cases houtcome : attempt.outcome with
  | failed failureCode =>
    rw [houtcome] at hgives
    cases hgives
  | succeeded artifactId sha256 =>
    rw [houtcome] at hgives
    have hsha : sha256 = compilation.finalPdfSha256 := beq_iff_eq.mp hgives
    exact ⟨artifactId, by rw [hsha]⟩

theorem signedAs_spec {task : ReviewTaskRow} {review : PaperReview}
    (h : signedAs task review = true) :
    task.status = .submitted ∧ ∃ artifact, task.signedArtifact = some artifact ∧
      artifact.artifactId = review.signedReviewArtifactId ∧
      artifact.sha256 = review.signedReviewSha256 := by
  obtain ⟨hstatus, hartifact⟩ := Bool.and_eq_true_iff.mp h
  refine ⟨beq_iff_eq.mp hstatus, ?_⟩
  cases hsome : task.signedArtifact with
  | none =>
    rw [hsome] at hartifact
    cases hartifact
  | some artifact =>
    rw [hsome] at hartifact
    obtain ⟨hid, hsha⟩ := Bool.and_eq_true_iff.mp hartifact
    exact ⟨artifact, rfl, beq_iff_eq.mp hid, beq_iff_eq.mp hsha⟩

/-- A document that a home page of a sound store shows has a chain of rows of its run: the review
of the compilation is that of the attempt, and with it the candidate. -/
theorem Sound.hasChain (h : Sound host store) {runId : Id} {pdf : ArtifactRef}
    (hpage : homepage store runId = .ok summary) (hpdf : summary.finalPdfRef = some pdf) :
    HasChain store runId pdf := by
  obtain ⟨compilation, hcompilation, attempt, hattempt, artifact, hrun, hgives, hfound, hpdfRef⟩ :=
    homepage_spec hpage hpdf
  obtain ⟨hattempted, attemptPdf, houtcome⟩ := givesDocument_spec hgives
  obtain ⟨⟨review, hreview, hreviewId, hreviewGeneration⟩, ⟨candidate, hcandidate, hgeneration,
    hcandidateRun⟩, registered, hregistered, hregisteredId, hregisteredSha⟩ :=
    h.compilations compilation hcompilation
  obtain ⟨compiled, hcompiled, accepted, haccepted, task, htask, hattemptRun, hattemptText,
    hacceptedId, hacceptedGeneration, hverdict, hsigned⟩ := h.attempts attempt hattempt
  have hsameReview : accepted = review := List.inj_on_of_nodup_map h.reviewIds haccepted hreview
    (hacceptedId.trans (hattempted.trans hreviewId.symm))
  subst hsameReview
  have hsameCandidate : compiled = candidate :=
    List.inj_on_of_nodup_map h.candidateIds hcompiled hcandidate
      (hacceptedGeneration.symm.trans (hreviewGeneration.trans hgeneration.symm))
  subst hsameCandidate
  obtain ⟨reviewed, hreviewed, hreviews, hreviewRun⟩ := h.reviews accepted haccepted
  have hsameReviewed : reviewed = compiled :=
    List.inj_on_of_nodup_map h.candidateIds hreviewed hcompiled
      (hreviews.generation.symm.trans hacceptedGeneration)
  subst hsameReviewed
  obtain ⟨finalization, hfinalization, hbound⟩ := h.candidates reviewed hreviewed
  have hcandidateIn : reviewed.runId = runId := hcandidateRun.trans hrun
  obtain ⟨hartifact, hartifactId⟩ := Registry.mem_of_findById hfound
  have hsameArtifact : artifact = registered :=
    h.genuine.eq_of_artifactId hartifact hregistered (hartifactId.trans hregisteredId.symm)
  have hpdfSha : pdf.sha256 = compilation.finalPdfSha256 := by
    rw [← hpdfRef, hsameArtifact]
    exact hregisteredSha
  refine ⟨finalization, hfinalization, reviewed, hreviewed, accepted, haccepted, task, htask,
    attempt, hattempt, ?_⟩
  exact
    { run := ⟨hbound.run.trans hcandidateIn, hcandidateIn, hreviewRun.symm.trans hcandidateIn,
        hattemptRun.symm.trans hcandidateIn⟩
      bound := hbound
      reviewed := hreviews
      accepted := hverdict
      signed := signedAs_spec hsigned
      attempted := hacceptedId.symm
      compiled := hattemptText.symm
      document := ⟨attemptPdf, by rw [hpdfSha]; exact houtcome⟩ }

/-- Reviews and compilations of a sound store refer to candidates of their own run. -/
theorem Sound.withinRuns (h : Sound host store) : WithinRuns store := by
  constructor
  · intro review hreview candidate hcandidate hsame
    obtain ⟨reviewed, hreviewed, hreviews, hrun⟩ := h.reviews review hreview
    have heq : candidate = reviewed := List.inj_on_of_nodup_map h.candidateIds hcandidate hreviewed
      (hsame.trans hreviews.generation)
    rw [heq]
    exact hrun
  · intro compilation hcompilation candidate hcandidate hsame
    obtain ⟨-, ⟨named, hnamed, hgeneration, hrun⟩, -⟩ := h.compilations compilation hcompilation
    have heq : candidate = named := List.inj_on_of_nodup_map h.candidateIds hcandidate hnamed
      (hsame.trans hgeneration.symm)
    rw [heq]
    exact hrun

/-- Where reviews and compilations are recorded in the run of the candidate that they name, every
document that a home page shows comes from its run. -/
theorem provenance_of_own_run (h : StepsSatisfy (step host) InOwnRun {} history) :
    Provenance (reached host history) :=
  ⟨fun _ _ _ hpage hpdf => (sound_reached h).hasChain hpage hpdf, (sound_reached h).withinRuns⟩

end Runs

namespace PaperSample

/-- The platform of the sample. It is not asked for anything. -/
def platform : Platform where
  nfc text := text
  sha256 _ := ""
  hmacSha256 _ _ := ""
  uuid5 text := text
  repr _ := ""
  parseInt _ := none

/-- The surroundings of the service. -/
def host : PublicationHost where
  platform := platform
  content := { sha256 := fun _ => "", maxBytes := 1000 }
  reviews := Reviews.ReviewSample.host
  compiler := "pdflatex"

def digest : Digest := String.ofList (List.replicate 64 'a')

def capability (role subjectId : String) : VerifiedCapability where
  capabilityId := "capability"
  subjectId := subjectId
  issuer := "issuer"
  allowedActions := ["*"]
  runScope := ["*"]
  issuedAt := none
  expiresAt := none
  subjectRole := some role

/-- An artifact as a payload names it. -/
def named (artifactId mediaType : String) : Json :=
  .obj [("artifact_id", .str artifactId), ("sha256", .str digest), ("byte_count", .int 3),
    ("media_type", .str mediaType)]

/-- What the host knows of the artifacts. -/
def evidence : JsonObject :=
  let metadata (mediaType : String) : Json := .obj [("sha256", .str digest), ("byte_count", .int 3),
    ("media_type", .str mediaType), ("ingest_state", .str "COMMITTED")]
  [("committed_artifacts", .obj [("tex", metadata "application/x-tex"),
    ("signed", metadata "application/json")])]

/-- The context of a command. -/
def context (runId : Id) (revision : ℤ) (role subjectId : String) (payload : JsonObject) :
    CommandContext where
  runId := runId
  revision := revision
  contractVersion := 1
  payload := payload
  capability := capability role subjectId
  snapshot := [("open_obligation_ids", .arr []),
    ("claims", .arr [.obj [("claim_id", .str "root"), ("claim_kind", .str "ROOT"),
      ("lifecycle_status", .str "ACTIVE"), ("contract_version", .int 1),
      ("statement_hash", .str digest), ("route_result", .str "ROUTE_PROVED"),
      ("closure_state", .str "CLOSED_MACHINE"), ("machine_verdict", .str "KERNEL_VERIFIED"),
      ("semantic_verdict", .str "TESTED")]]),
    ("closure_witnesses", .arr [.obj [("witness_id", .str "witness"),
      ("parent_claim_id", .str "root"), ("status", .str "ACCEPTED"), ("contract_version", .int 1),
      ("selected_subgraph_digest", .str digest)]])]
  evidenceSummary := evidence

def chain : JsonObject :=
  [("finalized_revision", .int 11), ("terminal_root_id", .str "root"),
    ("terminal_root_digest", .str digest), ("closure_witness_id", .str "witness"),
    ("dependency_closure_digest", .str digest),
    ("candidate_tex_artifact", named "tex" "application/x-tex")]

/-- A review that accepts the candidate, recorded in a run. -/
def reviewIn (runId : Id) : PublicationOp :=
  .submitPaperReview
    (context runId 12 "PAPER_REVIEWER" "reviewer" (chain ++
      [("generation_command_id", .str "generate"), ("paper_review_id", .str "review"),
        ("signed_review_artifact", named "signed" "application/json"),
        ("paper_review_schema_version", .str "rk.paper-review.v1"),
        ("reviewer_subject_id", .str "reviewer"), ("verdict", .str "ACCEPT")]))
    ⟨"submit", "event-3", "2026-08-13T18:10:00Z"⟩

/-- A run is finalized, and a candidate is generated. -/
def generated : List PublicationOp :=
  [.finalize (context "run-a" 10 "MAIN" "main"
      [("outcome", .str "PROVED"), ("terminal_claim_ids", .arr [.str "root"]),
        ("open_obligation_ids", .arr []), ("dossier_spec", .obj [])])
      ⟨"finalize", "event-1", "2026-08-13T18:00:00Z"⟩,
    .generateCandidateTex (context "run-a" 11 "PUBLICATION_WORKER" "publisher" chain)
      ⟨"generate", "event-2", "2026-08-13T18:05:00Z"⟩]

end PaperSample

open PaperSample in
/-- The review is recorded in the run of the candidate. -/
theorem provenance_of_own_review : Provenance (reached host (generated ++ [reviewIn "run-a"])) := by
  refine provenance_of_own_run (StepsSatisfy.concat (StepsSatisfy.of_forall ?_) ?_)
  · intro op hop store
    have hkinds : (∃ context applied, op = .finalize context applied) ∨
        ∃ context applied, op = .generateCandidateTex context applied := by
      simp only [generated, List.mem_cons, List.not_mem_nil, or_false] at hop
      rcases hop with rfl | rfl
      · exact Or.inl ⟨_, _, rfl⟩
      · exact Or.inr ⟨_, _, rfl⟩
    rcases hkinds with ⟨context, applied, rfl⟩ | ⟨context, applied, rfl⟩ <;> trivial
  · have hcandidates : ∀ candidate ∈ (reached host generated).candidates,
        candidate.runId = "run-a" := by
      decide +kernel
    exact fun candidate hcandidate _ => hcandidates candidate hcandidate

open PaperSample in
/-- The review is recorded in another run than that of the candidate. -/
theorem review_of_another_run :
    ¬ Provenance (reached host (generated ++ [reviewIn "run-b"])) := by
  rintro ⟨-, hreviews, -⟩
  have hacross : ∃ review ∈ (reached host (generated ++ [reviewIn "run-b"])).reviews,
      ∃ candidate ∈ (reached host (generated ++ [reviewIn "run-b"])).candidates,
        candidate.generationCommandId = review.generationCommandId ∧
          candidate.runId ≠ review.runId := by
    decide +kernel
  obtain ⟨review, hreview, candidate, hcandidate, hsame, hother⟩ := hacross
  exact hother (hreviews review hreview candidate hcandidate hsame)

end ResearchKernel.Product.Publication
