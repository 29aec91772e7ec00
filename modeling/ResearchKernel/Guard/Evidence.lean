import ResearchKernel.Guard.Context
import ResearchKernel.MachineTrust

/-!
# Decisions about evidence and reviews

Evidence, failures, reviews, literature, Lean feedback and atomic verifications. None of
these commands is taken at its word: reviews are bound to a signed artifact and to the
capability that submits them, Lean feedback to a signed receipt, and an atomic
verification to evidence or to a review that is already recorded.
-/

namespace ResearchKernel

open Foundation

namespace Guard

variable (context : GuardContext)

/-! ## Evidence and failures -/

/-- The strengths that evidence of a type may have. -/
def evidenceStrengths : EvidenceType → List EvidenceStrength
  | .leanReplay => [.hardMachine]
  | .checkerCertificate => [.hardMachine]
  | .exactEnumeration => [.hardMachine, .provenanceOnly]
  | .counterexample => [.hardMachine, .humanAttested]
  | .naturalLanguageProof => [.humanAttested]
  | .modelJudge => [.softModel]
  | .peerSignature => [.humanAttested]
  | .semanticAudit => [.humanAttested]
  | .literatureSource => [.provenanceOnly]
  | .executionLog => [.provenanceOnly]

/-- `SubmitEvidence`: evidence about the exact statement of an active claim. -/
def handleSubmitEvidence (p : SubmitEvidence) : Decision := do
  let current := match context.currentClaim? p.claimId with
    | some claim => p.statementHash == claim.statementHash
    | none => false
  rejectIf (!current) (refuse .evidenceScopeMismatch "EVIDENCE_SCOPE" "/command/payload/claim_id")
  rejectIf
    (!(p.scope.get "claim_id").isText p.claimId ||
      !(p.scope.get "contract_version").eqv (.int context.version) ||
      !(p.scope.get "statement_hash").isText p.statementHash)
    (refuse .evidenceScopeMismatch "EVIDENCE_SCOPE" "/command/payload/scope")
  rejectIf (!(evidenceStrengths p.evidenceType).contains p.evidenceStrength)
    (refuse .evidenceInsufficient "EVIDENCE_TYPE" "/command/payload/evidence_strength"
      [("evidence_type", .str p.evidenceType.wire)])
  rejectIf (!context.artifactNamesAvailable p.artifactInputNames)
    (refuse .artifactMissing "ARTIFACT_STATE" "/command/payload/artifact_input_names")
  rejectIf (!(p.provenance.get "actor").truthy)
    (refuse .evidenceInsufficient "EVIDENCE_ROOT" "/command/payload/evidence_root")
  return [.appendEvidence p]

/-- Whether a failure has to name the obligation at which it occurred. -/
def namesObligation : FailureKind → Bool
  | .falseLemma | .bridgeFailure | .compositionGap => true
  | _ => false

/-- `RecordFailure`: a failure invalidates closures that depend on its first obligation. -/
def handleRecordFailure (p : RecordFailure) : Decision := do
  rejectIf (p.routeId.any fun id => (context.snapshot.route? id).isNone)
    (refuse .evidenceScopeMismatch "OBJECT_SCOPE" "/command/payload/route_id")
  rejectIf (hasText p.evidenceArtifactId &&
      !context.snapshot.artifactCommitted (idText p.evidenceArtifactId))
    (refuse .artifactMissing "ARTIFACT_STATE" "/command/payload/evidence_artifact_id")
  let openObligation :=
    (context.snapshot.obligation? (idText p.firstFailedObligationId)).any fun obligation =>
      obligation.contractVersion == context.version && obligation.status == .isOpen &&
        p.claimId.all (obligation.parentClaimId == ·)
  rejectIf (namesObligation p.failureKind && !openObligation)
    (refuse .evidenceInsufficient "OPEN_OBLIGATION" "/command/payload/first_failed_obligation_id")
  return [.appendFailure p, .invalidateDependencyClosure p.firstFailedObligationId]

/-- Whether a reservation stays within the share of a route; the resource that does not. -/
def reservationExceeds (limits : List (String × ℤ)) (denominator : ℤ) (reservation : JsonObject) :
    Option String :=
  (reservation.find? fun entry =>
    match entry.2.asInt, limits.lookup entry.1 with
    | some amount, some limit => decide (limit / denominator < amount)
    | _, _ => true).map Prod.fst

/-- `RequestExpansion`: a route gets a further batch, with a reservation of budget. -/
def handleRequestExpansion (p : RequestExpansion) : Decision := do
  let route ← orReject
    ((context.snapshot.route? p.routeId).filter fun route =>
      context.snapshot.status == .running && (route.status == .active || route.status == .blocked))
    (refuse .invalidTransition "RUN_STATE" "/command/type"
      [("required", .str "RUNNING_ACTIVE_ROUTE")])
  rejectIf
    (!context.snapshot.literature.any fun item =>
      item.contractVersion == context.version &&
        (item.status == .literatureHit || item.status == .noHitAfterSearch))
    (refuse .evidenceInsufficient "LITERATURE_PLAN" "/command/payload/route_id")
  rejectIf (p.expectedInformationGain == 0 || p.decisionIds.isEmpty)
    (refuse .evidenceInsufficient "DECISION_TARGET" "/command/payload/decision_ids")
  rejectIf (!(p.noveltyDelta.get "objects").truthy || decide (2 ≤ route.noveltyZeroStreak))
    (refuse .evidenceInsufficient "NOVELTY_DELTA" "/command/payload/novelty_delta")
  let path := "/command/payload/reservation"
  let limits ← orReject context.policy.globalBudgetLimits
    (refuse .budgetDenied "BUDGET_POLICY" path)
  let denominator ← orReject (context.policy.routeShareDenominator.filter fun n => decide (0 < n))
    (refuse .budgetDenied "BUDGET_POLICY" path)
  let exceeded := reservationExceeds limits denominator p.reservation
  rejectIf exceeded.isSome
    (refuse .budgetDenied "BUDGET_POLICY" path [("resource", Json.ofText? exceeded)])
  return [.appendBudgetReservation p, .approveExpansionBatch]

/-! ## Reviews -/

/-- Whether an attestation is bound to the artifact, the reviewer and the claim under review. -/
def attestationBound (p : RecordPeerReview) (claim : Claim) (artifact : Artifact) : Bool :=
  let attestation := p.verifierAttestation
  (attestation.get "artifact_sha256").isText artifact.sha256 &&
    (attestation.get "verifier_identity_id").isText context.capability.capabilityId &&
    (attestation.get "verifier_subject_id").isText context.capability.subjectId &&
    (attestation.get "promotion_eligible").isTrue &&
    (attestation.get "authority").isText "HUMAN_ATTESTED" &&
    (attestation.get "claim_id").isText claim.claimId &&
    (attestation.get "contract_version").eqv (.int context.version) &&
    (attestation.get "statement_hash").isText claim.statementHash &&
    (attestation.get "verdict").isText p.verdict.wire &&
    (attestation.get "selected_subgraph_digest").eqv (Json.ofText? p.selectedSubgraphDigest)

/-- Whether the checks of a review are those of its signed artifact. -/
def signedChecksValid (P : Platform) (p : RecordPeerReview) : Bool :=
  signedHumanCheck P (p.checklist.get "proof_checked") &&
    signedHumanCheck P (p.checklist.get "scope_checked") &&
    (p.selectedSubgraphDigest.isNone ||
      match (p.checklist.get "six_parts").mapping? with
      | none => false
      | some parts => parts.hasExactly partNames &&
        partNames.all fun name => signedHumanCheck P (parts.get name))

/-- The profile that the host derives for a review. -/
def derivedProfile (p : RecordPeerReview) (managed : Bool) : JsonObject :=
  let independence : Json := .str (if managed then "INDEPENDENT" else "UNKNOWN")
  [("managed_human", .bool managed), ("reviewer_subject_id", .str context.capability.subjectId),
    ("verifier_identity_id", p.verifierAttestation.get "verifier_identity_id"),
    ("attested_artifact_sha256", p.verifierAttestation.get "artifact_sha256"),
    ("idea_independence", independence), ("derivation_independence", independence),
    ("verification_independence", independence), ("implementation_independence", independence),
    ("retrieval_independence", independence),
    ("reasons", Json.ofTexts (if managed then [] else ["HUMAN_REVIEW_CHECKLIST_INCOMPLETE"])),
    ("shared_ancestors", .arr [])]

/-- The subjects that a review names as authors. -/
def authorSubjects (p : RecordPeerReview) : Checked (List String) := do
  let authors ← iterate (p.sourceGraph.getOr "author_subject_ids" (.arr []))
  return authors.map (·.toText context.platform)

/-- Whether a review is blind and its reviewer not among the authors. -/
def managedReview (p : RecordPeerReview) (authors : List String) : Bool :=
  (p.checklist.get "blind_review").isTrue && !authors.contains context.capability.subjectId

/-- `RecordPeerReview`: a signed review of the exact statement of a claim. -/
def handleRecordPeerReview (p : RecordPeerReview) : Decision := do
  let scope := refuse .evidenceScopeMismatch "EVIDENCE_SCOPE" "/command/payload/statement_hash"
  let claim ← orReject
    ((context.snapshot.claim? p.claimId).filter fun claim => p.statementHash == claim.statementHash)
    scope
  rejectIf (!context.snapshot.artifactCommitted p.reviewArtifactId) scope
  let artifact ← orReject (context.snapshot.artifact? p.reviewArtifactId) scope
  rejectIf p.sourceGraph.isEmpty
    (refuse .independenceUnknown "SOURCE_GRAPH" "/command/payload/source_graph")
  let authors ← authorSubjects context p
  rejectIf (!attestationBound context p claim artifact)
    (refuse .independenceUnknown "VERIFIER_ATTESTATION" "/command/payload/verifier_attestation"
      [("required", .str "BOUND_MANAGED_HUMAN_ATTESTATION")])
  rejectIf (!signedChecksValid context.platform p)
    (refuse .independenceUnknown "SIGNED_REVIEW_CHECKS" "/command/payload/checklist"
      [("required", .str "STRUCTURED_SIGNED_IMPORTS")])
  return [.appendPeerReview p (derivedProfile context p (managedReview context p authors))]

/-- `RecordQualityReview`: a review of the quality of a claim. -/
def handleRecordQualityReview (p : RecordQualityReview) : Decision := do
  rejectIf
    (!context.snapshot.artifactCommitted p.reviewArtifactId || p.dimensions.isEmpty ||
      p.contractVersion != context.version)
    (refuse .evidenceScopeMismatch "EVIDENCE_SCOPE" "/command/payload/dimensions")
  return [.appendQualityReview p]

/-- The families of queries that a literature record names. -/
def queryFamilyIds (p : RecordLiterature) : List String :=
  ((p.queryFamilies.map fun item =>
    (item.getOr "family" (item.getOr "id" (.str ""))).toText context.platform).dedup).filter (· != "")

/-- `RecordLiterature`: a search for the current or for a superseded contract version. -/
def handleRecordLiterature (p : RecordLiterature) : Decision := do
  let superseded := context.snapshot.contracts.any fun contract =>
    contract.version == p.contractVersion && contract.status == .superseded
  rejectIf (p.contractVersion != context.version && !superseded)
    (refuse .evidenceScopeMismatch "CONTRACT_VERSION" "/command/payload/contract_version")
  rejectIf (decide ((queryFamilyIds context p).length < 5))
    (refuse .ingestSchemaInvalid "LITERATURE_PLAN" "/command/payload/query_families"
      [("minimum", .int 5)])
  rejectIf (p.status == .literatureHit && p.relation.isNone)
    (refuse .evidenceInsufficient "LITERATURE_PLAN" "/command/payload/relation")
  let required := [p.queryLogArtifactId, p.assessmentArtifactId] ++
    if p.status == .literatureHit then [idText p.referenceArtifactId] else []
  rejectIf (required.any fun id => !context.snapshot.artifactCommitted id)
    (refuse .artifactMissing "ARTIFACT_STATE" "/command/payload")
  return [.appendLiteratureRecord p]

/-- `RecordResearchHint`: a hint that says something. -/
def handleRecordResearchHint (p : RecordResearchHint) : Decision := do
  rejectIf (isBlank p.hint)
    (refuse .ingestSchemaInvalid "RESEARCH_HINT" "/command/payload/hint")
  return [.recordResearchHint p]

/-- Whether an attestation is bound to the artifact, the reviewer and the paper under review. -/
def paperAttestationBound (p : RecordPaperReview) (artifact : Artifact) : Bool :=
  let attestation := p.verifierAttestation
  (attestation.get "artifact_sha256").isText artifact.sha256 &&
    (attestation.get "verifier_identity_id").isText context.capability.capabilityId &&
    (attestation.get "verifier_subject_id").isText context.capability.subjectId &&
    (attestation.get "final_fact_id").isText p.finalFactId &&
    (attestation.get "contract_version").eqv (.int context.version) &&
    (attestation.get "paper_sha256").isText p.paperSha256 &&
    (attestation.get "status").isText p.status.wire &&
    (p.status != .correct ||
      (attestation.get "promotion_eligible").isTrue &&
        (attestation.get "authority").isText "HUMAN_ATTESTED")

/-- `RecordPaperReview`: a signed review of a whole paper about an active claim. -/
def handleRecordPaperReview (p : RecordPaperReview) : Decision := do
  rejectIf (!context.listed context.policy.verifierCapabilityIds) (roleRefusal "VERIFIER")
  rejectIf (context.currentClaim? p.finalFactId).isNone
    (refuse .evidenceScopeMismatch "VERIFIED_FACT" "/command/payload/final_fact_id")
  rejectIf (!context.snapshot.artifactCommitted p.reviewArtifactId)
    (refuse .artifactMissing "ARTIFACT_STATE" "/command/payload/review_artifact_id")
  rejectIf (!(context.snapshot.artifact? p.reviewArtifactId).any (paperAttestationBound context p))
    (refuse .independenceUnknown "VERIFIER_ATTESTATION" "/command/payload/verifier_attestation"
      [("required", .str "BOUND_INDEPENDENT_WHOLE_PAPER_REVIEW")])
  return [.recordPaperReview p]

/-! ## Lean feedback -/

/-- The fields that the diagnostic of a replay must have. -/
def replayDiagnosticFields : List String :=
  ["request_hash", "result_hash", "source_sha256", "output_sha256", "binary_sha256", "exit_code",
    "host_receipt"]

/-- Whether a receipt payload carries the signature of the profile's key. -/
def receiptSignatureValid (profile : VerifierProfile) (payload : JsonObject) (signature : Json) :
    Bool :=
  match signature.text?, profile.receiptHmacKey with
  | some signature, some key =>
    decide (32 ≤ key.length) &&
      context.platform.hmacSha256 key (context.platform.sha256 (dumps (.obj payload))).toList ==
        signature
  | _, _ => false

/-- Whether a text that may be absent equals a JSON value. -/
def matchesText (value : Json) (text : Option String) : Bool := value.eqv (Json.ofText? text)

/-- Whether a receipt payload speaks about the binding and repeats the diagnostic. -/
def receiptBound (required : String) (attempt : Attempt) (binding : ExecutionBinding)
    (diagnostic payload : JsonObject) : Bool :=
  (payload.get "adapter_name").isText required &&
    (payload.get "adapter_version").isText binding.adapterVersion &&
    (payload.get "run_id").isText context.snapshot.runId &&
    (payload.get "attempt_id").isText attempt.attemptId &&
    (payload.get "binding_id").isText binding.bindingId &&
    (payload.get "environment_profile_id").isText binding.environmentProfileId &&
    matchesText (payload.get "source_commit") binding.sourceCommit &&
    (payload.get "invocation_nonce").isText binding.invocationNonce &&
    (!context.snapshot.leanFeedback.any fun item =>
      item.receiptNonce == some binding.invocationNonce) &&
    ["request_hash", "result_hash", "source_sha256", "output_sha256", "binary_sha256"].all (fun name =>
      (payload.get name).eqv (diagnostic.get name)) &&
    (payload.get "exit_code").eqv (.int 0) && (payload.get "status").isText "COMPLETED"

/-- Whether the diagnostic of a replay is backed by a signed receipt. -/
def replayDiagnosticValid (p : RecordLeanFeedback) (profile : VerifierProfile) (attempt : Attempt)
    (binding : ExecutionBinding) : Bool :=
  let receipt := ((p.diagnostic.get "host_receipt").mapping?).getD []
  match (receipt.get "payload").mapping?, context.snapshot.artifact? p.outputArtifactId,
    context.snapshot.artifact? p.sourceArtifactId with
  | some payload, some output, some source =>
    replayDiagnosticFields.all (p.diagnostic.has ·) &&
      (p.diagnostic.get "exit_code").eqv (.int 0) &&
      (p.diagnostic.get "output_sha256").isText output.sha256 &&
      (p.diagnostic.get "source_sha256").isText source.sha256 &&
      matchesText (p.diagnostic.get "binary_sha256") profile.binarySha256 &&
      receiptSignatureValid context profile payload (receipt.get "signature") &&
      receiptBound context profile.adapterName attempt binding p.diagnostic payload
  | _, _, _ => false

/-- The further checks of a feedback that reports a successful replay. -/
def checkReplayPass (p : RecordLeanFeedback) (profile : VerifierProfile) : Checked Unit := do
  rejectIf
    (!context.snapshot.artifactCommitted p.sourceArtifactId ||
      !context.snapshot.artifactCommitted p.outputArtifactId)
    (refuse .artifactMissing "ARTIFACT_STATE" "/command/payload")
  let refusal := refuse .replayFailed "MACHINE_REPLAY" "/command/payload/attempt_id"
  let attempt ← orReject
    ((context.snapshot.attempt? (idText p.attemptId)).filter (·.status == .succeeded)) refusal
  let binding ← orReject
    ((p.attemptId.bind context.snapshot.bindingOf?).filter fun binding =>
      binding.adapterName == profile.adapterName &&
        binding.environmentProfileId == p.environmentProfileId &&
        binding.sourceCommit == p.mathlibCommit) refusal
  rejectIf (!replayDiagnosticValid context p profile attempt binding)
    (refuse .replayFailed "MACHINE_REPLAY" "/command/payload/diagnostic")

/-- `RecordLeanFeedback`: feedback of a configured verifier about a claim. -/
def handleRecordLeanFeedback (p : RecordLeanFeedback) : Decision := do
  let profile ← orReject
    ((context.policy.verifierProfiles.lookup p.environmentProfileId).filter fun profile =>
      profile.toolchain.all (· == p.toolchain) &&
        profile.mathlibCommit.all fun commit => p.mathlibCommit == some commit)
    (refuse .environmentDrift "MACHINE_REPLAY" "/command/payload/environment_profile_id")
  rejectIf (!profile.verifierWriterCapabilityIds.contains context.capability.capabilityId)
    (roleRefusal "VERIFIER_WRITER")
  if p.feedbackKind == .replayPass then checkReplayPass context p profile
  rejectIf
    (!context.snapshot.artifactCommitted p.sourceArtifactId ||
      !context.snapshot.artifactCommitted p.outputArtifactId)
    (refuse .artifactMissing "ARTIFACT_STATE" "/command/payload")
  return [.appendLeanFeedback p, .invalidateFromFirstFailure p.firstFailedObligationId]

/-! ## Atomic verification -/

/-- Whether a claim is atomic, so that it needs no closure. -/
def isAtomic (statement : JsonObject) : Bool := (statement.get "atomic").isTrue

/-- `VerifyAtomicClaim`: an atomic claim is verified by trusted evidence or by a managed peer. -/
def handleVerifyAtomicClaim (p : VerifyAtomicClaim) : Decision := do
  rejectIf (!context.listed context.policy.verifierCapabilityIds) (roleRefusal "VERIFIER")
  let claim ← orReject
    ((context.currentClaim? p.claimId).filter fun claim => isAtomic claim.normalizedStatement)
    (refuse .evidenceScopeMismatch "ATOMIC_CLAIM" "/command/payload/claim_id")
  if p.verdict == .rejected then
    rejectIf (isBlank p.repairFeedback)
      (refuse .ingestSchemaInvalid "REPAIR_FEEDBACK" "/command/payload/repair_feedback")
    return [.recordAtomicVerification p {}]
  else
    let machine (type : EvidenceType) (verdict : MachineVerdict) : Decision := do
      rejectIf
        (!(context.snapshot.evidence? (idText p.verificationRef)).any fun evidence =>
          machineEvidenceIsTrusted context.snapshot evidence claim context.version type)
        (refuse .replayFailed "VERIFICATION_RECEIPT" "/command/payload/verification_ref")
      return [.recordAtomicVerification p { machine := some verdict, semantic := some .tested }]
    match p.backend with
    | .softVerifier =>
      .error (refuse .evidenceInsufficient "VERIFICATION_BACKEND" "/command/payload/backend")
    | .lean => machine .leanReplay .kernelVerified
    | .deterministicChecker => machine .checkerCertificate .certificateVerified
    | .managedPeer =>
      rejectIf
        (!(context.snapshot.review? (idText p.verificationRef)).any fun review =>
          review.claimId == claim.claimId && review.verdict == .accept &&
            independenceProfileIsIndependent review.independenceProfile)
        (refuse .independenceUnknown "INDEPENDENT_REVIEW" "/command/payload/verification_ref")
      return [.recordAtomicVerification p
        { peer := some .accepted, semantic := some .humanAttested }]

end Guard

end ResearchKernel
