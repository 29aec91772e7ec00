import ResearchKernel.Guard.Context

/-!
# Decisions about the contract and the run

The life of a run: its contract is frozen, the run starts, is interrupted and resumed, a
defect of the contract is proposed and amended, and the run is finalized.
-/

namespace ResearchKernel

open Foundation

namespace Guard

variable (context : GuardContext)

/-- `FreezeContract`: a complete draft without a proposed defect becomes frozen. -/
def handleFreezeContract (p : FreezeContract) : Decision := do
  rejectIf (context.snapshot.status != .isOpen || context.snapshot.contractStatus? != some .draft)
    (refuse .invalidTransition "CONTRACT_STATE" "/command/type" [("required", .str "DRAFT")])
  rejectIf (p.contractVersion != context.version)
    (refuse .evidenceScopeMismatch "CONTRACT_VERSION" "/command/payload/contract_version")
  rejectIf (!context.snapshot.artifactCommitted p.completenessCheckArtifactId)
    (refuse .artifactMissing "ARTIFACT_STATE" "/command/payload/completeness_check_artifact_id"
      [("required", .str "COMMITTED")])
  rejectIf (context.snapshot.contract?.isNone || !context.snapshot.defectProposals.isEmpty)
    (refuse .invalidTransition "CONTRACT_STATE" "/contract"
      [("required", .str "COMPLETE_WITHOUT_DEFECT")])
  return [.setContractStatus context.version .frozen none]

/-- Whether a claim is the root that states the current contract. -/
def isContractRoot (claim : Claim) (contract : ContractVersion) : Bool :=
  claim.claimKind == .root && claim.statementHash == contract.statementHash &&
    claim.statementArtifactId == contract.contractArtifactId &&
    (Json.obj claim.normalizedStatement).eqv (.obj contract.contract)

/-- A budget policy with positive limits. -/
def budgetLimitsValid (policy : JsonObject) : Bool :=
  match (policy.get "global").mapping? with
  | none => false
  | some limits => !limits.isEmpty && limits.all fun limit =>
    match limit.2.int? with
    | some value => decide (0 < value)
    | none => false

/-- `StartRun`: the frozen contract has its root and the budget has its limits. -/
def handleStartRun (p : StartRun) : Decision := do
  rejectIf (context.snapshot.status != .isOpen || context.snapshot.contractStatus? != some .frozen)
    (refuse .contractNotFrozen "CONTRACT_STATE" "/contract" [("required", .str "FROZEN")])
  let root := context.currentClaim? (idText context.snapshot.rootClaimId)
  let rooted := match root, context.snapshot.contract? with
    | some root, some contract => isContractRoot root contract
    | _, _ => false
  rejectIf (!rooted)
    (refuse .evidenceScopeMismatch "OBJECT_SCOPE" "/root_claim_id"
      [("required", .str "ACTIVE_CANONICAL_CONTRACT_ROOT")])
  rejectIf (!context.snapshot.artifactCommitted p.literaturePlanArtifactId)
    (refuse .artifactMissing "LITERATURE_PLAN" "/command/payload/literature_plan_artifact_id")
  rejectIf (!budgetLimitsValid p.budgetPolicy)
    (refuse .budgetDenied "BUDGET_POLICY" "/command/payload/budget_policy")
  return [.setRunStatus .running none]

/-- The approval roles that a change of the contract needs. -/
def amendmentRoles (old new : JsonObject) : List String :=
  let changed (keys : List String) : Bool := keys.any fun key => !(old.get key).eqv (new.get key)
  let semantic := changed ["definitions", "boundary_rules", "randomness_rules", "tie_rules"]
  let peer := changed ["quantifiers", "objects", "allowed_dependencies", "forbidden_information",
    "success_certificate_types"]
  let all := changed ["stable_project_id", "statement", "exact_negation", "non_claims"]
  ["CONTRACT_OWNER"] ++ (if peer || all then ["PEER_REVIEWER"] else []) ++
    (if semantic || all then ["SEMANTIC_REVIEWER"] else []) ++
    (if all then ["USER_APPROVER"] else [])

/-- The roles in which reviews of the current version approve an amendment. -/
def approvedRoles (approvals : List Id) : List String :=
  (approvals.filterMap context.snapshot.review?).filterMap fun review =>
    if review.contractVersion == context.version && review.verdict == .accept &&
        (review.checklist.get "amendment_approved").isTrue then
      some ((review.checklist.get "amendment_role").toText context.platform)
    else none

def payloadPath (field : String) : String := "/command/payload/" ++ field

/-- `AmendContract`: a changed contract replaces a defective one, with the approvals it needs. -/
def handleAmendContract (p : AmendContract) : Decision := do
  let contract ← orReject
    (context.snapshot.contract?.filter fun contract =>
      contract.status == .defectProposed && p.baseVersion == context.version)
    (refuse .contractDefective "CONTRACT_STATE" "/command/payload/base_version"
      [("required", .str "DEFECT_PROPOSED_CURRENT")])
  let missing := ([("patch_artifact_id", p.patchArtifactId),
    ("impact_analysis_artifact_id", p.impactAnalysisArtifactId)].filter fun artifact =>
      !context.snapshot.artifactCommitted artifact.2).map fun artifact =>
      { code := "ARTIFACT_STATE", path := payloadPath artifact.1 : MissingCondition }
  rejectIf (!missing.isEmpty) (.reject .artifactMissing missing)
  rejectIf ((Json.obj p.replacementContract).eqv (.obj contract.contract))
    (refuse .invalidTransition "CONTRACT_STATE" "/command/payload/replacement_contract"
      [("required", .str "CHANGED")])
  let required := amendmentRoles contract.contract p.replacementContract
  let roles := approvedRoles context p.approvals
  rejectIf (!required.all roles.contains)
    (refuse .capabilityDenied "CONTRACT_OWNER_APPROVAL" "/command/payload/approvals"
      [("required", Json.ofTexts required)])
  let affected := (contract.defectEvidence.map (·.affectedClaimIds)).getD []
  rejectIf affected.isEmpty
    (refuse .evidenceInsufficient "CONTRACT_STATE" "/contract/defect_evidence/affected_claim_ids"
      [("required", .str "NONEMPTY_DEFECT_SEEDS")])
  return [.expireActiveLeases, .pauseActiveAttempts, .supersedeContract context.version,
    .createContractVersion (context.version + 1) p.replacementContract,
    .migrateContractClosure (context.version + 1) affected, .setRunStatus .isOpen none]

/-- `Interrupt`: a running run is paused at a checkpoint. -/
def handleInterrupt (p : Interrupt) : Decision := do
  rejectIf (context.snapshot.status != .running)
    (refuse .invalidTransition "RUN_STATE" "/command/type" [("required", .str "RUNNING")])
  rejectIf (!context.snapshot.artifactCommitted p.checkpointArtifactId)
    (refuse .artifactMissing "CHECKPOINT" "/command/payload/checkpoint_artifact_id")
  return [.expireActiveLeases, .setRunStatus .paused none, .pauseActiveAttempts]

/-- `Resume`: a paused run goes on from the checkpoint of its last interruption. -/
def handleResume (p : Resume) : Decision := do
  rejectIf (context.snapshot.status != .paused || context.snapshot.contractStatus? != some .frozen)
    (refuse .invalidTransition "RUN_STATE" "/command/type"
      [("required", .str "PAUSED_WITH_FROZEN_CONTRACT")])
  let last := context.snapshot.lastInterrupt.map (·.checkpointArtifactId)
  rejectIf
    (!context.snapshot.artifactCommitted p.checkpointArtifactId ||
      last != some p.checkpointArtifactId)
    (refuse .environmentDrift "CHECKPOINT" "/command/payload/checkpoint_artifact_id")
  rejectIf (!p.leasePreflight || !(context.snapshot.activeLeases context.now).isEmpty)
    (refuse .leaseConflict "ACTIVE_LEASE" "/command/payload/lease_preflight")
  rejectIf (!p.budgetPreflight || context.snapshot.budgetFuseTripped)
    (refuse .budgetDenied "BUDGET_POLICY" "/command/payload/budget_preflight")
  return [.setRunStatus .running none]

/-- `ProposeContractDefect`: accepted evidence about affected claims questions the contract. -/
def handleProposeContractDefect (p : ProposeContractDefect) : Decision := do
  rejectIf (context.snapshot.contractStatus? != some .frozen)
    (refuse .invalidTransition "CONTRACT_STATE" "/contract" [("required", .str "FROZEN")])
  rejectIf
    (p.evidenceRefs.isEmpty || p.affectedClaimIds.isEmpty ||
      !context.snapshot.artifactCommitted p.proposedPatchArtifactId)
    (refuse .evidenceInsufficient "CONTRACT_STATE" "/command/payload"
      [("required", .str "EVIDENCE_AFFECTED_CLAIMS_PATCH")])
  rejectIf (p.affectedClaimIds.any fun id => (context.currentClaim? id).isNone)
    (refuse .evidenceScopeMismatch "OBJECT_SCOPE" "/command/payload/affected_claim_ids")
  let supports (item : EvidenceView) : Bool :=
    p.affectedClaimIds.contains item.claimId && item.contractVersion == context.version &&
      (context.snapshot.claim? item.claimId).map (·.statementHash) == some item.statementHash &&
      item.ingestStatus == .accepted
  rejectIf (p.evidenceRefs.any fun id => !((context.snapshot.evidence? id).any supports))
    (refuse .evidenceScopeMismatch "EVIDENCE_SCOPE" "/command/payload/evidence_refs")
  return [.setContractStatus context.version .defectProposed (some p), .setRunStatus .paused none]

/-! ## Finalization -/

/-- Whether the truth of a claim is accepted, by machine or by peers. -/
def claimTruthAccepted (claim : Claim) : Bool :=
  let machinePath :=
    (claim.machineVerdict == .kernelVerified || claim.machineVerdict == .certificateVerified) &&
      (claim.semanticVerdict == .tested || claim.semanticVerdict == .humanAttested) &&
      (claim.closureState == .closedMachine || claim.closureState == .closedHybrid ||
        claim.closureState == .notRequired)
  let peerPath :=
    claim.peerVerdict == .accepted && claim.semanticVerdict == .humanAttested &&
      (claim.closureState == .closedHuman || claim.closureState == .closedHybrid ||
        claim.closureState == .notRequired)
  machinePath || peerPath

/-- Whether a claim is proved along its route. -/
def claimProved (claim : Claim) : Bool :=
  claim.routeResult == .routeProved && claimTruthAccepted claim

/-- Whether accepted evidence says that one of the claims has a counterexample. -/
def disproofExists (claims : List Claim) : Bool :=
  (distinctRows (·.evidenceId) context.snapshot.evidence).any fun item =>
    (claims.map (·.claimId)).contains item.claimId && item.contractVersion == context.version &&
      item.evidenceType == .counterexample && item.evidenceStrength == .hardMachine &&
      item.ingestStatus == .accepted && (item.provenance.get "checker_replay_passed").isTrue &&
      (item.provenance.get "exact_negation_checked").isTrue

/-- Whether an outcome claims authority for the root. -/
def isAuthorityOutcome : Outcome → Bool
  | .proved | .disproved | .previouslyKnown => true
  | _ => false

/-- Whether the terminal claims are the root of the run alone. -/
def rootTerminalIsExact (terminals : List Claim) : Bool :=
  match terminals, context.snapshot.rootClaimId with
  | [terminal], some rootId =>
    rootId != "" && terminal.claimId == rootId && terminal.claimKind == .root
  | _, _ => false

/-- Whether the terminal claims do not support the outcome. -/
def outcomeUnsupported (outcome : Outcome) (terminals : List Claim) : Bool :=
  match outcome with
  | .proved => terminals.isEmpty || terminals.any fun claim => !claimProved claim
  | .disproved => !disproofExists context terminals
  | .routeLocal => terminals.isEmpty || terminals.any fun claim => !claimTruthAccepted claim
  | .previouslyKnown =>
    terminals.isEmpty || terminals.any fun claim => claim.routeResult != .previouslyKnown
  | .contractDefective | .unresolved => false

/-- `Finalize`: the run is closed with an outcome that its terminal claims support. -/
def handleFinalize (p : Finalize) : Decision := do
  rejectIf (!(context.snapshot.activeLeases context.now).isEmpty)
    (refuse .leaseConflict "ACTIVE_LEASE" "/command/type")
  let actualOpen := context.snapshot.openObligationIds
  rejectIf (!sameSet p.openObligationIds actualOpen)
    (refuse .terminalClaimUnsupported "OPEN_OBLIGATION" "/command/payload/open_obligation_ids"
      [("expected", Json.ofTexts (sortedSet actualOpen))])
  let path := "/command/payload/terminal_claim_ids"
  let terminals ← orReject (p.terminalClaimIds.mapM context.snapshot.claim?)
    (refuse .terminalClaimUnsupported "TERMINAL_SUPPORT" path)
  rejectIf (isAuthorityOutcome p.outcome && !rootTerminalIsExact context terminals)
    (refuse .terminalClaimUnsupported "TERMINAL_SUPPORT" path
      [("required_root_claim_id", Json.ofText? context.snapshot.rootClaimId)])
  rejectIf (outcomeUnsupported context p.outcome terminals)
    (refuse .terminalClaimUnsupported "TERMINAL_SUPPORT" path
      [("outcome", .str p.outcome.wire)])
  rejectIf
    (p.outcome == .contractDefective &&
      context.snapshot.contractStatus? != some .defectProposed)
    (refuse .terminalClaimUnsupported "CONTRACT_STATE" "/command/payload/outcome"
      [("required", .str "MANAGED_DEFECT_APPROVAL_RECEIPT")])
  return [.setRunStatus .closed (some p.outcome), .createDossier]

end Guard

end ResearchKernel
