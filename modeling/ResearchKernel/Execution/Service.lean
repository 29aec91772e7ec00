import ResearchKernel.Kernel

/-!
# The service of the host

The storage lets a receipt be consumed by whoever brings its signature and its payload.
The service of the host reads both from the stored receipt, checks the signature and what
the payload says about the execution, and only then asks the storage to consume it. A
replay of a proof and the certificate of a checker carry different verdicts.
-/

namespace ResearchKernel

open Foundation

/-- A service of the host. -/
structure HostService where
  key : List ℕ
  capability : VerifiedCapability
  profiles : List (String × JsonObject)
  revokedCapabilityIds : List Id := []
  /-- The digest of the dependencies of a profile, unless their files are not the pinned
  ones. -/
  dependencyClosureDigest : JsonObject → Option (Option Digest)

/-- The columns of a receipt that its payload repeats. The digests of the environment, the
mounts, the process, the tools and the input snapshot are compared as well; no table here
has them. -/
def HostReceipt.signedColumns (receipt : HostReceipt) : JsonObject :=
  [("receipt_id", .str receipt.receiptId), ("receipt_nonce", .str receipt.receiptNonce),
    ("service_instance_id", .str receipt.serviceInstanceId), ("run_id", .str receipt.runId),
    ("route_id", .str receipt.routeId), ("attempt_id", .str receipt.attemptId),
    ("binding_id", .str receipt.bindingId), ("claim_id", .str receipt.claimId),
    ("contract_version", .int receipt.contractVersion),
    ("statement_hash", .str receipt.statementHash),
    ("environment_profile_id", .str receipt.environmentProfileId),
    ("adapter_name", .str receipt.adapterName), ("adapter_version", .str receipt.adapterVersion),
    ("source_commit", Json.ofText? receipt.sourceCommit),
    ("toolchain", Json.ofText? receipt.toolchain),
    ("binary_sha256", Json.ofText? receipt.binarySha256),
    ("request_hash", .str receipt.requestHash), ("result_hash", .str receipt.resultHash),
    ("source_sha256", Json.ofText? receipt.sourceSha256),
    ("output_sha256", Json.ofText? receipt.outputSha256), ("status", .str receipt.status),
    ("exit_code", match receipt.exitCode with
      | some code => .int code
      | none => .null),
    ("wall_time_ms", .int receipt.wallTimeMs),
    ("dependency_closure_digest", Json.ofText? receipt.dependencyClosureDigest)]

/-- Whether a value is an array of texts, and which. -/
def texts? (value : Json) : Option (List String) :=
  value.sequence?.bind fun items => items.mapM Json.text?

/-- Whether an execution has completed without an error. -/
def completed (result : JsonObject) : Bool :=
  (result.get "status").isText "COMPLETED" && (result.get "exit_code").eqv (.int 0)

/-- The types of the declarations of a replay, if each belongs to the target. -/
def declarationTypes? (declarations : JsonObject) : Option JsonObject :=
  declarations.mapM fun declaration => do
    let fields ← declaration.2.mapping?
    require ((fields.get "owner").isText "target_module")
    let type ← (fields.get "type").text?
    require (type != "")
    return (declaration.1, .str type)

/-- Whether a replay has bound the types of the declarations that the profile expects. -/
def declarationsBound (P : Platform) (profile result : JsonObject) : Bool :=
  match (result.get "declaration_audit").mapping?, (result.get "declaration_type_digest").text?,
    (profile.get "expected_declaration_types").mapping? with
  | some declarations, some digest, some expected =>
    !declarations.isEmpty && digest.length == 64 && !expected.isEmpty &&
      expected.all (fun entry => entry.2.text?.isSome) &&
      (result.get "declaration_module").eqv (profile.get "expected_declaration_module") &&
      (declarationTypes? declarations).any (fun types => (Json.obj types).eqv (.obj expected)) &&
      P.sha256 (dumps (.obj declarations)) == digest
  | _, _, _ => false

/-- What a result says about the claim; none when it is no authority. -/
def authorityResult (P : Platform) (adapterName : String) (profile result : JsonObject) :
    Option JsonObject := do
  if adapterName != "lean-replay" then
    if (profile.get "authority_mode").isText "CHECKER_CERTIFICATE" then
      require ((profile.get "capability_kind").isText "SMT" ||
        (profile.get "capability_kind").isText "EXACT_ENUMERATION")
      require (completed result)
      require ((result.get "payload").eqv (profile.get "expected_result"))
      require ((result.get "trust_limit").isText "HOST_CHECKED_CERTIFICATE")
      return [("kernel_verdict", .str "CERTIFICATE_PASS"), ("axiom_dependencies", .arr [])]
    else
      return []
  else
    require (completed result)
    require ((result.get "execution_mode").isText "reproducible/authoritative")
    require ((result.get "kernel_verdict").isText "REPLAY_PASS")
    let axioms ← texts? (result.get "axiom_dependencies")
    let allowed ← texts? (profile.get "allowed_axioms")
    require (axioms.all allowed.contains)
    require ((result.get "source_sha256").text?.isSome && (result.get "output_sha256").text?.isSome)
    require (declarationsBound P profile result)
    return [("kernel_verdict", .str "REPLAY_PASS"),
      ("execution_mode", .str "reproducible/authoritative"),
      ("axiom_dependencies", Json.ofTexts (axioms.insertionSort (· ≤ ·))),
      ("declaration_audit", result.get "declaration_audit"),
      ("declaration_module", result.get "declaration_module"),
      ("declaration_type_digest", result.get "declaration_type_digest")]

namespace HostService

-- `loads` is `json.loads`, as far as it gives objects.
variable (P : Platform) (loads : List Char → Option JsonObject) (service : HostService) (db : Db)

/-- The stored receipt and its payload, when the receipt is signed by the service. -/
def verifyReceipt (receiptId : Id) : Option (HostReceipt × JsonObject) := do
  let receipt ← db.hostReceipts.find? (·.receiptId == receiptId)
  let payload ← loads receipt.payloadText
  require (P.hmacSha256 service.key (dumps (.obj payload)) == receipt.signature)
  require (receipt.signedColumns.all fun column => column.2.eqv (payload.get column.1))
  require ((Json.obj receipt.providerUsage).eqv (payload.get "provider_usage"))
  return (receipt, payload)

/-- Whether the capability of the service is good for a run at a time. -/
def capabilityValid (runId : Id) (now : Instant) : Bool :=
  service.capability.allows "HostExecute" (some runId) &&
    !service.revokedCapabilityIds.contains service.capability.capabilityId &&
    service.capability.issuedAt.any (fun issued => decide (issued ≤ now)) &&
    service.capability.expiresAt.any (fun expires => decide (now < expires))

/-- The operation by which the service consumes the receipt of a Lean replay. -/
def consumeLeanReplay (receiptId feedbackId : Id) (ledger : LedgerIds) : Option Op := do
  let (receipt, payload) ← service.verifyReceipt P loads db receiptId
  require (service.capabilityValid ((payload.get "run_id").toText P) ledger.now)
  require (receipt.adapterName == "lean-replay")
  let verifier ← service.profiles.lookup "lean-replay"
  require ((Json.ofText? receipt.dependencyClosureDigest).eqv
    (verifier.get "dependency_closure_sha256"))
  let closure ← service.dependencyClosureDigest verifier
  require (closure == receipt.dependencyClosureDigest)
  let _ ← authorityResult P "lean-replay" verifier payload
  return .consumeHostLeanReceipt service.capability
    { receiptId := receiptId
      ledger := ledger
      expectedSignature := receipt.signature
      expectedPayload := dumps (.obj payload) } feedbackId
    ((verifier.getOr "toolchain" (.str "")).toText P)

/-- The operation by which the service consumes the receipt of a checker. -/
def consumeCheckerResult (receiptId verificationId : Id) (ledger : LedgerIds) : Option Op := do
  let (receipt, payload) ← service.verifyReceipt P loads db receiptId
  require (service.capabilityValid ((payload.get "run_id").toText P) ledger.now)
  let verifier ← service.profiles.lookup receipt.adapterName
  require ((verifier.get "authority_mode").isText "CHECKER_CERTIFICATE")
  require ((payload.get "kernel_verdict").isText "CERTIFICATE_PASS")
  return .consumeHostCheckerReceipt service.capability
    { receiptId := receiptId
      ledger := ledger
      expectedSignature := receipt.signature
      expectedPayload := dumps (.obj payload) } verificationId
    (if (verifier.get "capability_kind").isText "EXACT_ENUMERATION" then .enumeration
      else .checker)

end HostService

/-- Whether an operation consumes a receipt. -/
def Op.isConsumption : Op → Bool
  | .consumeHostLeanReceipt .. | .consumeHostCheckerReceipt .. => true
  | _ => false

/-- A service issues the operation from what it reads in the given state. -/
inductive Issued (P : Platform) (loads : List Char → Option JsonObject) (db : Db) : Op → Prop
  | lean (service : HostService) (receiptId feedbackId : Id) (ledger : LedgerIds) (op : Op)
      (issued : service.consumeLeanReplay P loads db receiptId feedbackId ledger = some op) :
      Issued P loads db op
  | checker (service : HostService) (receiptId verificationId : Id) (ledger : LedgerIds) (op : Op)
      (issued : service.consumeCheckerResult P loads db receiptId verificationId ledger = some op) :
      Issued P loads db op

/-- Every receipt is consumed by a service, which has read it in an earlier state of the run. -/
def ServedBy (P : Platform) (policy : Policy) (loads : List Char → Option JsonObject)
    (ops : List Op) : Prop :=
  ∀ before op after, ops = before ++ op :: after → op.isConsumption = true →
    ∃ early late, before = early ++ late ∧ Issued P loads (reached P policy early) op

def HostReceipt.kernelVerdict (loads : List Char → Option JsonObject) (receipt : HostReceipt) :
    Option String :=
  (loads receipt.payloadText).bind fun payload => (payload.get "kernel_verdict").text?

section Issuing

variable {P : Platform} {loads : List Char → Option JsonObject} {service : HostService} {db : Db}
  {receiptId : Id} {ledger : LedgerIds} {op : Op}

variable {receipt : HostReceipt}

/-- A verified receipt is stored, and its payload is the stored one. -/
theorem verifyReceipt_eq_some {payload : JsonObject}
    (h : service.verifyReceipt P loads db receiptId = some (receipt, payload)) :
    receipt ∈ db.hostReceipts ∧ receipt.receiptId = receiptId ∧
      loads receipt.payloadText = some payload := by
  obtain ⟨found, hfound, h⟩ := Option.bind_eq_some_iff.mp h
  obtain ⟨read, hread, h⟩ := Option.bind_eq_some_iff.mp h
  obtain ⟨⟨⟩, -, h⟩ := Option.bind_eq_some_iff.mp h
  obtain ⟨⟨⟩, -, h⟩ := Option.bind_eq_some_iff.mp h
  obtain ⟨⟨⟩, -, h⟩ := Option.bind_eq_some_iff.mp h
  cases Option.some.inj h
  exact ⟨List.mem_of_find?_eq_some hfound, by simpa using List.find?_some hfound, hread⟩

theorem replayPass_of_authorityResult {profile result authority : JsonObject}
    (h : authorityResult P "lean-replay" profile result = some authority) :
    result.get "kernel_verdict" = .str "REPLAY_PASS" := by
  unfold authorityResult at h
  obtain ⟨⟨⟩, -, h⟩ := Option.bind_eq_some_iff.mp h
  obtain ⟨⟨⟩, -, h⟩ := Option.bind_eq_some_iff.mp h
  obtain ⟨⟨⟩, hverdict, -⟩ := Option.bind_eq_some_iff.mp h
  rwa [require_eq_some, Json.isText_iff] at hverdict

/-- A receipt with a verdict that a service has read. -/
theorem kernelVerdict_of_get {payload : JsonObject} {verdict : String}
    (hread : loads receipt.payloadText = some payload)
    (hverdict : payload.get "kernel_verdict" = .str verdict) :
    receipt.kernelVerdict loads = some verdict := by
  unfold HostReceipt.kernelVerdict
  rw [hread, Option.bind_some, hverdict]
  rfl

variable {feedbackId : Id}

/-- What a service issues for a replay, and for which receipts. -/
theorem consumeLeanReplay_eq_some
    (h : service.consumeLeanReplay P loads db receiptId feedbackId ledger = some op) :
    ∃ receipt ∈ db.hostReceipts, receipt.receiptId = receiptId ∧
      receipt.kernelVerdict loads = some "REPLAY_PASS" ∧
      ∃ signature payload toolchain, op = .consumeHostLeanReceipt service.capability
        ⟨receiptId, ledger, signature, payload⟩ feedbackId toolchain := by
  obtain ⟨⟨receipt, payload⟩, hverified, h⟩ := Option.bind_eq_some_iff.mp h
  obtain ⟨⟨⟩, -, h⟩ := Option.bind_eq_some_iff.mp h
  obtain ⟨⟨⟩, -, h⟩ := Option.bind_eq_some_iff.mp h
  obtain ⟨verifier, -, h⟩ := Option.bind_eq_some_iff.mp h
  obtain ⟨⟨⟩, -, h⟩ := Option.bind_eq_some_iff.mp h
  obtain ⟨closure, -, h⟩ := Option.bind_eq_some_iff.mp h
  obtain ⟨⟨⟩, -, h⟩ := Option.bind_eq_some_iff.mp h
  obtain ⟨authority, hauthority, h⟩ := Option.bind_eq_some_iff.mp h
  obtain ⟨hmem, hid, hread⟩ := verifyReceipt_eq_some hverified
  have hverdict := replayPass_of_authorityResult hauthority
  exact ⟨receipt, hmem, hid, kernelVerdict_of_get hread hverdict, _, _, _,
    (Option.some.inj h).symm⟩

variable {verificationId : Id}

/-- What a service issues for a check, and for which receipts. -/
theorem consumeCheckerResult_eq_some
    (h : service.consumeCheckerResult P loads db receiptId verificationId ledger = some op) :
    ∃ receipt ∈ db.hostReceipts, receipt.receiptId = receiptId ∧
      receipt.kernelVerdict loads = some "CERTIFICATE_PASS" ∧
      ∃ signature payload rootKind, op = .consumeHostCheckerReceipt service.capability
        ⟨receiptId, ledger, signature, payload⟩ verificationId rootKind := by
  obtain ⟨⟨receipt, payload⟩, hverified, h⟩ := Option.bind_eq_some_iff.mp h
  obtain ⟨⟨⟩, -, h⟩ := Option.bind_eq_some_iff.mp h
  obtain ⟨verifier, -, h⟩ := Option.bind_eq_some_iff.mp h
  obtain ⟨⟨⟩, -, h⟩ := Option.bind_eq_some_iff.mp h
  obtain ⟨⟨⟩, hverdict, h⟩ := Option.bind_eq_some_iff.mp h
  rw [require_eq_some, Json.isText_iff] at hverdict
  obtain ⟨hmem, hid, hread⟩ := verifyReceipt_eq_some hverified
  exact ⟨receipt, hmem, hid, kernelVerdict_of_get hread hverdict, _, _, _,
    (Option.some.inj h).symm⟩

variable {capability : VerifiedCapability}

/-- A service consumes a receipt as a replay only if it has the verdict of one. -/
theorem issued_lean {use : ReceiptUse} {toolchain : String}
    (h : Issued P loads db (.consumeHostLeanReceipt capability use feedbackId toolchain)) :
    ∃ receipt ∈ db.hostReceipts, receipt.receiptId = use.receiptId ∧
      receipt.kernelVerdict loads = some "REPLAY_PASS" := by
  cases h with
  | lean service receiptId _ ledger _ issued =>
    obtain ⟨receipt, hmem, hid, hverdict, signature, payload, toolchain, heq⟩ :=
      consumeLeanReplay_eq_some issued
    cases heq
    exact ⟨receipt, hmem, hid, hverdict⟩
  | checker service receiptId _ ledger _ issued =>
    obtain ⟨-, -, -, -, signature, payload, rootKind, heq⟩ := consumeCheckerResult_eq_some issued
    cases heq

/-- A service consumes a receipt as a check only if it has the verdict of one. -/
theorem issued_checker {use : ReceiptUse} {rootKind : RootKind}
    (h : Issued P loads db (.consumeHostCheckerReceipt capability use verificationId rootKind)) :
    ∃ receipt ∈ db.hostReceipts, receipt.receiptId = use.receiptId ∧
      receipt.kernelVerdict loads = some "CERTIFICATE_PASS" := by
  cases h with
  | lean service receiptId _ ledger _ issued =>
    obtain ⟨-, -, -, -, signature, payload, toolchain, heq⟩ := consumeLeanReplay_eq_some issued
    cases heq
  | checker service receiptId _ ledger _ issued =>
    obtain ⟨receipt, hmem, hid, hverdict, signature, payload, rootKind, heq⟩ :=
      consumeCheckerResult_eq_some issued
    cases heq
    exact ⟨receipt, hmem, hid, hverdict⟩

end Issuing

end ResearchKernel
