import ResearchKernel.Foundation.Runs
import ResearchKernel.Guard.Decide
import ResearchKernel.Host

/-!
# The kernel

Requests and host operations as one deterministic machine over the database. What the
environment decides (the time, new identifiers, the result of inspecting files, the file
of a dossier) is part of an operation, so a run of the machine is a list of operations.
An operation that raises leaves behind at most the facts of its capability.
-/

namespace ResearchKernel

open Foundation

/-- The result of inspecting the files of a request. -/
inductive Inspection where
  | passed
  | refused (quarantined : Bool) (findings : List String)

/-- A request to apply a command, with what the environment decides. -/
structure ApplyOp where
  request : ApplyRequest
  capability : VerifiedCapability
  /-- The digest of the request on the wire. -/
  digest : Digest
  now : Instant
  inspection : Inspection
  commandId : Id
  eventId : Id
  /-- The identifiers of the staged files, in the order of the request. -/
  stagedIds : List Id
  /-- The identifier of the file that the kernel writes itself. -/
  generatedId : Id
  /-- The dossier that is built for a finalized run; none when building it raises. -/
  dossier : Option CommittedFile
  newId : ℕ → Id

/-- A time as it is recorded, in whole milliseconds. -/
def recordedTime (now : Instant) : Instant := now / 1000 * 1000

/-- What a guard knows about a request. -/
def ApplyOp.guardContext (op : ApplyOp) (P : Platform) (policy : Policy) (snapshot : Snapshot) :
    GuardContext where
  platform := P
  policy := policy
  capability := op.capability
  now := op.now
  snapshot := snapshot
  inputNames := op.request.artifactInputs.map (·.name)

/-- Whether a command asks for raw artifacts in the dossier, which is not supported. -/
def wantsRawArtifacts : Command → Bool
  | .finalize p => (p.dossierSpec.get "include_raw_artifacts").truthy
  | _ => false

/-- The decision on a request. -/
def ApplyOp.decide (op : ApplyOp) (P : Platform) (policy : Policy) (snapshot : Snapshot) :
    Decision :=
  match op.inspection with
  | .refused quarantined findings => .error (refuse
      (if quarantined then .secretQuarantined else .ingestSchemaInvalid) "INGEST_POLICY"
      "/artifact_inputs" [("findings", Json.ofTexts findings)])
  | .passed => do
    let mutations ← Guard.decide (op.guardContext P policy snapshot) op.request.command
      op.request.expectedRevision
    rejectIf (wantsRawArtifacts op.request.command)
      (refuse .temporarilyUnavailable "IMPLEMENTATION_SLICE"
        "/command/payload/dossier_spec/include_raw_artifacts" [("supported", .bool false)])
    return mutations

/-! ## Files of an accepted command -/

/-- Store the files of a request under names that carry the revision. -/
def Db.storeApplyInputs (runId : Id) (revision : ℕ) :
    List (String × CommittedFile) → Db → List (String × Id) → Option (Db × List (String × Id))
  | [], db, named => some (db, named)
  | (name, file) :: rest, db, named => do
    let (db, artifactId) ← db.storeFile runId file (name ++ "@r" ++ toString revision) .applyInput
    storeApplyInputs runId revision rest db (setKey name artifactId named)

/-- The file that the kernel writes for a command, with its name and role. -/
def ApplyOp.generatedFile (op : ApplyOp) (P : Platform) (snapshot : Snapshot) :
    Option (Option (CommittedFile × String × ArtifactRole)) :=
  let revision := toString (snapshot.revision + 1)
  match op.request.command with
  | .submitClosureWitness p => do
    let text ← Wire.canonicalJsonBytes P (.obj p.selectedSubgraph)
    return some (.ofText P op.generatedId text, "selected_subgraph@r" ++ revision, .closureGraph)
  | .amendContract p => do
    let text ← Wire.canonicalJsonBytes P (.obj p.replacementContract)
    return some (.ofText P op.generatedId text,
      "contract.v" ++ toString (snapshot.currentContractVersion + 1), .contract)
  | .finalize _ => do
    let file ← op.dossier
    return some (file, "final_dossier@r" ++ revision, .dossier)
  | _ => some none

/-- Store the file that the kernel writes for a command. -/
def ApplyOp.storeGenerated (op : ApplyOp) (P : Platform) (snapshot : Snapshot) (db : Db) :
    Option (Db × Option Id) := do
  match ← op.generatedFile P snapshot with
  | none => return (db, none)
  | some (file, name, role) =>
    let (db, artifactId) ← db.storeFile op.request.runId file name role
    return (db, some artifactId)

/-! ## The ledger row of a request -/

/-- The ledger row of a decided request. -/
def ApplyOp.commandRow (op : ApplyOp) (snapshot : Snapshot) (accepted : Bool)
    (artifactIds : List Id) (rejectionCode : Option RejectionCode)
    (conditions : List MissingCondition) : CommandRow :=
  let revisionAfter := if accepted then snapshot.revision + 1 else snapshot.revision
  { commandId := op.commandId
    runId := op.request.runId
    requestId := op.request.requestId
    requestDigest := op.digest
    expectedRevision := op.request.expectedRevision
    capabilityId := op.capability.capabilityId
    accepted := accepted
    revisionBefore := snapshot.revision
    revisionAfter := revisionAfter
    rejectionCode := rejectionCode
    missingConditions := conditions
    receipt :=
      { requestId := op.request.requestId
        commandId := op.commandId
        runId := op.request.runId
        accepted := accepted
        revisionBefore := snapshot.revision
        revisionAfter := revisionAfter
        eventIds := if accepted then [op.eventId] else []
        artifactIds := artifactIds
        rejectionCode := rejectionCode
        missingConditions := conditions
        decidedAt := recordedTime op.now }
    decidedAt := recordedTime op.now }

/-- The context in which the mutations of a request are projected. -/
def ApplyOp.projectionContext (op : ApplyOp) (P : Platform) (snapshot : Snapshot)
    (named : List (String × Id)) (generated : Option Id) : ProjectionContext where
  platform := P
  runId := op.request.runId
  commandId := op.commandId
  revision := snapshot.revision + 1
  contractVersion := snapshot.currentContractVersion
  capabilityId := op.capability.capabilityId
  recordedAt := recordedTime op.now
  artifactsByName := named
  generatedArtifactId := generated
  newId := op.newId

/-- Carry out an accepted request. -/
def ApplyOp.accept (op : ApplyOp) (P : Platform) (snapshot : Snapshot) (mutations : List Mutation)
    (db : Db) : Option Db := do
  let runId := op.request.runId
  let files := (op.stagedIds.zip op.request.artifactInputs).map fun staged =>
    (staged.2.name, CommittedFile.ofInput staged.1 staged.2)
  let (db, named) ← Db.storeApplyInputs runId (snapshot.revision + 1) files db []
  let (db, generated) ← op.storeGenerated P snapshot db
  let artifactIds := sortedSet (named.map Prod.snd ++ generated.toList)
  let db ← db.recordCommand (op.commandRow snapshot true artifactIds none [])
  let db ← db.appendEvent
    { eventId := op.eventId
      runId := runId
      commandId := op.commandId
      revision := snapshot.revision + 1
      command := some op.request.command
      contractVersion :=
        some (op.request.command.contractVersion?.getD snapshot.currentContractVersion) }
  let db ← Projection.apply (op.projectionContext P snapshot named generated) mutations db
  db.advanceRevision runId op.request.expectedRevision

/-- How the transaction of a request ends. -/
inductive ApplyResult where
  /-- An exception; the transaction is rolled back. -/
  | raised
  /-- The request was already decided. -/
  | repeated
  /-- The request is rejected. -/
  | rejected (db : Db)
  /-- The request is accepted and its mutations are projected. -/
  | accepted (mutations : List Mutation) (db : Db)

/-- The transaction of a request. -/
def ApplyOp.transaction (op : ApplyOp) (P : Platform) (policy : Policy) (db : Db) : ApplyResult :=
  match db.findCommand op.request.runId op.request.requestId with
  | some previous => if previous.requestDigest == op.digest then .repeated else .raised
  | none =>
    match db.guardSnapshot op.request.runId with
    | none => .raised
    | some snapshot =>
      match op.decide P policy snapshot with
      | .error .raised => .raised
      | .error (.reject code conditions) =>
        match db.recordCommand (op.commandRow snapshot false [] (some code) conditions) with
        | none => .raised
        | some db => .rejected db
      | .ok mutations =>
        match op.accept P snapshot mutations db with
        | none => .raised
        | some db => .accepted mutations db

/-- The outcome of `apply` and the database in which its transaction began. -/
def ApplyOp.run (op : ApplyOp) (P : Platform) (policy : Policy) (db : Db) : Db × ApplyResult :=
  if op.capability.allows op.request.command.type (some op.request.runId) then
    match db.ensureCapability op.capability with
    | none => (db, .raised)
    | some db => (db, op.transaction P policy db)
  else (db, .raised)

/-- The database after a request. -/
def ApplyOp.apply (op : ApplyOp) (P : Platform) (policy : Policy) (db : Db) : Db :=
  match op.run P policy db with
  | (_, .accepted _ after) => after
  | (_, .rejected after) => after
  | (before, _) => before

/-! ## The machine -/

/-- A request to create a run, with what the environment decides. -/
structure CreateOp where
  request : CreateRequest
  capability : VerifiedCapability
  digest : Digest
  now : Instant
  inspection : Inspection
  runId : Id
  contractId : Id
  stagedIds : List Id

/-- The run that a request creates. -/
def CreateOp.newRun (op : CreateOp) (P : Platform) (text : List Char) : NewRun where
  runId := op.runId
  stableProjectId := (op.request.contract.get "stable_project_id").toText P
  createIssuer := op.capability.issuer
  createRequestId := op.request.requestId
  createRequestDigest := op.digest
  contractFile := .ofText P op.contractId text
  additionalFiles := (op.stagedIds.zip op.request.artifactInputs).map fun staged =>
    (staged.2.name, CommittedFile.ofInput staged.1 staged.2)
  contract := op.request.contract
  createdAt := recordedTime op.now

/-- The database after a request to create a run. -/
def CreateOp.apply (op : CreateOp) (P : Platform) (db : Db) : Db :=
  match op.inspection, Wire.canonicalJsonBytes P (.obj op.request.contract) with
  | .passed, some text =>
    if op.capability.allows "create" none &&
        !db.runs.any fun run => run.createIssuer == op.capability.issuer &&
          run.createRequestId == op.request.requestId then
      match db.ensureCapability op.capability with
      | none => db
      | some db => (db.createRunAtomic (op.newRun P text)).getD db
    else db
  | _, _ => db

/-- A request to keep a document with a run. -/
structure ImportOp where
  runId : Id
  capability : VerifiedCapability
  file : CommittedFile
  logicalName : String
  role : ArtifactRole

/-- The transaction of an imported document. -/
def ImportOp.transaction (op : ImportOp) (db : Db) : Option Db := do
  let _ ← db.run? op.runId
  let (db, _) ← db.storeFile op.runId op.file op.logicalName op.role
  return db

/-- The operations of the machine. -/
inductive Op where
  | create (op : CreateOp)
  | apply (op : ApplyOp)
  | importArtifact (op : ImportOp)
  | recordComponentUsage (capability : VerifiedCapability) (report : ComponentUsage)
  | claimHostExecution (capability : VerifiedCapability) (request : HostClaimRequest)
  | recordHostExecution (capability : VerifiedCapability) (record : HostRecord)
  | heartbeatHostExecution (claimToken : Id) (serviceInstanceId : String)
      (now recoverAfter : Instant)
  | recoverIncompleteHostClaims (capability : VerifiedCapability) (now : Instant)
      (claimToken : Option Id) (force : Bool)
  | consumeHostLeanReceipt (capability : VerifiedCapability) (use : ReceiptUse) (feedbackId : Id)
      (toolchain : String)
  | consumeHostCheckerReceipt (capability : VerifiedCapability) (use : ReceiptUse)
      (verificationId : Id) (rootKind : RootKind)

/-- An operation of the host: its capability is stored first, then its transaction runs.
The database stays as it was before the transaction when that raises. -/
def Db.withCapability (db : Db) (allowed : Bool) (capability : VerifiedCapability)
    (transaction : Db → Option Db) : Db :=
  if allowed then
    match db.ensureCapability capability with
    | none => db
    | some db => (transaction db).getD db
  else db

/-- One operation of the kernel. -/
def step (P : Platform) (policy : Policy) (db : Db) : Op → Db
  | .create op => op.apply P db
  | .apply op => op.apply P policy db
  | .importArtifact op =>
    db.withCapability (op.capability.allows "SubmitEvidence" (some op.runId)) op.capability
      op.transaction
  | .recordComponentUsage capability report =>
    db.withCapability (capability.allows "RecordComponentUsage" (some report.runId)) capability
      fun db => db.recordComponentUsage P capability report
  | .claimHostExecution capability request =>
    db.withCapability (capability.allows "HostExecute" (some request.scope.runId)) capability
      fun db => db.claimHostExecution request
  | .recordHostExecution capability record =>
    db.withCapability (capability.allows "HostExecute" (some record.scope.runId)) capability
      fun db => db.recordHostExecution P capability record
  | .heartbeatHostExecution claimToken serviceInstanceId now recoverAfter =>
    db.heartbeatHostExecution claimToken serviceInstanceId now recoverAfter
  | .recoverIncompleteHostClaims capability now claimToken force =>
    db.withCapability true capability
      fun db => db.recoverIncompleteHostClaims P capability now claimToken force
  | .consumeHostLeanReceipt capability use feedbackId toolchain =>
    db.withCapability true capability
      fun db => db.consumeHostLeanReceipt P capability use feedbackId toolchain
  | .consumeHostCheckerReceipt capability use verificationId rootKind =>
    db.withCapability true capability
      fun db => db.consumeHostCheckerReceipt P capability use verificationId rootKind

/-- The database that a list of operations reaches from the empty one. -/
def reached (P : Platform) (policy : Policy) (ops : List Op) : Db :=
  runFrom (step P policy) Db.empty ops

end ResearchKernel
