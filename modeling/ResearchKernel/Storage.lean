import Mathlib.Algebra.GroupWithZero.Nat
import ResearchKernel.Canonical
import ResearchKernel.Snapshot

/-!
# The ledger and the artifacts

What every writer of the database shares: the capabilities it has seen, the artifacts of
the content store and their links to runs, the ledger of commands and events, and the
revision of a run. A conflict is none and ends the transaction.
-/

namespace ResearchKernel

open Foundation

/-! ## Capabilities -/

/-- The facts of a capability that are stored. -/
def VerifiedCapability.facts (capability : VerifiedCapability) : CapabilityRow where
  capabilityId := capability.capabilityId
  subjectId := capability.subjectId
  issuer := capability.issuer
  allowedActions := sortedSet capability.allowedActions
  runScope := sortedSet capability.runScope
  issuedAt := capability.issuedAt
  expiresAt := capability.expiresAt

/-- The path of a file in the content store. -/
def relpathForDigest (digest : Digest) : String :=
  String.ofList (digest.toList.take 2) ++ "/" ++
    String.ofList ((digest.toList.drop 2).take 2) ++ "/" ++ digest

/-- A file as the content store holds it, before the database knows it. -/
structure CommittedFile where
  artifactId : Id
  sha256 : Digest
  byteCount : ℕ
  mediaType : String

def CommittedFile.row (file : CommittedFile) : Artifact where
  artifactId := file.artifactId
  sha256 := file.sha256
  byteCount := file.byteCount
  mediaType := file.mediaType
  casRelpath := relpathForDigest file.sha256
  ingestState := .committed

/-- A file that holds a text. -/
def CommittedFile.ofText (P : Platform) (artifactId : Id) (text : List Char) : CommittedFile where
  artifactId := artifactId
  sha256 := P.sha256 text
  byteCount := (text.map Char.utf8Size).sum
  mediaType := "application/json"

/-- A file that came with a request, under the identifier it got when it was staged. -/
def CommittedFile.ofInput (artifactId : Id) (input : ArtifactInput) : CommittedFile where
  artifactId := artifactId
  sha256 := input.sha256
  byteCount := input.byteCount
  mediaType := input.mediaType

namespace Db

variable (db : Db)

/-- Store the facts of a capability; the same identifier may not come with other facts. -/
def ensureCapability (capability : VerifiedCapability) : Option Db :=
  match db.capabilities.find? (·.capabilityId == capability.capabilityId) with
  | none => some { db with capabilities := db.capabilities ++ [capability.facts] }
  | some known => do
    require (known == capability.facts)
    return db

/-! ## Artifacts -/

/-- Insert a file unless its content is known, and give the row that stands for it. -/
def insertArtifact (file : CommittedFile) : Option (Db × Artifact) := do
  let artifacts :=
    if db.artifacts.any (file.row.clash ·) then db.artifacts else db.artifacts ++ [file.row]
  let row ← artifacts.find? fun row =>
    row.artifactId == file.artifactId || row.sha256 == file.sha256
  require (row.sha256 == file.sha256 && row.byteCount == file.byteCount &&
    row.mediaType == file.mediaType && row.casRelpath == relpathForDigest file.sha256)
  return ({ db with artifacts := artifacts }, row)

/-- Link an artifact to a run under a name that stands for it alone. -/
def linkArtifact (runId artifactId : Id) (logicalName : String) (role : ArtifactRole) :
    Option Db :=
  match db.runArtifacts.find? fun link =>
    link.runId == runId && link.logicalName == logicalName with
  | none => some { db with
      runArtifacts := db.runArtifacts ++
        [{ runId := runId, artifactId := artifactId, logicalName := logicalName, role := role }] }
  | some link => do
    require (link.artifactId == artifactId && link.role == role)
    return db

/-- Insert a file and link it to a run; the identifier of the artifact comes back. -/
def storeFile (runId : Id) (file : CommittedFile) (logicalName : String) (role : ArtifactRole) :
    Option (Db × Id) := do
  let (db, row) ← db.insertArtifact file
  let db ← db.linkArtifact runId row.artifactId logicalName role
  return (db, row.artifactId)

/-! ## The ledger -/

/-- The command with the given request identifier. -/
def findCommand (runId : Id) (requestId : String) : Option CommandRow :=
  db.commands.find? fun row => row.runId == runId && row.requestId == requestId

/-- Append a command to the ledger. -/
def recordCommand (row : CommandRow) : Option Db := do
  let commands ← insertRow CommandRow.clash row db.commands
  return { db with commands := commands }

def appendEvent (event : Event) : Option Db := do
  let events ← insertRow Event.clash event db.events
  return { db with events := events }

/-- Count a run's revision up from the expected one. -/
def advanceRevision (runId : Id) (expectedRevision : ℕ) : Option Db := do
  require (db.runs.any fun run => run.runId == runId && run.revision == expectedRevision)
  return { db with
    runs := updateWhere (fun run => run.runId == runId && run.revision == expectedRevision)
      (fun run => { run with revision := expectedRevision + 1 }) db.runs }

end Db

/-- The ledger row of an accepted operation of the host. The receipt may name the request
under another identifier than the ledger. -/
def hostCommand (commandId runId eventId : Id) (requestId receiptRequestId : String)
    (digest : Digest) (capabilityId : Id) (revision : ℕ) (now : Instant) : CommandRow where
  commandId := commandId
  runId := runId
  requestId := requestId
  requestDigest := digest
  expectedRevision := revision
  capabilityId := capabilityId
  accepted := true
  revisionBefore := revision
  revisionAfter := revision + 1
  rejectionCode := none
  missingConditions := []
  receipt :=
    { requestId := receiptRequestId
      commandId := commandId
      runId := runId
      accepted := true
      revisionBefore := revision
      revisionAfter := revision + 1
      eventIds := [eventId]
      artifactIds := []
      rejectionCode := none
      missingConditions := []
      decidedAt := now }
  decidedAt := now

/-- Record an operation of the host: its command, its event and the next revision of the run. -/
def Db.recordHostCommand (db : Db) (row : CommandRow) (eventId : Id) (contractVersion : Option ℕ) :
    Option Db := do
  let db ← db.recordCommand row
  let db ← db.appendEvent
    { eventId := eventId
      runId := row.runId
      commandId := row.commandId
      revision := row.revisionAfter
      command := none
      contractVersion := contractVersion }
  db.advanceRevision row.runId row.revisionBefore

/-! ## Creation of a run -/

/-- A run to be created, with its contract and the files that came with the request. -/
structure NewRun where
  runId : Id
  stableProjectId : String
  createIssuer : String
  createRequestId : Id
  createRequestDigest : Digest
  contractFile : CommittedFile
  additionalFiles : List (String × CommittedFile)
  contract : JsonObject
  createdAt : Instant

/-- The name under which a file of a creation is linked. -/
def createInputName (name : String) (ordinal : ℕ) : String :=
  if name == "" then "create_input_" ++ toString ordinal else name

/-- Store the files of a creation, in order. -/
def Db.storeCreateInputs (runId : Id) : List ((String × CommittedFile) × ℕ) → Db → Option Db
  | [], db => some db
  | ((name, file), index) :: rest, db => do
    let (db, _) ← db.storeFile runId file (createInputName name (index + 1)) .createInput
    storeCreateInputs runId rest db

/-- Create a run with the draft of its first contract version. A repeated request gives
the run that is there. -/
def Db.createRunAtomic (db : Db) (new : NewRun) : Option Db :=
  match db.runs.find? fun run =>
    run.createIssuer == new.createIssuer && run.createRequestId == new.createRequestId with
  | some run => do
    require (run.createRequestDigest == new.createRequestDigest)
    return db
  | none => do
    let (db, contractArtifactId) ←
      db.storeFile new.runId new.contractFile "contract.v1.json" .contract
    let runs ← insertRow Run.clash
      { runId := new.runId
        stableProjectId := new.stableProjectId
        createIssuer := new.createIssuer
        createRequestId := new.createRequestId
        createRequestDigest := new.createRequestDigest
        status := .isOpen
        revision := 0
        currentContractVersion := 1
        rootClaimId := none
        parentDossierArtifactId := none
        finalOutcome := none
        createdAt := new.createdAt } db.runs
    let db ← { db with runs := runs }.storeCreateInputs new.runId new.additionalFiles.zipIdx
    let contracts ← insertRow ContractVersion.clash
      { runId := new.runId
        version := 1
        status := .draft
        contractArtifactId := contractArtifactId
        contract := new.contract
        statementHash := new.contractFile.sha256
        defectType := none
        defectEvidence := none } db.contractVersions
    return { db with contractVersions := contracts }

end ResearchKernel
