import ResearchKernel.Foundation.Files
import ResearchKernel.Foundation.Runs
import ResearchKernel.Product.Jobs

/-!
# Uploads in chunks

A browser sends a file in chunks. The bytes go to a spool file, and the ledger says how many of
them are durable. A transaction on the ledger has the write lock from its first statement on, but
the file operations of other calls come between its steps, and any call may end at any of its
steps.
-/

namespace ResearchKernel.Product.Uploads

open Foundation

/-! ## The ledger -/

/-- What the store takes from its surroundings: the digest of bytes, and its two limits. -/
structure UploadRuntime where
  sha256 : List UInt8 → Digest
  maxUploadBytes : ℕ
  maxChunkBytes : ℕ

/-- State of an upload. -/
inductive UploadState where
  | opened | committing | committed | aborted
deriving DecidableEq

/-- Text of a state. -/
def UploadState.wire : UploadState → String
  | .opened => "OPEN"
  | .committing => "COMMITTING"
  | .committed => "COMMITTED"
  | .aborted => "ABORTED"

/-- An upload as a call has read it. -/
structure UploadSession where
  uploadId : Id
  requestId : Id
  state : UploadState
  logicalName : String
  mediaType : String
  declaredByteCount : ℕ
  declaredSha256 : Digest
  receivedByteCount : ℕ
  artifactId : Option Id
  createdAt : Stamp
  updatedAt : Stamp
  committedAt : Option Stamp

/-- A row of `product_uploads`. -/
structure UploadRow extends UploadSession where
  spoolName : String

/-- Unique columns of `product_uploads`. -/
def UploadRow.clash (a b : UploadRow) : Bool :=
  a.uploadId == b.uploadId || a.requestId == b.requestId || a.spoolName == b.spoolName

/-- A row of `product_upload_chunks`, with the bytes that were accepted, which no column keeps. -/
structure ChunkRow where
  uploadId : Id
  chunkOffset : ℕ
  byteCount : ℕ
  transferSha256 : Digest
  acceptedAt : Stamp
  data : List UInt8

/-- Unique columns of `product_upload_chunks`. -/
def ChunkRow.clash (a b : ChunkRow) : Bool :=
  a.uploadId == b.uploadId && a.chunkOffset == b.chunkOffset

/-- A committed artifact. -/
structure ArtifactRef where
  artifactId : Id
  sha256 : Digest
  byteCount : ℕ
  mediaType : String
deriving DecidableEq

/-- What the store raises. -/
inductive UploadError where
  /-- `ValueError`. -/
  | value (message : String)
  /-- `ArtifactUploadError`. -/
  | upload (message : String)
  /-- `KeyError`. -/
  | key (id : Id)
  /-- The write lock is held for longer than the busy timeout. -/
  | busy

/-- How far a call that has the write lock has come with a spool file. -/
inductive SpoolStage where
  /-- The size of the file has not been read yet. -/
  | found
  /-- The file is longer than the durable bytes. -/
  | longer
  /-- The file is as long as the durable bytes. -/
  | ready
  /-- The chunk is in the file. -/
  | written

/-- The call that has the write lock. -/
inductive Transaction where
  /-- `begin` has made the spool file and inserts the row. -/
  | insert (row : UploadRow)
  /-- The handler of `begin`. -/
  | discard (spoolName : String)
  /-- `append` for a chunk. -/
  | append (row : UploadRow) (data : List UInt8) (transferSha256 : Digest) (now : Stamp)
      (stage : SpoolStage)
  /-- `_prepare_commit`. -/
  | prepare (row : UploadRow) (now : Stamp) (stage : SpoolStage)

/-- What a call that does not have the write lock is still to do. -/
inductive Pending where
  /-- A replayed `begin` is to check the spool file. -/
  | check (session : UploadSession)
  /-- A replayed `begin` is to cut the spool file to the bytes that were durable for it. -/
  | truncate (session : UploadSession)
  /-- A spool file is to be removed. -/
  | unlink (spoolName : String)
  /-- `commit` is to find or make the artifact and to bind it. -/
  | bind (session : UploadSession)
  /-- `_prepare_commit` is to find the artifact of a committed upload. -/
  | confirm (session : UploadSession) (spoolName : String)

/-- The ledger, the spool files, and the calls that are under way. -/
structure UploadStore where
  uploads : List UploadRow := []
  chunks : List ChunkRow := []
  spools : String → Option (List UInt8) := fun _ => none
  transaction : Option Transaction := none
  pending : List Pending := []

/-! ## Spool files -/

/-- Name of the spool file of an upload. -/
def spoolName (uploadId : Id) : String := uploadId ++ ".part"

/-- Whether an identifier makes a safe name of a spool file. -/
def isSafeSpool (uploadId : Id) : Bool :=
  uploadId != "" && uploadId.toList.all fun c =>
    'A' ≤ c && c ≤ 'Z' || 'a' ≤ c && c ≤ 'z' || '0' ≤ c && c ≤ '9' || c == '_' || c == '-'

/-- Whether a spool file is longer than the durable bytes. -/
def hasUncommittedTail (spool : Option (List UInt8)) (durable : ℕ) : Except UploadError Bool := do
  let bytes ← orReject spool (.upload "upload spool is missing")
  rejectIf (decide (bytes.length < durable))
    (.upload "upload spool is shorter than its durable offset")
  return decide (durable < bytes.length)

namespace UploadStore

variable (s : UploadStore)

/-- Put a spool file in place, or remove it. -/
def setSpool (name : String) (spool : Option (List UInt8)) : UploadStore :=
  { s with spools := Function.update s.spools name spool }

/-- Cut a spool file, which stays missing if it is. -/
def truncate (name : String) (size : ℕ) : UploadStore :=
  s.setSpool name ((s.spools name).map (resize 0 · size))

/-- Give the write lock back without a change of the ledger. -/
def rollback : UploadStore := { s with transaction := none }

/-- Leave something for a call to do without the write lock. -/
def later (pending : Pending) : UploadStore := { s with pending := s.pending ++ [pending] }

/-- The upload with an identifier. -/
def upload (uploadId : Id) : Option UploadRow := s.uploads.find? (·.uploadId == uploadId)

def chunksOf (uploadId : Id) : List ChunkRow := s.chunks.filter (·.uploadId == uploadId)

def updateUploads (test : UploadRow → Bool) (change : UploadRow → UploadRow) : UploadStore :=
  { s with uploads := updateWhere test change s.uploads }

end UploadStore

/-! ## The first steps of the calls -/

section Calls

variable (U : UploadRuntime) (s : UploadStore)

/-- Declare an upload. A declaration that was made before is found again. -/
def begin (requestId : Id) (logicalName mediaType : String) (byteCount : ℤ) (sha256 : Digest)
    (uploadId : Id) (now : Stamp) : Except UploadError UploadStore := do
  rejectIf (requestId == "" || logicalName == "" || mediaType == "" || decide (byteCount < 0) ||
      decide ((U.maxUploadBytes : ℤ) < byteCount) || !isDigest sha256)
    (.value "invalid upload declaration")
  rejectIf (!isSafeSpool uploadId)
    (.upload "generated upload id is not a safe spool identity")
  rejectIf s.transaction.isSome .busy
  match s.uploads.find? (·.requestId == requestId) with
  | some current =>
    rejectIf (current.logicalName != logicalName || current.mediaType != mediaType ||
        decide ((current.declaredByteCount : ℤ) ≠ byteCount) || current.declaredSha256 != sha256)
      (.upload "request_id is already bound to another upload declaration")
    -- the write lock is given back before the spool file is checked
    if current.state = .committed then return s
    else return s.later (.check current.toUploadSession)
  | none =>
    let row : UploadRow :=
      { uploadId := uploadId
        requestId := requestId
        state := .opened
        logicalName := logicalName
        mediaType := mediaType
        declaredByteCount := byteCount.toNat
        declaredSha256 := sha256
        receivedByteCount := 0
        artifactId := none
        createdAt := now
        updatedAt := now
        committedAt := none
        spoolName := spoolName uploadId }
    -- a spool file of this name is not opened, and the handler removes it
    if (s.spools row.spoolName).isSome then
      return { s with transaction := some (.discard row.spoolName) }
    else
      return { s.setSpool row.spoolName (some []) with transaction := some (.insert row) }

/-- Offer a chunk. -/
def append (uploadId : Id) (offset : ℤ) (data : List UInt8) (transferSha256 : Digest)
    (now : Stamp) : Except UploadError UploadStore := do
  rejectIf (decide (offset < 0) || data.isEmpty || decide (U.maxChunkBytes < data.length) ||
      !isDigest transferSha256)
    (.value "invalid upload chunk")
  rejectIf (U.sha256 data != transferSha256)
    (.upload "chunk transfer digest does not match bytes")
  rejectIf s.transaction.isSome .busy
  let current ← orReject (s.upload uploadId) (.key uploadId)
  rejectIf (current.state != .opened)
    (.upload ("upload does not accept chunks from " ++ current.state.wire))
  if offset ≠ current.receivedByteCount then
    -- a chunk that was accepted before
    if (s.chunksOf uploadId).any fun chunk => decide ((chunk.chunkOffset : ℤ) = offset) &&
        chunk.byteCount == data.length && chunk.transferSha256 == transferSha256 &&
          decide (offset + data.length ≤ current.receivedByteCount) then return s
    else .error (.upload "chunk offset is not the next durable byte")
  else do
    rejectIf (decide (current.declaredByteCount < current.receivedByteCount + data.length))
      (.upload "chunk exceeds declared upload length")
    return { s with transaction := some (.append current data transferSha256 now .found) }

/-- The checks of an artifact against an upload. -/
def validateRef (artifact : ArtifactRef) (session : UploadSession) : Except UploadError Unit :=
  rejectIf (artifact.sha256 != session.declaredSha256 ||
      artifact.byteCount != session.declaredByteCount || artifact.mediaType != session.mediaType)
    (.upload "canonical artifact conflicts with upload declaration")

/-- Begin to commit an upload. -/
def prepareCommit (uploadId : Id) (now : Stamp) : Except UploadError UploadStore := do
  rejectIf s.transaction.isSome .busy
  let current ← orReject (s.upload uploadId) (.key uploadId)
  if current.state = .committed then
    return s.later (.confirm current.toUploadSession current.spoolName)
  else do
    rejectIf (decide (current.state = .aborted))
      (.upload ("upload cannot commit from " ++ current.state.wire))
    rejectIf (decide (current.receivedByteCount ≠ current.declaredByteCount))
      (.upload "upload length is incomplete")
    return { s with transaction := some (.prepare current now .found) }

/-- Abort an upload. Its spool file is removed when the write lock has been given back. -/
def abort (uploadId : Id) (now : Stamp) : Except UploadError UploadStore := do
  rejectIf s.transaction.isSome .busy
  let current ← orReject (s.upload uploadId) (.key uploadId)
  rejectIf (decide (current.state = .committed))
    (.upload "committed upload cannot be aborted")
  return (s.updateUploads (·.uploadId == uploadId) fun row =>
    { row with state := .aborted, updatedAt := now }).later (.unlink current.spoolName)

end Calls

/-! ## The further steps -/

/-- Accept a chunk that is in the spool file. -/
def acceptChunk (s : UploadStore) (row : UploadRow) (data : List UInt8) (transferSha256 : Digest)
    (now : Stamp) : UploadStore :=
  match insertRow ChunkRow.clash
      { uploadId := row.uploadId
        chunkOffset := row.receivedByteCount
        byteCount := data.length
        transferSha256 := transferSha256
        acceptedAt := now
        data := data } s.chunks with
  | none => s.rollback
  | some chunks =>
    let accepted := s.updateUploads (fun old => old.uploadId == row.uploadId &&
        (old.state == .opened && old.receivedByteCount == row.receivedByteCount)) fun old =>
      { old with receivedByteCount := row.receivedByteCount + data.length, updatedAt := now }
    { accepted with chunks := chunks, transaction := none }

/-- The next step of the call that has the write lock. -/
def advance (s : UploadStore) : UploadStore :=
  match s.transaction with
  | none => s
  | some (.insert row) =>
    match insertRow UploadRow.clash row s.uploads with
    | none => { s with transaction := some (.discard row.spoolName) }
    | some uploads => { s with uploads := uploads, transaction := none }
  | some (.discard name) => s.rollback.later (.unlink name)
  | some (.append row data transferSha256 now stage) =>
    match stage with
    | .found =>
      match hasUncommittedTail (s.spools row.spoolName) row.receivedByteCount with
      | .error _ => s.rollback
      | .ok true => { s with transaction := some (.append row data transferSha256 now .longer) }
      | .ok false => { s with transaction := some (.append row data transferSha256 now .ready) }
    | .longer =>
      match s.spools row.spoolName with
      | none => s.rollback
      | some bytes =>
        { s.setSpool row.spoolName (some (resize 0 bytes row.receivedByteCount)) with
          transaction := some (.append row data transferSha256 now .ready) }
    | .ready =>
      match s.spools row.spoolName with
      | none => s.rollback
      | some bytes =>
        { s.setSpool row.spoolName (some (overwrite 0 bytes row.receivedByteCount data)) with
          transaction := some (.append row data transferSha256 now .written) }
    | .written => acceptChunk s row data transferSha256 now
  | some (.prepare row now stage) =>
    match stage with
    | .found =>
      match hasUncommittedTail (s.spools (spoolName row.uploadId)) row.receivedByteCount with
      | .error _ => s.rollback
      | .ok true => { s with transaction := some (.prepare row now .longer) }
      | .ok false => { s with transaction := some (.prepare row now .ready) }
    | .longer =>
      match s.spools (spoolName row.uploadId) with
      | none => s.rollback
      | some bytes =>
        { s.setSpool (spoolName row.uploadId) (some (resize 0 bytes row.receivedByteCount)) with
          transaction := some (.prepare row now .ready) }
    | .ready | .written =>
      ((s.updateUploads (fun (old : UploadRow) => old.uploadId == row.uploadId &&
          (old.state == .opened || old.state == .committing)) fun old =>
        { old with state := .committing, updatedAt := now }).rollback).later
          (.bind { row.toUploadSession with state := .committing, updatedAt := now })

/-- The call that has the write lock raises, or its process ends. Some of the bytes of the chunk
that it was about to write may be in the spool file. -/
def interrupt (handled : Bool) (written : ℕ) (s : UploadStore) : UploadStore :=
  match s.transaction with
  | some (.insert row) =>
    if handled then { s with transaction := some (.discard row.spoolName) } else s.rollback
  | some (.append row data _ _ .ready) =>
    (s.setSpool row.spoolName ((s.spools row.spoolName).map
      (overwrite 0 · row.receivedByteCount (data.take written)))).rollback
  | _ => s.rollback

/-- Bind an artifact to an upload that is being committed. -/
def bindCommitted (s : UploadStore) (session : UploadSession) (artifact : ArtifactRef)
    (now : Stamp) : Except UploadError UploadStore := do
  validateRef artifact session
  rejectIf s.transaction.isSome .busy
  let row ← orReject (s.upload session.uploadId) (.key session.uploadId)
  if row.state = .committed then do
    rejectIf (decide (row.artifactId ≠ some artifact.artifactId))
      (.upload "upload was committed to another artifact")
    return s
  else do
    rejectIf (decide (row.state ≠ .committing))
      (.upload "upload commit state changed concurrently")
    return (s.updateUploads (fun old => old.uploadId == session.uploadId &&
        old.state == .committing) fun old =>
      { old with state := .committed, artifactId := some artifact.artifactId,
                 committedAt := some now, updatedAt := now }).later
        (.unlink (spoolName session.uploadId))

/-- Carry on with what a call is to do without the write lock. The artifact is what the registry
and the content-addressed store give, if they give one. -/
def carryOn (s : UploadStore) (pending : Pending) (now : Stamp) (artifact : Option ArtifactRef) :
    Except UploadError UploadStore :=
  match pending with
  | .check session => do
    let longer ← hasUncommittedTail (s.spools (spoolName session.uploadId))
      session.receivedByteCount
    if longer then return s.later (.truncate session) else return s
  | .truncate session => .ok (s.truncate (spoolName session.uploadId) session.receivedByteCount)
  | .unlink name => .ok (s.setSpool name none)
  | .bind session => do
    let artifact ← orReject artifact (.upload "upload spool is missing")
    bindCommitted s session artifact now
  | .confirm session name => do
    let artifact ← orReject artifact (.upload "committed upload lost its canonical artifact")
    rejectIf (decide (session.artifactId ≠ some artifact.artifactId))
      (.upload "committed upload lost its canonical artifact")
    validateRef artifact session
    return (s.setSpool name none).later (.bind session)

/-! ## Runs -/

/-- An operation on the uploads. -/
inductive UploadOp where
  | begin (requestId : Id) (logicalName mediaType : String) (byteCount : ℤ) (sha256 : Digest)
      (uploadId : Id) (now : Stamp)
  | append (uploadId : Id) (offset : ℤ) (data : List UInt8) (transferSha256 : Digest) (now : Stamp)
  | prepareCommit (uploadId : Id) (now : Stamp)
  | abort (uploadId : Id) (now : Stamp)
  /-- The call that has the write lock does its next step. -/
  | advance
  /-- The call that has the write lock ends early. -/
  | interrupt (handled : Bool) (written : ℕ)
  /-- A call that does not have the write lock does its next step. -/
  | resume (index : ℕ) (now : Stamp) (artifact : Option ArtifactRef)
  /-- A call that does not have the write lock ends early. -/
  | drop (index : ℕ)

/-- Do what is pending at a place. A call that finds the write lock held keeps waiting. -/
def resume (s : UploadStore) (index : ℕ) (now : Stamp) (artifact : Option ArtifactRef) :
    UploadStore :=
  match s.pending[index]? with
  | none => s
  | some pending =>
    match carryOn { s with pending := s.pending.eraseIdx index } pending now artifact with
    | .ok after => after
    | .error .busy => s
    | .error _ => { s with pending := s.pending.eraseIdx index }

/-- Perform an operation. An error leaves everything as it was. -/
def step (U : UploadRuntime) (s : UploadStore) : UploadOp → UploadStore
  | .begin requestId logicalName mediaType byteCount sha256 uploadId now =>
    (begin U s requestId logicalName mediaType byteCount sha256 uploadId now).toOption.getD s
  | .append uploadId offset data transferSha256 now =>
    (append U s uploadId offset data transferSha256 now).toOption.getD s
  | .prepareCommit uploadId now => (prepareCommit s uploadId now).toOption.getD s
  | .abort uploadId now => (abort s uploadId now).toOption.getD s
  | .advance => advance s
  | .interrupt handled written => interrupt handled written s
  | .resume index now artifact => resume s index now artifact
  | .drop index => { s with pending := s.pending.eraseIdx index }

def reached (U : UploadRuntime) (history : List UploadOp) : UploadStore :=
  runFrom (step U) {} history

end ResearchKernel.Product.Uploads
