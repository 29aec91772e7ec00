import ResearchKernel.Product.Registry

/-!
# Public logs

The output streams of a managed process are public logs. A writer appends chunks, any number of
clients follow the bytes by a cursor, and a sealing call binds the bytes to an artifact. Every
call is a few transactions of its own, the calls of all processes interleave, and a call may end
between two of its transactions.
-/

namespace ResearchKernel.Product.Logs

open Foundation
open Registry
open Uploads (ArtifactRef)

/-! ## The ledger -/

/-- What the log store takes from its surroundings: the content store and its two limits. -/
structure LogRuntime where
  content : ContentRuntime
  maxChunkBytes : ℕ
  maxTailBytes : ℕ
  chunk_pos : 0 < maxChunkBytes
  tail_pos : 0 < maxTailBytes

/-- State of a log. -/
inductive LogState where
  | opened | sealing | sealed
deriving DecidableEq

/-- Text of a state. -/
def LogState.wire : LogState → String
  | .opened => "OPEN"
  | .sealing => "SEALING"
  | .sealed => "SEALED"

/-- An output stream of a process. -/
inductive ProcessStream where
  | stdout | stderr
deriving DecidableEq

/-- The stream with a text. -/
def ProcessStream.ofWire : String → Option ProcessStream
  | "STDOUT" => some .stdout
  | "STDERR" => some .stderr
  | _ => none

/-- The kind of scope with a text. -/
def scopeOfWire : String → Option ScopeKind
  | "GLOBAL" => some .global
  | "RUN" => some .run
  | "DEPLOYMENT" => some .deployment
  | _ => none

/-- A row of `product_public_logs`. -/
structure PublicLog where
  logId : Id
  scopeKind : ScopeKind
  scopeId : Id
  producerRunId : Id
  stream : ProcessStream
  state : LogState
  logicalName : String
  byteCount : ℕ
  artifactId : Option Id
  createdAt : Stamp
  updatedAt : Stamp
  sealedAt : Option Stamp

/-- Unique columns of `product_public_logs`. -/
def PublicLog.clash (a b : PublicLog) : Bool :=
  a.logId == b.logId || a.producerRunId == b.producerRunId && a.stream == b.stream

/-- A row of `product_public_log_chunks`. -/
structure LogChunk where
  logId : Id
  chunkOffset : ℕ
  byteCount : ℕ
  transferSha256 : Digest
  data : List UInt8
  appendedAt : Stamp

/-- Unique columns of `product_public_log_chunks`. -/
def LogChunk.clash (a b : LogChunk) : Bool :=
  a.logId == b.logId && a.chunkOffset == b.chunkOffset

/-- What the log store raises. -/
inductive LogError where
  /-- `ValueError`. -/
  | value (message : String)
  /-- `PublicLogError`. -/
  | log (message : String)
  /-- `LogCursorAhead`. -/
  | ahead (cursor byteCount : ℤ)
  /-- `KeyError`. -/
  | key (id : Id)
  /-- `sqlite3.IntegrityError`. -/
  | integrity
  /-- What the content store or the registry raises. -/
  | content (error : ContentError)

/-- A part of a log as a client gets it. -/
structure LogTail where
  logId : Id
  stream : ProcessStream
  cursor : ℕ
  nextCursor : ℕ
  durableByteCount : ℕ
  data : List UInt8
  caughtUp : Bool
  endOfLog : Bool
  artifactId : Option Id

/-- What a sealing call is to do next. -/
inductive SealCall where
  /-- Read the log again. -/
  | reread (logId : Id)
  /-- Find the artifact of a sealed log. -/
  | confirm (artifactId : Id)
  /-- Write the chunks of the log to a file of its own. -/
  | materialize (log : PublicLog)
  /-- Look for an artifact with the bytes of the file. -/
  | lookup (log : PublicLog) (bytes : List UInt8)
  /-- Stage the file. -/
  | stage (log : PublicLog) (bytes : List UInt8)
  /-- Commit the staged file. -/
  | commit (log : PublicLog) (bytes : List UInt8) (staged : StagedArtifact)
  /-- Register the committed file. -/
  | register (log : PublicLog) (bytes : List UInt8) (file : CommittedFile)
  /-- Bind the artifact to the log. -/
  | bind (log : PublicLog) (artifact : ArtifactRef)

/-- A client that follows a log. -/
structure LogReader where
  logId : Id
  cursor : ℕ := 0
  received : List UInt8 := []
deriving DecidableEq

/-- The logs, their chunks, the artifacts, the sealing calls and the clients. -/
structure LogStore where
  logs : List PublicLog := []
  chunks : List LogChunk := []
  contents : ContentStore := {}
  calls : List SealCall := []
  readers : List LogReader := []

namespace LogStore

variable (s : LogStore)

/-- The log with an identifier. -/
def log (logId : Id) : Option PublicLog := s.logs.find? (·.logId == logId)

def chunksOf (logId : Id) : List LogChunk :=
  (s.chunks.filter (·.logId == logId)).insertionSort (·.chunkOffset ≤ ·.chunkOffset)

/-- The bytes of the chunks of a log, in the order of their offsets. -/
def bytesOf (logId : Id) : List UInt8 := (s.chunksOf logId).flatMap LogChunk.data

/-- Update rows of logs. -/
def updateLogs (test : PublicLog → Bool) (change : PublicLog → PublicLog) : LogStore :=
  { s with logs := updateWhere test change s.logs }

/-- Leave something for a sealing call to do. -/
def later (call : SealCall) : LogStore := { s with calls := s.calls ++ [call] }

end LogStore

/-! ## Writers and clients -/

section Calls

variable (L : LogRuntime) (s : LogStore)

/-- Declare the log of an output stream. A declaration that was made before is found again. -/
def create (scopeKind : String) (scopeId producerRunId : Id) (stream logicalName : String)
    (logId : Id) (now : Stamp) : Except LogError LogStore := do
  let declared ← orReject (do
      let kind ← scopeOfWire scopeKind
      let stream ← ProcessStream.ofWire stream
      return (kind, stream))
    (.value "invalid public managed-process log declaration")
  rejectIf (scopeId == "" || producerRunId == "" || logicalName == "")
    (.value "invalid public managed-process log declaration")
  match s.logs.find? fun row =>
    row.producerRunId == producerRunId && row.stream == declared.2 with
  | some current => do
    rejectIf (current.scopeKind != declared.1 || current.scopeId != scopeId ||
        current.logicalName != logicalName)
      (.log "producer stream is already bound to another public log declaration")
    return s
  | none => do
    let logs ← orReject (insertRow PublicLog.clash
        { logId := logId
          scopeKind := declared.1
          scopeId := scopeId
          producerRunId := producerRunId
          stream := declared.2
          state := .opened
          logicalName := logicalName
          byteCount := 0
          artifactId := none
          createdAt := now
          updatedAt := now
          sealedAt := none } s.logs) .integrity
    return { s with logs := logs }

/-- Append a chunk. A chunk that was accepted before is left as it is. -/
def append (logId : Id) (offset : ℤ) (data : List UInt8) (transferSha256 : Digest) (now : Stamp) :
    Except LogError LogStore := do
  rejectIf (decide (offset < 0) || data.isEmpty || decide (L.maxChunkBytes < data.length))
    (.value "invalid public log chunk")
  rejectIf (L.content.sha256 data != transferSha256)
    (.log "log chunk transfer digest does not match bytes")
  let current ← orReject (s.log logId) (.key logId)
  rejectIf (current.state != .opened)
    (.log ("public log does not accept bytes from " ++ current.state.wire))
  if offset ≠ current.byteCount then
    if s.chunks.any fun chunk => chunk.logId == logId && decide ((chunk.chunkOffset : ℤ) = offset) &&
        chunk.byteCount == data.length && chunk.transferSha256 == transferSha256 &&
          chunk.data == data && decide (offset + data.length ≤ current.byteCount) then return s
    else .error (.log "log chunk offset is not the next durable byte cursor")
  else do
    let chunks ← orReject (insertRow LogChunk.clash
        { logId := logId
          chunkOffset := current.byteCount
          byteCount := data.length
          transferSha256 := transferSha256
          data := data
          appendedAt := now } s.chunks) .integrity
    let appended := s.updateLogs (fun row => row.logId == logId && (row.state == .opened &&
        row.byteCount == current.byteCount)) fun row =>
      { row with byteCount := current.byteCount + data.length, updatedAt := now }
    return { appended with chunks := chunks }

/-- The loop of `_slice_chunks`: the bytes from a position to the end, after those that were
collected before. -/
def sliceFrom (stop : ℕ) : ℕ → List UInt8 → List LogChunk → Except LogError (List UInt8)
  | _, output, [] => .ok output
  | position, output, chunk :: rows =>
    let startInChunk := position - chunk.chunkOffset
    let available : ℤ :=
      min (chunk.data.length : ℤ) ((stop : ℤ) - chunk.chunkOffset) - startInChunk
    if available ≤ 0 then sliceFrom stop position output rows
    else if chunk.chunkOffset + startInChunk ≠ position then
      .error (.log "public log chunk ledger has a byte gap")
    else sliceFrom stop (position + available.toNat)
      (output ++ (chunk.data.drop startInChunk).take available.toNat) rows

/-- Cut the bytes between two cursors out of chunks. -/
def sliceChunks (rows : List LogChunk) (cursor stop : ℕ) : Except LogError (List UInt8) :=
  sliceFrom stop cursor [] rows

/-- Read a log from a cursor on. -/
def tail (logId : Id) (cursor : ℤ) (limit : Option ℤ) : Except LogError LogTail := do
  rejectIf (decide (cursor < 0)) (.value "log byte cursor cannot be negative")
  let requested := limit.getD L.maxTailBytes
  rejectIf (decide (requested ≤ 0) || decide ((L.maxTailBytes : ℤ) < requested))
    (.value "log tail limit is outside the configured bound")
  let current ← orReject (s.log logId) (.key logId)
  rejectIf (decide ((current.byteCount : ℤ) < cursor)) (.ahead cursor current.byteCount)
  let start := cursor.toNat
  let stop := min (start + requested.toNat) current.byteCount
  let data ← sliceChunks ((s.chunksOf logId).filter fun chunk =>
    decide (chunk.chunkOffset < stop) && decide (start < chunk.chunkOffset + chunk.byteCount))
      start stop
  rejectIf (start + data.length != stop)
    (.log "durable log chunks do not cover the registered byte cursor")
  let caughtUp := start + data.length == current.byteCount
  return { logId := current.logId
           stream := current.stream
           cursor := start
           nextCursor := start + data.length
           durableByteCount := current.byteCount
           data := data
           caughtUp := caughtUp
           endOfLog := current.state == .sealed && caughtUp
           artifactId := current.artifactId }

def read (index : ℕ) (limit : Option ℤ) : Except LogError LogStore := do
  let reader ← orReject s.readers[index]? (.value "no such client")
  let page ← tail L s reader.logId reader.cursor limit
  let moved := { reader with
    cursor := page.nextCursor, received := reader.received ++ page.data }
  return { s with readers := s.readers.set index moved }

/-! ## Sealing -/

def beginSeal (logId : Id) (now : Stamp) : Except LogError LogStore := do
  let _ ← orReject (s.log logId) (.key logId)
  return (s.updateLogs (fun row => row.logId == logId && row.state == .opened) fun row =>
    { row with state := .sealing, updatedAt := now }).later (.reread logId)

/-- The loop of `_materialize`: write the chunks one after the other. -/
def materializeFrom : List UInt8 → List LogChunk → Except LogError (List UInt8)
  | written, [] => .ok written
  | written, chunk :: rows => do
    rejectIf (chunk.chunkOffset != written.length)
      (.log "public log chunk ledger has a byte gap")
    materializeFrom (written ++ chunk.data) rows

/-- Write the chunks of a log to a file of its own. -/
def materialize (log : PublicLog) : Except LogError (List UInt8) := do
  let bytes ← materializeFrom [] (s.chunksOf log.logId)
  rejectIf (bytes.length != log.byteCount)
    (.log "public log chunks do not match registered byte count")
  return bytes

/-- The media type of a sealed log. -/
def logMediaType : String := "text/plain; charset=utf-8"

/-- The checks of an artifact against the file of a log. -/
def checkArtifact (log : PublicLog) (bytes : List UInt8) (artifact : Artifact) :
    Except LogError SealCall := do
  rejectIf (artifact.sha256 != L.content.sha256 bytes || artifact.byteCount != log.byteCount ||
      artifact.mediaType != logMediaType)
    (.log "canonical artifact does not match sealed public log")
  return .bind log (artifactRef artifact)

/-- Bind an artifact to a log. -/
def bindSealed (log : PublicLog) (artifact : ArtifactRef) (now : Stamp) :
    Except LogError LogStore := do
  let current ← orReject (s.log log.logId) (.key log.logId)
  if current.state = .sealed then do
    rejectIf (decide (current.artifactId ≠ some artifact.artifactId))
      (.log "sealed log was rebound to another artifact")
    return s
  else do
    rejectIf (current.state != .sealing || current.byteCount != log.byteCount)
      (.log "public log changed while it was being sealed")
    return s.updateLogs (fun row => row.logId == log.logId && row.state == .sealing) fun row =>
      { row with state := .sealed, artifactId := some artifact.artifactId, updatedAt := now,
                 sealedAt := some now }

/-- Carry on with a sealing call. -/
def carryOn (call : SealCall) (now : Stamp) (generated : Id) : Except LogError LogStore :=
  match call with
  | .reread logId => do
    let current ← orReject (s.log logId) (.key logId)
    if current.state = .sealed then do
      -- the assertion that a sealed log has an artifact
      let artifactId ← orReject current.artifactId (.log "assertion")
      return s.later (.confirm artifactId)
    else return s.later (.materialize current)
  | .confirm artifactId => do
    let _ ← orReject (s.contents.findById artifactId)
      (.log "sealed log artifact is absent from canonical registry")
    return s
  | .materialize log => do
    let bytes ← materialize s log
    return s.later (.lookup log bytes)
  | .lookup log bytes =>
    match s.contents.findBySha256 (L.content.sha256 bytes) with
    | none => .ok (s.later (.stage log bytes))
    | some artifact => do
      let call ← checkArtifact L log bytes artifact
      return s.later call
  | .stage log bytes =>
    match stageInput L.content
        { name := log.logicalName, sha256 := L.content.sha256 bytes, byteCount := log.byteCount,
          mediaType := logMediaType } (some bytes) generated with
    | .error error => .error (.content error)
    | .ok staged => .ok (s.later (.commit log bytes staged))
  | .commit log bytes staged =>
    match s.contents.commit L.content staged with
    | (contents, .error _) => .ok { s with contents := contents }
    | (contents, .ok file) => .ok ({ s with contents := contents }.later (.register log bytes file))
  | .register log bytes file =>
    match s.contents.register file with
    | .error error => .error (.content error)
    | .ok (contents, artifact) =>
      match checkArtifact L log bytes artifact with
      | .error _ => .ok { s with contents := contents }
      | .ok call => .ok ({ s with contents := contents }.later call)
  | .bind log artifact => bindSealed s log artifact now

end Calls

/-! ## Runs -/

/-- An operation on the logs. -/
inductive LogOp where
  | create (scopeKind : String) (scopeId producerRunId : Id) (stream logicalName : String)
      (logId : Id) (now : Stamp)
  | append (logId : Id) (offset : ℤ) (data : List UInt8) (transferSha256 : Digest) (now : Stamp)
  /-- A client begins to follow a log. -/
  | follow (logId : Id)
  /-- A client reads on. -/
  | read (index : ℕ) (limit : Option ℤ)
  | beginSeal (logId : Id) (now : Stamp)
  /-- A sealing call does its next step. -/
  | carryOn (index : ℕ) (now : Stamp) (generated : Id)
  /-- A sealing call ends early. -/
  | drop (index : ℕ)
  /-- Another writer of the content store and the registry does a step. -/
  | elsewhere (op : ContentOp)

/-- The next step of the sealing call at a place. -/
def carryOnAt (L : LogRuntime) (s : LogStore) (index : ℕ) (now : Stamp) (generated : Id) :
    LogStore :=
  match s.calls[index]? with
  | none => s
  | some call =>
    let rest := { s with calls := s.calls.eraseIdx index }
    (carryOn L rest call now generated).toOption.getD rest

/-- Perform an operation. An error leaves the tables as they were. -/
def step (L : LogRuntime) (s : LogStore) : LogOp → LogStore
  | .create scopeKind scopeId producerRunId stream logicalName logId now =>
    (create s scopeKind scopeId producerRunId stream logicalName logId now).toOption.getD s
  | .append logId offset data transferSha256 now =>
    (append L s logId offset data transferSha256 now).toOption.getD s
  | .follow logId => { s with readers := s.readers ++ [{ logId := logId }] }
  | .read index limit => (read L s index limit).toOption.getD s
  | .beginSeal logId now => (beginSeal s logId now).toOption.getD s
  | .carryOn index now generated => carryOnAt L s index now generated
  | .drop index => { s with calls := s.calls.eraseIdx index }
  | .elsewhere op => { s with contents := Registry.step L.content s.contents op }

def reached (L : LogRuntime) (history : List LogOp) : LogStore := runFrom (step L) {} history

end ResearchKernel.Product.Logs
