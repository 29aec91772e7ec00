import ResearchKernel.Foundation.Feeds
import ResearchKernel.Foundation.Runs
import ResearchKernel.Product.FloatJson
import ResearchKernel.Product.Jobs

/-!
# Activities and their streams

All activities of a deployment are written to one table with one sequence of cursors. A stream
delivers those of its scope from a cursor on. Old activities are removed at times; a stream that
would have to read them stops with an error. A call of a stream is three transactions: a look at
what is retained, a read, and another look.
-/

namespace ResearchKernel.Product.Delivery

open Foundation

variable {F : Type}

/-! ## The table -/

/-- An activity as it is handed to the store. -/
structure ProductActivity (F : Type) where
  eventId : Id
  scopeKind : String
  source : String
  recordedAt : Stamp
  payload : List (String × FloatJson F)
  runId : Option Id := none
  deploymentId : Option Id := none
  researchRevision : Option ℤ := none
  kernelEventId : Option Id := none
  entityRefs : List (String × FloatJson F) := []

/-- An activity as it is read from the store. -/
structure ActivityRecord (F : Type) where
  cursor : ℕ
  eventId : Id
  scopeKind : String
  source : String
  recordedAt : Stamp
  payload : List (String × FloatJson F)
  entityRefs : List (String × FloatJson F)
  runId : Option Id
  deploymentId : Option Id
  researchRevision : Option ℤ
  kernelEventId : Option Id

/-- What the store and the streams raise. -/
inductive ActivityError where
  /-- `ValueError`. -/
  | value (message : String)
  /-- `ActivityStoreError`. -/
  | store (message : String)
  /-- `ActivityStreamError`. -/
  | stream (message : String)
  /-- `CursorExpired`. -/
  | expired (cursor firstAvailable : ℕ)
  /-- `sqlite3.ProgrammingError`. -/
  | programming

/-- What a stream is about: one run or one deployment. -/
inductive ActivityScope where
  | run (runId : Id)
  | deployment (deploymentId : Id)

/-- Whether a record belongs to a scope. -/
def ActivityScope.covers (scope : ActivityScope) (record : ActivityRecord F) : Bool :=
  match scope with
  | .run runId => record.runId == some runId
  | .deployment deploymentId => record.deploymentId == some deploymentId

/-- What a read of the table gives. -/
structure ActivitySnapshot (F : Type) where
  lastCursor : ℕ
  records : List (ActivityRecord F)

/-- A frame of a stream. -/
structure StreamFrame (F : Type) where
  event : String
  eventId : Option String
  data : List (String × FloatJson F)

/-- What a call of a stream returns. -/
structure BacklogPage (F : Type) where
  frames : List (StreamFrame F)
  scannedThroughCursor : ℕ
  hasMore : Bool

/-- Where a call of a stream is. -/
inductive DrainCall (F : Type) where
  /-- No call is under way. -/
  | idle
  /-- The cursor was available; the table is to be read. -/
  | checked (limit : ℤ)
  /-- The table was read; the cursor is to be looked at again. -/
  | fetched (limit : ℤ) (snapshot : ActivitySnapshot F)

/-- A stream. Its first cursor and the pages it has returned are kept for the record. -/
structure PersistedActivityStream (F : Type) where
  scope : ActivityScope
  cursor : ℕ
  closed : Bool := false
  call : DrainCall F := .idle
  start : ℕ
  pages : List (BacklogPage F) := []

def PersistedActivityStream.delivered (stream : PersistedActivityStream F) :
    List (StreamFrame F) :=
  stream.pages.flatMap BacklogPage.frames

/-- The table of activities, the last cursor it gave, the first cursor that is retained, and the
streams. All activities that were ever appended are kept for the record. -/
structure ActivityLedger (F : Type) where
  events : List (ActivityRecord F) := []
  sequence : ℕ := 0
  firstAvailable : ℕ := 1
  streams : List (PersistedActivityStream F) := []
  appended : List (ActivityRecord F) := []

/-! ## The store -/

/-- Whether the scope of an activity is what its kind of scope says. -/
def scopeValid (activity : ProductActivity F) : Bool :=
  activity.scopeKind == "GLOBAL" && activity.runId.isNone && activity.deploymentId.isNone ||
  activity.scopeKind == "RUN" && activity.runId.isSome && activity.deploymentId.isNone ||
  activity.scopeKind == "DEPLOYMENT" && activity.runId.isNone && activity.deploymentId.isSome

/-- An object as it is read back from its JSON text. -/
def storedObject (fields : List (String × FloatJson F)) : List (String × FloatJson F) :=
  FloatJson.sortKeys (FloatJson.storedFields fields)

/-- The record of an activity under a cursor, as it is read back. -/
def record (activity : ProductActivity F) (cursor : ℕ) : ActivityRecord F where
  cursor := cursor
  eventId := activity.eventId
  scopeKind := activity.scopeKind
  source := activity.source
  recordedAt := activity.recordedAt
  payload := storedObject activity.payload
  entityRefs := storedObject activity.entityRefs
  runId := activity.runId
  deploymentId := activity.deploymentId
  researchRevision := activity.researchRevision
  kernelEventId := activity.kernelEventId

/-- Whether a record is the one of an activity. -/
def sameContent (ops : FloatJson.FloatOps F) (existing : ActivityRecord F)
    (activity : ProductActivity F) : Bool :=
  existing.eventId == activity.eventId && existing.scopeKind == activity.scopeKind &&
  existing.source == activity.source && existing.recordedAt == activity.recordedAt &&
  FloatJson.eqv ops (.obj existing.payload) (.obj activity.payload) &&
  FloatJson.eqv ops (.obj existing.entityRefs) (.obj activity.entityRefs) &&
  existing.runId == activity.runId && existing.deploymentId == activity.deploymentId &&
  existing.researchRevision == activity.researchRevision &&
  existing.kernelEventId == activity.kernelEventId

/-- Whether the constraints of the table refuse an activity. -/
def refused (s : ActivityLedger F) (activity : ProductActivity F) : Bool :=
  (s.events.any fun old => old.eventId == activity.eventId ||
    activity.kernelEventId.isSome && old.kernelEventId == activity.kernelEventId) ||
  activity.researchRevision.any fun revision => decide (revision < 0)

/-- Append an activity. One that was appended before keeps its cursor. -/
def append (ops : FloatJson.FloatOps F) (s : ActivityLedger F) (activity : ProductActivity F) :
    Except ActivityError (ℕ × ActivityLedger F) := do
  rejectIf (!scopeValid activity) (.value "activity scope fields do not match scope_kind")
  if refused s activity then
    match s.events.find? (·.eventId == activity.eventId) with
    | none => .error (.store "activity identity was reused with different content")
    | some existing => do
      rejectIf (!sameContent ops existing activity)
        (.store "activity identity was reused with different content")
      return (existing.cursor, s)
  else do
    let cursor := s.sequence + 1
    let row := record activity cursor
    return (cursor, { s with
      events := s.events ++ [row], sequence := cursor, appended := s.appended ++ [row] })

/-- The largest cursor in the table, zero when it is empty. -/
def lastCursor (s : ActivityLedger F) : ℕ := (s.events.map ActivityRecord.cursor).foldr max 0

/-- Read the table after a cursor. -/
def snapshot (s : ActivityLedger F) (scope : ActivityScope) (afterCursor : ℕ) (limit : ℤ) :
    Except ActivityError (ActivitySnapshot F) := do
  rejectIf (!(decide (1 ≤ limit) && decide (limit ≤ 1000))) (.value "invalid activity page")
  let rows := (s.events.filter fun row => decide (afterCursor < row.cursor)).filter scope.covers
  return { lastCursor := lastCursor s
           records := (rows.insertionSort (·.cursor ≤ ·.cursor)).take limit.toNat }

/-- Remove all activities below a cursor and advance the first one that is available. -/
def retain (s : ActivityLedger F) (cursor : ℕ) : ActivityLedger F :=
  { s with
    events := s.events.filter fun row => decide (cursor ≤ row.cursor)
    firstAvailable := max s.firstAvailable cursor }

/-! ## Streams -/

/-- Raise when a cursor lies before the activities that are retained. -/
def ensureAvailable (s : ActivityLedger F) (cursor : ℕ) : Except ActivityError Unit :=
  rejectIf (decide (cursor < s.firstAvailable - 1)) (.expired cursor s.firstAvailable)

/-- The cursor in a header: a text of decimal digits. -/
def decimalCursor (text : String) : Option ℕ :=
  if text.toList ≠ [] ∧ text.toList.all Char.isDigit then some (Nat.ofDigitChars 10 text.toList 0)
  else none

/-- The cursor in the header `Last-Event-ID`, when there is one. -/
def parsedHeader (lastEventId : Option String) : Except ActivityError (Option ℕ) :=
  match lastEventId with
  | none => .ok none
  | some text => do
    let cursor ← orReject (decimalCursor text)
      (.value "Last-Event-ID must be a non-negative decimal cursor")
    return some cursor

/-- The cursor that a stream is to start from. -/
def resolveAfterCursor (afterCursor : Option ℤ) (lastEventId : Option String) :
    Except ActivityError ℕ := do
  let header ← parsedHeader lastEventId
  rejectIf (afterCursor.any fun cursor => decide (cursor < 0))
    (.value "after_cursor must be non-negative")
  match header, afterCursor with
  | some parsed, some cursor => do
    rejectIf (decide (cursor ≠ (parsed : ℤ))) (.value "after_cursor conflicts with Last-Event-ID")
    return parsed
  | some parsed, none => return parsed
  | none, some cursor => return cursor.toNat
  | none, none => .error (.value "after_cursor or Last-Event-ID is required")

/-- Open a stream. -/
def subscribe (s : ActivityLedger F) (scope : ActivityScope) (afterCursor : Option ℤ)
    (lastEventId : Option String) : Except ActivityError (ActivityLedger F) := do
  let cursor ← resolveAfterCursor afterCursor lastEventId
  ensureAvailable s cursor
  return { s with streams := s.streams ++ [{ scope := scope, cursor := cursor, start := cursor }] }

/-- The scope of a record, as a frame shows it. -/
def scopeData (record : ActivityRecord F) : List (String × FloatJson F) :=
  ("kind", .str record.scopeKind) ::
    (record.runId.toList.map fun id => ("run_id", .str id)) ++
    (record.deploymentId.toList.map fun id => ("deployment_id", .str id))

def activityFrame (record : ActivityRecord F) : StreamFrame F where
  event := "activity"
  eventId := some (toString record.cursor)
  data :=
    [("schema_version", .str "rk.product.activity.v1"), ("cursor", .int record.cursor),
      ("event_id", .str record.eventId), ("scope", .obj (scopeData record)),
      ("source", .str record.source), ("recorded_at", .str record.recordedAt),
      ("entity_refs", .obj record.entityRefs), ("payload", .obj record.payload)] ++
    (record.researchRevision.toList.map fun revision => ("research_revision", .int revision)) ++
    (record.kernelEventId.toList.map fun id => ("kernel_event_id", .str id))

/-- Whether the cursors of records increase from a cursor on. -/
def cursorsIncrease : ℕ → List (ActivityRecord F) → Bool
  | _, [] => true
  | previous, row :: rows => decide (previous < row.cursor) && cursorsIncrease row.cursor rows

/-- How far a call has scanned: a full page ends with its last record, any other one with the
last activity there was. -/
def scannedThrough (limit : ℤ) (snapshot : ActivitySnapshot F) : ℕ :=
  match snapshot.records.getLast? with
  | some last => if (snapshot.records.length : ℤ) = limit then last.cursor else snapshot.lastCursor
  | none => snapshot.lastCursor

/-- Change a stream. -/
def setStream (s : ActivityLedger F) (index : ℕ) (stream : PersistedActivityStream F) :
    ActivityLedger F :=
  { s with streams := s.streams.set index stream }

/-- The beginning of a call: the cursor must be available. -/
def beginDrain (s : ActivityLedger F) (stream : PersistedActivityStream F) (limit : ℤ) :
    Except ActivityError (PersistedActivityStream F) := do
  rejectIf stream.closed (.stream "activity stream is closed")
  ensureAvailable s stream.cursor
  return { stream with call := .checked limit }

/-- The middle of a call: the table is read. -/
def fetchPage (s : ActivityLedger F) (stream : PersistedActivityStream F) (limit : ℤ) :
    Except ActivityError (PersistedActivityStream F) := do
  let snapshot ← snapshot s stream.scope stream.cursor limit
  return { stream with call := .fetched limit snapshot }

/-- The end of a call: the cursor must still be available, and moves on. -/
def finishDrain (s : ActivityLedger F) (stream : PersistedActivityStream F) (limit : ℤ)
    (snapshot : ActivitySnapshot F) : Except ActivityError (PersistedActivityStream F) := do
  rejectIf (!cursorsIncrease stream.cursor snapshot.records)
    (.stream "activity cursor did not increase")
  rejectIf stream.closed .programming
  ensureAvailable s stream.cursor
  let cursor := max stream.cursor (scannedThrough limit snapshot)
  let page : BacklogPage F :=
    { frames := snapshot.records.map activityFrame
      scannedThroughCursor := cursor
      hasMore := decide ((snapshot.records.length : ℤ) = limit) &&
        snapshot.records.getLast?.any fun last => decide (last.cursor < snapshot.lastCursor) }
  return { stream with cursor := cursor, call := .idle, pages := stream.pages ++ [page] }

/-- The next transaction of the call of a stream. A call that raises is over. -/
def advance (s : ActivityLedger F) (stream : PersistedActivityStream F) (limit : ℤ) :
    Except ActivityError (PersistedActivityStream F) :=
  match stream.call with
  | .idle => beginDrain s stream limit
  | .checked limit => fetchPage s stream limit
  | .fetched limit snapshot => finishDrain s stream limit snapshot

/-! ## Runs -/

/-- What happens to the ledger. -/
inductive ActivityOp (F : Type) where
  /-- An activity is appended, of whatever scope. -/
  | append (activity : ProductActivity F)
  /-- Old activities are removed. -/
  | retain (cursor : ℕ)
  /-- A client opens a stream. -/
  | subscribe (scope : ActivityScope) (afterCursor : Option ℤ) (lastEventId : Option String)
  /-- A call of `drain_backlog` goes on, or begins with a limit. -/
  | drain (index : ℕ) (limit : ℤ)
  /-- A stream is closed. -/
  | close (index : ℕ)

/-- One operation. A call that raises leaves the ledger as it is. -/
def step (ops : FloatJson.FloatOps F) (s : ActivityLedger F) : ActivityOp F → ActivityLedger F
  | .append activity => (((append ops s activity).map Prod.snd).toOption).getD s
  | .retain cursor => retain s cursor
  | .subscribe scope afterCursor lastEventId =>
    ((subscribe s scope afterCursor lastEventId).toOption).getD s
  | .drain index limit =>
    match s.streams[index]? with
    | none => s
    | some stream =>
      setStream s index (((advance s stream limit).toOption).getD { stream with call := .idle })
  | .close index =>
    match s.streams[index]? with
    | none => s
    | some stream => setStream s index { stream with closed := true }

def reached (ops : FloatJson.FloatOps F) (history : List (ActivityOp F)) : ActivityLedger F :=
  runFrom (step ops) {} history

end ResearchKernel.Product.Delivery
