import ResearchKernel.Product.Cursors
import ResearchKernel.Product.Registry

/-!
# Backup bundles

A backup is an archive with a snapshot of the database, the configuration files, the files of
the content store that the snapshot refers to, and a manifest with the digest of each of them.
While it is made, other writers go on: the configuration files are read once for their digests
and once more when they are put into the archive. The restorer takes nothing but the archive
and derives from its manifest what must be in it.
-/

namespace ResearchKernel.Product.Backup

open Foundation Registry
open Uploads (ArtifactRef)
open Pages (utf8 ofUtf8)

/-! ## Databases and formats -/

/-- The counters of a snapshot. -/
structure Consistency where
  activityCursor : ℕ
  jobCount : ℕ
  checkpointCount : ℕ
  terminalJobCount : ℕ

/-- Table `product_backups`. -/
structure BackupRow where
  backupId : Id
  deploymentId : Id
  requestId : Id
  includeCas : Bool
  includeConfiguration : Bool
  backupArtifactId : Id
  backupDigest : Digest
  manifestDigest : Digest
  consistency : Consistency
  createdAt : String
  completedAt : String

/-- Two rows that may not be in the table together. -/
def BackupRow.clash (row old : BackupRow) : Bool :=
  row.backupId == old.backupId || row.backupArtifactId == old.backupArtifactId ||
    (row.deploymentId == old.deploymentId && row.requestId == old.requestId)

/-- The database of the product. `rest` stands for the tables that a backup does not look at. -/
structure ProductDb (γ : Type) where
  kernel : Db
  activityCursors : List ℕ
  jobs : List JobState
  checkpoints : List Id
  backups : List BackupRow
  rest : γ

/-- The database and the files of the content store. -/
structure Live (γ : Type) where
  db : ProductDb γ
  finals : Digest → Option (List UInt8)

/-- How SQLite puts a database into a file. -/
structure SqliteFormat (γ : Type) where
  file : ProductDb γ → List UInt8
  read : List UInt8 → Option (ProductDb γ)

/-- How an archive holds its members. -/
structure ZipFormat where
  write : List (String × List UInt8) → List UInt8
  read : List UInt8 → Option (List (String × List UInt8))
  read_write : ∀ members, read (write members) = some members

/-- What backups and restores take from their surroundings. -/
structure BackupHost (γ : Type) where
  platform : Platform
  content : ContentRuntime
  sqlite : SqliteFormat γ
  zip : ZipFormat

variable {γ : Type}

/-- The content store of a deployment. -/
def Live.store (live : Live γ) : ContentStore where
  db := live.db.kernel
  finals := live.finals

/-- The counters of a database. -/
def ProductDb.consistency (db : ProductDb γ) : Consistency where
  activityCursor := db.activityCursors.foldr max 0
  jobCount := db.jobs.length
  checkpointCount := db.checkpoints.length
  terminalJobCount := (db.jobs.filter JobState.isTerminal).length

/-! ## Names and paths -/

/-- A character of a logical name. -/
def isLogicalChar (c : Char) : Bool := c.isAlphanum || c == '_' || c == '.' || c == '-'

/-- `[A-Za-z0-9][A-Za-z0-9_.-]{0,127}`. -/
def isLogicalName (name : List Char) : Bool :=
  match name with
  | [] => false
  | c :: rest => c.isAlphanum && decide (rest.length ≤ 127) && rest.all isLogicalChar

/-- A lower case hexadecimal digit. -/
def isHexChar (c : Char) : Bool := "0123456789abcdef".toList.contains c

/-- `[0-9a-f]{2}/[0-9a-f]{2}/[0-9a-f]{64}`. -/
def isCasRelpath (path : List Char) : Bool :=
  match path.splitOn '/' with
  | [first, second, digest] =>
    first.length == 2 && second.length == 2 && digest.length == 64 &&
      (first ++ second ++ digest).all isHexChar
  | _ => false

/-- The paths that a bundle may hold beside its manifest. -/
def isArchivePath (path : String) : Bool :=
  let text := path.toList
  path == "database.sqlite" ||
    ("configuration/".toList.isPrefixOf text && isLogicalName (text.drop 14)) ||
    ("cas/".toList.isPrefixOf text && isCasRelpath (text.drop 4))

/-- The file of the content store at a relative path. Every file is at the path of its digest. -/
def casFile (finals : Digest → Option (List UInt8)) (relative : String) : Option (List UInt8) :=
  match relative.toList.splitOn '/' with
  | [_, _, name] =>
    if relpathForDigest (String.ofList name) = relative then finals (String.ofList name) else none
  | _ => none

/-! ## Making a backup -/

/-- What the backup service raises. -/
inductive BackupError where
  /-- `BackupError`. -/
  | backup (message : String)
  /-- `ValueError`. -/
  | value (message : String)
  /-- What the content store raises. -/
  | content (error : ContentError)
  /-- `KeyError`. -/
  | key (text : String)
  /-- `sqlite3.IntegrityError`. -/
  | integrity
  /-- `FileNotFoundError`. -/
  | missing

/-- A configuration file: whether it is an absolute path of a regular file, and what is read from
it when its digest is taken and when it is put into the archive. -/
structure ConfigurationSource where
  isRegular : Bool := true
  hashed : List UInt8
  copied : Option (List UInt8)

/-- The configuration files under their logical names. -/
structure Configuration where
  files : List (String × ConfigurationSource)
  nodup : (files.map Prod.fst).Nodup

/-- An entry of the manifest, the path it names, and what is put there. -/
structure BundleEntry where
  json : JsonObject
  archivePath : String
  source : Option (List UInt8)

section Making

variable (H : BackupHost γ)

/-- The digest and the size of a file. -/
def entry (bytes : List UInt8) : JsonObject :=
  [("sha256", .str (H.content.sha256 bytes)), ("byte_count", .int bytes.length)]

def configurationEntry (logicalName : String) (source : ConfigurationSource) :
    Except BackupError BundleEntry := do
  rejectIf (!isLogicalName logicalName.toList) (.backup "configuration logical name is invalid")
  rejectIf (!source.isRegular) (.backup "configuration source must be an absolute regular file")
  return {
    json := [("logical_name", .str logicalName),
      ("archive_path", .str ("configuration/" ++ logicalName))] ++ entry H source.hashed
    archivePath := "configuration/" ++ logicalName
    source := source.copied }

/-- The entries of the configuration files, in the order of their names. -/
def configurationEntries (configuration : Configuration) : Except BackupError (List BundleEntry) :=
  (configuration.files.insertionSort fun a b => a.1 ≤ b.1).mapM fun file =>
    configurationEntry H file.1 file.2

def bundleMediaType : String := "application/vnd.rk.backup+zip"

/-- Whether an artifact of a database is a backup itself. -/
def isBackup (db : ProductDb γ) (artifact : Artifact) : Bool :=
  artifact.mediaType == bundleMediaType ||
    db.backups.any (·.backupArtifactId == artifact.artifactId)

/-- The artifacts whose files go into the bundle of a database. -/
def bundled (db : ProductDb γ) : List Artifact :=
  (db.kernel.artifacts.filter fun artifact =>
    artifact.ingestState == .committed && !isBackup db artifact).insertionSort
      fun a b => a.artifactId ≤ b.artifactId

/-- The entry of a file of the content store. -/
def casEntry (hashing copying : Digest → Option (List UInt8)) (artifact : Artifact) :
    Except BackupError BundleEntry := do
  rejectIf (!isCasRelpath artifact.casRelpath.toList)
    (.backup "snapshot contains an invalid CAS relative path")
  let bytes ← orReject (casFile hashing artifact.casRelpath)
    (.backup ("referenced CAS object is unavailable: " ++ artifact.artifactId))
  rejectIf (H.content.sha256 bytes != artifact.sha256 || bytes.length != artifact.byteCount)
    (.backup ("referenced CAS object differs from SQLite: " ++ artifact.artifactId))
  return {
    json := [("artifact_id", .str artifact.artifactId), ("cas_relpath", .str artifact.casRelpath),
      ("archive_path", .str ("cas/" ++ artifact.casRelpath))] ++ entry H bytes
    archivePath := "cas/" ++ artifact.casRelpath
    source := casFile copying artifact.casRelpath }

/-- The entries of the files of the content store. -/
def casEntries (snapshot : ProductDb γ) (hashing copying : Digest → Option (List UInt8)) :
    Except BackupError (List BundleEntry) :=
  (bundled snapshot).mapM (casEntry H hashing copying)

/-- The counters as JSON. -/
def Consistency.json (c : Consistency) : JsonObject :=
  [("activity_cursor", .int c.activityCursor), ("job_count", .int c.jobCount),
    ("checkpoint_count", .int c.checkpointCount), ("terminal_job_count", .int c.terminalJobCount)]

/-- The arguments of a call. -/
structure BackupRequest where
  deploymentId : Id
  requestId : Id
  includeCas : Bool
  includeConfiguration : Bool
  configuration : Configuration

def manifestOf (request : BackupRequest) (backupId : Id) (createdAt : String)
    (snapshot : ProductDb γ) (configs cas : List BundleEntry) : JsonObject :=
  [("schema_version", .str "rk.product.backup-manifest.v1"), ("backup_id", .str backupId),
    ("deployment_id", .str request.deploymentId), ("created_at", .str createdAt),
    ("include_cas", .bool request.includeCas),
    ("include_configuration", .bool request.includeConfiguration),
    ("database", .obj (("archive_path", .str "database.sqlite") :: entry H (H.sqlite.file snapshot))),
    ("configuration", .arr (configs.map fun item => .obj item.json)),
    ("cas_objects", .arr (cas.map fun item => .obj item.json)),
    ("consistency", .obj snapshot.consistency.json)]

def manifestBytes (manifest : JsonObject) : List UInt8 := utf8 (dumps (.obj manifest) ++ ['\n'])

/-- Put the file of an entry into the archive. -/
def copyEntry (item : BundleEntry) : Except BackupError (String × List UInt8) := do
  let bytes ← orReject item.source .missing
  return (item.archivePath, bytes)

/-- The members of the archive. -/
def bundleMembers (manifest : JsonObject) (snapshot : ProductDb γ) (items : List BundleEntry) :
    Except BackupError (List (String × List UInt8)) := do
  let copied ← items.mapM copyEntry
  return ("manifest.json", manifestBytes manifest) ::
    ("database.sqlite", H.sqlite.file snapshot) :: copied

/-- What a caller is told of a backup. -/
structure BackupReceipt where
  backupId : Id
  deploymentId : Id
  requestId : Id
  artifact : ArtifactRef
  manifestDigest : Digest
  consistency : Consistency
  createdAt : String
  completedAt : String

/-- The receipt of a backup that was recorded. -/
def ProductDb.get (db : ProductDb γ) (backupId : Id) : Except BackupError BackupReceipt := do
  let row ← orReject (db.backups.find? (·.backupId == backupId)) (.key backupId)
  let artifact ← orReject (db.kernel.artifacts.find? fun artifact =>
      artifact.artifactId == row.backupArtifactId && artifact.ingestState == .committed)
    (.backup "backup row is not bound to a committed canonical artifact")
  rejectIf (artifact.sha256 != row.backupDigest)
    (.backup "backup row is not bound to a committed canonical artifact")
  return {
    backupId := row.backupId, deploymentId := row.deploymentId, requestId := row.requestId
    artifact := artifactRef artifact, manifestDigest := row.manifestDigest
    consistency := row.consistency, createdAt := row.createdAt, completedAt := row.completedAt }

/-- The receipt of the backup of a request, if there is one. -/
def ProductDb.byRequest (db : ProductDb γ) (deploymentId requestId : Id) :
    Except BackupError (Option BackupReceipt) :=
  match db.backups.find? fun row => row.deploymentId == deploymentId && row.requestId == requestId with
  | none => .ok none
  | some row => (db.get row.backupId).map some

/-- The states of the deployment that a call meets one after the other: when it looks for an
earlier receipt, takes the snapshot, takes the digests of the files, copies them and commits the
archive, and what the other writers make of the last one before the backup is recorded. -/
structure Moments (γ : Type) where
  asked : Live γ
  snapshot : Live γ
  hashing : Live γ
  copying : Live γ
  committing : Live γ
  meanwhile : Live γ → Live γ

/-- What the identifiers and the clock give. -/
structure BackupStamps where
  backupId : Id
  artifactId : Id
  createdAt : String
  completedAt : String

/-- Put a backup into its table. -/
def ProductDb.recordBackup (db : ProductDb γ) (row : BackupRow) : Option (ProductDb γ) := do
  require (decide (row.createdAt ≤ row.completedAt))
  require (db.kernel.artifacts.any (·.artifactId == row.backupArtifactId))
  let backups ← insertRow BackupRow.clash row db.backups
  return { db with backups := backups }

/-- What a call leaves: its receipt and the deployment. -/
structure Created (γ : Type) where
  receipt : BackupReceipt
  live : Live γ

/-- Commit the bundle and register it. -/
def commitBundle (live : Live γ) (backupId artifactId : Id) (archive : List UInt8) :
    Except BackupError (Live γ × Artifact) := do
  let input : ArtifactInput :=
    { name := backupId ++ ".rkzip", sha256 := H.content.sha256 archive
      byteCount := archive.length, mediaType := bundleMediaType }
  let staged ← (stageInput H.content input (some archive) artifactId).mapError .content
  let file ← (live.store.commit H.content staged).2.mapError .content
  let (store, artifact) ←
    ((live.store.commit H.content staged).1.register file).mapError .content
  rejectIf (artifact.sha256 != H.content.sha256 archive || artifact.byteCount != archive.length)
    (.backup "canonical artifact registry returned a conflicting backup binding")
  return ({ db := { live.db with kernel := store.db }, finals := store.finals }, artifact)

/-- Record a bundle that was committed, unless another call for the request was faster. -/
def recordBundle (request : BackupRequest) (stamps : BackupStamps) (snapshot : ProductDb γ)
    (manifest : JsonObject) (artifact : Artifact) (live : Live γ) :
    Except BackupError (Created γ) := do
  let row : BackupRow := {
    backupId := stamps.backupId, deploymentId := request.deploymentId
    requestId := request.requestId, includeCas := request.includeCas
    includeConfiguration := request.includeConfiguration
    backupArtifactId := artifact.artifactId, backupDigest := artifact.sha256
    manifestDigest := H.content.sha256 (manifestBytes manifest)
    consistency := snapshot.consistency
    createdAt := stamps.createdAt, completedAt := stamps.completedAt }
  match live.db.recordBackup row with
  | none =>
    match ← live.db.byRequest request.deploymentId request.requestId with
    | none => .error .integrity
    | some winner => return { receipt := winner, live := live }
  | some db => return {
      live := { live with db := db }
      receipt := {
        backupId := stamps.backupId, deploymentId := request.deploymentId
        requestId := request.requestId, artifact := artifactRef artifact
        manifestDigest := row.manifestDigest, consistency := row.consistency
        createdAt := stamps.createdAt, completedAt := stamps.completedAt } }

/-- Make a backup. -/
def create (request : BackupRequest) (stamps : BackupStamps) (moments : Moments γ) :
    Except BackupError (Created γ) := do
  rejectIf (request.deploymentId == "" || request.requestId == "")
    (.value "deployment_id and request_id are required")
  rejectIf (!request.configuration.files.isEmpty != request.includeConfiguration)
    (.backup "configuration inclusion and file manifest differ")
  match ← moments.asked.db.byRequest request.deploymentId request.requestId with
  | some receipt => return { receipt := receipt, live := moments.asked }
  | none => do
    let snapshot := moments.snapshot.db
    let configs ← configurationEntries H request.configuration
    let cas ← if request.includeCas then
        casEntries H snapshot moments.hashing.finals moments.copying.finals
      else .ok []
    let manifest := manifestOf H request stamps.backupId stamps.createdAt snapshot configs cas
    let members ← bundleMembers H manifest snapshot (configs ++ cas)
    let (live, artifact) ←
      commitBundle H moments.committing stamps.backupId stamps.artifactId (H.zip.write members)
    recordBundle H request stamps snapshot manifest artifact (moments.meanwhile live)

end Making

/-! ## Restoring -/

/-- What the restorer raises. -/
inductive RestoreError where
  /-- `RestoreError`. -/
  | restore (message : String)
  /-- `BackupError`, or what the content store raises. -/
  | backup (message : String)
  /-- `ValueError`. -/
  | value (message : String)
  /-- Any other exception. -/
  | other (name : String)

/-- The files of a directory under their relative paths. -/
abbrev Tree := List (String × List UInt8)

section Restoring

variable (H : BackupHost γ)

/-- The member of an object that is an object. -/
def objectAt (value : JsonObject) (key : String) : Except RestoreError JsonObject :=
  orReject (value.get key).mapping? (.restore ("backup manifest field is not an object: " ++ key))

/-- The member of an object that is a text. -/
def stringAt (value : JsonObject) (key : String) : Except RestoreError String := do
  let text ← orReject (value.get key).text? (.restore ("backup manifest string is invalid: " ++ key))
  rejectIf (text == "") (.restore ("backup manifest string is invalid: " ++ key))
  return text

/-- The member of an object that is a natural number. -/
def integerAt (value : JsonObject) (key : String) : Except RestoreError ℤ := do
  let number ← orReject (value.get key).int?
    (.restore ("backup manifest integer is invalid: " ++ key))
  rejectIf (decide (number < 0)) (.restore ("backup manifest integer is invalid: " ++ key))
  return number

/-- The objects of an array. -/
def objects (value : Json) : Option (List JsonObject) :=
  value.sequence?.bind fun items => items.mapM Json.mapping?

def manifestEntries (manifest : JsonObject) : Except RestoreError (List JsonObject) := do
  let database ← objectAt manifest "database"
  let configuration ← orReject (objects (manifest.get "configuration"))
    (.restore "configuration manifest is invalid")
  let cas ← orReject (objects (manifest.get "cas_objects")) (.restore "CAS manifest is invalid")
  return database :: (configuration ++ cas)

/-- The path that an entry names. -/
def archivePathOf (item : JsonObject) : Except RestoreError String := do
  let value ← orReject (item.lookup "archive_path") (.other "KEYERROR")
  return value.toText H.platform

/-- Copy the bundle of an artifact, and check that it is what the artifact says. -/
def materialize (store : ContentStore) (ref : ArtifactRef) : Except RestoreError (List UInt8) := do
  let artifact ← orReject (store.findById ref.artifactId) (.other "CASLOOKUPERROR")
  let bytes ← orReject (casFile store.finals artifact.casRelpath) (.other "CASCORRUPTIONERROR")
  rejectIf (H.content.sha256 bytes != artifact.sha256 || bytes.length != artifact.byteCount)
    (.other "CASCORRUPTIONERROR")
  rejectIf (bytes.length != ref.byteCount || H.content.sha256 bytes != ref.sha256)
    (.backup "backup ArtifactRef differs from canonical CAS bytes")
  return bytes

def readManifest (members : Tree) : Except RestoreError JsonObject := do
  let raw ← orReject (members.lookup "manifest.json") (.restore "backup bundle has no manifest")
  let text ← orReject (ofUtf8 raw) (.other "UNICODEDECODEERROR")
  let value ← orReject (loads text.toList) (.restore "backup bundle is unreadable")
  let manifest ← orReject value.mapping? (.restore "backup manifest schema is unsupported")
  rejectIf (!(manifest.get "schema_version").isText "rk.product.backup-manifest.v1")
    (.restore "backup manifest schema is unsupported")
  return manifest

/-- Extract the member that an entry names. A safe path does not leave the staging directory. -/
def extractMember (members tree : Tree) (item : JsonObject) : Except RestoreError Tree := do
  let path ← archivePathOf H item
  rejectIf (!isArchivePath path) (.restore "manifest archive path is unsafe")
  rejectIf (tree.any (·.1 == path)) (.restore "backup bundle is unreadable")
  let bytes ← orReject (members.lookup path) (.other "KEYERROR")
  let count ← integerAt item "byte_count"
  rejectIf ((bytes.length : ℤ) != count)
    (.restore ("bundle member digest differs: " ++ path))
  let digest ← stringAt item "sha256"
  rejectIf (H.content.sha256 bytes != digest)
    (.restore ("bundle member digest differs: " ++ path))
  return tree ++ [(path, bytes)]

/-- Extract a bundle, and check that its members are those of its manifest. -/
def extractVerified (bundle : List UInt8) : Except RestoreError (JsonObject × Tree) := do
  let members ← orReject (H.zip.read bundle) (.restore "backup bundle is unreadable")
  let manifest ← readManifest members
  let entries ← manifestEntries manifest
  let paths ← entries.mapM (archivePathOf H)
  let expected := "manifest.json" :: paths
  rejectIf (!(members.all fun member => expected.contains member.1) ||
      !expected.all fun name => members.any (·.1 == name))
    (.restore "bundle members differ from the signed manifest")
  let tree ← entries.foldlM (extractMember H members) []
  return (manifest, tree)

/-- What the release of the restorer makes of a database: it applies what the database lacks,
builds the indexes again and checks the integrity. -/
abbrev Release (γ : Type) := ProductDb γ → Option (ProductDb γ)

/-- Bring the database of a tree to the release of the restorer. -/
def upgradeAndRebuild (release : Release γ) (tree : Tree) : Except RestoreError (ProductDb γ) := do
  let file ← orReject (tree.lookup "database.sqlite") (.other "OPERATIONALERROR")
  let db ← orReject (H.sqlite.read file) (.other "DATABASEERROR")
  orReject (release db) (.restore "restored database failed integrity_check")

/-- The counters of the restored database are those of the manifest. -/
def checkConsistency (manifest : JsonObject) (db : ProductDb γ) : Except RestoreError Unit := do
  let expected ← objectAt manifest "consistency"
  checkAll (fun counter => do
    let number ← integerAt expected counter.1
    rejectIf ((counter.2 : ℤ) != number)
      (.restore ("restored consistency fence differs: " ++ counter.1)))
    [("activity_cursor", db.consistency.activityCursor), ("job_count", db.consistency.jobCount),
      ("checkpoint_count", db.consistency.checkpointCount),
      ("terminal_job_count", db.consistency.terminalJobCount)]

/-- A data root that was restored: its database and its other files. -/
structure DataRoot (γ : Type) where
  database : ProductDb γ
  files : Tree

/-- The data root that a bundle holds. -/
def restoreBundle (release : Release γ) (sourceBackupId : Id) (bundle : List UInt8) :
    Except RestoreError (DataRoot γ) := do
  let (manifest, tree) ← extractVerified H bundle
  rejectIf (!(manifest.get "backup_id").isText sourceBackupId)
    (.restore "source backup identity differs from bundle manifest")
  let database ← upgradeAndRebuild H release tree
  checkConsistency manifest database
  return { database := database, files := tree.filter (·.1 != "database.sqlite") }

/-- Restore the bundle of an artifact for a new request into a new data root. -/
def restore (release : Release γ) (store : ContentStore) (sourceBackupId : Id) (ref : ArtifactRef) :
    Except RestoreError (DataRoot γ) := do
  rejectIf (sourceBackupId == "") (.value "restore identities are required")
  let bundle ← materialize H store ref
  restoreBundle H release sourceBackupId bundle

end Restoring

end ResearchKernel.Product.Backup
