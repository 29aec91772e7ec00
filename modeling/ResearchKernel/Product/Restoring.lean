import ResearchKernel.Product.Backups

/-!
# Restores that are interrupted

A restore is recorded as running, builds the new data root in a staging directory, publishes it
with one rename, and is then recorded as succeeded. The rename and the record are two steps, and
a process may be killed, or raise, at every point. What was raised is handled by removing the
staging directory and recording a failure, also when the data root was published before. A call
for a request that is recorded already is recognized by its target alone.
-/

namespace ResearchKernel.Product.Restoring

open Foundation Registry Backup
open Uploads (ArtifactRef)

/-! ## Records and directories -/

/-- The names from the root of the file system to a directory. -/
abbrev DirPath := List String

/-- The state of a restore. -/
inductive RestoreState where
  | running | succeeded | failed
deriving DecidableEq

/-- Table `product_deployment_restores`. -/
structure RestoreRow where
  restoreId : Id
  sourceBackupId : Id
  deploymentId : Id
  requestId : Id
  targetRootDigest : Digest
  state : RestoreState := .running
  restoredDatabaseDigest : Option Digest := none
  restored : Option Consistency := none
  failureCode : Option String := none
  startedAt : String
  finishedAt : String

/-- The data root that a caller names: whether its path is absolute, and what it resolves to. -/
structure RootPath where
  isAbsolute : Bool
  resolved : DirPath

/-- The arguments of a call. -/
structure RestoreRequest where
  sourceBackupId : Id
  backupArtifact : ArtifactRef
  deploymentId : Id
  requestId : Id
  newDataRoot : RootPath

/-- What a caller is told of a restore. -/
structure RestoreReceipt where
  restoreId : Id
  sourceBackupId : Id
  deploymentId : Id
  requestId : Id
  newDataRoot : DirPath
  restoredDatabaseDigest : Option Digest
  restored : Option Consistency
  startedAt : String
  finishedAt : String

/-- What a directory holds: not all of a bundle, a bundle, or a data root. -/
inductive Directory (γ : Type) where
  | incomplete
  | extracted (tree : Tree)
  | dataRoot (root : DataRoot γ)

variable {γ : Type}

/-- What the restorer takes from its surroundings: its formats, its release, the content store and
the digest of a path. -/
structure Restorer (γ : Type) where
  host : BackupHost γ
  release : Release γ
  store : ContentStore
  rootDigest : DirPath → Digest

/-- The staging directory of a restore: `.rk-restore-<id>.partial` next to the target. -/
def stagingOf (target : DirPath) (restoreId : Id) : DirPath :=
  target.dropLast ++ [".rk-restore-" ++ restoreId ++ ".partial"]

/-- Whether a row is that of a request. -/
def RestoreRow.answers (row : RestoreRow) (deploymentId requestId : Id) : Bool :=
  row.deploymentId == deploymentId && row.requestId == requestId

/-! ## Calls -/

/-- A restore that is recorded, in the call that works on it. -/
structure Attempt where
  request : RestoreRequest
  restoreId : Id
  startedAt : String

/-- The staging directory of an attempt. -/
def Attempt.staging (a : Attempt) : DirPath := stagingOf a.request.newDataRoot.resolved a.restoreId

/-- What a call does next for a restore that is recorded. -/
inductive Stage (γ : Type) where
  /-- Remove a staging directory that was left behind. -/
  | clean (bundle : List UInt8)
  /-- Make the staging directory. -/
  | make (bundle : List UInt8)
  /-- Extract the bundle. -/
  | extract (bundle : List UInt8)
  /-- Bring the database to the release, and check its counters. -/
  | upgrade (manifest : JsonObject) (tree : Tree)
  /-- Rename the staging directory to the target. -/
  | publish (root : DataRoot γ)
  /-- Take the digest of the published database. -/
  | digest (root : DataRoot γ)
  /-- Record the success. -/
  | finish (root : DataRoot γ) (digest : Digest)
  /-- Give the receipt. -/
  | answer (receipt : RestoreReceipt)
  /-- Handle an exception: remove the staging directory. -/
  | clear (code : String)
  /-- Handle an exception: record the failure. -/
  | fail (code : String)

/-- Where a call is. -/
inductive RestoreCall (γ : Type) where
  /-- Copy the bundle. -/
  | materialize (request : RestoreRequest)
  /-- Record that the restore is running. -/
  | start (request : RestoreRequest) (bundle : List UInt8)
  /-- Work on a restore that is recorded. -/
  | within (a : Attempt) (stage : Stage γ)
  /-- Give the receipt of an earlier call. -/
  | answer (request : RestoreRequest) (receipt : RestoreReceipt)

/-- The table of restores, the directories, and the call that is under way. For the record: what
callers were told, the target of every restore, and the restores that were published. -/
structure Machine (γ : Type) where
  rows : List RestoreRow
  disk : DirPath → Option (Directory γ)
  call : Option (RestoreCall γ) := none
  answered : List (RestoreRequest × RestoreReceipt) := []
  targets : List (Id × DirPath) := []
  published : List (Id × DirPath) := []

/-- What happens: a call begins, the call that is under way goes on, something is raised in it, or
its process is killed. -/
inductive RestoreOp where
  | restore (request : RestoreRequest) (parentReady : Bool)
  | advance (restoreId : Id) (now : String)
  | raise (code : String)
  | kill

section Steps

variable (R : Restorer γ)

def RestoreRow.receipt (row : RestoreRow) (root : DirPath) : RestoreReceipt where
  restoreId := row.restoreId
  sourceBackupId := row.sourceBackupId
  deploymentId := row.deploymentId
  requestId := row.requestId
  newDataRoot := root
  restoredDatabaseDigest := row.restoredDatabaseDigest
  restored := row.restored
  startedAt := row.startedAt
  finishedAt := row.finishedAt

/-- A call begins: it finds an earlier success, or copies its bundle, or is refused. -/
def begin (s : Machine γ) (request : RestoreRequest) (parentReady : Bool) : Option (RestoreCall γ) :=
  if request.sourceBackupId == "" || request.deploymentId == "" || request.requestId == "" then none
  else
    match s.rows.find? fun row =>
      row.answers request.deploymentId request.requestId && row.state == .succeeded with
    | some row =>
      if R.rootDigest request.newDataRoot.resolved == row.targetRootDigest &&
          (s.disk request.newDataRoot.resolved).isSome then
        some (.answer request (row.receipt request.newDataRoot.resolved))
      else none
    | none =>
      if request.newDataRoot.isAbsolute && parentReady then some (.materialize request) else none

/-- Record that a restore is running, or go on with the one that is. -/
def start (s : Machine γ) (request : RestoreRequest) (bundle : List UInt8) (restoreId : Id)
    (now : String) : Machine γ :=
  let digest := R.rootDigest request.newDataRoot.resolved
  match s.rows.find? fun row => row.answers request.deploymentId request.requestId with
  | some row =>
    if row.state == .running && row.targetRootDigest == digest then
      { s with call := some (.within ⟨request, row.restoreId, row.startedAt⟩ (.clean bundle)) }
    else { s with call := none }
  | none =>
    if s.rows.any (·.restoreId == restoreId) then { s with call := none }
    else { s with
      rows := s.rows ++ [{
        restoreId := restoreId, sourceBackupId := request.sourceBackupId
        deploymentId := request.deploymentId, requestId := request.requestId
        targetRootDigest := digest, startedAt := now, finishedAt := now }]
      targets := s.targets ++ [(restoreId, request.newDataRoot.resolved)]
      call := some (.within ⟨request, restoreId, now⟩ (.clean bundle)) }

/-- Whether a row is that of a restore that is running. -/
def RestoreRow.runs (row : RestoreRow) (restoreId : Id) : Bool :=
  row.restoreId == restoreId && row.state == .running

/-- Record that a restore has ended; none where a constraint of the table is violated. -/
def endRow (rows : List RestoreRow) (restoreId : Id) (now : String)
    (change : RestoreRow → RestoreRow) : Option (List RestoreRow) := do
  require (rows.all fun row => !row.runs restoreId || decide (row.startedAt ≤ now))
  return updateWhere (·.runs restoreId) (fun row => { change row with finishedAt := now }) rows

/-- Record a success. -/
def finishSuccess (rows : List RestoreRow) (restoreId : Id) (digest : Digest)
    (consistency : Consistency) (now : String) : Option (List RestoreRow) := do
  require (rows.any (·.runs restoreId))
  endRow rows restoreId now fun row =>
    { row with state := .succeeded, restoredDatabaseDigest := some digest
               restored := some consistency, failureCode := none }

/-- Record a failure. -/
def finishFailure (rows : List RestoreRow) (restoreId : Id) (code now : String) :
    Option (List RestoreRow) :=
  endRow rows restoreId now fun row => { row with state := .failed, failureCode := some code }

/-- Put a directory at a path, or remove what is there. -/
def Machine.put (s : Machine γ) (path : DirPath) (directory : Option (Directory γ)) : Machine γ :=
  { s with disk := Function.update s.disk path directory }

/-- What is raised in a call that works on a restore is handled. -/
def Machine.handle (s : Machine γ) (a : Attempt) (code : String) : Machine γ :=
  { s with call := some (.within a (.clear code)) }

/-- The name under which a failure is recorded. -/
def failureCode : RestoreError → String
  | .restore _ => "RESTOREERROR"
  | .backup _ => "BACKUPERROR"
  | .value _ => "VALUEERROR"
  | .other name => name

/-- The receipt of an attempt. -/
def Attempt.receipt (a : Attempt) (root : DataRoot γ) (digest : Digest) (now : String) :
    RestoreReceipt where
  restoreId := a.restoreId
  sourceBackupId := a.request.sourceBackupId
  deploymentId := a.request.deploymentId
  requestId := a.request.requestId
  newDataRoot := a.request.newDataRoot.resolved
  restoredDatabaseDigest := some digest
  restored := some root.database.consistency
  startedAt := a.startedAt
  finishedAt := now

/-- The manifest and the files of a bundle of the backup that the caller names. -/
def extractFor (request : RestoreRequest) (bundle : List UInt8) :
    Except RestoreError (JsonObject × Tree) := do
  let (manifest, tree) ← extractVerified R.host bundle
  rejectIf (!(manifest.get "backup_id").isText request.sourceBackupId)
    (.restore "source backup identity differs from bundle manifest")
  return (manifest, tree)

/-- The data root of an extracted bundle. -/
def upgradeFor (manifest : JsonObject) (tree : Tree) : Except RestoreError (DataRoot γ) := do
  let database ← upgradeAndRebuild R.host R.release tree
  checkConsistency manifest database
  return { database := database, files := tree.filter (·.1 != "database.sqlite") }

/-- A call goes on with a restore that is recorded. -/
def work (s : Machine γ) (a : Attempt) (now : String) : Stage γ → Machine γ
  | .clean bundle =>
    { s.put a.staging none with call := some (.within a (.make bundle)) }
  | .make bundle =>
    { s.put a.staging (some .incomplete) with call := some (.within a (.extract bundle)) }
  | .extract bundle =>
    match extractFor R a.request bundle with
    | .error e => s.handle a (failureCode e)
    | .ok (manifest, tree) =>
      { s.put a.staging (some (.extracted tree)) with
        call := some (.within a (.upgrade manifest tree)) }
  | .upgrade manifest tree =>
    match upgradeFor R manifest tree with
    | .error e => s.handle a (failureCode e)
    | .ok root =>
      { s.put a.staging (some (.dataRoot root)) with call := some (.within a (.publish root)) }
  | .publish root =>
    if (s.disk a.request.newDataRoot.resolved).isSome then s.handle a "RESTOREERROR"
    else { (s.put a.staging none).put a.request.newDataRoot.resolved (some (.dataRoot root)) with
      published := s.published ++ [(a.restoreId, a.request.newDataRoot.resolved)]
      call := some (.within a (.digest root)) }
  | .digest root =>
    { s with call := some (.within a
        (.finish root (R.host.content.sha256 (R.host.sqlite.file root.database)))) }
  | .finish root digest =>
    match finishSuccess s.rows a.restoreId digest root.database.consistency now with
    | none => s.handle a "RESTOREERROR"
    | some rows =>
      { s with rows := rows, call := some (.within a (.answer (a.receipt root digest now))) }
  | .answer receipt =>
    { s with answered := s.answered ++ [(a.request, receipt)], call := none }
  | .clear code => { s.put a.staging none with call := some (.within a (.fail code)) }
  | .fail code =>
    { s with rows := (finishFailure s.rows a.restoreId code now).getD s.rows, call := none }

/-- The call that is under way goes on. -/
def Machine.advance (s : Machine γ) (restoreId : Id) (now : String) : Machine γ :=
  match s.call with
  | none => s
  | some (.materialize request) =>
    match materialize R.host R.store request.backupArtifact with
    | .error _ => { s with call := none }
    | .ok bundle => { s with call := some (.start request bundle) }
  | some (.start request bundle) => start R s request bundle restoreId now
  | some (.within a stage) => work R s a now stage
  | some (.answer request receipt) =>
    { s with answered := s.answered ++ [(request, receipt)], call := none }

/-- Something is raised in the call that is under way. -/
def Machine.raise (s : Machine γ) (code : String) : Machine γ :=
  match s.call with
  | some (.within a stage) =>
    match stage with
    | .clear _ => { s with call := none }
    | .fail _ => { s with call := none }
    | _ => s.handle a code
  | _ => { s with call := none }

def Machine.step (s : Machine γ) : RestoreOp → Machine γ
  | .restore request parentReady =>
    match s.call with
    | none => { s with call := begin R s request parentReady }
    | some _ => s
  | .advance restoreId now => s.advance R restoreId now
  | .raise code => s.raise code
  | .kill => { s with call := none }

end Steps

/-! ## The law -/

section Law

variable (R : Restorer γ)

/-- A bundle of the backup that a caller names is restored when nothing goes wrong. -/
structure Works (request : RestoreRequest) (restoreId : Id) (bundle : List UInt8)
    (manifest : JsonObject) (tree : Tree) (root : DataRoot γ) : Prop where
  named : request.sourceBackupId ≠ "" ∧ request.deploymentId ≠ "" ∧ request.requestId ≠ ""
  absolute : request.newDataRoot.isAbsolute = true
  materializes : materialize R.host R.store request.backupArtifact = .ok bundle
  extracts : extractFor R request bundle = .ok (manifest, tree)
  upgrades : upgradeFor R manifest tree = .ok root
  apart : request.newDataRoot.resolved ≠ stagingOf request.newDataRoot.resolved restoreId

/-- A call that nothing disturbs. -/
def retry (request : RestoreRequest) (restoreId : Id) (now : String) : List RestoreOp :=
  .restore request true :: List.replicate 10 (.advance restoreId now)

/-- A call ends with a success for the root that it names. -/
structure Succeeds (s : Machine γ) (request : RestoreRequest) (restoreId : Id) : Prop where
  row : ∃ row ∈ s.rows, row.restoreId = restoreId ∧ row.state = .succeeded
  receipt : ∃ receipt, (request, receipt) ∈ s.answered ∧ receipt.restoreId = restoreId ∧
    receipt.newDataRoot = request.newDataRoot.resolved
  published : (restoreId, request.newDataRoot.resolved) ∈ s.published

/-- What holds of the restores of a request. -/
structure CrashAtomic (deploymentId requestId : Id) (s : Machine γ) : Prop where
  /-- A failure is recorded only of what was not published. -/
  failed : ∀ row ∈ s.rows, row.answers deploymentId requestId = true → row.state = .failed →
    ∀ root, (row.restoreId, root) ∉ s.published
  /-- A call after a crash succeeds when nothing disturbs it and the target is free or was
  published by the restore itself. -/
  resumes : ∀ row ∈ s.rows, row.answers deploymentId requestId = true → row.state = .running →
    s.call = none → ∀ request bundle manifest tree root now newId,
      request.deploymentId = deploymentId → request.requestId = requestId →
      request.sourceBackupId = row.sourceBackupId →
      (row.restoreId, request.newDataRoot.resolved) ∈ s.targets →
      (s.disk request.newDataRoot.resolved = none ∨
        (row.restoreId, request.newDataRoot.resolved) ∈ s.published) →
      Works R request row.restoreId bundle manifest tree root → row.startedAt ≤ now →
        Succeeds (runFrom (Machine.step R) s (retry request newId now)) request row.restoreId
  /-- A restore that has ended leaves no staging directory. -/
  tidy : ∀ row ∈ s.rows, row.answers deploymentId requestId = true → row.state ≠ .running →
    ∀ target, (row.restoreId, target) ∈ s.targets → s.disk (stagingOf target row.restoreId) = none
  /-- A call works on a restore only when it names its source and its target. -/
  accepted : ∀ a stage, s.call = some (.within a stage) →
    ∃ row ∈ s.rows, row.answers deploymentId requestId = true ∧ row.restoreId = a.restoreId ∧
      row.sourceBackupId = a.request.sourceBackupId ∧
        s.targets = [(a.restoreId, a.request.newDataRoot.resolved)]
  /-- A call is answered only when it names the source and the target of the restore. -/
  answered : ∀ request receipt, (request, receipt) ∈ s.answered →
    ∃ row ∈ s.rows, row.answers deploymentId requestId = true ∧ row.state = .succeeded ∧
      row.restoreId = receipt.restoreId ∧ row.sourceBackupId = request.sourceBackupId ∧
        receipt.newDataRoot = request.newDataRoot.resolved ∧
          s.targets = [(receipt.restoreId, request.newDataRoot.resolved)]

/-- Whether a data root was published and is not recorded yet. -/
def RestoreCall.unrecorded : RestoreCall γ → Bool
  | .within _ (.digest _) => true
  | .within _ (.finish _ _) => true
  | _ => false

/-- The steps that keep the law: every call is for the request; a call that names the target of a
restore that is running or has succeeded names its source too; and nothing is raised, killed or
refused by the clock between the publication and its record. -/
def Meets (deploymentId requestId : Id) (s : Machine γ) : RestoreOp → Prop
  | .restore request _ => request.deploymentId = deploymentId ∧ request.requestId = requestId ∧
      ∀ row ∈ s.rows, row.answers deploymentId requestId = true → row.state ≠ .failed →
        row.targetRootDigest = R.rootDigest request.newDataRoot.resolved →
          request.sourceBackupId = row.sourceBackupId
  | .advance _ now => ∀ a root digest, s.call = some (.within a (.finish root digest)) →
      a.startedAt ≤ now
  | .raise _ => ∀ call, s.call = some call → call.unrecorded = false
  | .kill => ∀ call, s.call = some call → call.unrecorded = false

end Law

/-! ## The invariant -/

section Invariant

variable (R : Restorer γ) (deploymentId requestId : Id) (others : List RestoreRow)

/-- Nothing was recorded for the request. -/
structure Untouched (s : Machine γ) : Prop where
  rows : s.rows = others
  targets : s.targets = []
  published : s.published = []
  answered : s.answered = []
  call : match s.call with
    | none => True
    | some (.materialize request) | some (.start request _) =>
      request.deploymentId = deploymentId ∧ request.requestId = requestId
    | _ => False

variable (row : RestoreRow) (target : DirPath)

/-- A call is for the request, and names the source of the restore when it names its target. -/
def Named (request : RestoreRequest) : Prop :=
  request.deploymentId = deploymentId ∧ request.requestId = requestId ∧
    (row.state ≠ .failed → row.targetRootDigest = R.rootDigest request.newDataRoot.resolved →
      request.sourceBackupId = row.sourceBackupId)

/-- An attempt is one of the restore. -/
structure Mine (a : Attempt) : Prop where
  restoreId : a.restoreId = row.restoreId
  startedAt : a.startedAt = row.startedAt
  source : a.request.sourceBackupId = row.sourceBackupId
  target : a.request.newDataRoot.resolved = target

/-- The restore is running, and nothing was published. -/
def Open (s : Machine γ) : Prop := row.state = .running ∧ s.published = []

/-- There is no staging directory. -/
def Tidy (s : Machine γ) : Prop := s.disk (stagingOf target row.restoreId) = none

def Done (s : Machine γ) : Prop :=
  row.state = .succeeded ∧ s.published = [(row.restoreId, target)] ∧ Tidy row target s

/-- The restore has failed. -/
def Lost (s : Machine γ) : Prop := row.state = .failed ∧ s.published = [] ∧ Tidy row target s

/-- A receipt is one of the restore, for a call that names its source and its target. -/
structure Fits (request : RestoreRequest) (receipt : RestoreReceipt) : Prop where
  restoreId : receipt.restoreId = row.restoreId
  source : request.sourceBackupId = row.sourceBackupId
  asked : request.newDataRoot.resolved = target
  root : receipt.newDataRoot = target

/-- What holds of a restore that is recorded, at every point of a call. -/
def Placed (s : Machine γ) : Prop :=
  match s.call with
  | none => Open row s ∨ Done row target s ∨ Lost row target s
  | some (.materialize request) | some (.start request _) =>
    Named R deploymentId requestId row request ∧ (Open row s ∨ Lost row target s)
  | some (.answer request receipt) => Done row target s ∧ Fits row target request receipt
  | some (.within a stage) => Mine row target a ∧
    match stage with
    | .clean _ | .make _ | .extract _ => Open row s
    | .upgrade _ _ | .publish _ =>
      Open row s ∧ (s.disk (stagingOf target row.restoreId)).isSome = true
    | .digest _ | .finish _ _ => row.state = .running ∧
      s.published = [(row.restoreId, target)] ∧ Tidy row target s
    | .answer receipt => Done row target s ∧ Fits row target a.request receipt
    | .clear _ => Open row s ∨ Done row target s
    | .fail _ => Tidy row target s ∧ (Open row s ∨ Done row target s)

/-- The restore of the request is recorded. -/
structure Recorded (s : Machine γ) : Prop where
  rows : s.rows = others ++ [row]
  answers : row.answers deploymentId requestId = true
  fresh : ∀ other ∈ others, other.restoreId ≠ row.restoreId
  digest : row.targetRootDigest = R.rootDigest target
  targets : s.targets = [(row.restoreId, target)]
  answered : ∀ answer ∈ s.answered, row.state = .succeeded ∧ Fits row target answer.1 answer.2
  placed : Placed R deploymentId requestId row target s

/-- What is kept by every step. -/
def Sound (s : Machine γ) : Prop :=
  Untouched deploymentId requestId others s ∨
    ∃ row target, Recorded R deploymentId requestId others row target s

end Invariant

/-! ## Steps -/

section Kept

variable {R : Restorer γ} {deploymentId requestId : Id} {others : List RestoreRow}
  {row : RestoreRow} {target : DirPath} {s : Machine γ}

def Apart (deploymentId requestId : Id) (others : List RestoreRow) : Prop :=
  ∀ other ∈ others, other.answers deploymentId requestId = false

/-- The row of a request that is recorded is found. -/
theorem find?_answers (hothers : Apart deploymentId requestId others)
    (hanswers : row.answers deploymentId requestId = true) (test : RestoreRow → Bool) :
    (others ++ [row]).find? (fun other => other.answers deploymentId requestId && test other) =
      if test row then some row else none := by
  have hnone : others.find? (fun other => other.answers deploymentId requestId && test other) =
      none := by
    rw [List.find?_eq_none]
    intro other hother
    simp [hothers other hother]
  rw [List.find?_append, hnone, Option.none_or]
  cases htest : test row <;> simp [hanswers, htest]

theorem find?_others (hothers : Apart deploymentId requestId others) (test : RestoreRow → Bool) :
    others.find? (fun other => other.answers deploymentId requestId && test other) = none := by
  rw [List.find?_eq_none]
  intro other hother
  simp [hothers other hother]

variable {now : String}

/-- The end of a restore changes its row alone. -/
theorem endRow_eq (hfresh : ∀ other ∈ others, other.restoreId ≠ row.restoreId)
    (hrunning : row.state = .running) (change : RestoreRow → RestoreRow) :
    endRow (others ++ [row]) row.restoreId now change =
      if row.startedAt ≤ now then some (others ++ [{ change row with finishedAt := now }])
      else none := by
  have hothers : ∀ other ∈ others, other.runs row.restoreId = false := by
    intro other hother
    simp [RestoreRow.runs, hfresh other hother]
  have hruns : row.runs row.restoreId = true := by simp [RestoreRow.runs, hrunning]
  have hall : ((others ++ [row]).all fun other =>
      !other.runs row.restoreId || decide (other.startedAt ≤ now)) =
        decide (row.startedAt ≤ now) := by
    rw [List.all_append, List.all_eq_true.mpr fun other hother => by simp [hothers other hother]]
    simp [hruns]
  unfold endRow
  rw [hall]
  by_cases htime : row.startedAt ≤ now
  · have hupdate : updateWhere (·.runs row.restoreId)
        (fun other => { change other with finishedAt := now }) (others ++ [row]) =
          others ++ [{ change row with finishedAt := now }] := by
      have hleft : updateWhere (·.runs row.restoreId)
          (fun other => { change other with finishedAt := now }) others = others :=
        updateWhere_of_miss hothers
      unfold updateWhere at hleft ⊢
      rw [List.map_append, hleft]
      simp [hruns]
    rw [if_pos htime, hupdate]
    simp [htime, require]
  · simp [htime, require]

theorem finishFailure_of_ended (hfresh : ∀ other ∈ others, other.restoreId ≠ row.restoreId)
    (hended : row.state ≠ .running) (code now : String) :
    finishFailure (others ++ [row]) row.restoreId code now = some (others ++ [row]) := by
  have hmiss : ∀ other ∈ others ++ [row], other.runs row.restoreId = false := by
    intro other hother
    rcases List.mem_append.mp hother with hother | hother
    · simp [RestoreRow.runs, hfresh other hother]
    · obtain rfl := List.mem_singleton.mp hother
      simp [RestoreRow.runs, hended]
  unfold finishFailure endRow
  rw [List.all_eq_true.mpr fun other hother => by simp [hmiss other hother],
    updateWhere_of_miss hmiss]
  rfl

/-- A step that leaves the table, the targets and the answers. -/
theorem Recorded.keep (h : Recorded R deploymentId requestId others row target s) {s' : Machine γ}
    (hrows : s'.rows = s.rows) (htargets : s'.targets = s.targets)
    (hanswered : s'.answered = s.answered)
    (hplaced : Placed R deploymentId requestId row target s') :
    Recorded R deploymentId requestId others row target s' where
  rows := hrows.trans h.rows
  answers := h.answers
  fresh := h.fresh
  digest := h.digest
  targets := htargets.trans h.targets
  answered := by
    rw [hanswered]
    exact h.answered
  placed := hplaced

variable {request : RestoreRequest}

/-- A call that finds no earlier success copies its bundle, if it is not refused. -/
theorem begin_of_none (ready : Bool)
    (h : s.rows.find? (fun row => row.answers request.deploymentId request.requestId &&
      row.state == .succeeded) = none) :
    begin R s request ready = none ∨ begin R s request ready = some (.materialize request) := by
  unfold Restoring.begin
  rw [h]
  dsimp only
  split
  · exact Or.inl rfl
  · split
    · exact Or.inr rfl
    · exact Or.inl rfl

/-- A call that finds an earlier success is answered with it, if it names its target. -/
theorem begin_of_some (ready : Bool)
    (h : s.rows.find? (fun row => row.answers request.deploymentId request.requestId &&
      row.state == .succeeded) = some row) :
    begin R s request ready = none ∨
      R.rootDigest request.newDataRoot.resolved = row.targetRootDigest ∧
        begin R s request ready =
          some (.answer request (row.receipt request.newDataRoot.resolved)) := by
  unfold Restoring.begin
  rw [h]
  dsimp only
  split
  · exact Or.inl rfl
  · split
    · rename_i hsame
      rw [Bool.and_eq_true, beq_iff_eq] at hsame
      exact Or.inr ⟨hsame.1, rfl⟩
    · exact Or.inl rfl

/-- A call that begins before anything was recorded. -/
theorem Untouched.begin (h : Untouched deploymentId requestId others s)
    (hothers : Apart deploymentId requestId others) {request : RestoreRequest} {ready : Bool}
    (hrequest : request.deploymentId = deploymentId ∧ request.requestId = requestId) :
    Untouched deploymentId requestId others { s with call := begin R s request ready } := by
  have hnone := find?_others hothers (·.state == .succeeded)
  rw [← hrequest.1, ← hrequest.2, ← h.rows] at hnone
  refine ⟨h.rows, h.targets, h.published, h.answered, ?_⟩
  dsimp only
  obtain hcall | hcall := begin_of_none (R := R) ready hnone
  · rw [hcall]
    trivial
  · rw [hcall]
    exact hrequest

/-- A restore that is recorded for the first time. -/
theorem Untouched.start (h : Untouched deploymentId requestId others s)
    (hothers : Apart deploymentId requestId others) {request : RestoreRequest}
    {bundle : List UInt8} {newId : Id} {now : String}
    (hrequest : request.deploymentId = deploymentId ∧ request.requestId = requestId) :
    Sound R deploymentId requestId others (start R s request bundle newId now) := by
  have hnone := find?_others hothers fun _ => true
  simp only [Bool.and_true] at hnone
  rw [← hrequest.1, ← hrequest.2, ← h.rows] at hnone
  unfold Restoring.start
  dsimp only
  rw [hnone]
  dsimp only
  split
  · exact Or.inl ⟨h.rows, h.targets, h.published, h.answered, trivial⟩
  · rename_i hfresh
    refine Or.inr ⟨{ restoreId := newId, sourceBackupId := request.sourceBackupId
                     deploymentId := request.deploymentId, requestId := request.requestId
                     targetRootDigest := R.rootDigest request.newDataRoot.resolved
                     startedAt := now, finishedAt := now },
      request.newDataRoot.resolved, ?_, ?_, ?_, rfl, ?_, ?_, ?_⟩
    · exact congrArg (· ++ [_]) h.rows
    · simp [RestoreRow.answers, hrequest.1, hrequest.2]
    · rw [← h.rows]
      intro other hother heq
      exact hfresh (List.any_eq_true.mpr ⟨other, hother, by simpa using heq⟩)
    · change s.targets ++ [_] = _
      rw [h.targets]
      rfl
    · intro answer hanswer
      change answer ∈ s.answered at hanswer
      rw [h.answered] at hanswer
      cases hanswer
    · exact ⟨⟨rfl, rfl, rfl, rfl⟩, rfl, h.published⟩

theorem sound_untouched (h : Untouched deploymentId requestId others s)
    (hothers : Apart deploymentId requestId others) {op : RestoreOp}
    (hmeets : Meets R deploymentId requestId s op) :
    Sound R deploymentId requestId others (s.step R op) := by
  have hidle : Untouched deploymentId requestId others { s with call := none } :=
    ⟨h.rows, h.targets, h.published, h.answered, trivial⟩
  have hplaced := h.call
  cases op with
  | restore request ready =>
    unfold Machine.step
    cases hcall : s.call with
    | none => exact Or.inl (h.begin hothers ⟨hmeets.1, hmeets.2.1⟩)
    | some call => exact Or.inl h
  | advance newId now =>
    unfold Machine.step Machine.advance
    cases hcall : s.call with
    | none => exact Or.inl h
    | some call =>
      rw [hcall] at hplaced
      cases call with
      | materialize request =>
        dsimp only
        cases materialize R.host R.store request.backupArtifact with
        | error e => exact Or.inl hidle
        | ok bundle => exact Or.inl ⟨h.rows, h.targets, h.published, h.answered, hplaced⟩
      | start request bundle => exact h.start hothers hplaced
      | within | answer => exact hplaced.elim
  | raise code =>
    unfold Machine.step Machine.raise
    cases hcall : s.call with
    | none => exact Or.inl hidle
    | some call =>
      rw [hcall] at hplaced
      cases call with
      | materialize | start => exact Or.inl hidle
      | within | answer => exact hplaced.elim
  | kill => exact Or.inl hidle

theorem Mine.staging {a : Attempt} (h : Mine row target a) :
    a.staging = stagingOf target row.restoreId := by
  unfold Attempt.staging
  rw [h.target, h.restoreId]

variable {a : Attempt}

theorem Mine.put_staging (h : Mine row target a) (directory : Option (Directory γ)) :
    (s.put a.staging directory).disk (stagingOf target row.restoreId) = directory := by
  unfold Machine.put
  rw [h.staging]
  exact Function.update_self ..

/-- The restore is published. -/
theorem Recorded.publish (h : Recorded R deploymentId requestId others row target s)
    (hmine : Mine row target a) (hopen : Open row s)
    (hstaged : (s.disk (stagingOf target row.restoreId)).isSome = true)
    (hfree : s.disk target = none) (root : DataRoot γ) :
    Recorded R deploymentId requestId others row target
      { (s.put a.staging none).put a.request.newDataRoot.resolved (some (.dataRoot root)) with
        published := s.published ++ [(a.restoreId, a.request.newDataRoot.resolved)]
        call := some (.within a (.digest root)) } := by
  have hapart : stagingOf target row.restoreId ≠ target := by
    intro heq
    rw [heq, hfree] at hstaged
    cases hstaged
  refine h.keep rfl rfl rfl ⟨hmine, hopen.1, ?_, ?_⟩
  · change s.published ++ [_] = _
    rw [hopen.2, hmine.restoreId, hmine.target]
    rfl
  · change Function.update (Function.update s.disk a.staging none) a.request.newDataRoot.resolved
      (some (.dataRoot root)) (stagingOf target row.restoreId) = none
    rw [hmine.target, Function.update_of_ne hapart, hmine.staging, Function.update_self]

/-- The row of a restore that has ended. -/
theorem Recorded.ended (h : Recorded R deploymentId requestId others row target s)
    (hrunning : row.state = .running) {row' : RestoreRow} {s' : Machine γ}
    (hsame : row'.restoreId = row.restoreId ∧ row'.targetRootDigest = row.targetRootDigest ∧
      row'.answers deploymentId requestId = row.answers deploymentId requestId)
    (hrows : s'.rows = others ++ [row']) (htargets : s'.targets = s.targets)
    (hanswered : s'.answered = s.answered)
    (hplaced : Placed R deploymentId requestId row' target s') :
    Recorded R deploymentId requestId others row' target s' where
  rows := hrows
  answers := hsame.2.2.trans h.answers
  fresh := by
    rw [hsame.1]
    exact h.fresh
  digest := hsame.2.1.trans h.digest
  targets := by
    rw [htargets, h.targets, hsame.1]
  answered := by
    rw [hanswered]
    intro answer hanswer
    have hstate := (h.answered answer hanswer).1
    rw [hrunning] at hstate
    cases hstate
  placed := hplaced

variable {root : DataRoot γ}

/-- The success of a restore is recorded. -/
theorem Recorded.finish (h : Recorded R deploymentId requestId others row target s)
    (hmine : Mine row target a) (hrunning : row.state = .running)
    (hpublished : s.published = [(row.restoreId, target)]) (htidy : Tidy row target s)
    {digest : Digest} (htime : a.startedAt ≤ now) :
    ∃ row', Recorded R deploymentId requestId others row' target
      (work R s a now (.finish root digest)) := by
  have hany : (others ++ [row]).any (·.runs row.restoreId) = true := by
    simp [RestoreRow.runs, hrunning]
  set succeeded : RestoreRow := { row with
    state := .succeeded, restoredDatabaseDigest := some digest
    restored := some root.database.consistency, failureCode := none, finishedAt := now }
  have hfinish : finishSuccess s.rows a.restoreId digest root.database.consistency now =
      some (others ++ [succeeded]) := by
    unfold finishSuccess
    rw [h.rows, hmine.restoreId, hany, endRow_eq h.fresh hrunning, if_pos (hmine.startedAt ▸ htime)]
    rfl
  refine ⟨succeeded, ?_⟩
  unfold work
  dsimp only
  rw [hfinish]
  refine h.ended hrunning ?_ rfl rfl rfl ?_
  · exact ⟨rfl, rfl, rfl⟩
  · exact ⟨⟨hmine.restoreId, hmine.startedAt, hmine.source, hmine.target⟩,
      ⟨rfl, hpublished, htidy⟩, ⟨hmine.restoreId, hmine.source, hmine.target, hmine.target⟩⟩

/-- The failure of a restore is recorded, unless it has ended or the clock is behind. -/
theorem Recorded.fail (h : Recorded R deploymentId requestId others row target s)
    (hmine : Mine row target a) (htidy : Tidy row target s)
    (hstate : Open row s ∨ Done row target s) {code : String} :
    ∃ row', Recorded R deploymentId requestId others row' target (work R s a now (.fail code)) := by
  unfold work
  dsimp only
  rcases hstate with hopen | hdone
  · by_cases htime : row.startedAt ≤ now
    · set failed : RestoreRow := { row with
        state := .failed, failureCode := some code, finishedAt := now }
      have hfail : finishFailure s.rows a.restoreId code now = some (others ++ [failed]) := by
        unfold finishFailure
        rw [h.rows, hmine.restoreId, endRow_eq h.fresh hopen.1, if_pos htime]
      refine ⟨failed, ?_⟩
      rw [hfail, Option.getD_some]
      refine h.ended hopen.1 ?_ rfl rfl rfl ?_
      · exact ⟨rfl, rfl, rfl⟩
      · exact Or.inr (Or.inr ⟨rfl, hopen.2, htidy⟩)
    · have hfail : finishFailure s.rows a.restoreId code now = none := by
        unfold finishFailure
        rw [h.rows, hmine.restoreId, endRow_eq h.fresh hopen.1, if_neg htime]
      refine ⟨row, ?_⟩
      rw [hfail, Option.getD_none]
      exact h.keep rfl rfl rfl (Or.inl hopen)
  · have hended : row.state ≠ .running := by
      rw [hdone.1]
      decide
    refine ⟨row, ?_⟩
    rw [h.rows, hmine.restoreId, finishFailure_of_ended h.fresh hended, Option.getD_some]
    exact h.keep h.rows.symm rfl rfl (Or.inr (Or.inl hdone))

/-- A call that goes on with the restore keeps it recorded. -/
theorem sound_work (h : Recorded R deploymentId requestId others row target s) {stage : Stage γ}
    (hcall : s.call = some (.within a stage))
    (hclock : ∀ root digest, stage = .finish root digest → a.startedAt ≤ now) :
    ∃ row', Recorded R deploymentId requestId others row' target (work R s a now stage) := by
  have hplaced := h.placed
  rw [Placed, hcall] at hplaced
  obtain ⟨hmine, hplaced⟩ := hplaced
  cases stage with
  | clean | make | digest => exact ⟨row, h.keep rfl rfl rfl ⟨hmine, hplaced⟩⟩
  | extract bundle =>
    refine ⟨row, ?_⟩
    unfold work
    dsimp only
    cases extractFor R a.request bundle with
    | error e => exact h.keep rfl rfl rfl ⟨hmine, Or.inl hplaced⟩
    | ok found =>
      refine h.keep rfl rfl rfl ⟨hmine, hplaced, ?_⟩
      exact congrArg Option.isSome (hmine.put_staging _)
  | upgrade manifest tree =>
    refine ⟨row, ?_⟩
    unfold work
    dsimp only
    cases upgradeFor R manifest tree with
    | error e => exact h.keep rfl rfl rfl ⟨hmine, Or.inl hplaced.1⟩
    | ok root =>
      refine h.keep rfl rfl rfl ⟨hmine, hplaced.1, ?_⟩
      exact congrArg Option.isSome (hmine.put_staging _)
  | publish root =>
    refine ⟨row, ?_⟩
    unfold work
    dsimp only
    split
    · exact h.keep rfl rfl rfl ⟨hmine, Or.inl hplaced.1⟩
    · rename_i hfree
      rw [hmine.target, Bool.not_eq_true, Option.isSome_eq_false_iff, Option.isNone_iff_eq_none]
        at hfree
      exact h.publish hmine hplaced.1 hplaced.2 hfree root
  | finish root digest =>
    exact h.finish hmine hplaced.1 hplaced.2.1 hplaced.2.2 (hclock root digest rfl)
  | answer receipt =>
    refine ⟨row, h.rows, h.answers, h.fresh, h.digest, h.targets, ?_, Or.inr (Or.inl hplaced.1)⟩
    intro answer hanswer
    rcases List.mem_append.mp hanswer with hanswer | hanswer
    · exact h.answered answer hanswer
    · obtain rfl := List.mem_singleton.mp hanswer
      exact ⟨hplaced.1.1, hplaced.2⟩
  | clear code =>
    have htidy : Tidy row target (s.put a.staging none) := hmine.put_staging none
    refine ⟨row, h.keep rfl rfl rfl ⟨hmine, htidy, ?_⟩⟩
    exact hplaced.imp id fun hdone => ⟨hdone.1, hdone.2.1, htidy⟩
  | fail code => exact h.fail hmine hplaced.1 hplaced.2

/-- Where a restore is when no call works on it, unless a publication was not recorded. -/
theorem Placed.idle (h : Placed R deploymentId requestId row target s)
    (hrecorded : ∀ call, s.call = some call → call.unrecorded = false) :
    Open row s ∨ Done row target s ∨ Lost row target s := by
  unfold Placed at h
  cases hcall : s.call with
  | none =>
    rw [hcall] at h
    exact h
  | some call =>
    rw [hcall] at h
    have hcall' := hrecorded call hcall
    cases call with
    | materialize | start => exact h.2.imp id Or.inr
    | answer request receipt => exact Or.inr (Or.inl h.1)
    | within a stage =>
      obtain ⟨-, h⟩ := h
      cases stage with
      | clean bundle => exact Or.inl h
      | make bundle => exact Or.inl h
      | extract bundle => exact Or.inl h
      | upgrade manifest tree => exact Or.inl h.1
      | publish root => exact Or.inl h.1
      | digest root => cases hcall'
      | finish root digest => cases hcall'
      | answer receipt => exact Or.inr (Or.inl h.1)
      | clear code => exact h.imp id Or.inl
      | fail code => exact h.2.imp id Or.inl

theorem Recorded.idle (h : Recorded R deploymentId requestId others row target s)
    (hrecorded : ∀ call, s.call = some call → call.unrecorded = false) :
    Recorded R deploymentId requestId others row target { s with call := none } :=
  h.keep rfl rfl rfl (h.placed.idle hrecorded)

theorem Recorded.find? (h : Recorded R deploymentId requestId others row target s)
    (hothers : Apart deploymentId requestId others)
    (hrequest : request.deploymentId = deploymentId ∧ request.requestId = requestId)
    (test : RestoreRow → Bool) :
    s.rows.find? (fun other => other.answers request.deploymentId request.requestId && test other) =
      if test row then some row else none := by
  rw [hrequest.1, hrequest.2, h.rows]
  exact find?_answers hothers h.answers test

/-- A call that begins after the restore was recorded. -/
theorem Recorded.begin (h : Recorded R deploymentId requestId others row target s)
    (hothers : Apart deploymentId requestId others) (hinjective : Function.Injective R.rootDigest)
    (hcall : s.call = none) {request : RestoreRequest} {ready : Bool}
    (hmeets : Meets R deploymentId requestId s (.restore request ready)) :
    Recorded R deploymentId requestId others row target
      { s with call := begin R s request ready } := by
  obtain ⟨hdeployment, hrequest, hsource⟩ := hmeets
  have hnamed : Named R deploymentId requestId row request := by
    refine ⟨hdeployment, hrequest, fun hstate hdigest => ?_⟩
    refine hsource row ?_ h.answers hstate hdigest
    rw [h.rows]
    exact List.mem_append_right _ List.mem_cons_self
  have hplaced := h.placed
  rw [Placed, hcall] at hplaced
  have hfind := h.find? hothers ⟨hdeployment, hrequest⟩ (·.state == .succeeded)
  by_cases hdone : row.state = .succeeded
  · rw [if_pos (by rw [hdone]; rfl)] at hfind
    have hended : Done row target s := by
      rcases hplaced with hopen | hended | hlost
      · exact absurd (hdone.symm.trans hopen.1) (by decide)
      · exact hended
      · exact absurd (hdone.symm.trans hlost.1) (by decide)
    obtain hbegin | ⟨hdigest, hbegin⟩ := begin_of_some (R := R) ready hfind
    · rw [hbegin]
      exact h.keep rfl rfl rfl hplaced
    · rw [hbegin]
      have htarget : request.newDataRoot.resolved = target :=
        hinjective (hdigest.trans h.digest)
      refine h.keep rfl rfl rfl ⟨hended, rfl, ?_, htarget, htarget⟩
      exact hnamed.2.2 (by rw [hdone]; decide) hdigest.symm
  · rw [if_neg (by simpa using hdone)] at hfind
    have hwaiting : Open row s ∨ Lost row target s := by
      rcases hplaced with hopen | hended | hlost
      · exact Or.inl hopen
      · exact absurd hended.1 hdone
      · exact Or.inr hlost
    obtain hbegin | hbegin := begin_of_none (R := R) ready hfind
    · rw [hbegin]
      exact h.keep rfl rfl rfl hplaced
    · rw [hbegin]
      exact h.keep rfl rfl rfl ⟨hnamed, hwaiting⟩

/-- A call that finds the restore goes on with it when it is running and has its target. -/
theorem Recorded.start (h : Recorded R deploymentId requestId others row target s)
    (hothers : Apart deploymentId requestId others) (hinjective : Function.Injective R.rootDigest)
    {request : RestoreRequest} (hnamed : Named R deploymentId requestId row request)
    (hwaiting : Open row s ∨ Lost row target s) {bundle : List UInt8} {newId : Id} {now : String} :
    Recorded R deploymentId requestId others row target (start R s request bundle newId now) := by
  have hfind := h.find? hothers ⟨hnamed.1, hnamed.2.1⟩ fun _ => true
  simp only [Bool.and_true, if_true] at hfind
  unfold Restoring.start
  dsimp only
  rw [hfind]
  dsimp only
  split
  · rename_i hresumes
    rw [Bool.and_eq_true, beq_iff_eq, beq_iff_eq] at hresumes
    have hopen : Open row s := by
      rcases hwaiting with hopen | hlost
      · exact hopen
      · exact absurd (hresumes.1.symm.trans hlost.1) (by decide)
    refine h.keep rfl rfl rfl ⟨⟨rfl, rfl, ?_, ?_⟩, hopen⟩
    · exact hnamed.2.2 (by rw [hresumes.1]; decide) hresumes.2
    · exact hinjective (hresumes.2.symm.trans h.digest)
  · exact h.keep rfl rfl rfl (hwaiting.imp id Or.inr)

/-- The call that is under way keeps the restore recorded when it goes on. -/
theorem Recorded.advance (h : Recorded R deploymentId requestId others row target s)
    (hothers : Apart deploymentId requestId others) (hinjective : Function.Injective R.rootDigest)
    {newId : Id} {now : String} (hmeets : Meets R deploymentId requestId s (.advance newId now)) :
    ∃ row', Recorded R deploymentId requestId others row' target (s.advance R newId now) := by
  have hplaced := h.placed
  unfold Machine.advance
  cases hcall : s.call with
  | none => exact ⟨row, h⟩
  | some call =>
    rw [Placed, hcall] at hplaced
    cases call with
    | materialize request =>
      refine ⟨row, ?_⟩
      dsimp only
      cases materialize R.host R.store request.backupArtifact with
      | error e => exact h.keep rfl rfl rfl (hplaced.2.imp id Or.inr)
      | ok bundle => exact h.keep rfl rfl rfl hplaced
    | start request bundle =>
      exact ⟨row, h.start hothers hinjective hplaced.1 hplaced.2⟩
    | within a stage =>
      refine sound_work h hcall fun root digest heq => ?_
      exact hmeets a root digest (by rw [hcall, heq])
    | answer request receipt =>
      refine ⟨row, h.rows, h.answers, h.fresh, h.digest, h.targets, ?_, Or.inr (Or.inl hplaced.1)⟩
      intro answer hanswer
      rcases List.mem_append.mp hanswer with hanswer | hanswer
      · exact h.answered answer hanswer
      · obtain rfl := List.mem_singleton.mp hanswer
        exact ⟨hplaced.1.1, hplaced.2⟩

/-- What is raised keeps the restore recorded, unless a publication was not recorded. -/
theorem Recorded.raise (h : Recorded R deploymentId requestId others row target s) {code : String}
    (hrecorded : ∀ call, s.call = some call → call.unrecorded = false) :
    Recorded R deploymentId requestId others row target (s.raise code) := by
  have hidle := h.idle hrecorded
  have hplaced := h.placed
  unfold Machine.raise
  cases hcall : s.call with
  | none => exact hidle
  | some call =>
    rw [Placed, hcall] at hplaced
    have hcall' := hrecorded call hcall
    cases call with
    | materialize | start | answer => exact hidle
    | within a stage =>
      obtain ⟨hmine, hplaced⟩ := hplaced
      cases stage with
      | clean bundle => exact h.keep rfl rfl rfl ⟨hmine, Or.inl hplaced⟩
      | make bundle => exact h.keep rfl rfl rfl ⟨hmine, Or.inl hplaced⟩
      | extract bundle => exact h.keep rfl rfl rfl ⟨hmine, Or.inl hplaced⟩
      | upgrade manifest tree => exact h.keep rfl rfl rfl ⟨hmine, Or.inl hplaced.1⟩
      | publish root => exact h.keep rfl rfl rfl ⟨hmine, Or.inl hplaced.1⟩
      | digest root => cases hcall'
      | finish root digest => cases hcall'
      | answer receipt => exact h.keep rfl rfl rfl ⟨hmine, Or.inr hplaced.1⟩
      | clear code => exact hidle
      | fail code => exact hidle

theorem sound_step (hothers : Apart deploymentId requestId others)
    (hinjective : Function.Injective R.rootDigest) (op : RestoreOp)
    (h : Sound R deploymentId requestId others s) (hmeets : Meets R deploymentId requestId s op) :
    Sound R deploymentId requestId others (s.step R op) := by
  rcases h with h | ⟨row, target, h⟩
  · exact sound_untouched h hothers hmeets
  · right
    cases op with
    | restore request ready =>
      unfold Machine.step
      cases hcall : s.call with
      | none => exact ⟨row, target, h.begin hothers hinjective hcall hmeets⟩
      | some call => exact ⟨row, target, h⟩
    | advance newId now =>
      obtain ⟨row', hrow'⟩ := h.advance hothers hinjective hmeets
      exact ⟨row', target, hrow'⟩
    | raise code => exact ⟨row, target, h.raise hmeets⟩
    | kill => exact ⟨row, target, h.idle hmeets⟩

/-! ## A call that nothing disturbs -/

variable {bundle : List UInt8} {manifest : JsonObject} {tree : Tree}

/-- The directory of a restore is built. -/
theorem builds (hworks : Works R a.request a.restoreId bundle manifest tree root)
    (hcall : s.call = some (.within a (.clean bundle))) (newId : Id) (now : String) :
    runFrom (Machine.step R) s (List.replicate 4 (.advance newId now)) =
      { s with
        disk := Function.update s.disk a.staging (some (.dataRoot root))
        call := some (.within a (.publish root)) } := by
  have hclean : s.step R (.advance newId now) =
      { s with disk := Function.update s.disk a.staging none
               call := some (.within a (.make bundle)) } := by
    rw [Machine.step, Machine.advance, hcall]
    rfl
  have hmake (disk : DirPath → Option (Directory γ)) : Machine.step R
      { s with disk := disk, call := some (.within a (.make bundle)) } (.advance newId now) =
        { s with disk := Function.update disk a.staging (some .incomplete)
                 call := some (.within a (.extract bundle)) } := rfl
  have hextract (disk : DirPath → Option (Directory γ)) : Machine.step R
      { s with disk := disk, call := some (.within a (.extract bundle)) } (.advance newId now) =
        { s with disk := Function.update disk a.staging (some (.extracted tree))
                 call := some (.within a (.upgrade manifest tree)) } := by
    unfold Machine.step Machine.advance work
    dsimp only
    rw [hworks.extracts]
    rfl
  have hupgrade (disk : DirPath → Option (Directory γ)) : Machine.step R
      { s with disk := disk, call := some (.within a (.upgrade manifest tree)) }
        (.advance newId now) =
        { s with disk := Function.update disk a.staging (some (.dataRoot root))
                 call := some (.within a (.publish root)) } := by
    unfold Machine.step Machine.advance work
    dsimp only
    rw [hworks.upgrades]
    rfl
  simp only [List.replicate, runFrom_cons, runFrom_nil, hclean, hmake, hextract, hupgrade,
    Function.update_idem]

/-- A call of a restore that is running comes to its publication. -/
theorem reaches_publish (hworks : Works R request row.restoreId bundle manifest tree root)
    (hfound : s.rows.find? (fun other => other.answers request.deploymentId request.requestId) =
      some row)
    (hopen : s.rows.find? (fun other => other.answers request.deploymentId request.requestId &&
      other.state == .succeeded) = none) (hrunning : row.state = .running)
    (hdigest : row.targetRootDigest = R.rootDigest request.newDataRoot.resolved)
    (hcall : s.call = none) (newId : Id) (now : String) :
    runFrom (Machine.step R) s (.restore request true :: List.replicate 6 (.advance newId now)) =
      { s with
        disk := Function.update s.disk
          (stagingOf request.newDataRoot.resolved row.restoreId) (some (.dataRoot root))
        call := some (.within ⟨request, row.restoreId, row.startedAt⟩ (.publish root)) } := by
  obtain ⟨hsource, hdeployment, hrequest⟩ := hworks.named
  have hbegin : s.step R (.restore request true) =
      { s with call := some (.materialize request) } := by
    unfold Machine.step begin
    rw [hcall]
    dsimp only
    rw [hopen, if_neg (by simp [hsource, hdeployment, hrequest]), hworks.absolute]
    rfl
  have hmaterialize : Machine.step R { s with call := some (.materialize request) }
      (.advance newId now) = { s with call := some (.start request bundle) } := by
    unfold Machine.step Machine.advance
    dsimp only
    rw [hworks.materializes]
  have hstart : Machine.step R { s with call := some (.start request bundle) }
      (.advance newId now) =
        { s with call := some (.within ⟨request, row.restoreId, row.startedAt⟩
          (.clean bundle)) } := by
    unfold Machine.step Machine.advance Restoring.start
    dsimp only
    rw [hfound]
    dsimp only
    rw [if_pos (by simp [hrunning, hdigest])]
  rw [runFrom_cons, hbegin, List.replicate_succ, runFrom_cons, hmaterialize, List.replicate_succ,
    runFrom_cons, hstart]
  exact builds (a := ⟨request, row.restoreId, row.startedAt⟩)
    (s := { s with call := some (.within ⟨request, row.restoreId, row.startedAt⟩ (.clean bundle)) })
    hworks rfl newId now

/-- The machine after a publication. -/
def Machine.publishes (s : Machine γ) (a : Attempt) (root : DataRoot γ) : Machine γ :=
  { (s.put a.staging none).put a.request.newDataRoot.resolved (some (.dataRoot root)) with
    published := s.published ++ [(a.restoreId, a.request.newDataRoot.resolved)]
    call := some (.within a (.digest root)) }

/-- A target that is free is published. -/
theorem step_publish (hcall : s.call = some (.within a (.publish root)))
    (hfree : s.disk a.request.newDataRoot.resolved = none) (newId : Id) (now : String) :
    s.step R (.advance newId now) = s.publishes a root := by
  unfold Machine.step Machine.advance
  rw [hcall]
  unfold work
  dsimp only
  rw [hfree]
  rfl

theorem step_publish_taken (hcall : s.call = some (.within a (.publish root)))
    (htaken : (s.disk a.request.newDataRoot.resolved).isSome = true) (newId : Id) (now : String) :
    s.step R (.advance newId now) = s.handle a "RESTOREERROR" := by
  unfold Machine.step Machine.advance
  rw [hcall]
  unfold work
  dsimp only
  rw [if_pos htaken]

/-- What was published is recorded, and the caller gets the receipt. -/
theorem records (hcall : s.call = some (.within a (.digest root)))
    (hrows : s.rows = others ++ [row]) (hfresh : ∀ other ∈ others, other.restoreId ≠ row.restoreId)
    (hid : a.restoreId = row.restoreId) (hrunning : row.state = .running)
    (htime : row.startedAt ≤ now) (newId : Id) :
    ∃ receipt : RestoreReceipt, receipt.restoreId = a.restoreId ∧
      receipt.newDataRoot = a.request.newDataRoot.resolved ∧
      ∃ row' : RestoreRow, row'.restoreId = row.restoreId ∧ row'.state = .succeeded ∧
        runFrom (Machine.step R) s (List.replicate 3 (.advance newId now)) =
          { s with rows := others ++ [row'], answered := s.answered ++ [(a.request, receipt)]
                   call := none } := by
  set digest := R.host.content.sha256 (R.host.sqlite.file root.database) with hdigest
  set succeeded : RestoreRow := { row with
    state := .succeeded, restoredDatabaseDigest := some digest
    restored := some root.database.consistency, failureCode := none, finishedAt := now }
  have hstep : s.step R (.advance newId now) =
      { s with call := some (.within a (.finish root digest)) } := by
    unfold Machine.step Machine.advance
    rw [hcall]
    rfl
  have hany : (others ++ [row]).any (·.runs row.restoreId) = true := by
    simp [RestoreRow.runs, hrunning]
  have hsuccess : finishSuccess s.rows a.restoreId digest root.database.consistency now =
      some (others ++ [succeeded]) := by
    unfold finishSuccess
    rw [hrows, hid, hany, endRow_eq hfresh hrunning, if_pos htime]
    rfl
  have hfinish : Machine.step R { s with call := some (.within a (.finish root digest)) }
      (.advance newId now) = { s with
        rows := others ++ [succeeded]
        call := some (.within a (.answer (a.receipt root digest now))) } := by
    unfold Machine.step Machine.advance work
    dsimp only
    rw [hsuccess]
  refine ⟨a.receipt root digest now, rfl, rfl, succeeded, rfl, rfl, ?_⟩
  rw [List.replicate_succ, runFrom_cons, hstep, List.replicate_succ, runFrom_cons, hfinish]
  rfl

/-- A call of a restore that is running and was not published succeeds. -/
theorem Recorded.resumes (h : Recorded R deploymentId requestId others row target s)
    (hothers : Apart deploymentId requestId others) (hrunning : row.state = .running)
    (hcall : s.call = none) (newId : Id)
    (hrequest : request.deploymentId = deploymentId ∧ request.requestId = requestId)
    (htarget : request.newDataRoot.resolved = target) (hfree : s.disk target = none)
    (hworks : Works R request row.restoreId bundle manifest tree root)
    (htime : row.startedAt ≤ now) :
    Succeeds (runFrom (Machine.step R) s (retry request newId now)) request row.restoreId := by
  have hfound := h.find? hothers hrequest fun _ => true
  simp only [Bool.and_true, if_true] at hfound
  have hopen := h.find? hothers hrequest (·.state == .succeeded)
  rw [if_neg (by rw [hrunning]; decide)] at hopen
  set a : Attempt := ⟨request, row.restoreId, row.startedAt⟩ with ha
  set s₁ : Machine γ := { s with
    disk := Function.update s.disk
      (stagingOf request.newDataRoot.resolved row.restoreId) (some (.dataRoot root))
    call := some (.within a (.publish root)) } with hs₁
  have hpublish : runFrom (Machine.step R) s
      (.restore request true :: List.replicate 6 (.advance newId now)) = s₁ :=
    reaches_publish hworks hfound hopen hrunning (htarget ▸ h.digest) hcall newId now
  have hsplit : retry request newId now =
      (.restore request true :: List.replicate 6 (.advance newId now)) ++
        List.replicate 4 (.advance newId now) := rfl
  rw [hsplit, runFrom_append, hpublish]
  have hfree₁ : s₁.disk request.newDataRoot.resolved = none := by
    rw [hs₁]
    dsimp only
    rw [Function.update_of_ne hworks.apart, htarget, hfree]
  have hpublished := step_publish (R := R) (s := s₁) rfl hfree₁ newId now
  obtain ⟨receipt, hid, hroot, row', hid', hstate, hrun⟩ :=
    records (R := R) (s := s₁.publishes a root) rfl h.rows h.fresh rfl hrunning htime newId
  rw [List.replicate_succ, runFrom_cons, hpublished, hrun]
  exact ⟨⟨row', List.mem_append_right _ List.mem_cons_self, hid', hstate⟩,
    ⟨receipt, List.mem_append_right _ List.mem_cons_self, hid, hroot⟩,
    List.mem_append_right _ List.mem_cons_self⟩

/-- The law holds before anything was recorded. -/
theorem Untouched.crashAtomic (h : Untouched deploymentId requestId others s)
    (hothers : Apart deploymentId requestId others) :
    CrashAtomic R deploymentId requestId s := by
  have hnone : ∀ row ∈ s.rows, ¬ row.answers deploymentId requestId = true := by
    rw [h.rows]
    intro row hrow
    simp [hothers row hrow]
  refine ⟨fun row hrow hanswers => absurd hanswers (hnone row hrow),
    fun row hrow hanswers => absurd hanswers (hnone row hrow),
    fun row hrow hanswers => absurd hanswers (hnone row hrow), ?_, ?_⟩
  · intro a stage hcall
    have hplaced := h.call
    rw [hcall] at hplaced
    exact hplaced.elim
  · intro request receipt hanswer
    rw [h.answered] at hanswer
    cases hanswer

theorem Recorded.eq_row (h : Recorded R deploymentId requestId others row target s)
    (hothers : Apart deploymentId requestId others) {other : RestoreRow} (hother : other ∈ s.rows)
    (hanswers : other.answers deploymentId requestId = true) : other = row := by
  rw [h.rows, List.mem_append, List.mem_singleton] at hother
  rcases hother with hother | hother
  · rw [hothers other hother] at hanswers
    cases hanswers
  · exact hother

theorem Recorded.mem (h : Recorded R deploymentId requestId others row target s) : row ∈ s.rows := by
  rw [h.rows]
  exact List.mem_append_right _ List.mem_cons_self

/-- Where a restore that is not running is. -/
theorem Placed.ended (h : Placed R deploymentId requestId row target s)
    (hended : row.state ≠ .running) : Done row target s ∨ Lost row target s := by
  by_cases hrecorded : ∀ call, s.call = some call → call.unrecorded = false
  · exact (h.idle hrecorded).resolve_left fun hopen => hended hopen.1
  · push Not at hrecorded
    obtain ⟨call, hcall, hunrecorded⟩ := hrecorded
    rw [Placed, hcall] at h
    cases call with
    | materialize | start | answer => exact absurd rfl hunrecorded
    | within a stage =>
      cases stage <;> first
        | exact absurd rfl hunrecorded
        | exact absurd h.2.1 hended

/-- The law holds of a restore that is recorded. -/
theorem Recorded.crashAtomic (h : Recorded R deploymentId requestId others row target s)
    (hothers : Apart deploymentId requestId others) : CrashAtomic R deploymentId requestId s where
  failed := by
    intro other hother hanswers hstate root
    obtain rfl := h.eq_row hothers hother hanswers
    rcases h.placed.ended (by rw [hstate]; decide) with hdone | hlost
    · exact absurd (hstate.symm.trans hdone.1) (by decide)
    · rw [hlost.2.1]
      exact List.not_mem_nil
  resumes := by
    intro other hother hanswers hrunning hcall request bundle manifest tree root now newId
      hdeployment hrequest hsource htarget hfree hworks htime
    obtain rfl := h.eq_row hothers hother hanswers
    rw [h.targets, List.mem_singleton] at htarget
    have hresolved := (Prod.mk.inj htarget).2
    have hopen : Open other s := by
      have hplaced := h.placed
      rw [Placed, hcall] at hplaced
      rcases hplaced with hopen | hdone | hlost
      · exact hopen
      · exact absurd (hrunning.symm.trans hdone.1) (by decide)
      · exact absurd (hrunning.symm.trans hlost.1) (by decide)
    have hfree' : s.disk target = none := by
      rw [hopen.2] at hfree
      rw [← hresolved]
      exact hfree.resolve_right List.not_mem_nil
    exact h.resumes hothers hrunning hcall newId ⟨hdeployment, hrequest⟩ hresolved hfree' hworks
      htime
  tidy := by
    intro other hother hanswers hended path hpath
    obtain rfl := h.eq_row hothers hother hanswers
    rw [h.targets, List.mem_singleton] at hpath
    rw [(Prod.mk.inj hpath).2]
    rcases h.placed.ended hended with hdone | hlost
    · exact hdone.2.2
    · exact hlost.2.2
  accepted := by
    intro a stage hcall
    have hplaced := h.placed
    rw [Placed, hcall] at hplaced
    have hmine := hplaced.1
    refine ⟨row, h.mem, h.answers, hmine.restoreId.symm, hmine.source.symm, ?_⟩
    rw [h.targets, hmine.restoreId, hmine.target]
  answered := by
    intro request receipt hanswer
    obtain ⟨hstate, hfits⟩ := h.answered _ hanswer
    refine ⟨row, h.mem, h.answers, hstate, hfits.restoreId.symm, hfits.source.symm,
      hfits.root.trans hfits.asked.symm, ?_⟩
    rw [h.targets, hfits.restoreId, hfits.asked]

end Kept

/-- In every run of calls for a request whose steps meet the condition, restores are
crash-atomic and bound to their request. -/
theorem crashAtomic_of_meets (R : Restorer γ) (hinjective : Function.Injective R.rootDigest)
    (deploymentId requestId : Id) (rows : List RestoreRow)
    (hrows : ∀ row ∈ rows, row.answers deploymentId requestId = false)
    (disk : DirPath → Option (Directory γ)) (ops : List RestoreOp)
    (hops : StepsSatisfy (Machine.step R) (Meets R deploymentId requestId)
      { rows := rows, disk := disk } ops) :
    CrashAtomic R deploymentId requestId
      (runFrom (Machine.step R) { rows := rows, disk := disk } ops) := by
  have hstart : Sound R deploymentId requestId rows ({ rows := rows, disk := disk } : Machine γ) :=
    Or.inl ⟨rfl, rfl, rfl, rfl, trivial⟩
  have hsound : Sound R deploymentId requestId rows
      (runFrom (Machine.step R) { rows := rows, disk := disk } ops) :=
    runFrom_invariant_of hstart (fun _ op h hmeets => sound_step hrows hinjective op h hmeets) hops
  rcases hsound with h | ⟨row, target, h⟩
  · exact h.crashAtomic hrows
  · exact h.crashAtomic hrows

/-! ## A kill after the publication -/

section Killed

variable {R : Restorer γ} {request : RestoreRequest} {bundle : List UInt8} {manifest : JsonObject}
  {tree : Tree} {root : DataRoot γ} {newId : Id}

/-- A bundle that is restored without interruption is restored by the machine. -/
theorem exists_works
    (hnamed : request.sourceBackupId ≠ "" ∧ request.deploymentId ≠ "" ∧ request.requestId ≠ "")
    (habsolute : request.newDataRoot.isAbsolute = true)
    (hbundle : materialize R.host R.store request.backupArtifact = .ok bundle)
    (hrestored : restoreBundle R.host R.release request.sourceBackupId bundle = .ok root)
    (hapart : request.newDataRoot.resolved ≠ stagingOf request.newDataRoot.resolved newId) :
    ∃ manifest tree, Works R request newId bundle manifest tree root := by
  obtain ⟨⟨manifest, tree⟩, hextract, hrestored⟩ := bind_eq_ok.mp hrestored
  obtain ⟨⟨⟩, hid, hrestored⟩ := bind_eq_ok.mp hrestored
  obtain ⟨database, hupgrade, hrestored⟩ := bind_eq_ok.mp hrestored
  obtain ⟨⟨⟩, hcounters, hrestored⟩ := bind_eq_ok.mp hrestored
  refine ⟨manifest, tree, hnamed, habsolute, hbundle, ?_, ?_, hapart⟩
  · exact bind_eq_ok.mpr ⟨_, hextract, bind_eq_ok.mpr ⟨(), hid, rfl⟩⟩
  · exact bind_eq_ok.mpr ⟨_, hupgrade, bind_eq_ok.mpr ⟨(), hcounters, hrestored⟩⟩

/-- The row of a restore that is recorded for the first time. -/
def firstRow (R : Restorer γ) (request : RestoreRequest) (newId : Id) (now : String) :
    RestoreRow where
  restoreId := newId
  sourceBackupId := request.sourceBackupId
  deploymentId := request.deploymentId
  requestId := request.requestId
  targetRootDigest := R.rootDigest request.newDataRoot.resolved
  startedAt := now
  finishedAt := now

/-- A call publishes its target. -/
def untilPublished (request : RestoreRequest) (newId : Id) (now : String) : List RestoreOp :=
  .restore request true :: List.replicate 7 (.advance newId now)

/-- A first call publishes its target, and is killed. -/
theorem publishes_first (now : String) (hworks : Works R request newId bundle manifest tree root) :
    ∃ disk : DirPath → Option (Directory γ),
      disk request.newDataRoot.resolved = some (.dataRoot root) ∧
        runFrom (Machine.step R) { rows := [], disk := fun _ => none }
            (untilPublished request newId now ++ [.kill]) =
          { rows := [firstRow R request newId now], disk := disk
            targets := [(newId, request.newDataRoot.resolved)]
            published := [(newId, request.newDataRoot.resolved)] } := by
  obtain ⟨hsource, hdeployment, hrequest⟩ := hworks.named
  set a : Attempt := ⟨request, newId, now⟩
  set s₀ : Machine γ := { rows := [], disk := fun _ => none }
  set s₁ : Machine γ := { rows := [firstRow R request newId now], disk := fun _ => none
                          targets := [(newId, request.newDataRoot.resolved)]
                          call := some (.within a (.clean bundle)) }
  have hbegin : s₀.step R (.restore request true) =
      { s₀ with call := some (.materialize request) } := by
    unfold Machine.step begin
    dsimp only [s₀, List.find?_nil]
    rw [if_neg (by simp [hsource, hdeployment, hrequest]), hworks.absolute]
    rfl
  have hmaterialize : Machine.step R { s₀ with call := some (.materialize request) }
      (.advance newId now) = { s₀ with call := some (.start request bundle) } := by
    unfold Machine.step Machine.advance
    dsimp only
    rw [hworks.materializes]
  have hstart : Machine.step R { s₀ with call := some (.start request bundle) }
      (.advance newId now) = s₁ := rfl
  have hbuilds := builds (s := s₁) (a := a) hworks rfl newId now
  have hpublish := step_publish (R := R)
    (s := { s₁ with
      disk := Function.update s₁.disk a.staging (some (.dataRoot root))
      call := some (.within a (.publish root)) }) rfl
    (Function.update_of_ne hworks.apart _ _) newId now
  have hsplit : untilPublished request newId now ++ [.kill] =
      .restore request true :: .advance newId now :: .advance newId now ::
        (List.replicate 4 (.advance newId now) ++ [.advance newId now, .kill]) := rfl
  rw [hsplit, runFrom_cons, hbegin, runFrom_cons, hmaterialize, runFrom_cons, hstart,
    runFrom_append, hbuilds, runFrom_cons, hpublish]
  exact ⟨_, Function.update_self .., rfl⟩

/-- The retry of a call that was killed after its publication is recorded as failed. -/
theorem fails_after_kill (now : String) (hworks : Works R request newId bundle manifest tree root) :
    ∃ row : RestoreRow, row.restoreId = newId ∧ row.state = .failed ∧
      row.answers request.deploymentId request.requestId = true ∧
        (runFrom (Machine.step R) { rows := [], disk := fun _ => none }
          (untilPublished request newId now ++ [.kill] ++ retry request newId now)).rows = [row] ∧
        (runFrom (Machine.step R) { rows := [], disk := fun _ => none }
          (untilPublished request newId now ++ [.kill] ++ retry request newId now)).published =
            [(newId, request.newDataRoot.resolved)] := by
  obtain ⟨disk, hdisk, hfirst⟩ := publishes_first now hworks
  set row := firstRow R request newId now with hrow
  set a : Attempt := ⟨request, newId, now⟩ with ha
  set s₁ : Machine γ := { rows := [row], disk := disk
                          targets := [(newId, request.newDataRoot.resolved)]
                          published := [(newId, request.newDataRoot.resolved)] } with hs₁
  have hanswers : row.answers request.deploymentId request.requestId = true := by
    simp [hrow, firstRow, RestoreRow.answers]
  have hworks' : Works R request row.restoreId bundle manifest tree root := hworks
  have hfound : s₁.rows.find? (fun other =>
      other.answers request.deploymentId request.requestId) = some row := by
    simp [hs₁, hanswers]
  have hopen : s₁.rows.find? (fun other =>
      other.answers request.deploymentId request.requestId && other.state == .succeeded) = none := by
    simp [hs₁, hrow, firstRow]
  set s₂ : Machine γ := { s₁ with
    disk := Function.update s₁.disk (stagingOf request.newDataRoot.resolved row.restoreId)
      (some (.dataRoot root))
    call := some (.within a (.publish root)) } with hs₂
  have hreach : runFrom (Machine.step R) s₁
      (.restore request true :: List.replicate 6 (.advance newId now)) = s₂ :=
    reaches_publish hworks' hfound hopen rfl rfl rfl newId now
  have htaken : (s₂.disk request.newDataRoot.resolved).isSome = true := by
    change (Function.update disk _ _ request.newDataRoot.resolved).isSome = true
    rw [Function.update_of_ne hworks'.apart, hdisk]
    rfl
  have hrefused : s₂.step R (.advance newId now) = s₂.handle a "RESTOREERROR" :=
    step_publish_taken rfl htaken newId now
  set failed : RestoreRow := { row with
    state := .failed, failureCode := some "RESTOREERROR", finishedAt := now }
  have hfail : finishFailure [row] newId "RESTOREERROR" now = some [failed] := by
    have hend : endRow ([] ++ [row]) row.restoreId now (fun other =>
        { other with state := .failed, failureCode := some "RESTOREERROR" }) =
          if row.startedAt ≤ now then some ([] ++ [failed]) else none :=
      endRow_eq (by simp) rfl _
    have htime : row.startedAt ≤ now := String.le_refl now
    rw [if_pos htime] at hend
    exact hend
  have hsplit : retry request newId now =
      (.restore request true :: List.replicate 6 (.advance newId now)) ++
        (.advance newId now :: List.replicate 3 (.advance newId now)) := rfl
  have hrun : runFrom (Machine.step R) { rows := [], disk := fun _ => none }
      (untilPublished request newId now ++ [.kill] ++ retry request newId now) =
        { s₂.put a.staging none with rows := [failed], call := none } := by
    rw [runFrom_append, hfirst, hsplit, runFrom_append, hreach, runFrom_cons, hrefused]
    have hlast : runFrom (Machine.step R) (s₂.handle a "RESTOREERROR")
        (List.replicate 3 (.advance newId now)) =
          { s₂.put a.staging none with
            rows := (finishFailure [row] newId "RESTOREERROR" now).getD [row], call := none } := rfl
    rw [hlast, hfail]
    rfl
  rw [hrun]
  exact ⟨failed, rfl, rfl, hanswers, rfl, rfl⟩

end Killed

/-! ## A restorer with one bundle -/

section Samples

/-- A bundle with a database alone. -/
def sampleBundle : List UInt8 :=
  storedZip.write (("manifest.json", manifestBytes
    (manifestFor (sampleHost 0) sampleRequest "backup" "t1" sampleDb [] [])) ::
      filesOf (sealings (sampleHost 0) sampleDb [] []))

def sampleBundleArtifact : Artifact where
  artifactId := "bundle"
  sha256 := otherDigest
  byteCount := sampleBundle.length
  mediaType := bundleMediaType
  casRelpath := relpathForDigest otherDigest
  ingestState := .committed

def sampleRestorer : Restorer Unit where
  host := sampleHost 0
  release := some
  store :=
    { db := { artifacts := [sampleBundleArtifact] }
      finals := fun digest => if digest = otherDigest then some sampleBundle else none }
  rootDigest path := String.ofList (dumps (Json.ofTexts path))

def sampleRestore : RestoreRequest where
  sourceBackupId := "backup"
  backupArtifact := artifactRef sampleBundleArtifact
  deploymentId := "deployment"
  requestId := "request"
  newDataRoot := ⟨true, ["srv", "restored"]⟩

theorem sample_rootDigest : Function.Injective sampleRestorer.rootDigest := by
  intro path other heq
  have htexts := dumps_arr_inj (String.ofList_injective heq)
  rw [List.map_map, List.map_map] at htexts
  have hinjective : Function.Injective (dumps ∘ Json.str) := fun _ _ hsame => quoteText_inj hsame
  exact hinjective.list_map htexts

theorem sample_works : ∃ manifest tree root,
    Works sampleRestorer sampleRestore "restore" sampleBundle manifest tree root := by
  have hsealed : AllSealed (sampleHost 0) (sealings (sampleHost 0) sampleDb [] []) := by
    refine ⟨?_, List.nodup_singleton _⟩
    intro item hitem
    obtain rfl := List.mem_singleton.mp hitem
    exact sealed_databaseEntry sampleDb
  have hdigest : (sampleHost 0).content.sha256 sampleBundle = otherDigest :=
    sha256_stored 0 (by simp [sealings, filesOf])
  have hholds : Holds (sampleHost 0) sampleRestorer.store sampleBundleArtifact sampleBundle :=
    ⟨List.mem_cons_self, rfl, hdigest.symm, rfl, by rw [hdigest]; rfl, by rw [hdigest]; rfl⟩
  have hbundle := materialize_of_holds (sample_digests 0) hholds (List.nodup_singleton _)
  have hrestored : restoreBundle (sampleHost 0) some "backup" sampleBundle =
      .ok { database := sampleDb, files := filesOf ([] ++ []) } :=
    restoreBundle_bundle (sample_digests 0) hsealed rfl rfl rfl
  have hapart : sampleRestore.newDataRoot.resolved ≠
      stagingOf sampleRestore.newDataRoot.resolved "restore" := by decide
  obtain ⟨manifest, tree, hworks⟩ : ∃ manifest tree, Works sampleRestorer sampleRestore "restore"
      sampleBundle manifest tree { database := sampleDb, files := filesOf ([] ++ []) } :=
    exists_works (by decide) rfl hbundle hrestored hapart
  exact ⟨manifest, tree, _, hworks⟩

/-- A restorer whose store holds one byte in place of a bundle. -/
def brokenRestorer : Restorer Unit :=
  { sampleRestorer with
    store :=
      { db := { artifacts := [{ sampleBundleArtifact with byteCount := 1 }] }
        finals := fun digest => if digest = otherDigest then some [5] else none } }

def brokenRestore : RestoreRequest :=
  { sampleRestore with
    backupArtifact := artifactRef { sampleBundleArtifact with byteCount := 1 } }

/-- A call is killed before it has made its staging directory, the next one is interrupted while it
has one, and the one after it is refused. -/
def brokenRun : List RestoreOp :=
  .restore brokenRestore true :: (List.replicate 3 (.advance "restore" "t2") ++
    .kill :: .restore brokenRestore true :: (List.replicate 4 (.advance "other" "t3") ++
      .raise "KEYBOARDINTERRUPT" :: (List.replicate 2 (.advance "other" "t3") ++
        .restore brokenRestore true :: List.replicate 2 (.advance "third" "t4"))))

/-- Whether a call is about to record a success. -/
def Machine.finishing (s : Machine γ) : Bool :=
  match s.call with
  | some (.within _ (.finish _ _)) => true
  | _ => false

variable {deploymentId requestId restoreId : String}

theorem meets_advance {R : Restorer γ} {now : String} {s : Machine γ}
    (hfinishing : s.finishing = false) :
    Meets R deploymentId requestId s (.advance restoreId now) := by
  intro a root digest hcall
  rw [Machine.finishing, hcall] at hfinishing
  cases hfinishing

theorem meets_advances {R : Restorer γ} {now : String} {ops : List RestoreOp} {n : ℕ}
    {s : Machine γ} (hfinishing : ∀ k < n, (runFrom (Machine.step R) s
      (List.replicate k (.advance restoreId now))).finishing = false)
    (hops : StepsSatisfy (Machine.step R) (Meets R deploymentId requestId)
      (runFrom (Machine.step R) s (List.replicate n (.advance restoreId now))) ops) :
    StepsSatisfy (Machine.step R) (Meets R deploymentId requestId) s
      (List.replicate n (.advance restoreId now) ++ ops) := by
  induction n generalizing s with
  | zero => exact hops
  | succ n ih =>
    refine .cons (meets_advance (hfinishing 0 (Nat.succ_pos n))) (ih ?_ hops)
    intro k hk
    exact hfinishing (k + 1) (Nat.succ_lt_succ hk)

theorem broken_meets : StepsSatisfy (Machine.step brokenRestorer)
    (Meets brokenRestorer "deployment" "request")
    ({ rows := [], disk := fun _ => none } : Machine Unit) brokenRun := by
  refine .cons ⟨rfl, rfl, by nofun⟩ (meets_advances (by decide +kernel) (.cons ?_
    (.cons ⟨rfl, rfl, ?_⟩ (meets_advances (by decide +kernel) (.cons ?_
      (meets_advances (by decide +kernel) (.cons ⟨rfl, rfl, ?_⟩ ?_)))))))
  · intro call hcall
    obtain rfl := Option.some.inj hcall
    rfl
  · intro row hrow _ _ _
    obtain rfl := List.mem_singleton.mp hrow
    rfl
  · intro call hcall
    obtain rfl := Option.some.inj hcall
    rfl
  · intro row hrow _ hopen
    obtain rfl := List.mem_singleton.mp hrow
    exact absurd rfl hopen
  · change StepsSatisfy _ _ _ (List.replicate 2 (RestoreOp.advance "third" "t4") ++ [])
    exact meets_advances (by decide +kernel) .nil

theorem crashAtomic_of_brokenRun : CrashAtomic brokenRestorer "deployment" "request"
    (runFrom (Machine.step brokenRestorer) { rows := [], disk := fun _ => none } brokenRun) :=
  crashAtomic_of_meets brokenRestorer sample_rootDigest "deployment" "request" [] (by simp)
    (fun _ => none) brokenRun broken_meets

/-- A call is killed after it has published its target and before this is recorded. The next call
finds the target, and records a failure. -/
theorem published_restore_fails :
    Function.Injective sampleRestorer.rootDigest ∧ ∃ row : RestoreRow, ∃ s : Machine Unit,
      s = runFrom (Machine.step sampleRestorer) { rows := [], disk := fun _ => none }
        (untilPublished sampleRestore "restore" "t2" ++ [.kill] ++
          retry sampleRestore "restore" "t2") ∧
      s.rows = [row] ∧ row.state = .failed ∧
        s.published = [(row.restoreId, sampleRestore.newDataRoot.resolved)] ∧
          ¬ CrashAtomic sampleRestorer "deployment" "request" s := by
  obtain ⟨manifest, tree, root, hworks⟩ := sample_works
  obtain ⟨row, hid, hstate, hanswers, hrows, hpublished⟩ := fails_after_kill "t2" hworks
  refine ⟨sample_rootDigest, row, _, rfl, hrows, hstate, by rw [hpublished, hid], fun hlaw => ?_⟩
  refine hlaw.failed row (by rw [hrows]; exact List.mem_cons_self) hanswers hstate
    sampleRestore.newDataRoot.resolved ?_
  rw [hpublished, hid]
  exact List.mem_cons_self

end Samples

end ResearchKernel.Product.Restoring
