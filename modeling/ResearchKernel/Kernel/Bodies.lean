import ResearchKernel.Kernel
import ResearchKernel.Projector.Effects

/-!
# The ledger and the other tables

The tables of the database fall into two parts. The ledger holds capabilities, artifacts,
commands and events, and what a run is and which revision it has; the body holds all the
rest. What surrounds the projection in the transaction of a request writes the ledger alone.
-/

namespace ResearchKernel

open Foundation

/-- What the ledger knows about a run. -/
structure RunEntry where
  runId : Id
  createIssuer : String
  createRequestId : Id
  createRequestDigest : Digest
  revision : ℕ
  createdAt : Instant

def Run.entry (run : Run) : RunEntry where
  runId := run.runId
  createIssuer := run.createIssuer
  createRequestId := run.createRequestId
  createRequestDigest := run.createRequestDigest
  revision := run.revision
  createdAt := run.createdAt

/-- The tables of the ledger. -/
structure Ledger where
  capabilities : List CapabilityRow
  artifacts : List Artifact
  runArtifacts : List RunArtifact
  commands : List CommandRow
  events : List Event
  runs : List RunEntry

/-- The ledger of a database. -/
def Db.ledger (db : Db) : Ledger where
  capabilities := db.capabilities
  artifacts := db.artifacts
  runArtifacts := db.runArtifacts
  commands := db.commands
  events := db.events
  runs := db.runs.map Run.entry

/-- The database without its ledger. -/
def Db.body (db : Db) : Db :=
  { db with
    capabilities := []
    artifacts := []
    runArtifacts := []
    commands := []
    events := []
    runs := db.runs.map fun run => { run with revision := 0 } }

/-- Two databases that differ at most in their ledger. -/
def SameBody (db db' : Db) : Prop := db'.body = db.body

theorem SameBody.trans {db db' db'' : Db} (h : SameBody db db') (h' : SameBody db' db'') :
    SameBody db db'' :=
  Eq.trans h' h

/-- Two databases that differ at most outside their ledger. -/
def SameLedger (db db' : Db) : Prop := db'.ledger = db.ledger

theorem SameLedger.trans {db db' db'' : Db} (h : SameLedger db db') (h' : SameLedger db' db'') :
    SameLedger db db'' :=
  Eq.trans h' h

/-- An update of runs that leaves their entries alone leaves the ledger alone. -/
theorem sameLedger_updateRuns (db : Db) {test : Run → Bool} {change : Run → Run}
    (h : ∀ run, (change run).entry = run.entry) :
    SameLedger db { db with runs := updateWhere test change db.runs } := by
  unfold SameLedger Db.ledger
  simp only [map_updateWhere h]

/-- The records are part of the body. -/
theorem SameBody.sameRecords {db db' : Db} (h : SameBody db db') : SameRecords db db' := by
  have hrecords : ∀ db : Db, db.body.records = db.records := fun db => by
    simp only [Db.records, Db.body, List.map_map]
    rfl
  exact (hrecords db').symm.trans ((congrArg Db.records h).trans (hrecords db))

/-! ## The ledger is written around the projection -/

section Body

variable {P : Platform} {db db' : Db}

/-- Storing a capability writes no other table. -/
theorem ensureCapability_eq (capability : VerifiedCapability) :
    Gives (fun db' => ∃ rows, db' = { db with capabilities := rows })
      (db.ensureCapability capability) := by
  unfold Db.ensureCapability
  split
  · exact Gives.pure ⟨_, rfl⟩
  · exact Gives.bind fun _ _ => Gives.pure ⟨db.capabilities, rfl⟩

theorem sameBody_ensureCapability (capability : VerifiedCapability) :
    Gives (SameBody db) (db.ensureCapability capability) := by
  intro start hstart
  obtain ⟨rows, rfl⟩ := ensureCapability_eq capability start hstart
  rfl

theorem sameBody_linkArtifact (runId artifactId : Id) (name : String) (role : ArtifactRole) :
    Gives (SameBody db) (db.linkArtifact runId artifactId name role) := by
  unfold Db.linkArtifact
  split
  · exact Gives.pure rfl
  · exact Gives.bind fun _ _ => Gives.pure rfl

theorem sameBody_storeFile (runId : Id) (file : CommittedFile) (name : String)
    (role : ArtifactRole) :
    Gives (fun result => SameBody db result.1) (db.storeFile runId file name role) := by
  refine Gives.bind fun inserted hinserted => Gives.bind fun linked hlinked => Gives.pure ?_
  have hfirst : SameBody db inserted.1 := by
    have hgives : Gives (fun result : Db × Artifact => SameBody db result.1)
        (db.insertArtifact file) :=
      Gives.bind fun _ _ => Gives.bind fun _ _ => Gives.pure rfl
    exact hgives inserted hinserted
  exact hfirst.trans (sameBody_linkArtifact _ _ _ _ linked hlinked)

theorem sameBody_storeApplyInputs (runId : Id) (revision : ℕ)
    (files : List (String × CommittedFile)) (db : Db) (named : List (String × Id)) :
    Gives (fun result => SameBody db result.1)
      (Db.storeApplyInputs runId revision files db named) := by
  induction files generalizing db named with
  | nil => exact Gives.pure rfl
  | cons file files ih =>
    refine Gives.bind fun stored hstored => ?_
    intro result hrest
    exact (sameBody_storeFile _ _ _ _ stored hstored).trans (ih stored.1 _ result hrest)

theorem sameBody_storeGenerated (op : ApplyOp) (snapshot : Snapshot) :
    Gives (fun result => SameBody db result.1) (op.storeGenerated P snapshot db) := by
  refine Gives.bind fun generated _ => ?_
  cases generated with
  | none => exact Gives.pure rfl
  | some file =>
    refine Gives.bind fun stored hstored => Gives.pure ?_
    exact sameBody_storeFile _ _ _ _ stored hstored

theorem sameBody_recordCommand (row : CommandRow) : Gives (SameBody db) (db.recordCommand row) :=
  Gives.bind fun _ _ => Gives.pure rfl

theorem sameBody_appendEvent (event : Event) : Gives (SameBody db) (db.appendEvent event) :=
  Gives.bind fun _ _ => Gives.pure rfl

theorem sameBody_advanceRevision (runId : Id) (revision : ℕ) :
    Gives (SameBody db) (db.advanceRevision runId revision) := by
  refine Gives.bind fun _ _ => Gives.pure ?_
  have hruns : ∀ test : Run → Bool,
      (updateWhere test (fun run => { run with revision := revision + 1 }) db.runs).map
        (fun run => { run with revision := 0 }) =
      db.runs.map fun run => { run with revision := 0 } :=
    fun test => map_updateWhere (fun _ => by exact rfl) db.runs
  unfold SameBody Db.body
  simp only [hruns]

theorem sameBody_recordHostCommand (row : CommandRow) (eventId : Id) (version : Option ℕ) :
    Gives (SameBody db) (db.recordHostCommand row eventId version) := by
  refine Gives.bind fun recorded hrecorded => Gives.bind fun appended happended => ?_
  intro db' hadvanced
  exact (sameBody_recordCommand _ recorded hrecorded).trans
    ((sameBody_appendEvent _ appended happended).trans (sameBody_advanceRevision _ _ _ hadvanced))

theorem sameBody_storeCreateInputs (runId : Id) (files : List ((String × CommittedFile) × ℕ))
    (db : Db) : Gives (SameBody db) (Db.storeCreateInputs runId files db) := by
  induction files generalizing db with
  | nil => exact Gives.pure rfl
  | cons file files ih =>
    refine Gives.bind fun stored hstored => ?_
    intro db' hrest
    exact (sameBody_storeFile _ _ _ _ stored hstored).trans (ih stored.1 db' hrest)

end Body

end ResearchKernel
