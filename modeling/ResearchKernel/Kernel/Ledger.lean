import ResearchKernel.Guard.Emission
import ResearchKernel.Kernel.Frames

/-!
# The ledger of commands and events

Six writers advance the revision of a run, each with its own insertions into the ledger.
What they do to it is taken apart into moves: a capability, a file, a link or a run is
added, a rejected command is added, or an accepted command is added together with its
event and the next revision of its run. The ledger is consistent because every move
keeps it so.
-/

namespace ResearchKernel

open Foundation Relation

/-! ## Moves -/

/-- Count the revision of a run up from the given one. -/
def RunEntry.advance (runId : Id) (revision : ℕ) (entry : RunEntry) : RunEntry :=
  if entry.runId == runId && entry.revision == revision then
    { entry with revision := revision + 1 }
  else entry

@[simp] theorem RunEntry.advance_runId (runId : Id) (revision : ℕ) (entry : RunEntry) :
    (entry.advance runId revision).runId = entry.runId := by
  unfold RunEntry.advance
  split <;> rfl

theorem RunEntry.advance_of_ne {runId : Id} {revision : ℕ} {entry : RunEntry}
    (h : entry.runId ≠ runId) : entry.advance runId revision = entry := by
  simp [RunEntry.advance, h]

theorem RunEntry.advance_revision {runId : Id} {revision : ℕ} {entry : RunEntry}
    (hrun : entry.runId = runId) (hrevision : entry.revision = revision) :
    (entry.advance runId revision).revision = revision + 1 := by
  simp [RunEntry.advance, hrun, hrevision]

/-- An accepted command, its event and the revision of its run belong together. -/
structure CommandRow.Records (row : CommandRow) (event : Event) : Prop where
  accepted : row.accepted = true
  expected : row.expectedRevision = row.revisionBefore
  revisionAfter : row.revisionAfter = row.revisionBefore + 1
  runId : event.runId = row.runId
  commandId : event.commandId = row.commandId
  revision : event.revision = row.revisionAfter

/-- What is done to the ledger at one time. -/
inductive Ledger.Move : Ledger → Ledger → Prop
  /-- A capability is seen for the first time. -/
  | capability (ledger : Ledger) (facts : CapabilityRow) :
      Move ledger { ledger with capabilities := ledger.capabilities ++ [facts] }
  /-- A file is stored. -/
  | stored (ledger : Ledger) (row : Artifact)
      (fresh : ∀ old ∈ ledger.artifacts, row.clash old = false) :
      Move ledger { ledger with artifacts := ledger.artifacts ++ [row] }
  /-- A file is linked to a run. -/
  | linked (ledger : Ledger) (link : RunArtifact) :
      Move ledger { ledger with runArtifacts := ledger.runArtifacts ++ [link] }
  /-- A run is created. -/
  | created (ledger : Ledger) (entry : RunEntry)
      (fresh : ∀ old ∈ ledger.runs, old.runId ≠ entry.runId) (start : entry.revision = 0) :
      Move ledger { ledger with runs := ledger.runs ++ [entry] }
  /-- A command is rejected. -/
  | rejected (ledger : Ledger) (row : CommandRow)
      (fresh : ∀ old ∈ ledger.commands, row.clash old = false) (rejected : row.accepted = false)
      (revision : row.revisionAfter = row.revisionBefore)
      (run : ∃ entry ∈ ledger.runs, entry.runId = row.runId) :
      Move ledger { ledger with commands := ledger.commands ++ [row] }
  /-- A command is accepted. -/
  | accepted (ledger : Ledger) (row : CommandRow) (event : Event)
      (fresh : ∀ old ∈ ledger.commands, row.clash old = false) (records : row.Records event)
      (run : ∃ entry ∈ ledger.runs,
        entry.runId = row.runId ∧ entry.revision = row.revisionBefore) :
      Move ledger { ledger with
        commands := ledger.commands ++ [row]
        events := ledger.events ++ [event]
        runs := ledger.runs.map (RunEntry.advance row.runId row.revisionBefore) }

/-- What is done to the ledger, one move after the other. -/
def Ledger.Moves : Ledger → Ledger → Prop := ReflTransGen Ledger.Move

theorem Ledger.Moves.refl (ledger : Ledger) : ledger.Moves ledger := ReflTransGen.refl

theorem Ledger.Moves.trans {a b c : Ledger} (h : a.Moves b) (h' : b.Moves c) : a.Moves c :=
  ReflTransGen.trans h h'

theorem Ledger.Moves.preserves {I : Ledger → Prop}
    (hmove : ∀ ledger ledger', Ledger.Move ledger ledger' → I ledger → I ledger')
    {ledger ledger' : Ledger} (h : ledger.Moves ledger') (hstart : I ledger) : I ledger' := by
  induction h with
  | refl => exact hstart
  | tail _ hlast ih => exact hmove _ _ hlast ih

theorem SameLedger.moves {db db' : Db} (h : SameLedger db db') : db.ledger.Moves db'.ledger := by
  rw [show db'.ledger = db.ledger from h]
  exact Ledger.Moves.refl _

/-! ## The writers of the ledger -/

section Writers

variable {P : Platform} {policy : Policy} {db db' : Db}

theorem moves_ensureCapability (capability : VerifiedCapability) :
    Gives (fun db' => db.ledger.Moves db'.ledger) (db.ensureCapability capability) := by
  unfold Db.ensureCapability
  split
  · exact Gives.pure (ReflTransGen.single (.capability db.ledger _))
  · exact Gives.bind fun _ _ => Gives.pure (Ledger.Moves.refl _)

theorem moves_insertArtifact (file : CommittedFile) :
    Gives (fun result => db.ledger.Moves result.1.ledger) (db.insertArtifact file) := by
  refine Gives.bind fun row _ => Gives.bind fun _ _ => Gives.pure ?_
  dsimp only
  split
  · exact Ledger.Moves.refl _
  · rename_i hnone
    refine ReflTransGen.single (.stored db.ledger file.row fun old hold => ?_)
    simp only [List.any_eq_true, not_exists, not_and, Bool.not_eq_true] at hnone
    exact hnone old hold

theorem moves_linkArtifact (runId artifactId : Id) (name : String) (role : ArtifactRole) :
    Gives (fun db' => db.ledger.Moves db'.ledger) (db.linkArtifact runId artifactId name role) := by
  unfold Db.linkArtifact
  split
  · exact Gives.pure (ReflTransGen.single (.linked db.ledger _))
  · exact Gives.bind fun _ _ => Gives.pure (Ledger.Moves.refl _)

theorem moves_storeFile (runId : Id) (file : CommittedFile) (name : String) (role : ArtifactRole) :
    Gives (fun result => db.ledger.Moves result.1.ledger)
      (db.storeFile runId file name role) := by
  refine Gives.bind fun inserted hinserted => Gives.bind fun linked hlinked => Gives.pure ?_
  exact (moves_insertArtifact file inserted hinserted).trans
    (moves_linkArtifact _ _ _ _ linked hlinked)

theorem moves_storeCreateInputs (runId : Id) (files : List ((String × CommittedFile) × ℕ))
    (db : Db) :
    Gives (fun db' => db.ledger.Moves db'.ledger) (Db.storeCreateInputs runId files db) := by
  induction files generalizing db with
  | nil => exact Gives.pure (Ledger.Moves.refl _)
  | cons file files ih =>
    refine Gives.bind fun stored hstored => ?_
    intro db' hrest
    exact (moves_storeFile _ _ _ _ stored hstored).trans (ih stored.1 db' hrest)

theorem moves_storeApplyInputs (runId : Id) (revision : ℕ)
    (files : List (String × CommittedFile)) (db : Db) (named : List (String × Id)) :
    Gives (fun result => db.ledger.Moves result.1.ledger)
      (Db.storeApplyInputs runId revision files db named) := by
  induction files generalizing db named with
  | nil => exact Gives.pure (Ledger.Moves.refl _)
  | cons file files ih =>
    refine Gives.bind fun stored hstored => ?_
    intro result hrest
    exact (moves_storeFile _ _ _ _ stored hstored).trans (ih stored.1 _ result hrest)

theorem moves_storeGenerated (op : ApplyOp) (snapshot : Snapshot) :
    Gives (fun result => db.ledger.Moves result.1.ledger) (op.storeGenerated P snapshot db) := by
  refine Gives.bind fun generated _ => ?_
  cases generated with
  | none => exact Gives.pure (Ledger.Moves.refl _)
  | some file =>
    refine Gives.bind fun stored hstored => Gives.pure ?_
    exact moves_storeFile _ _ _ _ stored hstored

/-- What the creation of a run does to the ledger. -/
theorem moves_createRunAtomic (new : NewRun) :
    Gives (fun db' => db.ledger.Moves db'.ledger) (db.createRunAtomic new) := by
  unfold Db.createRunAtomic
  split
  · exact Gives.bind fun _ _ => Gives.pure (Ledger.Moves.refl _)
  · refine Gives.bind fun stored hstored => Gives.bind fun runs hruns =>
      Gives.bind fun filled hfilled => Gives.bind fun contracts hcontracts => Gives.pure ?_
    obtain ⟨hfresh, rfl⟩ := insertRow_eq_some.mp hruns
    refine (moves_storeFile _ _ _ _ stored hstored).trans
      (Ledger.Moves.trans ?_ (moves_storeCreateInputs _ _ _ filled hfilled))
    refine ReflTransGen.single ?_
    unfold Db.ledger
    simp only [List.map_append, List.map_cons, List.map_nil]
    refine .created stored.1.ledger _ ?_ rfl
    intro old hold hid
    obtain ⟨run, hrun, rfl⟩ := List.mem_map.mp hold
    have hclash := hfresh run hrun
    have hsame : run.runId = new.runId := hid
    simp [Run.clash, hsame] at hclash

/-- The next revision of a run, as the ledger sees it. -/
theorem ledger_advanceRevision (runId : Id) (revision : ℕ) :
    Gives (fun db' => (∃ entry ∈ db.ledger.runs,
          entry.runId = runId ∧ entry.revision = revision) ∧
        db'.ledger =
          { db.ledger with runs := db.ledger.runs.map (RunEntry.advance runId revision) })
      (db.advanceRevision runId revision) := by
  refine Gives.bind fun _ hany => Gives.pure ⟨?_, ?_⟩
  · obtain ⟨run, hrun, htest⟩ := List.any_eq_true.mp (require_eq_some.mp hany)
    simp only [Bool.and_eq_true, beq_iff_eq] at htest
    exact ⟨run.entry, List.mem_map_of_mem hrun, htest⟩
  · unfold Db.ledger updateWhere
    simp only [List.map_map]
    congr 1
    refine List.map_congr_left fun run _ => ?_
    simp only [Function.comp_apply, RunEntry.advance]
    by_cases htest : (run.runId == runId && run.revision == revision) = true
    · simp only [htest, ↓reduceIte, Run.entry]
    · simp only [htest, Run.entry]
      rfl

theorem move_of_recorded {row : CommandRow} {event : Event} {recorded appended last : Db}
    (hrecords : row.Records event) (hrecorded : db.recordCommand row = some recorded)
    (happended : recorded.appendEvent event = some appended) (hlast : SameLedger appended last)
    (hadvanced : last.advanceRevision row.runId row.revisionBefore = some db') :
    Ledger.Move db.ledger db'.ledger := by
  obtain ⟨commands, hcommands, hrecorded⟩ := Option.bind_eq_some_iff.mp hrecorded
  obtain rfl := Option.some.inj hrecorded
  obtain ⟨hfresh, rfl⟩ := insertRow_eq_some.mp hcommands
  obtain ⟨events, hevents, happended⟩ := Option.bind_eq_some_iff.mp happended
  obtain rfl := Option.some.inj happended
  obtain ⟨-, rfl⟩ := insertRow_eq_some.mp hevents
  obtain ⟨hrun, hledger⟩ := ledger_advanceRevision _ _ _ hadvanced
  rw [hlast] at hrun hledger
  rw [hledger]
  exact .accepted db.ledger row event hfresh hrecords hrun

/-- An operation of the host is recorded in one move. -/
theorem moves_recordHostCommand {row : CommandRow} (haccepted : row.accepted = true)
    (hexpected : row.expectedRevision = row.revisionBefore)
    (hafter : row.revisionAfter = row.revisionBefore + 1) (eventId : Id) (version : Option ℕ) :
    Gives (fun db' => db.ledger.Moves db'.ledger) (db.recordHostCommand row eventId version) := by
  refine Gives.bind fun recorded hrecorded => Gives.bind fun appended happended => ?_
  intro db' hadvanced
  refine ReflTransGen.single (move_of_recorded ?_ hrecorded happended rfl hadvanced)
  exact ⟨haccepted, hexpected, hafter, rfl, rfl, rfl⟩

theorem moves_recordComponentUsage (capability : VerifiedCapability) (report : ComponentUsage) :
    Gives (fun db' => db.ledger.Moves db'.ledger)
      (db.recordComponentUsage P capability report) := by
  unfold Db.recordComponentUsage
  dsimp only
  split
  · exact Gives.bind fun _ _ => Gives.pure (Ledger.Moves.refl _)
  · refine Gives.bind fun run _ => Gives.bind fun _ _ => Gives.bind fun events _ =>
      Gives.bind fun recorded hrecorded => Gives.pure ?_
    refine (moves_recordHostCommand rfl rfl rfl _ _ recorded hrecorded).trans ?_
    split
    · exact Ledger.Moves.refl _
    · exact (sameLedger_updateRuns recorded fun _ => by exact rfl).moves

theorem moves_recordHostExecution (capability : VerifiedCapability) (record : HostRecord) :
    Gives (fun db' => db.ledger.Moves db'.ledger) (db.recordHostExecution P capability record) := by
  refine Gives.bind fun rows _ => Gives.bind fun _ _ => Gives.bind fun _ _ =>
    Gives.bind fun receipts _ => Gives.bind fun events _ =>
    Gives.bind fun recorded hrecorded => Gives.pure ?_
  exact moves_recordHostCommand rfl rfl rfl _ _ recorded hrecorded

theorem moves_recoverHostClaims (capability : VerifiedCapability) (now : Instant)
    (claims : List HostClaim) (db : Db) :
    Gives (fun db' => db.ledger.Moves db'.ledger)
      (Db.recoverHostClaims P capability now claims db) := by
  induction claims generalizing db with
  | nil => exact Gives.pure (Ledger.Moves.refl _)
  | cons claim claims ih =>
    refine Gives.bind fun recovered hrecovered => ?_
    intro db' hrest
    -- The revision is read again for every claim that is recovered.
    have hfirst : Gives (fun db' => db.ledger.Moves db'.ledger)
        (db.recoverHostClaim P capability now claim) := by
      refine Gives.bind fun run _ => Gives.bind fun recorded hrecorded => Gives.pure ?_
      exact moves_recordHostCommand rfl rfl rfl _ _ recorded hrecorded
    exact (hfirst recovered hrecovered).trans (ih recovered db' hrest)

theorem moves_setKernelVerified (rows : ReceiptRows) (capabilityId : Id) (use : ReceiptUse) :
    Gives (SameLedger db) (db.setKernelVerified P rows capabilityId use) := by
  unfold Db.setKernelVerified
  split
  · exact Gives.pure rfl
  · exact Gives.bind fun _ _ => Gives.pure rfl

theorem moves_consumeHostLeanReceipt (capability : VerifiedCapability) (use : ReceiptUse)
    (feedbackId : Id) (toolchain : String) :
    Gives (fun db' => db.ledger.Moves db'.ledger)
      (db.consumeHostLeanReceipt P capability use feedbackId toolchain) := by
  refine Gives.bind fun rows _ => Gives.bind fun _ _ => Gives.bind fun source _ =>
    Gives.bind fun output _ => Gives.bind fun feedback _ => Gives.bind fun roots _ =>
    Gives.bind fun evidence _ => Gives.bind fun recorded hrecorded =>
    Gives.bind fun verified hverified => Gives.pure ?_
  exact (moves_recordHostCommand rfl rfl rfl _ _ recorded hrecorded).trans
    (moves_setKernelVerified _ _ _ verified hverified).moves

theorem moves_consumeHostCheckerReceipt (capability : VerifiedCapability) (use : ReceiptUse)
    (verificationId : Id) (rootKind : RootKind) :
    Gives (fun db' => db.ledger.Moves db'.ledger)
      (db.consumeHostCheckerReceipt P capability use verificationId rootKind) := by
  refine Gives.bind fun rows _ => Gives.bind fun _ _ => Gives.bind fun output _ =>
    Gives.bind fun roots _ => Gives.bind fun evidence _ => Gives.bind fun verifications _ =>
    Gives.bind fun recorded hrecorded => Gives.pure ?_
  exact moves_recordHostCommand rfl rfl rfl _ _ recorded hrecorded

end Writers

/-! ## Requests -/

section Requests

variable {P : Platform} {policy : Policy} {db db' : Db} {op : ApplyOp}

theorem revision_of_guardSnapshot {runId : Id} {snapshot : Snapshot}
    (h : db.guardSnapshot runId = some snapshot) :
    ∃ run ∈ db.runs, run.runId = runId ∧ run.revision = snapshot.revision := by
  obtain ⟨run, hrun, h⟩ := Option.bind_eq_some_iff.mp h
  obtain rfl := Option.some.inj h
  obtain ⟨hmem, hid⟩ := run?_eq_some hrun
  exact ⟨run, hmem, hid, rfl⟩

/-- An accepted request expects the revision of the run. -/
theorem revision_of_decide {context : GuardContext} {command : Command} {expectedRevision : ℕ}
    {mutations : List Mutation}
    (h : Guard.decide context command expectedRevision = .ok mutations) :
    expectedRevision = context.snapshot.revision := by
  unfold Guard.decide at h
  obtain ⟨⟨⟩, -, h⟩ := bind_eq_ok.mp h
  obtain ⟨⟨⟩, hrevision, -⟩ := bind_eq_ok.mp h
  simpa using hrevision

theorem Acceptance.expectedRevision_eq (acceptance : Acceptance P policy db op db') :
    op.request.expectedRevision = acceptance.snapshot.revision :=
  revision_of_decide (guard_of_decide acceptance.decision_eq)

/-- The files of an accepted request are stored before it is recorded. -/
theorem Acceptance.moves_written (acceptance : Acceptance P policy db op db') :
    db.ledger.Moves acceptance.written.ledger :=
  (moves_ensureCapability _ _ acceptance.ensured).trans
    ((moves_storeApplyInputs _ _ _ _ _ _ acceptance.stored_eq).trans
      (moves_storeGenerated _ _ _ acceptance.written_eq))

/-- An accepted request is recorded in one move. -/
theorem Acceptance.move_recorded (acceptance : Acceptance P policy db op db') :
    Ledger.Move acceptance.written.ledger db'.ledger := by
  have hadvanced := acceptance.advanced
  rw [acceptance.expectedRevision_eq] at hadvanced
  refine move_of_recorded ?_ acceptance.recorded_eq acceptance.appended_eq
    acceptance.sameLedger_last hadvanced
  exact ⟨rfl, acceptance.expectedRevision_eq, rfl, rfl, rfl, rfl⟩

/-- What a request does to the ledger. -/
theorem moves_apply (P : Platform) (policy : Policy) (db : Db) (op : ApplyOp) :
    db.ledger.Moves (op.apply P policy db).ledger := by
  have hends := ends_run P policy db op
  unfold ApplyOp.apply
  cases hrun : op.run P policy db with
  | mk start result =>
    rw [hrun] at hends
    cases hends with
    | denied => exact Ledger.Moves.refl _
    | failed _ hensured | repeated _ previous hensured => exact moves_ensureCapability _ _ hensured
    | rejected _ snapshot code conditions after hensured hundecided hsnapshot hdecision hrecorded =>
      refine (moves_ensureCapability _ _ hensured).trans (ReflTransGen.single ?_)
      obtain ⟨commands, hcommands, hrecorded⟩ := Option.bind_eq_some_iff.mp hrecorded
      obtain rfl := Option.some.inj hrecorded
      obtain ⟨hfresh, rfl⟩ := insertRow_eq_some.mp hcommands
      obtain ⟨run, hmem, hid, -⟩ := revision_of_guardSnapshot hsnapshot
      exact .rejected start.ledger _ hfresh rfl rfl ⟨run.entry, List.mem_map_of_mem hmem, hid⟩
    | accepted after acceptance =>
      exact acceptance.moves_written.trans (ReflTransGen.single acceptance.move_recorded)

/-- What a request to create a run does to the ledger. -/
theorem moves_create (P : Platform) (db : Db) (op : CreateOp) :
    db.ledger.Moves (op.apply P db).ledger := by
  unfold CreateOp.apply
  split
  · split
    · split
      · exact Ledger.Moves.refl _
      · rename_i start hensured
        refine (moves_ensureCapability _ _ hensured).trans ?_
        cases hend : start.createRunAtomic (op.newRun P _) with
        | none => exact Ledger.Moves.refl _
        | some after => exact moves_createRunAtomic _ _ hend
    · exact Ledger.Moves.refl _
  · exact Ledger.Moves.refl _

end Requests

/-! ## The machine -/

section Machine

variable {P : Platform} {policy : Policy} {db : Db}

theorem moves_withCapability (allowed : Bool) (capability : VerifiedCapability)
    {transaction : Db → Option Db}
    (h : ∀ start : Db, Gives (fun db' => start.ledger.Moves db'.ledger) (transaction start)) :
    db.ledger.Moves (db.withCapability allowed capability transaction).ledger := by
  unfold Db.withCapability
  split
  · split
    · exact Ledger.Moves.refl _
    · rename_i start hensured
      refine (moves_ensureCapability _ _ hensured).trans ?_
      cases hend : transaction start with
      | none => exact Ledger.Moves.refl _
      | some last => exact h start last hend
  · exact Ledger.Moves.refl _

/-- Every operation changes the ledger by moves. -/
theorem moves_step (P : Platform) (policy : Policy) (db : Db) (op : Op) :
    db.ledger.Moves (step P policy db op).ledger := by
  cases op with
  | create op => exact moves_create P db op
  | apply op => exact moves_apply P policy db op
  | importArtifact op =>
    refine moves_withCapability _ _ fun start => ?_
    refine Gives.bind fun _ _ => Gives.bind fun stored hstored => Gives.pure ?_
    exact moves_storeFile _ _ _ _ stored hstored
  | recordComponentUsage capability report =>
    exact moves_withCapability _ _ fun _ => moves_recordComponentUsage _ _
  | claimHostExecution capability request =>
    refine moves_withCapability _ _ fun start => ?_
    exact Gives.bind fun _ _ => Gives.bind fun _ _ => Gives.bind fun _ _ => Gives.bind fun _ _ =>
      Gives.bind fun _ _ => Gives.bind fun _ _ => Gives.bind fun _ _ =>
      Gives.pure (Ledger.Moves.refl _)
  | recordHostExecution capability record =>
    exact moves_withCapability _ _ fun _ => moves_recordHostExecution _ _
  | heartbeatHostExecution claimToken serviceInstanceId now recoverAfter =>
    exact Ledger.Moves.refl _
  | recoverIncompleteHostClaims capability now claimToken force =>
    exact moves_withCapability _ _ fun start => moves_recoverHostClaims _ _ _ start
  | consumeHostLeanReceipt capability use feedbackId toolchain =>
    exact moves_withCapability _ _ fun _ => moves_consumeHostLeanReceipt _ _ _ _
  | consumeHostCheckerReceipt capability use verificationId rootKind =>
    exact moves_withCapability _ _ fun _ => moves_consumeHostCheckerReceipt _ _ _ _

/-- What every move preserves holds of the ledger of every reached database. -/
theorem reached_ledger {I : Ledger → Prop} (hempty : I Db.empty.ledger)
    (hmove : ∀ ledger ledger', Ledger.Move ledger ledger' → I ledger → I ledger')
    (ops : List Op) : I (reached P policy ops).ledger := by
  have hrun := @runFrom_invariant Db Op (step P policy) (fun db => I db.ledger) Db.empty hempty
    (fun db op h => (moves_step P policy db op).preserves hmove h) ops
  exact hrun

end Machine

/-! ## The ledger is only appended to -/

/-- Nothing is taken out of a ledger, and nothing in it changes but revisions, which count up. -/
structure Ledger.Extends (before after : Ledger) : Prop where
  capabilities : before.capabilities <+: after.capabilities
  artifacts : before.artifacts <+: after.artifacts
  runArtifacts : before.runArtifacts <+: after.runArtifacts
  commands : before.commands <+: after.commands
  events : before.events <+: after.events
  runs : ∀ entry ∈ before.runs, ∃ revision, entry.revision ≤ revision ∧
    { entry with revision := revision } ∈ after.runs

section Extends

variable {a b c : Ledger}

theorem Ledger.Extends.refl (ledger : Ledger) : ledger.Extends ledger :=
  ⟨List.prefix_rfl, List.prefix_rfl, List.prefix_rfl, List.prefix_rfl, List.prefix_rfl,
    fun entry h => ⟨entry.revision, le_rfl, h⟩⟩

theorem Ledger.Extends.trans (h : a.Extends b) (h' : b.Extends c) : a.Extends c where
  capabilities := h.capabilities.trans h'.capabilities
  artifacts := h.artifacts.trans h'.artifacts
  runArtifacts := h.runArtifacts.trans h'.runArtifacts
  commands := h.commands.trans h'.commands
  events := h.events.trans h'.events
  runs entry hentry := by
    obtain ⟨revision, hle, hmem⟩ := h.runs entry hentry
    obtain ⟨later, hle', hmem'⟩ := h'.runs _ hmem
    exact ⟨later, hle.trans hle', hmem'⟩

/-- A move extends the ledger. -/
theorem Ledger.Move.extends (h : Ledger.Move a b) : a.Extends b := by
  have hrefl := Ledger.Extends.refl a
  cases h with
  | capability row => exact { hrefl with capabilities := List.prefix_append _ _ }
  | stored row hfresh => exact { hrefl with artifacts := List.prefix_append _ _ }
  | linked link => exact { hrefl with runArtifacts := List.prefix_append _ _ }
  | created entry hfresh hstart =>
    exact { hrefl with runs := fun old h => ⟨old.revision, le_rfl, List.mem_append_left _ h⟩ }
  | rejected row hfresh hrejected hrevision hrun =>
    exact { hrefl with commands := List.prefix_append _ _ }
  | accepted row event hfresh hrecords hrun =>
    refine { hrefl with
      commands := List.prefix_append _ _
      events := List.prefix_append _ _
      runs := fun old h => ⟨(old.advance row.runId row.revisionBefore).revision, ?_, ?_⟩ }
    · unfold RunEntry.advance
      split
      · next htest =>
        simp only [Bool.and_eq_true, beq_iff_eq] at htest
        exact htest.2 ▸ Nat.le_succ _
      · exact le_rfl
    · refine List.mem_map.mpr ⟨old, h, ?_⟩
      unfold RunEntry.advance
      split <;> rfl

end Extends

/-- Along every run the ledger is only appended to, and revisions only count up. -/
theorem append_only_of_reached (P : Platform) (policy : Policy) (early late : List Op) :
    (reached P policy early).ledger.Extends (reached P policy (early ++ late)).ledger :=
  runFrom_stays (I := fun db : Db => (reached P policy early).ledger.Extends db.ledger) (.refl _)
    (fun _ op ih => (moves_step P policy _ op).preserves
      (fun _ _ hmove h => h.trans hmove.extends) ih) late

end ResearchKernel
