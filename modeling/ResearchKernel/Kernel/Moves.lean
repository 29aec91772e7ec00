import ResearchKernel.Kernel.Workings

/-!
# The moves of the machine

Every operation either leaves the body of the database alone or makes one of nine moves:
a run is created, a request is accepted, usage is reported, an execution is claimed,
recorded or kept alive, executions are recovered, or a receipt is consumed. Each move is
given with the tables it writes, so that an invariant of any table is proved move by move.
-/

namespace ResearchKernel

open Foundation

/-! ## Writes beside the ledger -/

section Bodies

variable {db db' : Db}

/-- A database in which only the capabilities differ. -/
theorem sameBody_capabilities (db : Db) (rows : List CapabilityRow) :
    SameBody db { db with capabilities := rows } := rfl

/-- A database in which only the ledger and the revisions differ. -/
theorem sameBody_ledger (db : Db) (capabilities : List CapabilityRow) (commands : List CommandRow)
    (events : List Event) (runs : List Run)
    (h : runs.map (fun run => { run with revision := 0 }) = db.body.runs) :
    SameBody db { db with
      capabilities := capabilities
      commands := commands
      events := events
      runs := runs } := by
  unfold SameBody
  rw [show db.body = { db.body with runs := db.body.runs } from rfl, ← h]
  rfl

/-- Recording an operation of the host writes the ledger and a revision. -/
theorem recordHostCommand_eq (row : CommandRow) (eventId : Id) (version : Option ℕ) :
    Gives (fun db' => ∃ commands events runs,
        runs.map (fun run => { run with revision := 0 }) = db.body.runs ∧
          db' = { db with commands := commands, events := events, runs := runs })
      (db.recordHostCommand row eventId version) := by
  refine Gives.bind fun recorded hrecorded => Gives.bind fun appended happended => ?_
  intro db' hadvanced
  have hruns := congrArg Db.runs (sameBody_advanceRevision _ _ _ hadvanced)
  obtain ⟨commands, -, hrecorded⟩ := Option.bind_eq_some_iff.mp hrecorded
  obtain rfl := Option.some.inj hrecorded
  obtain ⟨events, -, happended⟩ := Option.bind_eq_some_iff.mp happended
  obtain rfl := Option.some.inj happended
  obtain ⟨-, -, hadvanced⟩ := Option.bind_eq_some_iff.mp hadvanced
  obtain rfl := Option.some.inj hadvanced
  exact ⟨commands, events, _, hruns, rfl⟩

/-- The budget after a report, which pauses its run on an overrun. -/
def Db.charge (db : Db) (events : List BudgetEvent) (runId : Id) (paused : Bool) : Db :=
  { db with
    budgetEvents := events
    runs := if paused then updateWhere (·.runId == runId)
      (fun run => { run with status := .paused }) db.runs else db.runs }

/-- A report writes the same beside any ledger. -/
theorem SameBody.charge (h : SameBody db db') (events : List BudgetEvent) (runId : Id)
    (paused : Bool) : SameBody (db.charge events runId paused) (db'.charge events runId paused) := by
  have hbody : ∀ db : Db, (db.charge events runId paused).body =
      db.body.charge events runId paused := by
    intro db
    unfold Db.charge Db.body
    cases paused with
    | false => rfl
    | true =>
      have hruns := @map_updateWhere_comm Run (fun run => run.runId == runId)
        (fun run => { run with status := .paused }) (fun run => { run with revision := 0 })
        (fun _ => rfl) (fun _ => rfl) db.runs
      simp only [↓reduceIte, hruns]
  unfold SameBody
  rw [hbody, hbody, h]

end Bodies

/-! ## Recoveries -/

/-- What the recovery of an execution writes beside the ledger. -/
def Db.afterRecovery (P : Platform) (db : Db) (now : Instant) (revision : ℕ)
    (claim : HostClaim) : Db :=
  let events := (db.insertOrIgnoreBudget
    (recoveryEvent P claim revision "recovery:unknown" .unknownCost none)).insertOrIgnoreBudget
      (recoveryEvent P claim revision "recovery:fuse" .fuseTrip (some 0))
  { events with
    attempts := updateWhere
      (fun attempt => attempt.attemptId == claim.attemptId &&
        (attempt.status == .queued || attempt.status == .running || attempt.status == .paused))
      (fun attempt => { attempt with status := .environmentError, endedAt := some now })
      db.attempts
    leases := updateWhere
      (fun lease => lease.attemptId == claim.attemptId && lease.status == .active)
      (fun lease => { lease with status := .revoked, releasedAt := some now }) db.leases
    hostClaims := updateWhere (·.attemptId == claim.attemptId)
      (fun row => { row with completedAt := some now, recoveryState := .unknownFused })
      db.hostClaims }

/-- The executions of a list are recovered one after the other. -/
inductive Recoveries (P : Platform) (now : Instant) : List HostClaim → Db → Db → Prop
  | nil {db db' : Db} (same : SameBody db db') : Recoveries P now [] db db'
  | cons {db mid last : Db} {claims : List HostClaim} (claim : HostClaim) (revision : ℕ)
      (same : SameBody (db.afterRecovery P now revision claim) mid)
      (rest : Recoveries P now claims mid last) : Recoveries P now (claim :: claims) db last

/-- A recovery writes the same beside any ledger. -/
theorem SameBody.afterRecovery {P : Platform} {db db' : Db} (h : SameBody db db') (now : Instant)
    (revision : ℕ) (claim : HostClaim) :
    SameBody (db.afterRecovery P now revision claim) (db'.afterRecovery P now revision claim) := by
  have hbody : ∀ db : Db, (db.afterRecovery P now revision claim).body =
      db.body.afterRecovery P now revision claim := fun _ => rfl
  unfold SameBody
  rw [hbody, hbody, h]

theorem Recoveries.of_sameBody {P : Platform} {now : Instant} {claims : List HostClaim}
    {db start last : Db} (h : SameBody db start) (steps : Recoveries P now claims start last) :
    Recoveries P now claims db last := by
  cases steps with
  | nil same => exact .nil (h.trans same)
  | cons claim revision same rest =>
    exact .cons claim revision ((h.afterRecovery now revision claim).trans same) rest

/-- What depends on the body alone and no recovery changes is the same after all of them. -/
theorem Recoveries.keeps {P : Platform} {now : Instant} {claims : List HostClaim} {db last : Db}
    {β : Type} {f : Db → β} (hbody : ∀ db db', SameBody db db' → f db' = f db)
    (hkeep : ∀ db revision claim, f (db.afterRecovery P now revision claim) = f db)
    (steps : Recoveries P now claims db last) : f last = f db := by
  induction steps with
  | nil same => exact hbody _ _ same
  | cons claim revision same _ ih => rw [ih, hbody _ _ same, hkeep]

/-- The executions that are due for recovery. -/
def Db.dueClaims (db : Db) (capability : VerifiedCapability) (now : Instant)
    (claimToken : Option Id) (force : Bool) : List HostClaim :=
  ((db.hostClaims.filter fun claim =>
    claim.recoveryState == .pending && claimToken.all (claim.claimToken == ·) &&
      (force || decide (claim.recoverAfter ≤ now))).insertionSort
        fun a b => a.attemptId ≤ b.attemptId).filter
    fun claim => capability.allows "HostExecute" (some claim.runId)

/-! ## The moves -/

/-- The first row of a run. -/
structure Run.Begins (run : Run) (db : Db) : Prop where
  isOpen : run.status = .isOpen
  fresh : ∀ old ∈ db.runs, Run.clash run old = false

/-- The first row of a claim to an execution. -/
structure HostClaim.Begins (claim : HostClaim) (db : Db) : Prop where
  pending : claim.recoveryState = .pending
  incomplete : claim.completedAt = none
  fresh : ∀ old ∈ db.hostClaims, HostClaim.clash claim old = false

/-- What an operation does to the body of the database. -/
inductive Move (P : Platform) (policy : Policy) (db : Db) : Op → Db → Prop
  | idle (op : Op) (db' : Db) (same : SameBody db db') : Move P policy db op db'
  | created (op : CreateOp) (db' : Db) (run : Run) (contract : ContractVersion)
      (begins : run.Begins db)
      (same : SameBody { db with
        runs := db.runs ++ [run]
        contractVersions := db.contractVersions ++ [contract] } db') :
      Move P policy db (.create op) db'
  | applied (op : ApplyOp) (db' : Db) (accepts : op.Accepts P policy db)
      (acceptance : Acceptance P policy db op db') : Move P policy db (.apply op) db'
  | reported (capability : VerifiedCapability) (report : ComponentUsage) (db' : Db)
      (revision : ℕ) (overruns : List ResourceKind)
      (overruns_eq : overruns =
        db.componentOverruns report.runId (componentRows report.usage) report.budgetLimits)
      (same : SameBody (db.charge (db.budgetEvents ++
        report.budgetEvents P revision (componentRows report.usage) overruns) report.runId
        (!overruns.isEmpty)) db') :
      Move P policy db (.recordComponentUsage capability report) db'
  | claimed (capability : VerifiedCapability) (request : HostClaimRequest) (db' : Db)
      (claim : HostClaim) (begins : claim.Begins db)
      (same : SameBody { db with hostClaims := db.hostClaims ++ [claim] } db') :
      Move P policy db (.claimHostExecution capability request) db'
  | recorded (capability : VerifiedCapability) (record : HostRecord) (db' : Db) (revision : ℕ)
      (reasons : List String) (usage : List UsageRow)
      (usage_eq : usage = hostBudgetRows record.result.wallTimeMs record.result.providerUsage)
      (claimed : db.hostClaims.any fun claim =>
        claim.attemptId == record.scope.attemptId && claim.bindingId == record.scope.bindingId &&
          claim.claimToken == record.claimToken && claim.completedAt.isNone)
      (fresh : ∀ old ∈ db.hostReceipts, HostReceipt.clash (record.receipt reasons) old = false)
      (same : SameBody { db with
        hostReceipts := db.hostReceipts ++ [record.receipt reasons]
        budgetEvents := db.budgetEvents ++ record.budgetEvents P revision usage
          (db.hostBudgetOverruns record.scope.runId record.scope.attemptId usage
            record.budgetLimits)
        hostClaims := updateWhere
          (fun claim => claim.attemptId == record.scope.attemptId &&
            claim.claimToken == record.claimToken && claim.completedAt.isNone)
          (fun claim => { claim with
            completedAt := some record.ledger.now
            recoveryState := .completed }) db.hostClaims } db') :
      Move P policy db (.recordHostExecution capability record) db'
  | beaten (claimToken : Id) (serviceInstanceId : String) (now recoverAfter : Instant) :
      Move P policy db (.heartbeatHostExecution claimToken serviceInstanceId now recoverAfter)
        (db.heartbeatHostExecution claimToken serviceInstanceId now recoverAfter)
  | recovered (capability : VerifiedCapability) (now : Instant) (claimToken : Option Id)
      (force : Bool) (db' : Db)
      (recoveries : Recoveries P now (db.dueClaims capability now claimToken force) db db') :
      Move P policy db (.recoverIncompleteHostClaims capability now claimToken force) db'
  | leanConsumed (capability : VerifiedCapability) (use : ReceiptUse) (feedbackId : Id)
      (toolchain : String) (db' : Db) (rows : ReceiptRows) (feedback : LeanFeedback)
      (root : EvidenceRoot) (evidence : Evidence) (verified : Db)
      (rows_eq : db.receiptRows? use.receiptId = some rows)
      (eligible : rows.leanEligible use toolchain = true)
      (verified_eq : db.setKernelVerified P rows capability.capabilityId use = some verified)
      (same : SameBody { verified with
        leanFeedback := db.leanFeedback ++ [feedback]
        evidenceRoots := db.evidenceRoots ++ [root]
        evidence := db.evidence ++ [evidence]
        hostReceipts :=
          consumedByFeedback use.receiptId feedbackId use.ledger.now db.hostReceipts } db') :
      Move P policy db (.consumeHostLeanReceipt capability use feedbackId toolchain) db'
  | checkerConsumed (capability : VerifiedCapability) (use : ReceiptUse) (verificationId : Id)
      (rootKind : RootKind) (db' : Db) (rows : ReceiptRows) (root : EvidenceRoot)
      (evidence : Evidence) (verification : AtomicVerification)
      (rows_eq : db.receiptRows? use.receiptId = some rows)
      (eligible : rows.checkerEligible use = true)
      (same : SameBody { db with
        evidenceRoots := db.evidenceRoots ++ [root]
        evidence := db.evidence ++ [evidence]
        atomicVerifications := db.atomicVerifications ++ [verification]
        hostReceipts :=
          consumedByVerification use.receiptId verificationId use.ledger.now db.hostReceipts
        claims := updateWhere (·.claimId == rows.receipt.claimId)
          (fun claim => { claim with
            machineVerdict := .certificateVerified
            semanticVerdict := .tested }) db.claims } db') :
      Move P policy db (.consumeHostCheckerReceipt capability use verificationId rootKind) db'

section Steps

variable {P : Platform} {policy : Policy} {db : Db}

theorem setKernelVerified_eq (rows : ReceiptRows) (capabilityId : Id) (use : ReceiptUse) :
    Gives (fun db' => ∃ verdicts claims,
        db' = { db with verdictEvents := verdicts, claims := claims })
      (db.setKernelVerified P rows capabilityId use) := by
  unfold Db.setKernelVerified
  split
  · exact Gives.pure ⟨db.verdictEvents, db.claims, rfl⟩
  · exact Gives.bind fun _ _ => Gives.pure ⟨_, _, rfl⟩

/-- An operation of the host stores its capability, and then ends where its transaction
ends or there. -/
theorem withCapability_eq (db : Db) (allowed : Bool) (capability : VerifiedCapability)
    (transaction : Db → Option Db) :
    (∃ rows, db.withCapability allowed capability transaction = { db with capabilities := rows }) ∨
      ∃ rows, transaction { db with capabilities := rows } =
        some (db.withCapability allowed capability transaction) := by
  unfold Db.withCapability
  split
  · split
    · exact Or.inl ⟨db.capabilities, rfl⟩
    · rename_i start hstart
      obtain ⟨rows, rfl⟩ := ensureCapability_eq capability start hstart
      cases hend : transaction { db with capabilities := rows } with
      | none => exact Or.inl ⟨rows, rfl⟩
      | some last => exact Or.inr ⟨rows, by simpa using hend⟩
  · exact Or.inl ⟨db.capabilities, rfl⟩

theorem storeFile_eq (runId : Id) (file : CommittedFile) (name : String) (role : ArtifactRole) :
    Gives (fun stored => ∃ artifacts links,
        stored.1 = { db with artifacts := artifacts, runArtifacts := links })
      (db.storeFile runId file name role) := by
  refine Gives.bind fun inserted hinserted => Gives.bind fun linked hlinked => Gives.pure ?_
  obtain ⟨row, -, hinserted⟩ := Option.bind_eq_some_iff.mp hinserted
  obtain ⟨-, -, hinserted⟩ := Option.bind_eq_some_iff.mp hinserted
  obtain rfl := Option.some.inj hinserted
  unfold Db.linkArtifact at hlinked
  split at hlinked
  · obtain rfl := Option.some.inj hlinked
    exact ⟨_, _, rfl⟩
  · obtain ⟨-, -, hlinked⟩ := Option.bind_eq_some_iff.mp hlinked
    obtain rfl := Option.some.inj hlinked
    exact ⟨_, _, rfl⟩

theorem storeCreateInputs_eq (runId : Id) (files : List ((String × CommittedFile) × ℕ)) (db : Db) :
    Gives (fun db' => ∃ artifacts links,
        db' = { db with artifacts := artifacts, runArtifacts := links })
      (Db.storeCreateInputs runId files db) := by
  induction files generalizing db with
  | nil => exact Gives.pure ⟨db.artifacts, db.runArtifacts, rfl⟩
  | cons file files ih =>
    refine Gives.bind fun stored hstored => ?_
    intro db' hrest
    obtain ⟨artifacts, links, hfirst⟩ := storeFile_eq _ _ _ _ stored hstored
    obtain ⟨artifacts', links', rfl⟩ := ih stored.1 db' hrest
    exact ⟨artifacts', links', by rw [hfirst]⟩

theorem move_createRunAtomic (op : CreateOp) (new : NewRun) (rows : List CapabilityRow) :
    Gives (fun db' => Move P policy db (.create op) db')
      (Db.createRunAtomic { db with capabilities := rows } new) := by
  unfold Db.createRunAtomic
  split
  · exact Gives.bind fun _ _ => Gives.pure (.idle _ _ rfl)
  · refine Gives.bind fun stored hstored => Gives.bind fun runs hruns =>
      Gives.bind fun filled hfilled => Gives.bind fun contracts hcontracts => Gives.pure ?_
    obtain ⟨artifacts, links, hfile⟩ := storeFile_eq _ _ _ _ stored hstored
    obtain ⟨artifacts', links', rfl⟩ := storeCreateInputs_eq _ _ _ filled hfilled
    obtain ⟨hfresh, rfl⟩ := insertRow_eq_some.mp hruns
    obtain ⟨-, rfl⟩ := insertRow_eq_some.mp hcontracts
    rw [hfile] at hfresh ⊢
    exact .created op _ _ _ ⟨rfl, hfresh⟩ rfl

theorem move_recordComponentUsage (capability : VerifiedCapability) (report : ComponentUsage)
    (rows : List CapabilityRow) :
    Gives (fun db' => Move P policy db (.recordComponentUsage capability report) db')
      (Db.recordComponentUsage P { db with capabilities := rows } capability report) := by
  unfold Db.recordComponentUsage
  dsimp only
  split
  · exact Gives.bind fun _ _ => Gives.pure (.idle _ _ rfl)
  · refine Gives.bind fun run _ => Gives.bind fun _ _ => Gives.bind fun events hevents =>
      Gives.bind fun recorded hrecorded => Gives.pure ?_
    obtain rfl := eq_append_of_insertRows hevents
    have hrecord : SameBody db recorded :=
      (sameBody_capabilities db rows).trans (sameBody_recordHostCommand _ _ _ recorded hrecorded)
    refine .reported capability report _ (run.revision + 1) _ rfl ((hrecord.charge _ _ _).trans ?_)
    unfold Db.charge
    change SameBody _ { recorded with
      budgetEvents := _
      runs := if (db.componentOverruns report.runId (componentRows report.usage)
          report.budgetLimits).isEmpty then recorded.runs else _ }
    cases (db.componentOverruns report.runId (componentRows report.usage)
      report.budgetLimits).isEmpty with
    | true => rfl
    | false => rfl

theorem move_claimHostExecution (capability : VerifiedCapability) (request : HostClaimRequest)
    (rows : List CapabilityRow) :
    Gives (fun db' => Move P policy db (.claimHostExecution capability request) db')
      (Db.claimHostExecution { db with capabilities := rows } request) := by
  refine Gives.bind fun _ _ => Gives.bind fun _ _ => Gives.bind fun _ _ => Gives.bind fun _ _ =>
    Gives.bind fun _ _ => Gives.bind fun _ _ => Gives.bind fun claims hclaims => Gives.pure ?_
  obtain ⟨hfresh, rfl⟩ := insertRow_eq_some.mp hclaims
  exact .claimed capability request _ _ ⟨rfl, rfl, hfresh⟩ rfl

theorem move_recordHostExecution (capability : VerifiedCapability) (record : HostRecord)
    (rows : List CapabilityRow) :
    Gives (fun db' => Move P policy db (.recordHostExecution capability record) db')
      (Db.recordHostExecution P { db with capabilities := rows } capability record) := by
  refine Gives.bind fun joined _ => Gives.bind fun _ hclaimed => Gives.bind fun _ _ =>
    Gives.bind fun receipts hreceipts => Gives.bind fun events hevents =>
    Gives.bind fun recorded hrecorded => Gives.pure ?_
  obtain ⟨hfresh, rfl⟩ := insertRow_eq_some.mp hreceipts
  obtain rfl := eq_append_of_insertRows hevents
  obtain ⟨commands, ledger, runs, hruns, rfl⟩ := recordHostCommand_eq _ _ _ recorded hrecorded
  exact .recorded capability record _ (joined.run.revision + 1) _ _ rfl
    (require_eq_some.mp hclaimed) hfresh (sameBody_ledger _ rows commands ledger runs hruns)

theorem recoveries_recoverHostClaims (capability : VerifiedCapability) (now : Instant)
    (claims : List HostClaim) (db : Db) :
    Gives (fun db' => Recoveries P now claims db db')
      (Db.recoverHostClaims P capability now claims db) := by
  induction claims generalizing db with
  | nil => exact Gives.pure (.nil rfl)
  | cons claim claims ih =>
    refine Gives.bind fun recovered hrecovered => ?_
    intro db' hrest
    obtain ⟨run, -, hrecovered⟩ := Option.bind_eq_some_iff.mp hrecovered
    obtain ⟨recorded, hrecorded, hrecovered⟩ := Option.bind_eq_some_iff.mp hrecovered
    obtain rfl := Option.some.inj hrecovered
    obtain ⟨commands, ledger, runs, hruns, rfl⟩ := recordHostCommand_eq _ _ _ recorded hrecorded
    refine .cons claim (run.revision + 1) ?_ (ih _ db' hrest)
    exact sameBody_ledger (db.afterRecovery P now (run.revision + 1) claim) db.capabilities
      commands ledger runs hruns

theorem move_recover (capability : VerifiedCapability) (now : Instant) (claimToken : Option Id)
    (force : Bool) (rows : List CapabilityRow) :
    Gives (fun db' =>
        Move P policy db (.recoverIncompleteHostClaims capability now claimToken force) db')
      (Db.recoverIncompleteHostClaims P { db with capabilities := rows } capability now claimToken
        force) := by
  intro db' hrecovered
  have hsteps := recoveries_recoverHostClaims _ _ _ _ db' hrecovered
  exact .recovered capability now claimToken force db'
    (Recoveries.of_sameBody (sameBody_capabilities db rows) hsteps)

theorem move_consumeHostLeanReceipt (capability : VerifiedCapability) (use : ReceiptUse)
    (feedbackId : Id) (toolchain : String) (rows : List CapabilityRow) :
    Gives (fun db' =>
        Move P policy db (.consumeHostLeanReceipt capability use feedbackId toolchain) db')
      (Db.consumeHostLeanReceipt P { db with capabilities := rows } capability use feedbackId
        toolchain) := by
  refine Gives.bind fun joined hjoined => Gives.bind fun _ heligible =>
    Gives.bind fun source _ => Gives.bind fun output _ => Gives.bind fun feedback hfeedback =>
    Gives.bind fun roots hroots => Gives.bind fun evidence hevidence =>
    Gives.bind fun recorded hrecorded => Gives.bind fun verified hverified => Gives.pure ?_
  obtain ⟨-, rfl⟩ := insertRow_eq_some.mp hfeedback
  obtain ⟨-, rfl⟩ := insertRow_eq_some.mp hroots
  obtain ⟨-, rfl⟩ := insertRow_eq_some.mp hevidence
  obtain ⟨commands, ledger, runs, hruns, rfl⟩ := recordHostCommand_eq _ _ _ recorded hrecorded
  unfold Db.setKernelVerified at hverified
  split at hverified
  · obtain rfl := Option.some.inj hverified
    refine .leanConsumed capability use feedbackId toolchain _ joined _ _ _ db hjoined
      (require_eq_some.mp heligible) ?_ (sameBody_ledger _ rows commands ledger runs hruns)
    unfold Db.setKernelVerified
    rw [if_pos ‹_›]
  · obtain ⟨verdicts, hverdicts, hverified⟩ := Option.bind_eq_some_iff.mp hverified
    obtain rfl := Option.some.inj hverified
    refine .leanConsumed capability use feedbackId toolchain _ joined _ _ _
      ({ db with verdictEvents := verdicts }.updateClaim joined.receipt.claimId
        fun claim => { claim with machineVerdict := .kernelVerified }) hjoined
      (require_eq_some.mp heligible) ?_
      (sameBody_ledger _ rows commands ledger runs (by exact hruns))
    unfold Db.setKernelVerified
    rw [if_neg ‹_›]
    exact Option.bind_eq_some_iff.mpr ⟨verdicts, hverdicts, rfl⟩

theorem move_consumeHostCheckerReceipt (capability : VerifiedCapability) (use : ReceiptUse)
    (verificationId : Id) (rootKind : RootKind) (rows : List CapabilityRow) :
    Gives (fun db' =>
        Move P policy db (.consumeHostCheckerReceipt capability use verificationId rootKind) db')
      (Db.consumeHostCheckerReceipt P { db with capabilities := rows } capability use
        verificationId rootKind) := by
  refine Gives.bind fun joined hjoined => Gives.bind fun _ heligible => Gives.bind fun output _ =>
    Gives.bind fun roots hroots => Gives.bind fun evidence hevidence =>
    Gives.bind fun verifications hverifications =>
    Gives.bind fun recorded hrecorded => Gives.pure ?_
  obtain ⟨root, rfl⟩ : ∃ root, roots = db.evidenceRoots ++ [root] :=
    ⟨_, (insertRow_eq_some.mp hroots).2⟩
  obtain ⟨item, rfl⟩ : ∃ item, evidence = db.evidence ++ [item] :=
    ⟨_, (insertRow_eq_some.mp hevidence).2⟩
  obtain ⟨verification, rfl⟩ : ∃ row, verifications = db.atomicVerifications ++ [row] :=
    ⟨_, (insertRow_eq_some.mp hverifications).2⟩
  obtain ⟨commands, ledger, runs, hruns, rfl⟩ := recordHostCommand_eq _ _ _ recorded hrecorded
  refine .checkerConsumed capability use verificationId rootKind _ joined root item verification
    hjoined (require_eq_some.mp heligible) ?_
  unfold Db.updateClaim
  exact sameBody_ledger _ rows commands ledger runs hruns

theorem move_withCapability {op : Op} {transaction : Db → Option Db} (allowed : Bool)
    (capability : VerifiedCapability)
    (h : ∀ rows, Gives (fun db' => Move P policy db op db')
      (transaction { db with capabilities := rows })) :
    Move P policy db op (db.withCapability allowed capability transaction) := by
  rcases withCapability_eq db allowed capability transaction with ⟨rows, heq⟩ | ⟨rows, hend⟩
  · rw [heq]
    exact .idle _ _ rfl
  · exact h rows _ hend

/-- A request that is not accepted leaves the body alone. -/
theorem move_apply (op : ApplyOp) : Move P policy db (.apply op) (op.apply P policy db) := by
  have hends := ends_run P policy db op
  unfold ApplyOp.apply
  cases hrun : op.run P policy db with
  | mk start result =>
    rw [hrun] at hends
    cases hends with
    | denied => exact .idle _ _ rfl
    | failed _ hensured | repeated _ previous hensured =>
      exact .idle _ _ (sameBody_ensureCapability _ _ hensured)
    | rejected _ snapshot code conditions after hensured hundecided hsnapshot hdecision hrecorded =>
      exact .idle _ _ ((sameBody_ensureCapability _ _ hensured).trans
        (sameBody_recordCommand _ _ hrecorded))
    | accepted after acceptance =>
      exact .applied op _ ⟨_, _, by rw [hrun]⟩ acceptance

/-- Every operation is one of the moves. -/
theorem move_step (op : Op) : Move P policy db op (step P policy db op) := by
  cases op with
  | create op =>
    change Move P policy db (.create op) (op.apply P db)
    unfold CreateOp.apply
    split
    · split
      · split
        · exact .idle _ _ rfl
        · rename_i start hensured
          obtain ⟨rows, rfl⟩ := ensureCapability_eq _ _ hensured
          cases hend : Db.createRunAtomic { db with capabilities := rows } (op.newRun P _) with
          | none => exact .idle _ _ rfl
          | some after => exact move_createRunAtomic op _ rows after hend
      · exact .idle _ _ rfl
    · exact .idle _ _ rfl
  | apply op => exact move_apply op
  | importArtifact op =>
    refine move_withCapability _ _ fun rows => ?_
    refine Gives.bind fun _ _ => Gives.bind fun stored hstored => Gives.pure (.idle _ _ ?_)
    exact (sameBody_capabilities db rows).trans (sameBody_storeFile _ _ _ _ stored hstored)
  | recordComponentUsage capability report =>
    exact move_withCapability _ _ fun rows => move_recordComponentUsage _ _ rows
  | claimHostExecution capability request =>
    exact move_withCapability _ _ fun rows => move_claimHostExecution _ _ rows
  | recordHostExecution capability record =>
    exact move_withCapability _ _ fun rows => move_recordHostExecution _ _ rows
  | heartbeatHostExecution claimToken serviceInstanceId now recoverAfter =>
    exact .beaten claimToken serviceInstanceId now recoverAfter
  | recoverIncompleteHostClaims capability now claimToken force =>
    exact move_withCapability _ _ fun rows => move_recover _ _ _ _ rows
  | consumeHostLeanReceipt capability use feedbackId toolchain =>
    exact move_withCapability _ _ fun rows => move_consumeHostLeanReceipt _ _ _ _ rows
  | consumeHostCheckerReceipt capability use verificationId rootKind =>
    exact move_withCapability _ _ fun rows => move_consumeHostCheckerReceipt _ _ _ _ rows

end Steps

end ResearchKernel
