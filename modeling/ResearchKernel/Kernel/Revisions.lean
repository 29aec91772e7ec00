import ResearchKernel.Kernel.Ledger

/-!
# One ledger, one revision

The revision of a run counts its accepted commands. Each of them has one event, under the
revision that it leads to; rejected commands have none. Two requests that expect the same
revision of a run are not both accepted.
-/

namespace ResearchKernel

open Foundation

/-! ## Consistent ledgers -/

/-- What an event says about its command. -/
def Event.stamp (event : Event) : Id × Id × ℕ := (event.runId, event.commandId, event.revision)

/-- What a command says about its event. -/
def CommandRow.stamp (row : CommandRow) : Id × Id × ℕ :=
  (row.runId, row.commandId, row.revisionAfter)

/-- The revisions to which the accepted commands of a run lead. -/
def acceptedRevisions (commands : List CommandRow) (runId : Id) : List ℕ :=
  (commands.filter fun row => row.runId == runId && row.accepted).map (·.revisionAfter)

/-- The revisions of the runs, the commands and the events agree. -/
structure Ledger.Consistent (ledger : Ledger) : Prop where
  uniqueRuns : (ledger.runs.map (·.runId)).Nodup
  uniqueCommands : (ledger.commands.map (·.commandId)).Nodup
  known : ∀ row ∈ ledger.commands, ∃ entry ∈ ledger.runs, entry.runId = row.runId
  /-- The accepted commands of a run lead to its revisions, in order. -/
  revisions : ∀ entry ∈ ledger.runs,
    acceptedRevisions ledger.commands entry.runId = List.range' 1 entry.revision
  /-- Events and accepted commands correspond to each other, in order. -/
  events : ledger.events.map Event.stamp =
    (ledger.commands.filter (·.accepted)).map CommandRow.stamp
  rejected : ∀ row ∈ ledger.commands, row.accepted = false →
    row.revisionBefore = row.revisionAfter

theorem consistent_empty : Db.empty.ledger.Consistent where
  uniqueRuns := List.nodup_nil
  uniqueCommands := List.nodup_nil
  known := List.forall_mem_nil _
  revisions := List.forall_mem_nil _
  events := rfl
  rejected := List.forall_mem_nil _

section Consistency

variable {ledger ledger' : Ledger}

variable {row : CommandRow}

/-- A new command has an identifier of its own. -/
theorem nodup_commandIds_concat (h : (ledger.commands.map (·.commandId)).Nodup)
    (hfresh : ∀ old ∈ ledger.commands, row.clash old = false) :
    ((ledger.commands ++ [row]).map (·.commandId)).Nodup := by
  rw [List.map_append]
  refine nodup_concat_of_fresh h fun id hid => ?_
  obtain ⟨old, hold, rfl⟩ := List.mem_map.mp hid
  intro hsame
  have hclash := hfresh old hold
  simp [CommandRow.clash, hsame] at hclash

variable {commands : List CommandRow}

/-- The commands of one run do not count for another. -/
theorem acceptedRevisions_concat_of_ne {runId : Id} (h : row.runId ≠ runId) :
    acceptedRevisions (commands ++ [row]) runId = acceptedRevisions commands runId := by
  simp [acceptedRevisions, List.filter_append, h]

theorem acceptedRevisions_concat_of_rejected (h : row.accepted = false) (runId : Id) :
    acceptedRevisions (commands ++ [row]) runId = acceptedRevisions commands runId := by
  simp [acceptedRevisions, List.filter_append, h]

theorem acceptedRevisions_concat (h : row.accepted = true) :
    acceptedRevisions (commands ++ [row]) row.runId =
      acceptedRevisions commands row.runId ++ [row.revisionAfter] := by
  simp [acceptedRevisions, List.filter_append, h]

theorem acceptedRevisions_of_unknown {runId : Id}
    (h : ∀ row ∈ ledger.commands, row.runId ≠ runId) :
    acceptedRevisions ledger.commands runId = [] := by
  unfold acceptedRevisions
  rw [List.map_eq_nil_iff, List.filter_eq_nil_iff]
  intro row hrow
  simp [h row hrow]

/-- The creation of a run keeps the ledger consistent. -/
theorem Ledger.Consistent.created (h : ledger.Consistent) {entry : RunEntry}
    (hfresh : ∀ old ∈ ledger.runs, old.runId ≠ entry.runId) (hstart : entry.revision = 0) :
    ({ ledger with runs := ledger.runs ++ [entry] } : Ledger).Consistent where
  uniqueRuns := by
    rw [List.map_append]
    refine nodup_concat_of_fresh h.uniqueRuns fun id hid => ?_
    obtain ⟨old, hold, rfl⟩ := List.mem_map.mp hid
    exact hfresh old hold
  uniqueCommands := h.uniqueCommands
  known := by
    intro row hrow
    obtain ⟨old, hold, hid⟩ := h.known row hrow
    exact ⟨old, List.mem_append_left _ hold, hid⟩
  revisions := by
    intro other hother
    rcases List.mem_append.mp hother with hold | hnew
    · exact h.revisions other hold
    · obtain rfl := List.mem_singleton.mp hnew
      rw [hstart]
      refine acceptedRevisions_of_unknown fun row hrow hsame => ?_
      obtain ⟨old, hold, hid⟩ := h.known row hrow
      exact hfresh old hold (hid.trans hsame)
  events := h.events
  rejected := h.rejected

/-- A rejected command keeps the ledger consistent. -/
theorem Ledger.Consistent.reject (h : ledger.Consistent)
    (hfresh : ∀ old ∈ ledger.commands, row.clash old = false) (hrejected : row.accepted = false)
    (hrevision : row.revisionAfter = row.revisionBefore)
    (hrun : ∃ entry ∈ ledger.runs, entry.runId = row.runId) :
    ({ ledger with commands := ledger.commands ++ [row] } : Ledger).Consistent where
  uniqueRuns := h.uniqueRuns
  uniqueCommands := nodup_commandIds_concat h.uniqueCommands hfresh
  known := by
    intro other hother
    rcases List.mem_append.mp hother with hold | hnew
    · exact h.known other hold
    · obtain rfl := List.mem_singleton.mp hnew
      exact hrun
  revisions := by
    intro entry hentry
    rw [acceptedRevisions_concat_of_rejected hrejected]
    exact h.revisions entry hentry
  events := by
    rw [h.events]
    simp [List.filter_append, hrejected]
  rejected := by
    intro other hother hno
    rcases List.mem_append.mp hother with hold | hnew
    · exact h.rejected other hold hno
    · obtain rfl := List.mem_singleton.mp hnew
      exact hrevision.symm

/-- An accepted command keeps the ledger consistent. -/
theorem Ledger.Consistent.accept (h : ledger.Consistent) {event : Event}
    (hfresh : ∀ old ∈ ledger.commands, row.clash old = false) (hrecords : row.Records event)
    (hrun : ∃ entry ∈ ledger.runs, entry.runId = row.runId ∧ entry.revision = row.revisionBefore) :
    ({ ledger with
      commands := ledger.commands ++ [row]
      events := ledger.events ++ [event]
      runs := ledger.runs.map (RunEntry.advance row.runId row.revisionBefore) } :
        Ledger).Consistent where
  uniqueRuns := by
    rw [List.map_map]
    have hids : (·.runId) ∘ RunEntry.advance row.runId row.revisionBefore =
        fun entry : RunEntry => entry.runId :=
      funext fun entry => entry.advance_runId _ _
    rw [hids]
    exact h.uniqueRuns
  uniqueCommands := nodup_commandIds_concat h.uniqueCommands hfresh
  known := by
    intro other hother
    obtain ⟨entry, hentry, hid⟩ : ∃ entry ∈ ledger.runs, entry.runId = other.runId := by
      rcases List.mem_append.mp hother with hold | hnew
      · exact h.known other hold
      · obtain rfl := List.mem_singleton.mp hnew
        obtain ⟨entry, hentry, hid, -⟩ := hrun
        exact ⟨entry, hentry, hid⟩
    exact ⟨_, List.mem_map_of_mem hentry, (entry.advance_runId _ _).trans hid⟩
  revisions := by
    intro entry' hentry'
    obtain ⟨entry, hentry, rfl⟩ := List.mem_map.mp hentry'
    rw [RunEntry.advance_runId]
    by_cases hsame : entry.runId = row.runId
    · -- The run of the command has one entry, and this entry is at the revision before.
      obtain ⟨current, hcurrent, hid, hrevision⟩ := hrun
      have heq : entry = current :=
        List.inj_on_of_nodup_map h.uniqueRuns hentry hcurrent (hsame.trans hid.symm)
      rw [← heq] at hrevision
      have hbefore := h.revisions entry hentry
      rw [RunEntry.advance_revision hsame hrevision, hsame, acceptedRevisions_concat
        hrecords.accepted, ← hsame, hbefore, hrecords.revisionAfter, hrevision,
        List.range'_1_concat, Nat.add_comm 1]
    · rw [RunEntry.advance_of_ne hsame, acceptedRevisions_concat_of_ne fun heq => hsame heq.symm]
      exact h.revisions entry hentry
  events := by
    rw [List.map_append, h.events, List.filter_append, List.map_append]
    have hstamp : event.stamp = row.stamp := by
      unfold Event.stamp CommandRow.stamp
      rw [hrecords.runId, hrecords.commandId, hrecords.revision]
    simp [hrecords.accepted, hstamp]
  rejected := by
    intro other hother hno
    rcases List.mem_append.mp hother with hold | hnew
    · exact h.rejected other hold hno
    · obtain rfl := List.mem_singleton.mp hnew
      rw [hrecords.accepted] at hno
      cases hno

theorem consistent_move (hmove : Ledger.Move ledger ledger') (h : ledger.Consistent) :
    ledger'.Consistent := by
  cases hmove with
  | capability | stored | linked => exact { h with }
  | created entry fresh start => exact h.created fresh start
  | rejected row fresh rejected revision run => exact h.reject fresh rejected revision run
  | accepted row event fresh records run => exact h.accept fresh records run

end Consistency

theorem consistent_reached (P : Platform) (policy : Policy) (ops : List Op) :
    (reached P policy ops).ledger.Consistent :=
  reached_ledger consistent_empty (fun _ _ => consistent_move) ops

/-! ## The events of a command -/

section Events

variable {ledger : Ledger}

theorem Ledger.Consistent.stamps_eq (h : ledger.Consistent) (id : Id) :
    (ledger.events.filter (·.commandId == id)).map Event.stamp =
      (ledger.commands.filter fun row => row.commandId == id && row.accepted).map
        CommandRow.stamp := by
  have hevents : (fun event : Event => event.commandId == id) =
      (fun stamp : Id × Id × ℕ => stamp.2.1 == id) ∘ Event.stamp := rfl
  have hcommands : (fun row : CommandRow => row.commandId == id) =
      (fun stamp : Id × Id × ℕ => stamp.2.1 == id) ∘ CommandRow.stamp := rfl
  rw [hevents, ← List.filter_map, h.events, List.filter_map, ← hcommands, List.filter_filter]

variable {row : CommandRow}

/-- The commands with a given identifier are one command. -/
theorem filter_commandId_eq (h : ledger.Consistent) (hrow : row ∈ ledger.commands) :
    (ledger.commands.filter fun other => other.commandId == row.commandId) = [row] := by
  have hnodup : ledger.commands.Nodup := h.uniqueCommands.of_map _
  have hmem : ∀ other, other ∈ ledger.commands.filter
      (fun other => other.commandId == row.commandId) ↔ other ∈ [row] := by
    intro other
    rw [List.mem_filter, List.mem_singleton, beq_iff_eq]
    constructor
    · rintro ⟨hother, hid⟩
      exact List.inj_on_of_nodup_map h.uniqueCommands hother hrow hid
    · rintro rfl
      exact ⟨hrow, rfl⟩
  have hperm := (List.perm_ext_iff_of_nodup (hnodup.filter _) (List.nodup_singleton row)).mpr hmem
  exact List.perm_singleton.mp hperm

/-- An accepted command has exactly one event, and it carries the revision of the command. -/
theorem Ledger.Consistent.event_of_accepted (h : ledger.Consistent) (hrow : row ∈ ledger.commands)
    (haccepted : row.accepted = true) :
    ∃ event, ledger.events.filter (·.commandId == row.commandId) = [event] ∧
      event.runId = row.runId ∧ event.revision = row.revisionAfter := by
  have hstamps := h.stamps_eq row.commandId
  have hcommands : (ledger.commands.filter fun other =>
      other.commandId == row.commandId && other.accepted) = [row] := by
    have hids := filter_commandId_eq h hrow
    have hboth : (ledger.commands.filter fun other =>
        other.commandId == row.commandId && other.accepted) =
        (ledger.commands.filter fun other => other.commandId == row.commandId).filter
          (·.accepted) := by
      rw [List.filter_filter]
      refine List.filter_congr fun other _ => ?_
      rw [Bool.and_comm]
    rw [hboth, hids]
    simp [haccepted]
  rw [hcommands] at hstamps
  obtain ⟨event, hevent, hstamp⟩ := List.map_eq_singleton_iff.mp hstamps
  refine ⟨event, hevent, ?_, ?_⟩
  · exact congrArg Prod.fst hstamp
  · exact congrArg (fun stamp => stamp.2.2) hstamp

theorem Ledger.Consistent.no_event_of_rejected (h : ledger.Consistent)
    (hrow : row ∈ ledger.commands) (hrejected : row.accepted = false) :
    ledger.events.filter (·.commandId == row.commandId) = [] := by
  have hstamps := h.stamps_eq row.commandId
  have hcommands : (ledger.commands.filter fun other =>
      other.commandId == row.commandId && other.accepted) = [] := by
    rw [List.filter_eq_nil_iff]
    intro other hother htest
    simp only [Bool.and_eq_true, beq_iff_eq] at htest
    have hsame := List.inj_on_of_nodup_map h.uniqueCommands hother hrow htest.1
    rw [hsame, hrejected] at htest
    cases htest.2
  rw [hcommands] at hstamps
  exact List.map_eq_nil_iff.mp hstamps

end Events

/-! ## Requests that expect the same revision -/

/-- The run has at least the given revision. -/
def Ledger.Reaches (ledger : Ledger) (runId : Id) (revision : ℕ) : Prop :=
  ∃ entry ∈ ledger.runs, entry.runId = runId ∧ revision ≤ entry.revision

/-- Revisions do not go back. -/
theorem reaches_move {runId : Id} {revision : ℕ} {ledger ledger' : Ledger}
    (hmove : Ledger.Move ledger ledger') (h : ledger.Reaches runId revision) :
    ledger'.Reaches runId revision := by
  cases hmove with
  | capability | stored | linked | rejected => exact h
  | created entry fresh start =>
    obtain ⟨old, hold, hid, hle⟩ := h
    exact ⟨old, List.mem_append_left _ hold, hid, hle⟩
  | accepted row event fresh records run =>
    obtain ⟨old, hold, hid, hle⟩ := h
    refine ⟨_, List.mem_map_of_mem hold, (old.advance_runId _ _).trans hid, ?_⟩
    unfold RunEntry.advance
    split
    · rename_i htest
      simp only [Bool.and_eq_true, beq_iff_eq] at htest
      change revision ≤ row.revisionBefore + 1
      omega
    · exact hle

section Conflicts

variable {P : Platform} {policy : Policy} {db : Db} {op : ApplyOp}

theorem entry_of_accepts (h : op.Accepts P policy db) : ∃ entry ∈ db.ledger.runs,
    entry.runId = op.request.runId ∧ entry.revision = op.request.expectedRevision := by
  obtain ⟨acceptance⟩ := acceptance_of_accepts h
  obtain ⟨run, hrun, hid, hrevision⟩ := revision_of_guardSnapshot acceptance.snapshot_eq
  have hruns : acceptance.start.runs = db.runs := by
    obtain ⟨rows, hstart⟩ := ensureCapability_eq _ _ acceptance.ensured
    rw [hstart]
  rw [hruns] at hrun
  refine ⟨run.entry, List.mem_map_of_mem hrun, hid, ?_⟩
  rw [acceptance.expectedRevision_eq]
  exact hrevision

theorem reaches_of_accepts (h : op.Accepts P policy db) :
    (op.apply P policy db).ledger.Reaches op.request.runId (op.request.expectedRevision + 1) := by
  obtain ⟨acceptance⟩ := acceptance_of_accepts h
  obtain ⟨⟨entry, hentry, hid, hrevision⟩, hledger⟩ :=
    ledger_advanceRevision _ _ _ acceptance.advanced
  rw [hledger]
  refine ⟨_, List.mem_map_of_mem hentry, (entry.advance_runId _ _).trans hid, ?_⟩
  rw [RunEntry.advance_revision hid hrevision]

/-- Revisions do not go back in a run of the machine. -/
theorem reaches_runFrom {runId : Id} {revision : ℕ} (ops : List Op)
    (h : db.ledger.Reaches runId revision) :
    (runFrom (step P policy) db ops).ledger.Reaches runId revision := by
  have hrun := @runFrom_invariant Db Op (step P policy)
    (fun db => db.ledger.Reaches runId revision) db h
    (fun db op hdb => (moves_step P policy db op).preserves (fun _ _ => reaches_move) hdb) ops
  exact hrun

end Conflicts

/-! ## The ledger of a run -/

/-- The accepted commands of a run lead to the revisions from one to that of the run, and
commands and events agree on them. -/
structure Db.LedgerOf (db : Db) (run : Run) : Prop where
  /-- No revision is left out, and none occurs twice. -/
  revisions : acceptedRevisions db.commands run.runId = List.range' 1 run.revision
  accepted : ∀ row ∈ db.commands, row.runId = run.runId → row.accepted = true →
    ∃ event, db.events.filter (·.commandId == row.commandId) = [event] ∧
      event.runId = run.runId ∧ event.revision = row.revisionAfter
  rejected : ∀ row ∈ db.commands, row.runId = run.runId → row.accepted = false →
    db.events.filter (·.commandId == row.commandId) = [] ∧
      row.revisionBefore = row.revisionAfter

/-- In every reached database the revision of a run counts its accepted commands, each of
which has one event; and of the requests that expect the same revision of a run, at most one
is accepted. -/
theorem one_ledger_of_reached (P : Platform) (policy : Policy) (ops : List Op) :
    (∀ run ∈ (reached P policy ops).runs, (reached P policy ops).LedgerOf run) ∧
      ∀ (first second : ApplyOp) (between : List Op),
        first.Accepts P policy (reached P policy ops) →
        second.Accepts P policy (reached P policy (ops ++ .apply first :: between)) →
        first.request.runId = second.request.runId →
        first.request.expectedRevision ≠ second.request.expectedRevision := by
  constructor
  · intro run hrun
    have hconsistent := consistent_reached P policy ops
    refine ⟨?_, ?_, ?_⟩
    · exact hconsistent.revisions run.entry (List.mem_map_of_mem hrun)
    · intro row hrow hid haccepted
      obtain ⟨event, hevent, hrunId, hrevision⟩ := hconsistent.event_of_accepted hrow haccepted
      exact ⟨event, hevent, hrunId.trans hid, hrevision⟩
    · intro row hrow _ hrejected
      exact ⟨hconsistent.no_event_of_rejected hrow hrejected,
        hconsistent.rejected row hrow hrejected⟩
  · intro first second between hfirst hsecond hrun hsame
    have hafter := reaches_of_accepts hfirst
    have hlater := @reaches_runFrom P policy _ _ _ between hafter
    have heq : runFrom (step P policy) (first.apply P policy (reached P policy ops)) between =
        reached P policy (ops ++ .apply first :: between) := by
      unfold reached
      rw [runFrom_append, runFrom_cons]
      rfl
    rw [heq] at hlater
    obtain ⟨reachedEntry, hreached, hreachedId, hle⟩ := hlater
    obtain ⟨entry, hentry, hid, hrevision⟩ := entry_of_accepts hsecond
    have hconsistent := consistent_reached P policy (ops ++ .apply first :: between)
    have hentries : reachedEntry = entry := by
      refine List.inj_on_of_nodup_map hconsistent.uniqueRuns hreached hentry ?_
      exact hreachedId.trans (hrun.trans hid.symm)
    rw [hentries, hrevision, ← hsame] at hle
    omega

end ResearchKernel
