import Mathlib.Data.List.Pairwise
import ResearchKernel.Product.Specs

/-!
# Ended jobs

A job that has ended keeps its state, and a job whose cancellation was requested is not
claimed again. Both rest on the leases: an active lease belongs to a job that is neither in
the queue nor ended, so that the recovery of expired leases moves only such jobs. One writer
breaks this, the invalidation of a job in the queue table, which ends the job and leaves its
lease active.
-/

namespace ResearchKernel.Product

open Foundation

/-! ## How states move -/

/-- A job that has been claimed and has not ended. -/
def JobState.Live (state : JobState) : Prop := state.isTerminal = false ∧ state ≠ .queued

/-- What may become of a job: an ended job stays as it is, and one whose cancellation was
requested stays so until it ends. -/
def JobState.Settles (before after : JobState) : Prop :=
  (before.isTerminal = true → after = before) ∧
    (before = .cancelRequested → after = .cancelRequested ∨ after.isTerminal = true)

/-- A job settles into itself at a later time. -/
def Job.Settles (before after : Job) : Prop :=
  after.jobId = before.jobId ∧ before.state.Settles after.state

theorem JobState.Settles.refl (state : JobState) : state.Settles state :=
  ⟨fun _ => rfl, fun h => Or.inl h⟩

/-- Two moves of a state are one. -/
theorem JobState.Settles.trans {a b c : JobState} (h : a.Settles b) (h' : b.Settles c) :
    a.Settles c := by
  constructor
  · intro ha
    have hb : b = a := h.1 ha
    subst hb
    exact h'.1 ha
  · intro ha
    rcases h.2 ha with hb | hb
    · exact h'.2 hb
    · exact Or.inr ((h'.1 hb).symm ▸ hb)

theorem Job.Settles.refl (job : Job) : job.Settles job := ⟨rfl, JobState.Settles.refl _⟩

theorem Job.Settles.trans {a b c : Job} (h : a.Settles b) (h' : b.Settles c) : a.Settles c :=
  ⟨h'.1.trans h.1, h.2.trans h'.2⟩

theorem JobState.settles_of_ends {before after : JobState} (hbefore : before.isTerminal = false)
    (hafter : after.isTerminal = true) : before.Settles after := by
  refine ⟨?_, fun _ => Or.inr hafter⟩
  intro h
  rw [hbefore] at h
  cases h

/-- A job of the queue may become anything. -/
theorem JobState.queued_settles (after : JobState) : JobState.queued.Settles after :=
  ⟨fun h => absurd h (by decide), fun h => absurd h (by decide)⟩

theorem JobState.live_running : JobState.running.Live := ⟨rfl, by decide⟩

theorem JobState.live_cancelRequested : JobState.cancelRequested.Live := ⟨rfl, by decide⟩

theorem JobState.live_of_isExecuting {state : JobState} (h : state.isExecuting = true) :
    state.Live := by
  cases state <;> first | cases h; done | exact ⟨rfl, by decide⟩

theorem ExecutionOutcome.isTerminal_jobState (outcome : ExecutionOutcome) :
    outcome.jobState.isTerminal = true := by
  cases outcome <;> rfl

/-! ## Sound tables -/

/-- Two leases are not both active on one job. -/
def LeaseRow.Apart (a b : LeaseRow) : Prop :=
  a.state = .active → b.state = .active → a.jobId ≠ b.jobId

instance : Std.Symm LeaseRow.Apart where
  symm _ _ h hb ha := (h ha hb).symm

/-- What the tables of jobs and leases satisfy: identifiers name one job, no two active
leases are on one job, and an active lease is on a job that was claimed and has not ended. -/
structure Sound (jobs : List Job) (leases : List LeaseRow) : Prop where
  unique : (jobs.map (·.jobId)).Nodup
  oneActive : leases.Pairwise LeaseRow.Apart
  live : ∀ row ∈ leases, row.state = .active →
    ∃ job ∈ jobs, job.jobId = row.jobId ∧ job.state.Live

/-- One step of the tables: they are sound after it and every job has settled. -/
structure Moves (jobs : List Job) (jobs' : List Job) (leases' : List LeaseRow) : Prop where
  sound : Sound jobs' leases'
  kept : Kept Job.Settles jobs jobs'

theorem Moves.refl {jobs : List Job} {leases : List LeaseRow} (h : Sound jobs leases) :
    Moves jobs jobs leases :=
  ⟨h, Kept.refl Job.Settles.refl jobs⟩

/-- A job with a given identifier is the only one. -/
theorem eq_of_jobId {jobs : List Job} (h : (jobs.map (·.jobId)).Nodup) {a b : Job}
    (ha : a ∈ jobs) (hb : b ∈ jobs) (hid : a.jobId = b.jobId) : a = b :=
  List.inj_on_of_nodup_map h ha hb hid

theorem eq_of_active {leases : List LeaseRow} (h : leases.Pairwise LeaseRow.Apart)
    {a b : LeaseRow} (ha : a ∈ leases) (hb : b ∈ leases) (hactive : a.state = .active)
    (hactive' : b.state = .active) (hid : a.jobId = b.jobId) : a = b := by
  by_contra hne
  have hapart : a.Apart b := h.forall ha hb hne
  exact hapart hactive hactive' hid

theorem Sound.live_of_active {jobs : List Job} {leases : List LeaseRow} (h : Sound jobs leases)
    {row : LeaseRow} (hrow : row ∈ leases) (hactive : row.state = .active) {job : Job}
    (hjob : job ∈ jobs) (hid : job.jobId = row.jobId) : job.state.Live := by
  obtain ⟨other, hother, hid', hlive⟩ := h.live row hrow hactive
  have heq : job = other := eq_of_jobId h.unique hjob hother (hid.trans hid'.symm)
  exact heq ▸ hlive

section Updates

variable {jobs : List Job} {leases : List LeaseRow}
variable {picks : LeaseRow → Bool} {changeLease : LeaseRow → LeaseRow}
variable {takes : Job → Bool} {changeJob : Job → Job}

theorem active_of_updateWhere
    (hchange : ∀ row, (changeLease row).jobId = row.jobId ∧
      ((changeLease row).state = .active → row.state = .active))
    {row' : LeaseRow} (hrow' : row' ∈ updateWhere picks changeLease leases)
    (hactive : row'.state = .active) :
    ∃ row ∈ leases, row.state = .active ∧ row'.jobId = row.jobId ∧
      (picks row = true → (changeLease row).state = .active) := by
  obtain ⟨row, hrow, rfl⟩ := mem_updateWhere.mp hrow'
  by_cases hpick : picks row = true
  · rw [if_pos hpick] at hactive ⊢
    exact ⟨row, hrow, (hchange row).2 hactive, (hchange row).1, fun _ => hactive⟩
  · rw [if_neg hpick] at hactive ⊢
    exact ⟨row, hrow, hactive, rfl, fun h => absurd h hpick⟩

/-- An update that activates no lease keeps every job at one active lease. -/
theorem oneActive_updateWhere
    (hchange : ∀ row, (changeLease row).jobId = row.jobId ∧
      ((changeLease row).state = .active → row.state = .active))
    (h : leases.Pairwise LeaseRow.Apart) :
    (updateWhere picks changeLease leases).Pairwise LeaseRow.Apart := by
  have hback : ∀ row : LeaseRow,
      ((if picks row = true then changeLease row else row).state = .active →
        row.state = .active) ∧
      (if picks row = true then changeLease row else row).jobId = row.jobId := by
    intro row
    by_cases hpick : picks row = true
    · rw [if_pos hpick]
      exact ⟨(hchange row).2, (hchange row).1⟩
    · rw [if_neg hpick]
      exact ⟨fun h => h, rfl⟩
  unfold updateWhere
  rw [List.pairwise_map]
  refine h.imp ?_
  intro a b hab ha hb
  rw [(hback a).2, (hback b).2]
  exact hab ((hback a).1 ha) ((hback b).1 hb)

/-- The updates of the two tables. They activate no lease, settle the jobs that they touch,
and leave a touched job live if its lease stays active. -/
theorem Sound.update (h : Sound jobs leases)
    (hlease : ∀ row, (changeLease row).jobId = row.jobId ∧
      ((changeLease row).state = .active → row.state = .active))
    (hjob : ∀ job, (changeJob job).jobId = job.jobId)
    (hsettles : ∀ job ∈ jobs, takes job = true → job.state.Settles (changeJob job).state)
    (hlive : ∀ row ∈ leases, row.state = .active →
      (picks row = true → (changeLease row).state = .active) →
      ∀ job ∈ jobs, job.jobId = row.jobId → takes job = true → (changeJob job).state.Live) :
    Moves jobs (updateWhere takes changeJob jobs) (updateWhere picks changeLease leases) := by
  refine ⟨⟨?_, ?_, ?_⟩, ?_⟩
  · exact nodup_map_updateWhere hjob h.unique
  · exact oneActive_updateWhere hlease h.oneActive
  · intro row' hrow' hactive'
    obtain ⟨row, hrow, hactive, hid, hpick⟩ := active_of_updateWhere hlease hrow' hactive'
    obtain ⟨job, hmem, hjobId, hstate⟩ := h.live row hrow hactive
    refine ⟨if takes job then changeJob job else job, mem_updateWhere.mpr ⟨job, hmem, rfl⟩, ?_⟩
    by_cases htake : takes job = true
    · rw [if_pos htake]
      exact ⟨(hjob job).trans (hjobId.trans hid.symm),
        hlive row hrow hactive hpick job hmem hjobId htake⟩
    · rw [if_neg htake]
      exact ⟨hjobId.trans hid.symm, hstate⟩
  · intro job hmem
    refine ⟨if takes job then changeJob job else job, mem_updateWhere.mpr ⟨job, hmem, rfl⟩, ?_⟩
    by_cases htake : takes job = true
    · rw [if_pos htake]
      exact ⟨hjob job, hsettles job hmem htake⟩
    · rw [if_neg htake]
      exact Job.Settles.refl job

theorem Sound.updateJobs (h : Sound jobs leases)
    (hjob : ∀ job, (changeJob job).jobId = job.jobId)
    (hsettles : ∀ job ∈ jobs, takes job = true → job.state.Settles (changeJob job).state)
    (hlive : ∀ job ∈ jobs, takes job = true → job.state.Live → (changeJob job).state.Live) :
    Moves jobs (updateWhere takes changeJob jobs) leases := by
  have hmoves : Moves jobs (updateWhere takes changeJob jobs)
      (updateWhere (fun _ => false) id leases) :=
    h.update (fun row => ⟨rfl, fun hactive => hactive⟩) hjob hsettles
      (fun row hrow hactive _ job hmem hid htake =>
        hlive job hmem htake (h.live_of_active hrow hactive hmem hid))
  rwa [updateWhere_false] at hmoves

/-- An update of the leases alone that leaves their states. -/
theorem Sound.updateLeases (h : Sound jobs leases)
    (hlease : ∀ row, (changeLease row).jobId = row.jobId ∧
      ((changeLease row).state = .active → row.state = .active)) :
    Moves jobs jobs (updateWhere picks changeLease leases) := by
  have hmoves : Moves jobs (updateWhere (fun _ => false) id jobs)
      (updateWhere picks changeLease leases) :=
    h.update hlease (fun _ => rfl) (fun _ _ htake => by cases htake)
      (fun _ _ _ _ _ _ _ htake => by cases htake)
  rwa [updateWhere_false] at hmoves

end Updates

/-! ## The job store -/

namespace Store

variable {store store' : Store}

/-- One transaction of the product on its jobs and leases. -/
def MovesTo (store store' : Store) : Prop := Moves store.jobs store'.jobs store'.leases

theorem movesTo_enqueue (hsound : Sound store.jobs store.leases) {e : Enqueue}
    (h : store.enqueue e = .ok store') : store.MovesTo store' := by
  rcases enqueue_spec h with rfl | ⟨key, receipt, value, requests, -, -, -, -, hfresh, rfl⟩
  · exact Moves.refl hsound
  · have hnew : ∀ old ∈ store.jobs, old.jobId ≠ e.jobId := by
      intro old hold heq
      have hclash := hfresh old hold
      simp [Job.clash, enqueuedJob, heq] at hclash
    refine ⟨⟨?_, hsound.oneActive, ?_⟩, Kept.append Job.Settles.refl store.jobs _⟩
    · rw [List.map_append]
      refine nodup_concat_of_fresh hsound.unique ?_
      intro id hid
      obtain ⟨old, hold, rfl⟩ := List.mem_map.mp hid
      exact hnew old hold
    · intro row hrow hactive
      obtain ⟨old, hold, hid, hlive⟩ := hsound.live row hrow hactive
      exact ⟨old, List.mem_append_left _ hold, hid, hlive⟩

variable {job : Job}

theorem not_active_of_queued (hsound : Sound store.jobs store.leases) (hjob : job ∈ store.jobs)
    (hqueued : job.state = .queued) {row : LeaseRow} (hrow : row ∈ store.leases)
    (hid : row.jobId = job.jobId) : row.state ≠ .active := by
  intro hactive
  exact (hsound.live_of_active hrow hactive hjob hid.symm).2 hqueued

variable {now expiresAt : Stamp}

theorem movesTo_claimNext (hsound : Sound store.jobs store.leases) {holderId processToken : String}
    {leaseId : Id} {lease? : Option JobLease}
    (h : store.claimNext holderId processToken now expiresAt leaseId = .ok (store', lease?)) :
    store.MovesTo store' := by
  rcases claimNext_spec h with ⟨rfl, -⟩ | ⟨job, hmem, hqueued, -, -, rfl⟩
  · exact Moves.refl hsound
  have hmoves : Moves store.jobs (updateWhere (claims job) (claimedJob job now) store.jobs)
      store.leases := by
    refine hsound.updateJobs (fun _ => rfl) ?_ (fun _ _ _ _ => JobState.live_running)
    intro other _ htake
    simp only [claims, Bool.and_eq_true, beq_iff_eq] at htake
    rw [htake.1.2]
    exact JobState.queued_settles _
  refine ⟨⟨hmoves.sound.unique, ?_, ?_⟩, hmoves.kept⟩
  · rw [List.pairwise_append]
    refine ⟨hsound.oneActive, List.pairwise_singleton _ _, ?_⟩
    intro old hold new hnew holdActive hnewActive
    rw [List.mem_singleton.mp hnew]
    intro hid
    exact not_active_of_queued hsound hmem hqueued hold hid holdActive
  · intro lease hlease hleaseActive
    rcases List.mem_append.mp hlease with hold | hnew
    · exact hmoves.sound.live lease hold hleaseActive
    · rw [List.mem_singleton.mp hnew]
      refine ⟨_, mem_updateWhere.mpr ⟨job, hmem, rfl⟩, ?_⟩
      have hclaims : claims job job = true := by simp [claims, hqueued]
      rw [if_pos hclaims]
      exact ⟨rfl, JobState.live_running⟩

variable {lease : JobLease}

theorem movesTo_heartbeat (hsound : Sound store.jobs store.leases)
    (h : store.heartbeat lease now expiresAt = .ok store') :
    store.MovesTo store' := by
  obtain ⟨-, rfl⟩ := heartbeat_spec h
  exact hsound.updateLeases fun _ => ⟨rfl, fun hactive => hactive⟩

variable {jobId : Id}

theorem movesTo_requestCancel (hsound : Sound store.jobs store.leases)
    (h : store.requestCancel jobId now = .ok store') : store.MovesTo store' := by
  obtain ⟨job, hmem, hid, hlive, rfl⟩ := requestCancel_spec h
  -- the identifier names this job only
  have hsame : ∀ other ∈ store.jobs, (other.jobId == jobId) = true → other = job := by
    intro other hother htake
    exact eq_of_jobId hsound.unique hother hmem ((beq_iff_eq.mp htake).trans hid.symm)
  refine hsound.updateJobs ?_ ?_ ?_
  · intro other
    unfold cancelledJob
    split <;> rfl
  · intro other hother htake
    rw [hsame other hother htake]
    unfold cancelledJob
    split
    · next hqueued =>
      rw [beq_iff_eq.mp hqueued]
      exact JobState.queued_settles _
    · refine ⟨fun hended => ?_, fun _ => Or.inl rfl⟩
      rw [hlive] at hended
      cases hended
  · intro other hother htake hstate
    unfold cancelledJob
    split
    · next hqueued =>
      rw [hsame other hother htake] at hstate
      exact absurd (beq_iff_eq.mp hqueued) hstate.2
    · exact JobState.live_cancelRequested

theorem movesTo_saveCheckpoint (hsound : Sound store.jobs store.leases)
    {researchRevision contractVersion : ℤ} {artifactId : Id} {digest : Digest} {checkpointId : Id}
    (h : store.saveCheckpoint jobId researchRevision contractVersion artifactId digest now
      checkpointId = .ok store') : store.MovesTo store' := by
  obtain ⟨checkpoints, rfl⟩ := saveCheckpoint_spec h
  exact hsound.updateJobs (fun _ => rfl) (fun other _ _ => JobState.Settles.refl other.state)
    (fun _ _ _ hlive => hlive)

variable {receipt : ExecutionReceipt}

/-- The end of an execution moves the tables, if its lease is active and its job executes. -/
theorem movesTo_finish (hsound : Sound store.jobs store.leases) {row : LeaseRow}
    (h : store.Ends lease row job) : store.MovesTo (store.finish lease receipt now) := by
  have hlive := JobState.live_of_isExecuting h.executing
  refine hsound.update (fun _ => ⟨rfl, fun h => by cases h⟩) (fun _ => rfl) ?_ ?_
  · intro other hother htake
    have heq := eq_of_jobId hsound.unique hother h.job_mem
      ((beq_iff_eq.mp htake).trans h.jobId_eq.symm)
    rw [heq]
    exact JobState.settles_of_ends hlive.1 (ExecutionOutcome.isTerminal_jobState _)
  · intro other hother hotherActive hpick target htarget htargetId htake
    -- the active lease of the job is the one that is released
    have heq : other = row := eq_of_active hsound.oneActive hother h.row_mem hotherActive h.active
      (htargetId.symm.trans ((beq_iff_eq.mp htake).trans h.rowJobId_eq.symm))
    rw [heq] at hpick
    have hreleased := hpick (by simp [h.leaseId_eq, h.active])
    cases hreleased

theorem movesTo_recordExecution (hsound : Sound store.jobs store.leases) {id : Id}
    (h : store.recordExecution lease receipt now id = .ok store') : store.MovesTo store' := by
  obtain ⟨row, job, hends, -, rfl⟩ := recordExecution_spec h
  exact movesTo_finish hsound hends

theorem movesTo_resolve (hsound : Sound store.jobs store.leases) {P : Platform}
    {result : TypedExecution} {id : Id} {digest : Digest}
    (h : store.resolve P lease result now id = .ok (store', digest)) : store.MovesTo store' := by
  rcases resolve_spec h with ⟨rfl, -⟩ |
    ⟨row, job, receipt, value, resolution, hends, -, -, -, -, rfl⟩
  · exact Moves.refl hsound
  · exact movesTo_finish hsound hends

theorem movesTo_endJob (hsound : Sound store.jobs store.leases) {state : JobState} {reason : String}
    (hstate : state.isTerminal = true) :
    store.MovesTo ((store.expireLeases jobId now).endJob jobId state reason now) := by
  refine hsound.update (fun _ => ⟨rfl, fun h => by cases h⟩) (fun _ => rfl) ?_ ?_
  · intro other hother htake
    simp only [Bool.and_eq_true, Bool.not_eq_true'] at htake
    exact JobState.settles_of_ends htake.2 hstate
  · intro other hother hotherActive hpick target htarget htargetId htake
    simp only [Bool.and_eq_true, beq_iff_eq] at htake
    have hexpired := hpick (by simp [htargetId.symm, htake.1, hotherActive])
    cases hexpired

theorem movesTo_invalidateCheckpoint (hsound : Sound store.jobs store.leases) {id : Id}
    {reason : String} {stale : Bool}
    (h : store.invalidateCheckpoint id reason now stale = .ok store') : store.MovesTo store' := by
  obtain ⟨jobId, checkpoints, rfl⟩ := invalidateCheckpoint_spec h
  have hstate : (if stale then JobState.stale else JobState.invalidated).isTerminal = true := by
    cases stale <;> rfl
  have hsame : Sound ({ store with checkpoints := checkpoints } : Store).jobs store.leases := hsound
  exact movesTo_endJob hsame hstate

/-! ### The recovery of expired leases -/

variable {expired : LeaseRow × Job}

theorem mem_expiredLeases (h : expired ∈ store.expiredLeases now) :
    expired.1 ∈ store.leases ∧ expired.1.state = .active ∧ expired.2 ∈ store.jobs ∧
      expired.2.jobId = expired.1.jobId := by
  unfold expiredLeases at h
  rw [List.mem_insertionSort, List.mem_filterMap] at h
  obtain ⟨row, hrow, hjoin⟩ := h
  rw [List.mem_filter] at hrow
  obtain ⟨job, hjob, rfl⟩ := Option.map_eq_some_iff.mp hjoin
  obtain ⟨hmem, hid⟩ := mem_of_find?_jobId hjob
  have hactive : row.state = .active := by
    simp only [Bool.and_eq_true, beq_iff_eq] at hrow
    exact hrow.2.1
  exact ⟨hrow.1, hactive, hmem, hid⟩

/-- The rows that are recovered are on different jobs. -/
theorem pairwise_expiredLeases (h : store.leases.Pairwise LeaseRow.Apart) (now : Stamp) :
    (store.expiredLeases now).Pairwise fun a b => a.1.jobId ≠ b.1.jobId := by
  unfold expiredLeases
  have hactive : (store.leases.filter fun row =>
      row.state == .active && decide (row.expiresAt ≤ now)).Pairwise
        fun a b => a.jobId ≠ b.jobId := by
    refine (h.filter _).imp_of_mem ?_
    intro a b ha hb hapart
    simp only [List.mem_filter, Bool.and_eq_true, beq_iff_eq] at ha hb
    exact hapart ha.2.1 hb.2.1
  have hjoined := List.Pairwise.filterMap (S := fun a b : LeaseRow × Job => a.1.jobId ≠ b.1.jobId)
    (fun row => (store.jobs.find? (·.jobId == row.jobId)).map fun job => (row, job))
    (by
      intro a b hab x hx y hy
      obtain ⟨job, -, rfl⟩ := Option.map_eq_some_iff.mp hx
      obtain ⟨job', -, rfl⟩ := Option.map_eq_some_iff.mp hy
      exact hab) hactive
  exact ((List.perm_insertionSort _ _).pairwise_iff (fun hab => Ne.symm hab)).mpr hjoined

/-- A row that is still to be recovered: its job is as it was read and live, and the job has
no active lease but this one. -/
structure Pending (store : Store) (expired : LeaseRow × Job) : Prop where
  mem : expired.2 ∈ store.jobs
  jobId_eq : expired.2.jobId = expired.1.jobId
  live : expired.2.state.Live
  only : ∀ row ∈ store.leases, row.state = .active → row.jobId = expired.1.jobId →
    row.leaseId = expired.1.leaseId

theorem settles_recoveredState (h : job.state.Live) :
    job.state.Settles (recoveredState job) := by
  constructor
  · intro hended
    rw [h.1] at hended
    cases hended
  · intro hcancel
    right
    simp [recoveredState, hcancel, JobState.isTerminal]

/-- The recovery of one lease moves the tables. -/
theorem movesTo_recoverLease (hsound : Sound store.jobs store.leases) (h : store.Pending expired)
    (now : Stamp) : store.MovesTo (recoverLease now store expired) := by
  refine hsound.update (fun _ => ⟨rfl, fun h => by cases h⟩) (fun _ => rfl) ?_ ?_
  · intro other hother htake
    simp only [Bool.and_eq_true, beq_iff_eq] at htake
    rw [eq_of_jobId hsound.unique hother h.mem (htake.1.trans h.jobId_eq.symm)]
    exact settles_recoveredState h.live
  · intro row hrow hactive hpick other hother hid htake
    simp only [Bool.and_eq_true, beq_iff_eq] at htake
    have hlease := h.only row hrow hactive (hid.symm.trans htake.1)
    have hexpired := hpick (by simp [hlease, hactive])
    cases hexpired

theorem Pending.recoverLease {other : LeaseRow × Job} (h : store.Pending other)
    (hne : expired.1.jobId ≠ other.1.jobId) (now : Stamp) :
    (Store.recoverLease now store expired).Pending other := by
  refine ⟨?_, h.jobId_eq, h.live, ?_⟩
  · refine mem_updateWhere.mpr ⟨other.2, h.mem, if_neg ?_⟩
    simp only [Bool.and_eq_true, beq_iff_eq]
    intro htake
    exact hne (htake.1.symm.trans h.jobId_eq)
  · intro row' hrow' hactive' hid
    obtain ⟨old, hold, rfl⟩ := mem_updateWhere.mp hrow'
    by_cases htouched : (old.leaseId == expired.1.leaseId && old.state == .active) = true
    · rw [if_pos htouched] at hactive'
      cases hactive'
    · rw [if_neg htouched] at hactive' hid ⊢
      exact h.only old hold hactive' hid

/-- The recovery of all rows that are read at its start keeps what the recovery of one row
keeps in sound tables. -/
theorem foldl_recoverLease_induction {Q : Store → Prop} (now : Stamp)
    (hstep : ∀ (store : Store) (expired : LeaseRow × Job), Sound store.jobs store.leases →
      store.Pending expired → Q store → Q (recoverLease now store expired))
    {rows : List (LeaseRow × Job)} (hsound : Sound store.jobs store.leases)
    (hrows : rows.Pairwise fun a b => a.1.jobId ≠ b.1.jobId)
    (hpending : ∀ expired ∈ rows, store.Pending expired) (hstart : Q store) :
    Q (rows.foldl (recoverLease now) store) := by
  induction rows generalizing store with
  | nil => exact hstart
  | cons expired rows ih =>
    obtain ⟨hhead, htail⟩ := List.pairwise_cons.mp hrows
    have hfirst := hpending expired (List.mem_cons_self ..)
    refine ih (movesTo_recoverLease hsound hfirst now).sound htail ?_
      (hstep store expired hsound hfirst hstart)
    intro other hother
    exact (hpending other (List.mem_cons_of_mem _ hother)).recoverLease (hhead other hother) now

/-- What the recovery of one row keeps in sound tables is kept by the whole recovery. -/
theorem recoverExpired_induction {Q : Store → Prop}
    (hstep : ∀ (store : Store) (expired : LeaseRow × Job), Sound store.jobs store.leases →
      store.Pending expired → Q store → Q (recoverLease now store expired))
    (hsound : Sound store.jobs store.leases) (hstart : Q store) :
    Q (store.recoverExpired now) := by
  refine foldl_recoverLease_induction now hstep hsound
    (pairwise_expiredLeases hsound.oneActive now) ?_ hstart
  intro expired hexpired
  obtain ⟨hrow, hactive, hjob, hid⟩ := mem_expiredLeases hexpired
  refine ⟨hjob, hid, hsound.live_of_active hrow hactive hjob hid, ?_⟩
  intro row hrow' hactive' hid'
  rw [eq_of_active hsound.oneActive hrow' hrow hactive' hactive hid']

theorem movesTo_recoverExpired (hsound : Sound store.jobs store.leases) (now : Stamp) :
    store.MovesTo (store.recoverExpired now) := by
  refine recoverExpired_induction ?_ hsound (Moves.refl hsound)
  intro middle expired hmiddle hpending hmoves
  have hlast := movesTo_recoverLease hmiddle hpending now
  exact ⟨hlast.sound, hmoves.kept.trans (fun _ _ _ => Job.Settles.trans) hlast.kept⟩

/-! ### The withdrawal of authority -/

/-- The job whose leases the withdrawal of an object expires. -/
def expires (store : Store) (object : InvalidatedObject) : Option Id :=
  match object.objectKind with
  | .checkpoint => (store.activeCheckpoint? object.objectId).map (·.jobId)
  | _ => none

/-- The job that the withdrawal of an object ends. -/
def ends (store : Store) (object : InvalidatedObject) : Option Id :=
  match object.objectKind with
  | .checkpoint => (store.activeCheckpoint? object.objectId).map (·.jobId)
  | .queue => some object.objectId
  | _ => none

/-- An object is bound in a run and its authority is not withdrawn. -/
def Bound (store : Store) (runId : Id) (object : InvalidatedObject) : Prop :=
  ∃ binding, store.binding? runId object = some binding ∧ binding.state = .valid

/-- The withdrawal of these objects takes the job out of the queue. -/
def Unqueues (store : Store) (runId : Id) (objects : List InvalidatedObject) (jobId : Id) : Prop :=
  ∃ object ∈ objects, object.objectKind = .queue ∧ object.objectId = jobId ∧
    store.Bound runId object

/-- The withdrawal of these objects expires the leases of the job. -/
def Expires (store : Store) (runId : Id) (objects : List InvalidatedObject) (jobId : Id) : Prop :=
  ∃ object ∈ objects, store.expires object = some jobId ∧ store.Bound runId object

variable {object : InvalidatedObject}

/-- Only checkpoints have leases that expire with them. -/
theorem kind_of_expires (h : store.expires object = some jobId) :
    object.objectKind = .checkpoint ∧ store.ends object = some jobId ∧
      ∃ checkpoint, store.activeCheckpoint? object.objectId = some checkpoint ∧
        checkpoint.jobId = jobId := by
  unfold expires at h
  split at h
  · next hkind =>
    obtain ⟨checkpoint, hcheckpoint, hjob⟩ := Option.map_eq_some_iff.mp h
    refine ⟨hkind, ?_, checkpoint, hcheckpoint, hjob⟩
    simp [ends, hkind, hcheckpoint, hjob]
  · cases h

/-- What the withdrawal of an object does in the table that it stands in. -/
theorem materializeExistingTable_eq (object : InvalidatedObject) (reason : String) (now : Stamp) :
    (store.materializeExistingTable object reason now).jobs =
        updateWhere (fun job => some job.jobId == store.ends object &&
            !job.state.isTerminal)
          (fun job => { job with
            state := .invalidated
            failureCode := some reason
            finishedAt := some now }) store.jobs ∧
      (store.materializeExistingTable object reason now).leases =
        updateWhere (fun row => some row.jobId == store.expires object &&
            row.state == .active)
          (fun row => { row with state := .expired, releasedAt := some now }) store.leases ∧
      (store.materializeExistingTable object reason now).bindings = store.bindings ∧
      ∀ id, (object.objectKind = .checkpoint → id ≠ object.objectId) →
        (store.materializeExistingTable object reason now).activeCheckpoint? id =
          store.activeCheckpoint? id := by
  unfold materializeExistingTable
  split
  · next hkind =>
    cases hcheckpoint : store.activeCheckpoint? object.objectId with
    | none => simp [ends, expires, hkind, hcheckpoint]
    | some checkpoint =>
      refine ⟨?_, ?_, rfl, ?_⟩
      · simp [ends, hkind, hcheckpoint, endJob, expireLeases]
      · simp [expires, hkind, hcheckpoint, endJob, expireLeases]
      · intro id hid
        have hne : id ≠ object.objectId := hid hkind
        refine find?_updateWhere_of_miss ?_ (fun _ _ => by simp) _
        intro row hrow
        simp [beq_iff_eq.mp hrow, hne.symm]
  · next hkind =>
    simp [ends, expires, hkind, endJob, activeCheckpoint?]
  · next hcheckpoint hqueue =>
    have hends : store.ends object = none := by
      unfold ends
      split <;> simp_all
    have hexpires : store.expires object = none := by
      unfold expires
      split <;> simp_all
    simp [hends, hexpires]

variable {event : LedgerRow}

/-- What the withdrawal of an object does: nothing if it was withdrawn before, and otherwise
it marks the binding and changes the table that the object stands in. -/
theorem materializeObject_cases (h : store.materializeObject event now object = .ok store') :
    (store'.jobs = store.jobs ∧ store'.leases = store.leases ∧ store'.bindings = store.bindings ∧
        (∀ id, store'.activeCheckpoint? id = store.activeCheckpoint? id) ∧
        ¬ store.Bound event.runId object) ∨
      (store'.jobs = updateWhere (fun job => some job.jobId == store.ends object &&
            !job.state.isTerminal)
          (fun job => { job with
            state := .invalidated
            failureCode := some event.intent.reason
            finishedAt := some now }) store.jobs ∧
        store'.leases = updateWhere (fun row => some row.jobId == store.expires object &&
            row.state == .active)
          (fun row => { row with state := .expired, releasedAt := some now }) store.leases ∧
        store'.bindings = updateWhere (fun row => row.objectKind == object.objectKind &&
            row.objectId == object.objectId && row.state == .valid)
          (fun row => { row with
            state := .invalidated
            invalidatedByEventId := some event.kernelEventId
            invalidatedAt := some now
            invalidationReason := some event.intent.reason }) store.bindings ∧
        (∀ id, (object.objectKind = .checkpoint → id ≠ object.objectId) →
          store'.activeCheckpoint? id = store.activeCheckpoint? id) ∧
        store.Bound event.runId object) := by
  unfold materializeObject at h
  obtain ⟨binding, hbinding, h⟩ := bind_eq_ok.mp h
  rw [orReject_eq_ok] at hbinding
  split at h
  · next hvalid =>
    cases pure_eq_ok.mp h
    right
    have hbound : store.Bound event.runId object := ⟨binding, hbinding, beq_iff_eq.mp hvalid⟩
    split
    · obtain ⟨hjobs, hleases, hbindings, hcheckpoints⟩ :=
        materializeExistingTable_eq object event.intent.reason now
      exact ⟨hjobs, hleases, hbindings, hcheckpoints, hbound⟩
    · obtain ⟨hjobs, hleases, hbindings, hcheckpoints⟩ :=
        materializeExistingTable_eq object event.intent.reason now
      exact ⟨hjobs, hleases, hbindings, hcheckpoints, hbound⟩
  · next hvalid =>
    left
    cases pure_eq_ok.mp h
    have hnot : ¬ store.Bound event.runId object := by
      rintro ⟨other, hother, hstate⟩
      rw [hbinding] at hother
      cases hother
      exact hvalid (by simp [hstate])
    split
    · exact ⟨rfl, rfl, rfl, fun _ => rfl, hnot⟩
    · exact ⟨rfl, rfl, rfl, fun _ => rfl, hnot⟩

/-- The bindings after one has been withdrawn. -/
theorem binding?_of_withdrawn
    (h : store'.bindings = updateWhere (fun row => row.objectKind == object.objectKind &&
        row.objectId == object.objectId && row.state == .valid)
      (fun row => { row with
        state := .invalidated
        invalidatedByEventId := some event.kernelEventId
        invalidatedAt := some now
        invalidationReason := some event.intent.reason }) store.bindings) (runId : Id)
    (other : InvalidatedObject) :
    store'.binding? runId other = (store.binding? runId other).map fun row =>
      if row.objectKind == object.objectKind && row.objectId == object.objectId &&
          row.state == .valid then
        { row with
          state := .invalidated
          invalidatedByEventId := some event.kernelEventId
          invalidatedAt := some now
          invalidationReason := some event.intent.reason }
      else row := by
  unfold binding?
  rw [h]
  exact find?_updateWhere (by exact fun _ _ => rfl) store.bindings

/-- The withdrawal of an object makes no other object valid, and leaves those alone that are
named otherwise. -/
theorem bound_materializeObject (h : store.materializeObject event now object = .ok store')
    (runId : Id) (other : InvalidatedObject) :
    (store'.Bound runId other → store.Bound runId other) ∧
      (store.Bound runId other → ¬ (other.objectKind = object.objectKind ∧
        other.objectId = object.objectId) → store'.Bound runId other) := by
  rcases materializeObject_cases h with ⟨-, -, hbindings, -⟩ | ⟨-, -, hbindings, -⟩
  · have hsame : store'.binding? runId other = store.binding? runId other := by
      unfold binding?
      rw [hbindings]
    unfold Bound
    rw [hsame]
    exact ⟨fun hbound => hbound, fun hbound _ => hbound⟩
  · have hwithdrawn := binding?_of_withdrawn hbindings runId other
    constructor
    · rintro ⟨binding, hbinding, hvalid⟩
      rw [hwithdrawn, Option.map_eq_some_iff] at hbinding
      obtain ⟨row, hrow, rfl⟩ := hbinding
      split at hvalid
      · cases hvalid
      · exact ⟨row, hrow, hvalid⟩
    · rintro ⟨binding, hbinding, hvalid⟩ hother
      refine ⟨binding, ?_, hvalid⟩
      rw [hwithdrawn, hbinding, Option.map_some, if_neg]
      have hnamed := List.find?_some hbinding
      simp only [Bool.and_eq_true, beq_iff_eq] at hnamed ⊢
      rintro ⟨⟨hkind, hid⟩, -⟩
      exact hother ⟨hnamed.1.1.symm.trans hkind, hnamed.1.2.symm.trans hid⟩

/-- The tables while the objects of an invalidation are withdrawn, with those that remain. An
active lease is on a live job that stays in the queue table, or will be expired. -/
structure Withdrawing (event : LedgerRow) (objects : List InvalidatedObject) (store : Store) :
    Prop where
  unique : (store.jobs.map (·.jobId)).Nodup
  oneActive : store.leases.Pairwise LeaseRow.Apart
  live : ∀ row ∈ store.leases, row.state = .active →
    store.Expires event.runId objects row.jobId ∨
      (∃ job ∈ store.jobs, job.jobId = row.jobId ∧ job.state.Live) ∧
        ¬ store.Unqueues event.runId objects row.jobId

theorem active_of_materializeObject (h : store.materializeObject event now object = .ok store')
    {row' : LeaseRow} (hrow' : row' ∈ store'.leases) (hactive' : row'.state = .active) :
    ∃ row ∈ store.leases, row.state = .active ∧ row.jobId = row'.jobId ∧
      ¬ (store.expires object = some row.jobId ∧ store.Bound event.runId object) := by
  rcases materializeObject_cases h with ⟨-, hleases, -, -, hnot⟩ | ⟨-, hleases, -, -, -⟩
  · rw [hleases] at hrow'
    exact ⟨row', hrow', hactive', rfl, fun hexpires => hnot hexpires.2⟩
  · rw [hleases] at hrow'
    obtain ⟨row, hrow, hactive, hid, hpick⟩ :=
      active_of_updateWhere (by exact fun _ => ⟨rfl, fun h => by cases h⟩) hrow' hactive'
    refine ⟨row, hrow, hactive, hid.symm, ?_⟩
    rintro ⟨hexpires, -⟩
    have hexpired := hpick (by simp [hexpires, hactive])
    cases hexpired

/-- The withdrawal of an object settles every job and keeps the identifiers of the jobs. -/
theorem kept_materializeObject (h : store.materializeObject event now object = .ok store') :
    Kept Job.Settles store.jobs store'.jobs ∧
      store'.jobs.map (·.jobId) = store.jobs.map (·.jobId) := by
  rcases materializeObject_cases h with ⟨hjobs, -⟩ | ⟨hjobs, -⟩
  · rw [hjobs]
    exact ⟨Kept.refl Job.Settles.refl store.jobs, rfl⟩
  · rw [hjobs]
    refine ⟨Kept.updateWhere Job.Settles.refl ?_ store.jobs,
      map_updateWhere (by exact fun _ => rfl) store.jobs⟩
    intro job htake
    simp only [Bool.and_eq_true, Bool.not_eq_true'] at htake
    exact ⟨rfl, JobState.settles_of_ends htake.2 rfl⟩

/-- A job that the withdrawal of an object does not end stays in the table as it is. -/
theorem mem_materializeObject (h : store.materializeObject event now object = .ok store')
    (hjob : job ∈ store.jobs)
    (hends : ¬ (store.ends object = some job.jobId ∧ store.Bound event.runId object)) :
    job ∈ store'.jobs := by
  rcases materializeObject_cases h with ⟨hjobs, -⟩ | ⟨hjobs, -, -, -, hbound⟩
  · rw [hjobs]
    exact hjob
  · rw [hjobs]
    refine mem_updateWhere.mpr ⟨job, hjob, if_neg ?_⟩
    simp only [Bool.and_eq_true, beq_iff_eq]
    rintro ⟨htake, -⟩
    exact hends ⟨htake.symm, hbound⟩

variable {objects : List InvalidatedObject}

/-- A job whose leases the remaining objects expire still has them expired, unless the object
that is withdrawn has just done so. -/
theorem Expires.tail (h : store.Expires event.runId (object :: objects) jobId)
    (hok : store.materializeObject event now object = .ok store')
    (hnot : ¬ (store.expires object = some jobId ∧ store.Bound event.runId object)) :
    store'.Expires event.runId objects jobId := by
  obtain ⟨other, hother, hexpires, hbound⟩ := h
  rcases List.mem_cons.mp hother with rfl | htail
  · exact absurd ⟨hexpires, hbound⟩ hnot
  obtain ⟨hkind, -, checkpoint, hcheckpoint, hjob⟩ := kind_of_expires hexpires
  have hdistinct : ¬ (other.objectKind = object.objectKind ∧ other.objectId = object.objectId) := by
    rintro ⟨hkind', hid'⟩
    refine hnot ⟨?_, ?_⟩
    · unfold expires at hexpires ⊢
      rwa [← hkind', ← hid']
    · unfold Bound binding? at hbound ⊢
      rwa [← hkind', ← hid']
  refine ⟨other, htail, ?_, (bound_materializeObject hok event.runId other).2 hbound hdistinct⟩
  have hsame : store'.activeCheckpoint? other.objectId = store.activeCheckpoint? other.objectId := by
    rcases materializeObject_cases hok with ⟨-, -, -, hcheckpoints, -⟩ | ⟨-, -, -, hcheckpoints, -⟩
    · exact hcheckpoints _
    · exact hcheckpoints _ fun hobject hid => hdistinct ⟨hkind.trans hobject.symm, hid⟩
  unfold expires
  rw [hkind, hsame, hcheckpoint]
  exact congrArg some hjob

/-- One object is withdrawn. -/
theorem Withdrawing.step {event : LedgerRow} {now : Stamp} {object : InvalidatedObject}
    {objects : List InvalidatedObject} (h : Withdrawing event (object :: objects) store)
    (hok : store.materializeObject event now object = .ok store') :
    Withdrawing event objects store' := by
  refine ⟨?_, ?_, ?_⟩
  · rw [(kept_materializeObject hok).2]
    exact h.unique
  · rcases materializeObject_cases hok with ⟨-, hleases, -⟩ | ⟨-, hleases, -⟩
    · rw [hleases]
      exact h.oneActive
    · rw [hleases]
      exact oneActive_updateWhere (fun _ => ⟨rfl, fun h => by cases h⟩) h.oneActive
  · intro row' hrow' hactive'
    obtain ⟨row, hrow, hactive, hid, hnot⟩ := active_of_materializeObject hok hrow' hactive'
    rw [← hid]
    rcases h.live row hrow hactive with hexpires | ⟨⟨job, hjob, hjobId, hlive⟩, hqueue⟩
    · exact Or.inl (hexpires.tail hok hnot)
    · right
      constructor
      · refine ⟨job, mem_materializeObject hok hjob ?_, hjobId, hlive⟩
        rintro ⟨hends, hbound⟩
        -- a checkpoint would have expired the lease, a queue entry is excluded
        unfold ends at hends
        split at hends
        · next hkind =>
          refine hnot ⟨?_, hbound⟩
          unfold expires
          rw [hkind, ← hjobId]
          exact hends
        · next hkind =>
          exact hqueue ⟨object, List.mem_cons_self .., hkind,
            (Option.some.inj hends).trans hjobId, hbound⟩
        · cases hends
      · rintro ⟨other, hother, hkind, hotherId, hbound⟩
        exact hqueue ⟨other, List.mem_cons_of_mem _ hother, hkind, hotherId,
          (bound_materializeObject hok event.runId other).1 hbound⟩

/-- All objects are withdrawn: the tables are sound, and every job has settled. -/
theorem movesTo_materialize (h : Withdrawing event objects store)
    (hok : materialize event now objects store = .ok store') : store.MovesTo store' := by
  induction objects generalizing store with
  | nil =>
    cases hok
    refine Moves.refl ⟨h.unique, h.oneActive, ?_⟩
    intro row hrow hactive
    rcases h.live row hrow hactive with ⟨object, hobject, -⟩ | ⟨hjob, -⟩
    · cases hobject
    · exact hjob
  | cons object objects ih =>
    obtain ⟨middle, hmiddle, hrest⟩ := bind_eq_ok.mp hok
    have hmoves := ih (h.step hmiddle) hrest
    exact ⟨hmoves.sound,
      (kept_materializeObject hmiddle).1.trans (fun _ _ _ => Job.Settles.trans) hmoves.kept⟩

/-- The bindings that a withdrawal needs. -/
theorem isSome_binding?_of_materialize (hok : materialize event now objects store = .ok store') :
    ∀ object ∈ objects, (store.binding? event.runId object).isSome = true := by
  induction objects generalizing store with
  | nil => simp
  | cons head objects ih =>
    obtain ⟨middle, hmiddle, hrest⟩ := bind_eq_ok.mp hok
    intro object hobject
    rcases List.mem_cons.mp hobject with rfl | htail
    · unfold materializeObject at hmiddle
      obtain ⟨binding, hbinding, -⟩ := bind_eq_ok.mp hmiddle
      rw [orReject_eq_ok] at hbinding
      rw [hbinding]
      rfl
    · have hsome := ih hrest object htail
      rcases materializeObject_cases hmiddle with ⟨-, -, hbindings, -⟩ | ⟨-, -, hbindings, -⟩
      · unfold binding? at hsome ⊢
        rwa [hbindings] at hsome
      · rwa [binding?_of_withdrawn hbindings, Option.isSome_map] at hsome

/-- The invalidations that leave no lease behind: wherever a turn of the invalidation engine
takes a job with an active lease out of the queue, it also withdraws a checkpoint of the job.
Only a turn that finds its bindings and stays within the watermark is carried out. -/
def QueueSafe (store : Store) : JobOp → Prop
  | .catchUp runId _ _ => ∀ watermark event,
      store.watermarks.find? (·.runId == runId) = some watermark →
      store.nextEvent watermark = some event →
      (∀ object ∈ event.intent.affectedObjects,
        (store.binding? event.runId object).isSome = true) →
      event.sequence ≤ watermark.recordedSequence →
      event.researchRevision ≤ watermark.recordedRevision →
      ∀ row ∈ store.leases, row.state = .active →
        store.Unqueues event.runId event.intent.affectedObjects row.jobId →
        store.Expires event.runId event.intent.affectedObjects row.jobId
  | _ => True

theorem movesTo_catchUp (hsound : Sound store.jobs store.leases) {runId : Id} {later : Stamp}
    (hsafe : store.QueueSafe (.catchUp runId now later))
    (h : store.catchUp runId now later = .ok store') : store.MovesTo store' := by
  obtain ⟨watermark, hwatermark, ⟨-, rfl⟩ |
    ⟨event, done, hevent, hdone, hsequence, hrevision, rfl⟩⟩ := catchUp_spec h
  · exact Moves.refl hsound
  · have hsafe' := hsafe watermark event hwatermark hevent
      (isSome_binding?_of_materialize hdone) hsequence hrevision
    have hwithdrawing : Withdrawing event event.intent.affectedObjects store := by
      refine ⟨hsound.unique, hsound.oneActive, ?_⟩
      intro row hrow hactive
      by_cases hunqueues : store.Unqueues event.runId event.intent.affectedObjects row.jobId
      · exact Or.inl (hsafe' row hrow hactive hunqueues)
      · exact Or.inr ⟨hsound.live row hrow hactive, hunqueues⟩
    have hmoves : store.MovesTo done := movesTo_materialize hwithdrawing hdone
    exact hmoves

end Store

/-! ## Runs -/

section Runs

open Store

variable {P : Platform}

/-- Every transaction that leaves no lease behind moves the tables. -/
theorem movesTo_transaction {store store' : Store} {op : JobOp}
    (hsound : Sound store.jobs store.leases) (hsafe : store.QueueSafe op)
    (h : op.transaction P store = .ok store') : store.MovesTo store' := by
  cases op with
  | enqueue arguments => exact movesTo_enqueue hsound h
  | claimNext holderId processToken now expiresAt leaseId =>
    obtain ⟨lease?, hclaim⟩ := map_fst_eq_ok.mp h
    exact movesTo_claimNext hsound hclaim
  | heartbeat lease now expiresAt => exact movesTo_heartbeat hsound h
  | requestCancel jobId now => exact movesTo_requestCancel hsound h
  | recordExecution lease receipt now id => exact movesTo_recordExecution hsound h
  | saveCheckpoint jobId revision contract artifactId digest now id =>
    exact movesTo_saveCheckpoint hsound h
  | invalidateCheckpoint id reason now stale => exact movesTo_invalidateCheckpoint hsound h
  | recoverExpired now =>
    cases h
    exact movesTo_recoverExpired hsound now
  | resolve lease result now id =>
    obtain ⟨digest, hresolve⟩ := map_fst_eq_ok.mp h
    exact movesTo_resolve hsound hresolve
  | catchUp runId now later => exact movesTo_catchUp hsound hsafe h
  | surroundings written =>
    cases h
    exact Moves.refl hsound

/-- A step, which may be a transaction that raises. -/
theorem movesTo_jobStep {store : Store} {op : JobOp} (hsound : Sound store.jobs store.leases)
    (hsafe : store.QueueSafe op) : store.MovesTo (jobStep P store op) := by
  unfold jobStep
  split
  · next h => exact movesTo_transaction hsound hsafe h
  · exact Moves.refl hsound

theorem sound_empty : Sound [] [] :=
  ⟨List.nodup_nil, List.Pairwise.nil, fun _ hrow => by cases hrow⟩

theorem sound_jobsReached {ops : List JobOp} (h : StepsSatisfy (jobStep P) QueueSafe {} ops) :
    Sound (jobsReached P ops).jobs (jobsReached P ops).leases :=
  @runFrom_invariant_of Store JobOp (jobStep P) (fun store => Sound store.jobs store.leases)
    QueueSafe {} sound_empty (fun _ _ hsound hsafe => (movesTo_jobStep hsound hsafe).sound) _ h

/-- Every job of a state settles into a job of each later state. -/
theorem kept_jobsReached {early late : List JobOp}
    (h : StepsSatisfy (jobStep P) QueueSafe {} (early ++ late)) :
    Kept Job.Settles (jobsReached P early).jobs (jobsReached P (early ++ late)).jobs := by
  induction late using List.reverseRecOn with
  | nil =>
    rw [List.append_nil]
    exact Kept.refl Job.Settles.refl _
  | append_singleton late op ih =>
    rw [← List.append_assoc] at h ⊢
    have hmoves := @movesTo_jobStep P (jobsReached P (early ++ late)) op
      (sound_jobsReached h.left) h.last
    have hstep : jobsReached P (early ++ late ++ [op]) =
        jobStep P (jobsReached P (early ++ late)) op := runFrom_concat ..
    rw [hstep]
    exact (ih h.left).trans (fun _ _ _ => Job.Settles.trans) hmoves.kept

theorem queued_of_claimed {store : Store} {op : JobOp} {id : Id} (h : op.claimed? store = some id) :
    ∃ job ∈ store.jobs, job.jobId = id ∧ job.state = .queued := by
  unfold JobOp.claimed? at h
  split at h
  · next holderId processToken now expiresAt leaseId =>
    split at h
    · next store' lease hclaim =>
      rcases claimNext_spec hclaim with ⟨-, hnone⟩ | ⟨job, hmem, hqueued, hsome, -⟩
      · cases hnone
      · cases hsome
        exact ⟨job, hmem, Option.some.inj h, hqueued⟩
    · cases h
  · cases h

/-- Ended jobs stay as they are, and a job whose cancellation was requested is not claimed
again, at any later time of the run. -/
structure EndedStay (P : Platform) (ops : List JobOp) : Prop where
  stays : ∀ early late after, ops = early ++ late ++ after →
    ∀ job ∈ (jobsReached P early).jobs, job.state.isTerminal = true →
      (∃ job' ∈ (jobsReached P (early ++ late)).jobs, job'.jobId = job.jobId) ∧
        ∀ job' ∈ (jobsReached P (early ++ late)).jobs, job'.jobId = job.jobId →
          job'.state = job.state
  notClaimed : ∀ early late op after, ops = early ++ late ++ op :: after →
    ∀ job ∈ (jobsReached P early).jobs, job.state = .cancelRequested →
      op.claimed? (jobsReached P (early ++ late)) ≠ some job.jobId

/-- In every run whose invalidations leave no lease behind, ended jobs stay as they are and
cancelled jobs are not claimed again. -/
theorem ended_stay_of_queue_safe {ops : List JobOp}
    (h : StepsSatisfy (jobStep P) QueueSafe {} ops) : EndedStay P ops := by
  constructor
  · rintro early late after rfl job hjob hended
    have hsound := sound_jobsReached h.left
    obtain ⟨later, hlater, hid, hsettles⟩ := kept_jobsReached h.left job hjob
    refine ⟨⟨later, hlater, hid⟩, ?_⟩
    intro job' hjob' hid'
    rw [eq_of_jobId hsound.unique hjob' hlater (hid'.trans hid.symm)]
    exact hsettles.1 hended
  · rintro early late op after rfl job hjob hcancel hclaimed
    have hsound := sound_jobsReached h.left
    obtain ⟨later, hlater, hid, hsettles⟩ := kept_jobsReached h.left job hjob
    obtain ⟨claimed, hclaimedMem, hclaimedId, hqueued⟩ := queued_of_claimed hclaimed
    rw [eq_of_jobId hsound.unique hclaimedMem hlater (hclaimedId.trans hid.symm)] at hqueued
    rcases hsettles.2 hcancel with hstays | hends
    · rw [hqueued] at hstays
      cases hstays
    · rw [hqueued] at hends
      cases hends

/-- A job that has ended and is found in another state later. -/
theorem not_endedStay {early late : List JobOp} {id : Id} {ended revived : JobState}
    (hended : ended.isTerminal = true) (hne : revived ≠ ended)
    (hearly : (jobsReached P early).jobs.map (fun job => (job.jobId, job.state)) = [(id, ended)])
    (hlate : (jobsReached P (early ++ late)).jobs.map (fun job => (job.jobId, job.state)) =
      [(id, revived)]) : ¬ EndedStay P (early ++ late) := by
  intro h
  obtain ⟨job, hjob, hpair⟩ := List.mem_map.mp (hearly ▸ List.mem_singleton_self (id, ended))
  obtain ⟨job', hjob', hpair'⟩ := List.mem_map.mp (hlate ▸ List.mem_singleton_self (id, revived))
  obtain ⟨hid, hstate⟩ := Prod.mk.inj hpair
  obtain ⟨hid', hstate'⟩ := Prod.mk.inj hpair'
  have hstays := (h.stays early late [] (by simp) job hjob (hstate.symm ▸ hended)).2 job' hjob'
    (hid'.trans hid.symm)
  rw [hstate, hstate'] at hstays
  exact hne hstays

end Runs

/-! ## A job withdrawn from the queue -/

namespace Sample

/-- A job of a run. -/
def job : Enqueue where
  jobId := "job"
  receiptId := "receipt"
  scopeKind := .run
  runId := some "run"
  deploymentId := none
  kind := "LEAN_CHECK"
  requestedBy := "operator"
  requestId := "request"
  retrySafety := .idempotent
  idempotencyKey := none
  now := "2026-01-01T00:00:00Z"

/-- What the product has written about the job: its receipt, its binding in the queue and an
invalidation that withdraws it. -/
def withdrawal : Surroundings where
  receipts := [⟨"receipt", 1, digest, .pending, .obj [("job_id", .str "job")],
    "2026-01-01T00:00:00Z"⟩]
  bindings := [⟨.queue, "job", "run", 1, 0, "job", digest, .valid, none, none, none⟩]
  ledger := [⟨1, "event", "run", 1, digest, ⟨"SUPERSEDED", [⟨.queue, "job", "job", digest⟩], [], []⟩⟩]
  watermarks := [⟨"run", 1, 1, 0, 0, "2026-01-01T00:00:00Z"⟩]

/-- The job waits in the queue. -/
def waiting : List JobOp := [.surroundings withdrawal, .enqueue job]

/-- A process claims the next job of the queue. -/
def claim : JobOp :=
  .claimNext "worker" "token" "2026-01-01T00:01:00Z" "2026-01-01T00:02:00Z" "lease"

/-- The invalidation is carried out. -/
def withdraw : JobOp := .catchUp "run" "2026-01-01T00:01:30Z" "2026-01-01T00:01:31Z"

/-- Expired leases are recovered. -/
def recover : JobOp := .recoverExpired "2026-01-01T00:03:00Z"

/-- The states of the sample run: a job that is withdrawn while it is claimed goes back to the
queue when its lease is recovered; nobody has a lease on the job that waits. -/
theorem withdrawn_states :
    ((jobsReached platform (waiting ++ [claim, withdraw])).jobs.map fun job =>
        (job.jobId, job.state)) = [("job", .invalidated)] ∧
      ((jobsReached platform ((waiting ++ [claim, withdraw]) ++ [recover])).jobs.map fun job =>
        (job.jobId, job.state)) = [("job", .queued)] ∧
      (jobsReached platform waiting).leases.length = 0 := by
  decide +kernel

end Sample

/-- A claimed job that the queue table invalidates is queued again when its lease expires. -/
theorem withdrawn_job_requeued :
    ¬ EndedStay Sample.platform
      ((Sample.waiting ++ [Sample.claim, Sample.withdraw]) ++ [Sample.recover]) :=
  not_endedStay rfl (by decide) Sample.withdrawn_states.1 Sample.withdrawn_states.2.1

/-- A job that is withdrawn while it waits stays withdrawn. -/
theorem ended_stay_of_waiting :
    EndedStay Sample.platform
      (Sample.waiting ++ [Sample.withdraw, Sample.claim, Sample.recover]) := by
  refine ended_stay_of_queue_safe ?_
  refine StepsSatisfy.cons trivial (StepsSatisfy.cons trivial (StepsSatisfy.cons ?_
    (StepsSatisfy.cons trivial (StepsSatisfy.cons trivial StepsSatisfy.nil))))
  have hnone := List.eq_nil_of_length_eq_zero Sample.withdrawn_states.2.2
  intro watermark event hwatermark hevent hbound hsequence hrevision row hrow
  have hrow' : row ∈ (jobsReached Sample.platform Sample.waiting).leases := hrow
  rw [hnone] at hrow'
  cases hrow'

end ResearchKernel.Product
