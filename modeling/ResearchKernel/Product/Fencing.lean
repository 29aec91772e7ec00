import ResearchKernel.Product.Terminal

/-!
# Leases fence the workers of a job

Any number of processes claim jobs, extend their leases and record results, also after they
were replaced. A lease carries a generation, and the claims of a job number its leases without
gaps. Only the process of the active lease can act on the job, so that at most one result is
recorded for it.
-/

namespace ResearchKernel.Product

open Foundation Store

/-! ## The columns that no update changes -/

/-- The columns of a lease that are fixed when it is claimed. -/
def LeaseRow.key (row : LeaseRow) : Id × Id × ℕ := (row.leaseId, row.jobId, row.leaseGeneration)

/-- The columns of a job that only a claim changes. -/
def Job.key (job : Job) : Id × ℕ × RetrySafety :=
  (job.jobId, job.leaseGeneration, job.retrySafety)

/-- An update of jobs and leases: it keeps these columns, activates no lease, and puts a job
into the queue only if the job may be repeated. -/
structure Updates (store store' : Store) : Prop where
  leases_eq : store'.leases.map LeaseRow.key = store.leases.map LeaseRow.key
  jobs_eq : store'.jobs.map Job.key = store.jobs.map Job.key
  active : ∀ row' ∈ store'.leases, row'.state = .active →
    ∃ row ∈ store.leases, row.state = .active ∧ row.key = row'.key
  queued : ∀ job' ∈ store'.jobs, job'.state = .queued → ∃ job ∈ store.jobs, job.key = job'.key ∧
    (job.state = .queued ∨ job.retrySafety.isAutomatic = true)

section Updates

variable {store store' store'' : Store}

theorem Updates.refl (store : Store) : Updates store store where
  leases_eq := rfl
  jobs_eq := rfl
  active row hrow hactive := ⟨row, hrow, hactive, rfl⟩
  queued job hjob hqueued := ⟨job, hjob, rfl, Or.inl hqueued⟩

/-- A row with the columns of a given one. -/
theorem exists_of_map_eq {ρ κ : Type} {f : ρ → κ} {rows rows' : List ρ}
    (h : rows'.map f = rows.map f) {row : ρ} (hrow : row ∈ rows') : ∃ old ∈ rows, f old = f row := by
  have hmem : f row ∈ rows.map f := h ▸ List.mem_map_of_mem hrow
  exact List.mem_map.mp hmem

theorem Updates.trans (h : Updates store store') (h' : Updates store' store'') :
    Updates store store'' where
  leases_eq := h'.leases_eq.trans h.leases_eq
  jobs_eq := h'.jobs_eq.trans h.jobs_eq
  active := by
    intro row'' hrow'' hactive''
    obtain ⟨row', hrow', hactive', hkey'⟩ := h'.active row'' hrow'' hactive''
    obtain ⟨row, hrow, hactive, hkey⟩ := h.active row' hrow' hactive'
    exact ⟨row, hrow, hactive, hkey.trans hkey'⟩
  queued := by
    intro job'' hjob'' hqueued''
    obtain ⟨job', hjob', hkey', hqueued' | hautomatic⟩ := h'.queued job'' hjob'' hqueued''
    · obtain ⟨job, hjob, hkey, hstate⟩ := h.queued job' hjob' hqueued'
      exact ⟨job, hjob, hkey.trans hkey', hstate⟩
    · obtain ⟨job, hjob, hkey⟩ := exists_of_map_eq h.jobs_eq hjob'
      have hsafety : job.retrySafety = job'.retrySafety := congrArg (·.2.2) hkey
      exact ⟨job, hjob, hkey.trans hkey', Or.inr (hsafety ▸ hautomatic)⟩

variable {changeJob : Job → Job}

/-- The two tables after updates of their rows. -/
theorem updates_of_eq {picks : LeaseRow → Bool} {changeLease : LeaseRow → LeaseRow}
    {takes : Job → Bool} (hleases : store'.leases = updateWhere picks changeLease store.leases)
    (hjobs : store'.jobs = updateWhere takes changeJob store.jobs)
    (hlease : ∀ row, (changeLease row).key = row.key ∧
      ((changeLease row).state = .active → row.state = .active))
    (hjob : ∀ job, (changeJob job).key = job.key)
    (hqueued : ∀ job ∈ store.jobs, takes job = true → (changeJob job).state = .queued →
      job.state = .queued ∨ job.retrySafety.isAutomatic = true) : Updates store store' where
  leases_eq := by
    rw [hleases]
    exact map_updateWhere (fun row => (hlease row).1) store.leases
  jobs_eq := by
    rw [hjobs]
    exact map_updateWhere hjob store.jobs
  active := by
    intro row' hrow' hactive
    rw [hleases] at hrow'
    obtain ⟨row, hrow, rfl⟩ := mem_updateWhere.mp hrow'
    by_cases hpick : picks row = true
    · rw [if_pos hpick] at hactive ⊢
      exact ⟨row, hrow, (hlease row).2 hactive, (hlease row).1.symm⟩
    · rw [if_neg hpick] at hactive ⊢
      exact ⟨row, hrow, hactive, rfl⟩
  queued := by
    intro job' hjob' hstate
    rw [hjobs] at hjob'
    obtain ⟨job, hmem, rfl⟩ := mem_updateWhere.mp hjob'
    by_cases htake : takes job = true
    · rw [if_pos htake] at hstate ⊢
      exact ⟨job, hmem, (hjob job).symm, hqueued job hmem htake hstate⟩
    · rw [if_neg htake] at hstate ⊢
      exact ⟨job, hmem, rfl, Or.inl hstate⟩

/-- An update of the jobs alone that puts none of them into the queue. -/
theorem updates_jobs {takes : Job → Bool} (hleases : store'.leases = store.leases)
    (hjobs : store'.jobs = updateWhere takes changeJob store.jobs)
    (hjob : ∀ job, (changeJob job).key = job.key)
    (hqueued : ∀ job ∈ store.jobs, takes job = true → (changeJob job).state = .queued →
      job.state = .queued) : Updates store store' := by
  have hsame : store'.leases = updateWhere (fun _ => false) id store.leases := by
    rw [updateWhere_false, hleases]
  exact updates_of_eq hsame hjobs (fun _ => ⟨rfl, fun h => h⟩) hjob
    fun job hmem htake hstate => Or.inl (hqueued job hmem htake hstate)

end Updates

/-! ## What each transaction does to the fixed columns -/

section Transactions

variable {store store' : Store}

variable {lease : JobLease} {now : Stamp}

theorem updates_heartbeat {expiresAt : Stamp}
    (h : store.heartbeat lease now expiresAt = .ok store') : Updates store store' := by
  obtain ⟨-, rfl⟩ := heartbeat_spec h
  have hjobs : store.jobs = updateWhere (fun _ => false) id store.jobs := by
    rw [updateWhere_false]
  exact updates_of_eq rfl hjobs (fun _ => ⟨rfl, fun h => h⟩) (fun _ => rfl)
    fun _ _ htake => by cases htake

theorem updates_requestCancel {jobId : Id} (h : store.requestCancel jobId now = .ok store') :
    Updates store store' := by
  obtain ⟨job, -, -, -, rfl⟩ := requestCancel_spec h
  refine updates_jobs rfl rfl ?_ ?_
  · intro other
    unfold cancelledJob
    split <;> rfl
  · intro other _ _ hstate
    unfold cancelledJob at hstate
    split at hstate <;> cases hstate

theorem updates_saveCheckpoint {jobId : Id} {researchRevision contractVersion : ℤ} {artifactId : Id}
    {digest : Digest} {checkpointId : Id}
    (h : store.saveCheckpoint jobId researchRevision contractVersion artifactId digest now
      checkpointId = .ok store') : Updates store store' := by
  obtain ⟨checkpoints, rfl⟩ := saveCheckpoint_spec h
  exact updates_jobs rfl rfl (fun _ => rfl) fun _ _ _ hstate => hstate

theorem updates_finish (store : Store) (lease : JobLease) (receipt : ExecutionReceipt)
    (now : Stamp) : Updates store (store.finish lease receipt now) := by
  refine updates_of_eq rfl rfl (fun _ => ⟨rfl, fun h => by cases h⟩) (fun _ => rfl) ?_
  intro job _ _ hstate
  have hended := ExecutionOutcome.isTerminal_jobState receipt.outcome
  have hqueued : receipt.outcome.jobState = .queued := hstate
  rw [hqueued] at hended
  cases hended

theorem updates_endJob (store : Store) (jobId : Id) {state : JobState} (reason : String)
    (now : Stamp) (hstate : state.isTerminal = true) :
    Updates store ((store.expireLeases jobId now).endJob jobId state reason now) := by
  refine updates_of_eq rfl rfl (fun _ => ⟨rfl, fun h => by cases h⟩) (fun _ => rfl) ?_
  intro job _ _ hqueued
  have heq : state = .queued := hqueued
  rw [heq] at hstate
  cases hstate

theorem updates_invalidateCheckpoint {id : Id} {reason : String} {stale : Bool}
    (h : store.invalidateCheckpoint id reason now stale = .ok store') : Updates store store' := by
  obtain ⟨jobId, checkpoints, rfl⟩ := invalidateCheckpoint_spec h
  have hstate : (if stale then JobState.stale else JobState.invalidated).isTerminal = true := by
    cases stale <;> rfl
  obtain ⟨hleases, hjobs, hactive, hqueued⟩ :=
    updates_endJob { store with checkpoints := checkpoints } jobId reason now hstate
  exact ⟨hleases, hjobs, hactive, hqueued⟩

theorem updates_recordExecution {receipt : ExecutionReceipt} {id : Id}
    (h : store.recordExecution lease receipt now id = .ok store') :
    Updates store store' := by
  obtain ⟨row, job, -, -, rfl⟩ := recordExecution_spec h
  obtain ⟨hleases, hjobs, hactive, hqueued⟩ := updates_finish store lease receipt now
  exact ⟨hleases, hjobs, hactive, hqueued⟩

theorem updates_resolve {P : Platform} {result : TypedExecution} {id : Id} {digest : Digest}
    (h : store.resolve P lease result now id = .ok (store', digest)) :
    Updates store store' := by
  rcases resolve_spec h with ⟨rfl, -⟩ | ⟨row, job, receipt, value, resolution, -, -, -, -, -, rfl⟩
  · exact Updates.refl _
  · obtain ⟨hleases, hjobs, hactive, hqueued⟩ := updates_finish store lease result.execution now
    exact ⟨hleases, hjobs, hactive, hqueued⟩

theorem updates_recoverExpired (hsound : Sound store.jobs store.leases) (now : Stamp) :
    Updates store (store.recoverExpired now) := by
  refine recoverExpired_induction ?_ hsound (Updates.refl store)
  intro middle expired hmiddle hpending hupdates
  refine hupdates.trans (updates_of_eq rfl rfl (fun _ => ⟨rfl, fun h => by cases h⟩)
    (fun _ => rfl) ?_)
  intro job hjob htake hstate
  simp only [Bool.and_eq_true, beq_iff_eq] at htake
  have heq := eq_of_jobId hmiddle.unique hjob hpending.mem (htake.1.trans hpending.jobId_eq.symm)
  have hrecovered : recoveredState expired.2 = .queued := hstate
  unfold recoveredState at hrecovered
  rw [heq]
  split at hrecovered
  · cases hrecovered
  · next hautomatic =>
    simp only [Bool.or_eq_true, beq_iff_eq, Bool.not_eq_true', not_or, Bool.not_eq_false]
      at hautomatic
    exact Or.inr hautomatic.2

/-- The recovery records no execution. -/
theorem executions_recoverExpired (store : Store) (now : Stamp) :
    (store.recoverExpired now).executions = store.executions := by
  unfold recoverExpired
  induction store.expiredLeases now generalizing store with
  | nil => rfl
  | cons expired rest ih => exact ih (recoverLease now store expired)

end Transactions

/-! ## The fence -/

/-- What the leases guarantee. The generations of a job's leases are the numbers up to its
own, each once, and an active lease has the last one; at most one execution is recorded of a
job, under its last lease, and the job has ended then. -/
structure Fenced (store : Store) : Prop where
  sound : Sound store.jobs store.leases
  generations : ∀ job ∈ store.jobs, ∀ g,
    (∃ row ∈ store.leases, row.jobId = job.jobId ∧ row.leaseGeneration = g) ↔
      1 ≤ g ∧ g ≤ job.leaseGeneration
  numbered : (store.leases.map fun row => (row.jobId, row.leaseGeneration)).Nodup
  owned : ∀ row ∈ store.leases, ∃ job ∈ store.jobs, job.jobId = row.jobId
  current : ∀ row ∈ store.leases, row.state = .active →
    ∀ job ∈ store.jobs, job.jobId = row.jobId → row.leaseGeneration = job.leaseGeneration
  manual : ∀ job ∈ store.jobs, job.retrySafety = .manualOnly →
    job.leaseGeneration ≤ 1 ∧ (job.state = .queued → job.leaseGeneration = 0)
  oneExecution : (store.executions.map (·.jobId)).Nodup
  recorded : ∀ execution ∈ store.executions, ∃ job ∈ store.jobs, ∃ row ∈ store.leases,
    job.jobId = execution.jobId ∧ job.state.isTerminal = true ∧
      job.leaseGeneration = execution.leaseGeneration ∧
      row.key = (execution.leaseId, execution.jobId, execution.leaseGeneration)

/-- The tables before anything is written are fenced. -/
theorem fenced_empty : Fenced {} where
  sound := sound_empty
  generations job hjob := by cases hjob
  numbered := List.nodup_nil
  owned row hrow := by cases hrow
  current row hrow := by cases hrow
  manual job hjob := by cases hjob
  oneExecution := List.nodup_nil
  recorded execution hexecution := by cases hexecution

/-- Jobs with the same fixed columns. -/
theorem Job.key_eq {a b : Job} (h : a.key = b.key) :
    a.jobId = b.jobId ∧ a.leaseGeneration = b.leaseGeneration ∧ a.retrySafety = b.retrySafety := by
  simpa [Job.key] using h

/-- Leases with the same fixed columns. -/
theorem LeaseRow.key_eq {a b : LeaseRow} (h : a.key = b.key) :
    a.leaseId = b.leaseId ∧ a.jobId = b.jobId ∧ a.leaseGeneration = b.leaseGeneration := by
  simpa [LeaseRow.key] using h

section Preservation

variable {store store' : Store}

/-- A job that has ended and its lease are found again after an update. -/
theorem recorded_of_updates (hupdates : Updates store store') (hmoves : store.MovesTo store')
    {execution : ExecutionRow}
    (h : ∃ job ∈ store.jobs, ∃ row ∈ store.leases,
      job.jobId = execution.jobId ∧ job.state.isTerminal = true ∧
        job.leaseGeneration = execution.leaseGeneration ∧
        row.key = (execution.leaseId, execution.jobId, execution.leaseGeneration)) :
    ∃ job ∈ store'.jobs, ∃ row ∈ store'.leases,
      job.jobId = execution.jobId ∧ job.state.isTerminal = true ∧
        job.leaseGeneration = execution.leaseGeneration ∧
        row.key = (execution.leaseId, execution.jobId, execution.leaseGeneration) := by
  obtain ⟨job, hjob, row, hrow, hid, hended, hgeneration, hkey⟩ := h
  obtain ⟨job', hjob', hkey'⟩ := exists_of_map_eq hupdates.jobs_eq.symm hjob
  obtain ⟨row', hrow', hrowKey⟩ := exists_of_map_eq hupdates.leases_eq.symm hrow
  obtain ⟨later, hlater, hlaterId, hsettles⟩ := hmoves.kept job hjob
  obtain ⟨hid', hgeneration', -⟩ := Job.key_eq hkey'
  have heq : later = job' :=
    eq_of_jobId hmoves.sound.unique hlater hjob' (hlaterId.trans hid'.symm)
  subst heq
  have hstate : later.state = job.state := hsettles.1 hended
  exact ⟨later, hjob', row', hrow', hid'.trans hid, hstate ▸ hended,
    hgeneration'.trans hgeneration, hrowKey.trans hkey⟩

/-- What an update keeps, whatever it does to the executions. -/
theorem Fenced.of_updates (h : Fenced store) (hupdates : Updates store store')
    (hmoves : store.MovesTo store')
    (honce : (store'.executions.map (·.jobId)).Nodup)
    (hrecorded : ∀ execution ∈ store'.executions, ∃ job ∈ store'.jobs, ∃ row ∈ store'.leases,
      job.jobId = execution.jobId ∧ job.state.isTerminal = true ∧
        job.leaseGeneration = execution.leaseGeneration ∧
        row.key = (execution.leaseId, execution.jobId, execution.leaseGeneration)) :
    Fenced store' where
  sound := hmoves.sound
  generations := by
    intro job' hjob' g
    obtain ⟨job, hjob, hkey⟩ := exists_of_map_eq hupdates.jobs_eq hjob'
    obtain ⟨hid, hgeneration, -⟩ := Job.key_eq hkey
    rw [← hid, ← hgeneration, ← h.generations job hjob g]
    constructor
    · rintro ⟨row', hrow', hrowId, hrowGeneration⟩
      obtain ⟨row, hrow, hrowKey⟩ := exists_of_map_eq hupdates.leases_eq hrow'
      obtain ⟨-, hjobId, hnumber⟩ := LeaseRow.key_eq hrowKey
      exact ⟨row, hrow, hjobId.trans hrowId, hnumber.trans hrowGeneration⟩
    · rintro ⟨row, hrow, hrowId, hrowGeneration⟩
      obtain ⟨row', hrow', hrowKey⟩ := exists_of_map_eq hupdates.leases_eq.symm hrow
      obtain ⟨-, hjobId, hnumber⟩ := LeaseRow.key_eq hrowKey
      exact ⟨row', hrow', hjobId.trans hrowId, hnumber.trans hrowGeneration⟩
  numbered := by
    have hsame : (store'.leases.map fun row => (row.jobId, row.leaseGeneration)) =
        store.leases.map fun row => (row.jobId, row.leaseGeneration) := by
      have hkeys := congrArg (List.map Prod.snd) hupdates.leases_eq
      rw [List.map_map, List.map_map] at hkeys
      exact hkeys
    rw [hsame]
    exact h.numbered
  owned := by
    intro row' hrow'
    obtain ⟨row, hrow, hkey⟩ := exists_of_map_eq hupdates.leases_eq hrow'
    obtain ⟨job, hjob, hid⟩ := h.owned row hrow
    obtain ⟨job', hjob', hjobKey⟩ := exists_of_map_eq hupdates.jobs_eq.symm hjob
    exact ⟨job', hjob', (Job.key_eq hjobKey).1.trans (hid.trans (LeaseRow.key_eq hkey).2.1)⟩
  current := by
    intro row' hrow' hactive job' hjob' hid
    obtain ⟨row, hrow, hrowActive, hrowKey⟩ := hupdates.active row' hrow' hactive
    obtain ⟨job, hjob, hjobKey⟩ := exists_of_map_eq hupdates.jobs_eq hjob'
    obtain ⟨-, hrowJob, hrowGeneration⟩ := LeaseRow.key_eq hrowKey
    obtain ⟨hjobId, hgeneration, -⟩ := Job.key_eq hjobKey
    have hcurrent := h.current row hrow hrowActive job hjob
      (hjobId.trans (hid.trans hrowJob.symm))
    rw [← hrowGeneration, ← hgeneration, hcurrent]
  manual := by
    intro job' hjob' hmanual
    obtain ⟨job, hjob, hkey⟩ := exists_of_map_eq hupdates.jobs_eq hjob'
    obtain ⟨-, hgeneration, hsafety⟩ := Job.key_eq hkey
    have hbound := (h.manual job hjob (hsafety.trans hmanual)).1
    refine ⟨hgeneration ▸ hbound, ?_⟩
    intro hqueued'
    obtain ⟨old, hold, holdKey, hqueued | hautomatic⟩ := hupdates.queued job' hjob' hqueued'
    · obtain ⟨-, holdGeneration, holdSafety⟩ := Job.key_eq holdKey
      rw [← holdGeneration]
      exact (h.manual old hold (holdSafety.trans hmanual)).2 hqueued
    · obtain ⟨-, -, holdSafety⟩ := Job.key_eq holdKey
      rw [holdSafety, hmanual] at hautomatic
      cases hautomatic
  oneExecution := honce
  recorded := hrecorded

/-- An update that records no execution keeps the fence. -/
theorem Fenced.update (h : Fenced store) (hupdates : Updates store store')
    (hmoves : store.MovesTo store') (hexecutions : store'.executions = store.executions) :
    Fenced store' := by
  refine h.of_updates hupdates hmoves ?_ ?_
  · rw [hexecutions]
    exact h.oneExecution
  · intro execution hexecution
    rw [hexecutions] at hexecution
    exact recorded_of_updates hupdates hmoves (h.recorded execution hexecution)

/-- The end of an execution keeps the fence: none was recorded of the job, since it has not
ended. -/
theorem Fenced.finish (h : Fenced store) {lease : JobLease} {receipt : ExecutionReceipt}
    {now : Stamp} {id : Id} {row : LeaseRow} {job : Job} (hends : store.Ends lease row job)
    (hjobs : store'.jobs = (store.finish lease receipt now).jobs)
    (hleases : store'.leases = (store.finish lease receipt now).leases)
    (hexecutions : store'.executions = store.executions ++ [executionRow lease receipt now id]) :
    Fenced store' := by
  have hmoves : store.MovesTo store' := by
    have hfinish : store.MovesTo (store.finish lease receipt now) := movesTo_finish h.sound hends
    unfold MovesTo at hfinish ⊢
    rwa [hjobs, hleases]
  have hupdates : Updates store store' := by
    obtain ⟨hleasesEq, hjobsEq, hactive, hqueued⟩ := updates_finish store lease receipt now
    rw [← hleases] at hleasesEq hactive
    rw [← hjobs] at hjobsEq hqueued
    exact ⟨hleasesEq, hjobsEq, hactive, hqueued⟩
  have hlive := JobState.live_of_isExecuting hends.executing
  refine h.of_updates hupdates hmoves ?_ ?_
  · rw [hexecutions, List.map_append]
    refine nodup_concat_of_fresh h.oneExecution ?_
    intro old hold heq
    obtain ⟨execution, hexecution, rfl⟩ := List.mem_map.mp hold
    obtain ⟨ended, hended, -, -, hid, hterminal, -⟩ := h.recorded execution hexecution
    have hsame : ended = job :=
      eq_of_jobId h.sound.unique hended hends.job_mem (hid.trans (heq.trans hends.jobId_eq.symm))
    rw [hsame, hlive.1] at hterminal
    cases hterminal
  · intro execution hexecution
    rw [hexecutions] at hexecution
    rcases List.mem_append.mp hexecution with hold | hnew
    · exact recorded_of_updates hupdates hmoves (h.recorded execution hold)
    · rw [List.mem_singleton.mp hnew]
      obtain ⟨row', hrow', hrowKey⟩ := exists_of_map_eq hupdates.leases_eq.symm hends.row_mem
      let finished : Job := { job with
        state := receipt.outcome.jobState
        resultRefs := receipt.resultRefs
        failureCode := receipt.failureCode
        finishedAt := some now }
      have hfinished : finished ∈ store'.jobs := by
        rw [hjobs]
        have htake : (job.jobId == lease.jobId) = true := beq_iff_eq.mpr hends.jobId_eq
        exact mem_updateWhere.mpr ⟨job, hends.job_mem, if_pos htake⟩
      refine ⟨finished, hfinished, row', hrow', hends.jobId_eq,
        ExecutionOutcome.isTerminal_jobState _, hends.generation_eq, hrowKey.trans ?_⟩
      simp [LeaseRow.key, executionRow, hends.leaseId_eq, hends.rowJobId_eq,
        hends.rowGeneration_eq]

theorem Fenced.enqueue (h : Fenced store) {e : Enqueue} (hok : store.enqueue e = .ok store') :
    Fenced store' := by
  have hmoves := movesTo_enqueue h.sound hok
  rcases enqueue_spec hok with rfl | ⟨key, receipt, value, requests, -, -, -, -, hfresh, rfl⟩
  · exact h
  have hnew : ∀ old ∈ store.jobs, old.jobId ≠ e.jobId := by
    intro old hold heq
    have hclash := hfresh old hold
    simp [Job.clash, enqueuedJob, heq] at hclash
  constructor
  · exact hmoves.sound
  · intro job hjob g
    rcases List.mem_append.mp hjob with hold | hmem
    · exact h.generations job hold g
    · rw [List.mem_singleton.mp hmem]
      constructor
      · rintro ⟨row, hrow, hid, -⟩
        obtain ⟨owner, howner, hownerId⟩ := h.owned row hrow
        exact absurd (hownerId.trans hid) (hnew owner howner)
      · rintro ⟨hone, hzero⟩
        have hnone : g ≤ 0 := hzero
        omega
  · exact h.numbered
  · intro row hrow
    obtain ⟨owner, howner, hid⟩ := h.owned row hrow
    exact ⟨owner, List.mem_append_left _ howner, hid⟩
  · intro row hrow hactive job hjob hid
    rcases List.mem_append.mp hjob with hold | hmem
    · exact h.current row hrow hactive job hold hid
    · rw [List.mem_singleton.mp hmem] at hid
      obtain ⟨owner, howner, hownerId⟩ := h.owned row hrow
      exact absurd (hownerId.trans hid.symm) (hnew owner howner)
  · intro job hjob hmanual
    rcases List.mem_append.mp hjob with hold | hmem
    · exact h.manual job hold hmanual
    · rw [List.mem_singleton.mp hmem]
      exact ⟨Nat.zero_le 1, fun _ => rfl⟩
  · exact h.oneExecution
  · intro execution hexecution
    obtain ⟨job, hjob, row, hrow, hrest⟩ := h.recorded execution hexecution
    exact ⟨job, List.mem_append_left _ hjob, row, hrow, hrest⟩

/-- A job of the table after a claim: the claimed one, under the next generation, or another
one as it was. -/
theorem mem_claimed (hsound : Sound store.jobs store.leases) {job : Job} (hjob : job ∈ store.jobs)
    (hqueued : job.state = .queued) {now : Stamp} {job' : Job}
    (h : job' ∈ updateWhere (claims job) (claimedJob job now) store.jobs) :
    job' = claimedJob job now job ∨ job' ∈ store.jobs ∧ job'.jobId ≠ job.jobId := by
  obtain ⟨other, hother, rfl⟩ := mem_updateWhere.mp h
  by_cases hid : other.jobId = job.jobId
  · have heq := eq_of_jobId hsound.unique hother hjob hid
    have hclaims : claims job job = true := by simp [claims, hqueued]
    subst heq
    exact Or.inl (if_pos hclaims)
  · have hclaims : ¬ claims job other = true := by simp [claims, hid]
    rw [if_neg hclaims]
    exact Or.inr ⟨hother, hid⟩

theorem Fenced.claimNext (h : Fenced store) {holderId processToken : String}
    {now expiresAt : Stamp} {leaseId : Id} {lease? : Option JobLease}
    (hok : store.claimNext holderId processToken now expiresAt leaseId = .ok (store', lease?)) :
    Fenced store' := by
  have hmoves := movesTo_claimNext h.sound hok
  rcases claimNext_spec hok with ⟨rfl, -⟩ | ⟨job, hmem, hqueued, -, hfresh, rfl⟩
  · exact h
  have hclaimed : ∀ {job' : Job},
      job' ∈ updateWhere (claims job) (claimedJob job now) store.jobs →
        job' = claimedJob job now job ∨ job' ∈ store.jobs ∧ job'.jobId ≠ job.jobId :=
    fun hjob' => mem_claimed h.sound hmem hqueued hjob'
  constructor
  · exact hmoves.sound
  · intro job' hjob' g
    have hgenerations := h.generations
    rcases hclaimed hjob' with rfl | ⟨hold, hother⟩
    · -- the generations of the old leases, and the one of the new lease
      have hbefore := h.generations job hmem g
      have hgeneration : (claimedJob job now job).leaseGeneration = job.leaseGeneration + 1 := rfl
      rw [hgeneration]
      constructor
      · rintro ⟨row, hrow, hid, hnumber⟩
        rcases List.mem_append.mp hrow with hrow | hrow
        · have hbounds := hbefore.mp ⟨row, hrow, hid, hnumber⟩
          omega
        · rw [List.mem_singleton.mp hrow] at hnumber
          have hnext : job.leaseGeneration + 1 = g := hnumber
          omega
      · rintro ⟨hone, hlast⟩
        by_cases hnew : g = job.leaseGeneration + 1
        · exact ⟨_, List.mem_append_right _ (List.mem_singleton_self _), rfl, hnew.symm⟩
        · obtain ⟨row, hrow, hid, hnumber⟩ := hbefore.mpr ⟨hone, by omega⟩
          exact ⟨row, List.mem_append_left _ hrow, hid, hnumber⟩
    · rw [← h.generations job' hold g]
      constructor
      · rintro ⟨row, hrow, hid, hnumber⟩
        rcases List.mem_append.mp hrow with hrow | hrow
        · exact ⟨row, hrow, hid, hnumber⟩
        · rw [List.mem_singleton.mp hrow] at hid
          exact absurd hid.symm hother
      · rintro ⟨row, hrow, hid, hnumber⟩
        exact ⟨row, List.mem_append_left _ hrow, hid, hnumber⟩
  · rw [List.map_append]
    refine nodup_concat_of_fresh h.numbered ?_
    intro pair hpair heq
    obtain ⟨old, hold, rfl⟩ := List.mem_map.mp hpair
    obtain ⟨hid, hnumber⟩ := Prod.mk.inj heq
    have hclash := hfresh old hold
    simp [LeaseRow.clash, hid, hnumber] at hclash
  · intro row hrow
    rcases List.mem_append.mp hrow with hrow | hrow
    · obtain ⟨owner, howner, hid⟩ := h.owned row hrow
      obtain ⟨later, hlater, hlaterId, -⟩ := hmoves.kept owner howner
      exact ⟨later, hlater, hlaterId.trans hid⟩
    · obtain ⟨later, hlater, hlaterId, -⟩ := hmoves.kept job hmem
      rw [List.mem_singleton.mp hrow]
      exact ⟨later, hlater, hlaterId⟩
  · intro row hrow hactive job' hjob' hid
    rcases List.mem_append.mp hrow with hrow | hrow
    · rcases hclaimed hjob' with rfl | ⟨hold, -⟩
      · exact absurd hactive (not_active_of_queued h.sound hmem hqueued hrow hid.symm)
      · exact h.current row hrow hactive job' hold hid
    · rw [List.mem_singleton.mp hrow] at hid ⊢
      rcases hclaimed hjob' with rfl | ⟨-, hother⟩
      · rfl
      · exact absurd hid hother
  · intro job' hjob' hmanual
    rcases hclaimed hjob' with rfl | ⟨hold, -⟩
    · have hzero := (h.manual job hmem hmanual).2 hqueued
      refine ⟨?_, fun hstate => by cases hstate⟩
      have hgeneration : (claimedJob job now job).leaseGeneration = job.leaseGeneration + 1 := rfl
      omega
    · exact h.manual job' hold hmanual
  · exact h.oneExecution
  · intro execution hexecution
    obtain ⟨ended, hended, row, hrow, hid, hterminal, hgeneration, hkey⟩ :=
      h.recorded execution hexecution
    have hother : ¬ claims job ended = true := by
      intro hclaims
      simp only [claims, Bool.and_eq_true, beq_iff_eq] at hclaims
      rw [hclaims.1.2] at hterminal
      cases hterminal
    exact ⟨ended, mem_updateWhere.mpr ⟨ended, hended, if_neg hother⟩, row,
      List.mem_append_left _ hrow, hid, hterminal, hgeneration, hkey⟩

end Preservation

/-! ## Processes that have lost their lease -/

/-- No active lease is the one that a process acts by. -/
def Lost (store : Store) (lease : JobLease) : Prop :=
  ∀ row ∈ store.leases, lease.names row = true → row.state ≠ .active

/-- How each call of a process is answered without a lease. None changes anything; only an
execution that repeats the resolution of the job gets a digest. -/
structure Refused (P : Platform) (store : Store) (lease : JobLease) : Prop where
  heartbeat : ∀ now expiresAt, store.heartbeat lease now expiresAt =
    .error (if expiresAt ≤ now then .value "lease expiry must be after heartbeat"
      else .leaseLost "heartbeat lease is expired or superseded")
  recordExecution : ∀ receipt now id, store.recordExecution lease receipt now id =
    .error (.leaseLost "execution receipt lease is expired or superseded")
  resolve : ∀ result now id, store.resolve P lease result now id =
    match store.resolutions.find? (·.jobId == lease.jobId) with
    | none => .error (.leaseLost "durable resolution has no active exact lease")
    | some previous =>
      if previous.executionDigest = executionDigest P result then
        .ok (store, previous.executionDigest)
      else .error (.store "durable execution replay conflicts with prior resolution")

section Refused

variable {P : Platform} {store : Store} {lease : JobLease}

/-- A lease that a lost process names cannot be acted by. -/
theorem Lost.lease_bind (h : Lost store lease) {α : Type} {error : JobError}
    {rest : LeaseRow → Except JobError α} :
    (orReject (store.leases.find? (lease.names ·)) error >>= fun row =>
      rejectIf (row.state != .active) error >>= fun _ => rest row) = .error error := by
  cases hrow : store.leases.find? (lease.names ·) with
  | none => rfl
  | some row =>
    have hnot := h row (List.mem_of_find?_eq_some hrow) (List.find?_some hrow)
    exact rejectIf_bind (by simpa using hnot)

theorem Lost.heartbeat (h : Lost store lease) (now expiresAt : Stamp) :
    store.heartbeat lease now expiresAt =
      .error (if expiresAt ≤ now then .value "lease expiry must be after heartbeat"
        else .leaseLost "heartbeat lease is expired or superseded") := by
  unfold Store.heartbeat
  by_cases hexpiry : expiresAt ≤ now
  · rw [if_pos hexpiry]
    exact rejectIf_bind (decide_eq_true hexpiry)
  · rw [if_neg hexpiry]
    have hnone : store.leases.countP (fun row =>
        lease.names row && row.state == .active && decide (now < row.expiresAt)) = 0 := by
      rw [List.countP_eq_zero]
      intro row hrow hheld
      simp only [Bool.and_eq_true, beq_iff_eq] at hheld
      exact h row hrow hheld.1.1 hheld.1.2
    have hcount : (store.leases.countP (fun row =>
        lease.names row && row.state == .active && decide (now < row.expiresAt)) != 1) = true := by
      rw [hnone]
      rfl
    rw [rejectIf_bind_of_passes (decide_eq_false hexpiry)]
    exact rejectIf_bind hcount

theorem Lost.recordExecution (h : Lost store lease) (receipt : ExecutionReceipt) (now : Stamp)
    (id : Id) : store.recordExecution lease receipt now id =
      .error (.leaseLost "execution receipt lease is expired or superseded") :=
  h.lease_bind

theorem Lost.resolve (h : Lost store lease) (result : TypedExecution) (now : Stamp) (id : Id) :
    store.resolve P lease result now id =
      match store.resolutions.find? (·.jobId == lease.jobId) with
      | none => .error (.leaseLost "durable resolution has no active exact lease")
      | some previous =>
        if previous.executionDigest = executionDigest P result then
          .ok (store, previous.executionDigest)
        else .error (.store "durable execution replay conflicts with prior resolution") := by
  unfold Store.resolve
  cases hprevious : store.resolutions.find? (·.jobId == lease.jobId) with
  | some previous =>
    by_cases hdigest : previous.executionDigest = executionDigest P result
    · simp only [hdigest, bne_self_eq_false, if_true]
      rfl
    · simp only [if_neg hdigest]
      exact rejectIf_bind (by simpa using hdigest)
  | none =>
    dsimp only
    cases hjob : store.jobs.find? (·.jobId == lease.jobId) with
    | none => rfl
    | some job =>
      rw [orReject_bind_of_some rfl]
      cases hrequest : store.requests.find? (·.jobId == lease.jobId) with
      | none => rfl
      | some request =>
        rw [orReject_bind_of_some rfl]
        cases hreceipt : store.receipts.find? (·.receiptId == job.receiptId) with
        | none => rfl
        | some receipt =>
          rw [orReject_bind_of_some rfl]
          exact h.lease_bind

/-- A process that has lost its lease is refused whatever it calls. -/
theorem Lost.refused (h : Lost store lease) : Refused P store lease :=
  ⟨h.heartbeat, h.recordExecution, h.resolve⟩

end Refused

/-! ## Runs -/

/-- The transactions of the job store and of the resolver. -/
def JobOp.OfWorkers : JobOp → Prop
  | .catchUp .. => False
  | _ => True

section Runs

variable {P : Platform}

variable {op : JobOp}

/-- These leave no lease behind. -/
theorem queueSafe_of_ofWorkers (h : op.OfWorkers) (store : Store) :
    store.QueueSafe op := by
  cases op <;> first | exact absurd h id | exact trivial

/-- Every transaction of the workers keeps the fence. -/
theorem Fenced.transaction {store store' : Store} (h : Fenced store) (hworkers : op.OfWorkers)
    (hok : op.transaction P store = .ok store') : Fenced store' := by
  have hmoves := movesTo_transaction h.sound (queueSafe_of_ofWorkers hworkers store) hok
  cases op with
  | enqueue arguments => exact h.enqueue hok
  | claimNext holderId processToken now expiresAt leaseId =>
    obtain ⟨lease?, hclaim⟩ := map_fst_eq_ok.mp hok
    exact h.claimNext hclaim
  | heartbeat lease now expiresAt =>
    refine h.update (updates_heartbeat hok) hmoves ?_
    obtain ⟨-, rfl⟩ := heartbeat_spec hok
    rfl
  | requestCancel jobId now =>
    refine h.update (updates_requestCancel hok) hmoves ?_
    obtain ⟨job, -, -, -, rfl⟩ := requestCancel_spec hok
    rfl
  | recordExecution lease receipt now id =>
    obtain ⟨row, job, hends, -, rfl⟩ := recordExecution_spec hok
    exact h.finish hends rfl rfl rfl
  | saveCheckpoint jobId revision contract artifactId digest now id =>
    refine h.update (updates_saveCheckpoint hok) hmoves ?_
    obtain ⟨checkpoints, rfl⟩ := saveCheckpoint_spec hok
    rfl
  | invalidateCheckpoint id reason now stale =>
    refine h.update (updates_invalidateCheckpoint hok) hmoves ?_
    obtain ⟨jobId, checkpoints, rfl⟩ := invalidateCheckpoint_spec hok
    rfl
  | recoverExpired now =>
    cases hok
    exact h.update (updates_recoverExpired h.sound now) hmoves (executions_recoverExpired store now)
  | resolve lease result now id =>
    obtain ⟨digest, hresolve⟩ := map_fst_eq_ok.mp hok
    rcases resolve_spec hresolve with ⟨rfl, -⟩ |
      ⟨row, job, receipt, value, resolution, hends, -, -, -, -, rfl⟩
    · exact h
    · exact h.finish hends rfl rfl rfl
  | catchUp runId now later => exact absurd hworkers id
  | surroundings written =>
    cases hok
    exact h.update ⟨rfl, rfl, fun row hrow hactive => ⟨row, hrow, hactive, rfl⟩,
      fun job hjob hqueued => ⟨job, hjob, rfl, Or.inl hqueued⟩⟩ hmoves rfl

/-- A step of the workers keeps the fence. -/
theorem Fenced.jobStep {store : Store} {op : JobOp} (h : Fenced store) (hworkers : op.OfWorkers) :
    Fenced (jobStep P store op) := by
  unfold Product.jobStep
  split
  · next hok => exact h.transaction hworkers hok
  · exact h

/-- The fence holds in every state that the workers reach. -/
theorem fenced_jobsReached {ops : List JobOp} (h : ∀ op ∈ ops, op.OfWorkers) :
    Fenced (jobsReached P ops) :=
  @runFrom_invariant_of Store JobOp (Product.jobStep P) Fenced (fun _ op => op.OfWorkers) {}
    fenced_empty (fun _ _ hfenced hworkers => hfenced.jobStep hworkers) ops
    (StepsSatisfy.of_forall fun op hop _ => h op hop)

/-! ### The number of claims -/

/-- How often a job is claimed in a run. -/
def claimsOf (P : Platform) (id : Id) : Store → List JobOp → ℕ
  | _, [] => 0
  | store, op :: ops =>
    (if op.claimed? store = some id then 1 else 0) + claimsOf P id (Product.jobStep P store op) ops

/-- The last transaction of a run may claim the job once more. -/
theorem claimsOf_concat (id : Id) (store : Store) (ops : List JobOp) (op : JobOp) :
    claimsOf P id store (ops ++ [op]) = claimsOf P id store ops +
      (if op.claimed? (runFrom (Product.jobStep P) store ops) = some id then 1 else 0) := by
  induction ops generalizing store with
  | nil =>
    rw [List.nil_append, claimsOf, claimsOf, claimsOf, runFrom_nil]
    exact Nat.add_comm ..
  | cons first ops ih =>
    rw [List.cons_append, claimsOf, claimsOf, ih, runFrom_cons]
    omega

/-- What a transaction makes of the generations: a job is new and has none, or it has one more
than before if it was claimed. -/
theorem generation_jobStep {store : Store} (h : Fenced store) (hworkers : op.OfWorkers) {job' : Job}
    (hjob' : job' ∈ (Product.jobStep P store op).jobs) :
    (∀ job ∈ store.jobs, job.jobId ≠ job'.jobId) ∧ job'.leaseGeneration = 0 ∨
      ∃ job ∈ store.jobs, job.jobId = job'.jobId ∧ job'.leaseGeneration =
        job.leaseGeneration + if op.claimed? store = some job'.jobId then 1 else 0 := by
  have hsame : ∀ {store' : Store}, Updates store store' → job' ∈ store'.jobs →
      op.claimed? store ≠ some job'.jobId →
      ∃ job ∈ store.jobs, job.jobId = job'.jobId ∧ job'.leaseGeneration =
        job.leaseGeneration + if op.claimed? store = some job'.jobId then 1 else 0 := by
    intro store' hupdates hmem hnot
    obtain ⟨job, hjob, hkey⟩ := exists_of_map_eq hupdates.jobs_eq hmem
    obtain ⟨hid, hgeneration, -⟩ := Job.key_eq hkey
    refine ⟨job, hjob, hid, ?_⟩
    rw [if_neg hnot]
    exact hgeneration.symm
  unfold Product.jobStep at hjob'
  split at hjob'
  · next store' hok =>
    cases op with
    | enqueue e =>
      rcases enqueue_spec hok with rfl | ⟨key, receipt, value, requests, -, -, -, -, hfresh, rfl⟩
      · exact Or.inr (hsame (Updates.refl _) hjob' (by simp [JobOp.claimed?]))
      · rcases List.mem_append.mp hjob' with hold | hnew
        · exact Or.inr (hsame (Updates.refl store) hold (by simp [JobOp.claimed?]))
        · rw [List.mem_singleton.mp hnew]
          refine Or.inl ⟨?_, rfl⟩
          intro old hold heq
          have hid : old.jobId = e.jobId := heq
          have hclash := hfresh old hold
          simp [Job.clash, enqueuedJob, hid] at hclash
    | claimNext holderId processToken now expiresAt leaseId =>
      obtain ⟨lease?, hclaim⟩ := map_fst_eq_ok.mp hok
      right
      rcases claimNext_spec hclaim with ⟨rfl, rfl⟩ | ⟨job, hmem, hqueued, rfl, -, rfl⟩
      · exact hsame (Updates.refl _) hjob' (by simp [JobOp.claimed?, hclaim])
      · have hclaimed : (JobOp.claimNext holderId processToken now expiresAt leaseId).claimed?
            store = some job.jobId := by simp [JobOp.claimed?, hclaim]
        rcases mem_claimed h.sound hmem hqueued hjob' with rfl | ⟨hold, hother⟩
        · refine ⟨job, hmem, rfl, ?_⟩
          rw [hclaimed]
          exact (congrArg (job.leaseGeneration + ·) (if_pos rfl)).symm
        · refine hsame (Updates.refl _) hold ?_
          rw [hclaimed]
          exact fun heq => hother (Option.some.inj heq).symm
    | heartbeat lease now expiresAt =>
      exact Or.inr (hsame (updates_heartbeat hok) hjob' (by simp [JobOp.claimed?]))
    | requestCancel jobId now =>
      exact Or.inr (hsame (updates_requestCancel hok) hjob' (by simp [JobOp.claimed?]))
    | recordExecution lease receipt now id =>
      exact Or.inr (hsame (updates_recordExecution hok) hjob' (by simp [JobOp.claimed?]))
    | saveCheckpoint jobId revision contract artifactId digest now id =>
      exact Or.inr (hsame (updates_saveCheckpoint hok) hjob' (by simp [JobOp.claimed?]))
    | invalidateCheckpoint id reason now stale =>
      exact Or.inr (hsame (updates_invalidateCheckpoint hok) hjob' (by simp [JobOp.claimed?]))
    | recoverExpired now =>
      cases hok
      exact Or.inr (hsame (updates_recoverExpired h.sound now) hjob' (by simp [JobOp.claimed?]))
    | resolve lease result now id =>
      obtain ⟨digest, hresolve⟩ := map_fst_eq_ok.mp hok
      exact Or.inr (hsame (updates_resolve hresolve) hjob' (by simp [JobOp.claimed?]))
    | catchUp runId now later => exact absurd hworkers id
    | surroundings written =>
      cases hok
      exact Or.inr (hsame (Updates.refl store) hjob' (by simp [JobOp.claimed?]))
  · next hraises =>
    refine Or.inr (hsame (Updates.refl store) hjob' ?_)
    intro hclaimed
    -- a transaction that raises claims nothing
    unfold JobOp.claimed? at hclaimed
    split at hclaimed
    · split at hclaimed
      · next hclaim =>
        rw [JobOp.transaction, hclaim] at hraises
        cases hraises
      · cases hclaimed
    · cases hclaimed

/-- The generation of a job is the number of times it was claimed, and a job that does not
exist was never claimed. -/
theorem generation_eq_claimsOf {ops : List JobOp} (h : ∀ op ∈ ops, op.OfWorkers) :
    (∀ job ∈ (jobsReached P ops).jobs, job.leaseGeneration = claimsOf P job.jobId {} ops) ∧
      ∀ id, (∀ job ∈ (jobsReached P ops).jobs, job.jobId ≠ id) → claimsOf P id {} ops = 0 := by
  induction ops using List.reverseRecOn with
  | nil =>
    refine ⟨?_, fun _ _ => rfl⟩
    intro job hjob
    cases hjob
  | append_singleton ops op ih =>
    have hworkers : ∀ op ∈ ops, op.OfWorkers := fun op hop => h op (List.mem_append_left _ hop)
    have hlast : op.OfWorkers := h op (List.mem_append_right _ (List.mem_singleton_self op))
    have hfenced := @fenced_jobsReached P ops hworkers
    obtain ⟨hcounts, hnever⟩ := ih hworkers
    have hreached : jobsReached P (ops ++ [op]) = Product.jobStep P (jobsReached P ops) op :=
      runFrom_concat ..
    have hclaims : ∀ id, claimsOf P id {} (ops ++ [op]) = claimsOf P id {} ops +
        if op.claimed? (jobsReached P ops) = some id then 1 else 0 :=
      fun id => claimsOf_concat id {} ops op
    refine ⟨?_, ?_⟩
    · intro job' hjob'
      rw [hreached] at hjob'
      rw [hclaims]
      rcases generation_jobStep hfenced hlast hjob' with
        ⟨hfresh, hzero⟩ | ⟨job, hjob, hid, hgeneration⟩
      · have hnot : op.claimed? (jobsReached P ops) ≠ some job'.jobId := by
          intro hclaimed
          obtain ⟨job, hjob, hid, -⟩ := queued_of_claimed hclaimed
          exact hfresh job hjob hid
        rw [hzero, hnever job'.jobId hfresh, if_neg hnot]
      · rw [hgeneration, hcounts job hjob, hid]
    · intro id hmissing
      have hbefore : ∀ job ∈ (jobsReached P ops).jobs, job.jobId ≠ id := by
        intro job hjob hid
        have hmoves := @movesTo_jobStep P _ op hfenced.sound (queueSafe_of_ofWorkers hlast _)
        obtain ⟨later, hlater, hlaterId, -⟩ := hmoves.kept job hjob
        rw [← hreached] at hlater
        exact hmissing later hlater (hlaterId.trans hid)
      rw [hclaims, hnever id hbefore, if_neg]
      intro hclaimed
      obtain ⟨job, hjob, hid, -⟩ := queued_of_claimed hclaimed
      exact hbefore job hjob hid

/-- The leases fence the workers in the state that a run reaches: the tables agree, a process
without its lease is refused, and a job that must not be repeated was claimed at most once. -/
structure LeasesFence (P : Platform) (ops : List JobOp) : Prop where
  fenced : Fenced (jobsReached P ops)
  refused : ∀ lease, Lost (jobsReached P ops) lease → Refused P (jobsReached P ops) lease
  manualOnce : ∀ job ∈ (jobsReached P ops).jobs, job.retrySafety = .manualOnly →
    claimsOf P job.jobId {} ops ≤ 1

/-- Leases fence the workers in every state that they reach. -/
theorem leases_fence {ops : List JobOp} (h : ∀ op ∈ ops, op.OfWorkers) : LeasesFence P ops := by
  have hfenced := @fenced_jobsReached P ops h
  refine ⟨hfenced, fun lease hlost => hlost.refused, ?_⟩
  intro job hjob hmanual
  rw [← (generation_eq_claimsOf h).1 job hjob]
  exact (hfenced.manual job hjob hmanual).1

end Runs

/-! ## An execution that differs from the recorded one -/

namespace Sample

/-- A platform that tells texts apart. -/
def tellingPlatform : Platform := { platform with sha256 := fun text => String.ofList text }

/-- A job that comes with its request. -/
def requested : Enqueue :=
  { job with requestValue := some [], requestDigest := some digest }

/-- The lease of the process that claims the job. -/
def held : JobLease := ⟨"lease", "job", 1, "worker", "token"⟩

def success : TypedExecution := ⟨⟨.succeeded, some 0, [], none⟩, some [], by decide⟩

def failure : TypedExecution := ⟨⟨.failed, some 1, [], none⟩, some [], by decide⟩

def resolved : List JobOp :=
  [.surroundings withdrawal, .enqueue requested, claim,
    .resolve held success "2026-01-01T00:01:30Z" "execution"]

/-- The lease of the sample run is released and the success is recorded. -/
theorem resolved_states :
    ((jobsReached tellingPlatform resolved).leases.all fun row => row.state != .active) = true ∧
      (jobsReached tellingPlatform resolved).resolutions.map (fun row =>
        (row.jobId == held.jobId, row.executionDigest == executionDigest tellingPlatform failure)) =
          [(true, false)] := by
  decide +kernel

end Sample

/-- A process without its lease that reports another execution than the recorded one is
answered neither that its lease is lost nor with a digest. -/
theorem conflicting_replay_refused :
    ¬ ∀ lease, Lost (jobsReached Sample.tellingPlatform Sample.resolved) lease →
      ∀ result now id,
        (∃ message, (jobsReached Sample.tellingPlatform Sample.resolved).resolve
          Sample.tellingPlatform lease result now id = .error (.leaseLost message)) ∨
        (jobsReached Sample.tellingPlatform Sample.resolved).resolve
          Sample.tellingPlatform lease result now id =
            .ok (jobsReached Sample.tellingPlatform Sample.resolved,
              executionDigest Sample.tellingPlatform result) := by
  intro h
  obtain ⟨hreleased, hrecorded⟩ := Sample.resolved_states
  have hlost : Lost (jobsReached Sample.tellingPlatform Sample.resolved) Sample.held := by
    intro row hrow _
    simpa using List.all_eq_true.mp hreleased row hrow
  obtain ⟨previous, hresolutions, hpair⟩ := List.map_eq_singleton_iff.mp hrecorded
  obtain ⟨hjob, hdigest⟩ := Prod.mk.inj hpair
  have hrefused := hlost.resolve (P := Sample.tellingPlatform) Sample.failure "" ""
  have hfind : [previous].find? (·.jobId == Sample.held.jobId) = some previous :=
    List.find?_cons_of_pos hjob
  rw [hresolutions, hfind] at hrefused
  simp only [if_neg (beq_eq_false_iff_ne.mp hdigest)] at hrefused
  rcases h Sample.held hlost Sample.failure "" "" with ⟨message, hanswer⟩ | hanswer
  · rw [hanswer] at hrefused
    cases hrefused
  · rw [hanswer] at hrefused
    cases hrefused

/-- The workers of the sample run are fenced. -/
theorem leases_fence_of_resolved : LeasesFence Sample.tellingPlatform Sample.resolved := by
  refine leases_fence ?_
  intro op hop
  simp only [Sample.resolved, Sample.claim, List.mem_cons, List.not_mem_nil, or_false] at hop
  rcases hop with rfl | rfl | rfl | rfl <;> trivial

end ResearchKernel.Product
