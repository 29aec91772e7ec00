import ResearchKernel.Product.Earned
import ResearchKernel.Product.ReviewTasks

/-!
# Whose reviews are recorded

A review is checked against the task as it was when it was read, and recorded later. When the
task still has the assignee it had then, the review that is recorded is that of the assignee.
Once a task has a review, or is invalidated, it stays as it is.
-/

namespace ResearchKernel.Product.Reviews

open Foundation
open Sessions (IdentitiesMove IdentityRow UniqueIdentities identitiesMove_step)
open Uploads (ArtifactRef)

/-! ## What is to hold -/

/-- The signature of a review has been found valid for its canonical text. -/
def Signed (host : ReviewHost) (review : JsonObject) : Prop :=
  ∃ signedPayload authority, canonicalReviewPayload host review = some signedPayload ∧
    host.verify (reviewText host (reviewObject review "signature") "algorithm")
      (reviewText host (reviewObject review "signature") "key_id")
      (reviewText host review "verifier_identity_id") signedPayload
      (reviewText host (reviewObject review "signature") "value") = .ok authority ∧
    authority.signatureValid = true

/-- An artifact is a signed review by an identity. -/
structure ReviewOf (host : ReviewHost) (artifact : ArtifactRef) (review : JsonObject)
    (identityId subjectId : Id) : Prop where
  read : readReview host artifact = .ok review
  verifier : reviewText host review "verifier_identity_id" = identityId
  subject : reviewText host review "reviewer_subject_id" = subjectId
  signed : Signed host review

/-- An identity has claimed a task in the course of a history. -/
def ClaimedBy (host : ReviewHost) (history : List ReviewOp) (taskId identityId : Id) : Prop :=
  Performs (step host) {} history fun desk op => ∃ now desk',
    op = .claim taskId identityId now ∧
      desk.claim host.sessions taskId identityId now = .ok (desk', .taken)

/-- The artifact of a task is a review that its assignee has signed, who is none of the authors,
and has claimed the task; it was submitted before the task expired. -/
structure OwnReview (host : ReviewHost) (history : List ReviewOp) (desk : ReviewDesk)
    (row : ReviewTaskRow) : Prop where
  signed : ∃ artifact review, ∃ identity ∈ desk.accounts.identities,
    row.signedArtifact = some artifact ∧ identity.identityId = row.assigneeIdentityId ∧
      ReviewOf host artifact review row.assigneeIdentityId identity.subjectId ∧
      identity.subjectId ∉ row.authorSubjectIds
  claimed : ClaimedBy host history row.reviewTaskId row.assigneeIdentityId
  inTime : ∃ submittedAt submitted expires, row.submittedAt = some submittedAt ∧
    host.sessions.parseUtc submittedAt = some submitted ∧
    host.sessions.parseUtc row.expiresAt = some expires ∧ submitted < expires

/-- Every submitted task has a review of its own assignee. -/
def OwnReviews (host : ReviewHost) (history : List ReviewOp) : Prop :=
  ∀ row ∈ (reached host history).tasks, row.status = .submitted →
    OwnReview host history (reached host history) row

/-- A task that was submitted or invalidated at some time is later what it was then. -/
def SettledStay (host : ReviewHost) (history : List ReviewOp) : Prop :=
  ∀ earlier later, history = earlier ++ later → ∀ row ∈ (reached host earlier).tasks,
    row.status.isSettled = true → row ∈ (reached host history).tasks ∧
      ∀ row' ∈ (reached host history).tasks, row'.reviewTaskId = row.reviewTaskId → row' = row

/-- An artifact that is to be recorded was checked against a task of the given assignee. -/
def PendingReview.isFor (identityId : Id) : PendingReview → Bool
  | .create _ => true
  | .record task _ _ => task.assigneeIdentityId == identityId

/-- When a call records an artifact, the task has the assignee that the artifact was checked
against. -/
def RecordsForSame (desk : ReviewDesk) (op : ReviewOp) : Prop :=
  ∀ index task artifact submittedAt, op = .finish index →
    desk.pending[index]? = some (.record task artifact submittedAt) →
    ∀ row ∈ desk.tasks, row.reviewTaskId = task.reviewTaskId → row.status = .claimed →
      row.assigneeIdentityId = task.assigneeIdentityId

/-! ## What a step does -/

/-- An identity has a row, and its subject is none of the given ones. -/
def Independent (desk : ReviewDesk) (identityId : Id) (authors : List Id) : Prop :=
  ∃ identity ∈ desk.accounts.identities, identity.identityId = identityId ∧
    identity.subjectId ∉ authors

/-- The ways in which a step changes a task. -/
inductive RowChange (host : ReviewHost) (desk : ReviewDesk) (op : ReviewOp) (row : ReviewTaskRow) :
    ReviewTaskRow → Prop
  | ended (status : ReviewTaskStatus) (hstatus : status = .expired ∨ status = .invalidated) :
      RowChange host desk op row { row with status := status }
  | claimed (now : Stamp) (desk' : ReviewDesk)
      (hop : op = .claim row.reviewTaskId row.assigneeIdentityId now)
      (hclaim : desk.claim host.sessions row.reviewTaskId row.assigneeIdentityId now =
        .ok (desk', .taken)) :
      RowChange host desk op row { row with status := .claimed, claimedAt := some now }
  | reassigned (assigneeIdentityId : Id) (expiresAt : Stamp)
      (hindependent : Independent desk assigneeIdentityId row.authorSubjectIds) :
      RowChange host desk op row
        { row with
          assigneeIdentityId := assigneeIdentityId
          status := .reassigned
          independenceStatus := .pending
          expiresAt := expiresAt
          claimedAt := none }
  | submitted (index : ℕ) (task : ReviewTask) (artifact : ArtifactRef) (submittedAt : Stamp)
      (submitted expires : ℤ) (hop : op = .finish index)
      (hpending : desk.pending[index]? = some (.record task artifact submittedAt))
      (hid : row.reviewTaskId = task.reviewTaskId) (hstatus : row.status = .claimed)
      (hsubmitted : host.sessions.parseUtc submittedAt = some submitted)
      (hexpires : host.sessions.parseUtc row.expiresAt = some expires)
      (hbefore : submitted < expires) :
      RowChange host desk op row
        { row with
          status := .submitted
          independenceStatus := .verified
          signedArtifact := some artifact
          submittedAt := some submittedAt }

/-- What a step does to the table of tasks: nothing, it inserts a row, or it changes rows that
are not settled. -/
inductive TasksMove (host : ReviewHost) (desk : ReviewDesk) (op : ReviewOp) :
    List ReviewTaskRow → Prop
  | same : TasksMove host desk op desk.tasks
  | inserted (row : ReviewTaskRow) (hpending : .create row ∈ desk.pending)
      (hfresh : ∀ old ∈ desk.tasks, old.reviewTaskId ≠ row.reviewTaskId) :
      TasksMove host desk op (desk.tasks ++ [row])
  | updated (test : ReviewTaskRow → Bool) (change : ReviewTaskRow → ReviewTaskRow)
      (hid : ∀ row, (change row).reviewTaskId = row.reviewTaskId)
      (hrow : ∀ row ∈ desk.tasks, test row = true →
        row.status.isSettled = false ∧ RowChange host desk op row (change row)) :
      TasksMove host desk op (updateWhere test change desk.tasks)

/-- What holds of a call whose checks have passed. -/
def Prepared (host : ReviewHost) (desk : ReviewDesk) : PendingReview → Prop
  | .create row => row.status = .open_ ∧
      Independent desk row.assigneeIdentityId row.authorSubjectIds
  | .record task artifact _ => ∃ review, ∃ identity ∈ desk.accounts.identities,
      identity.identityId = task.assigneeIdentityId ∧
        ReviewOf host artifact review task.assigneeIdentityId identity.subjectId

/-- A task that may be claimed is not settled. -/
theorem ReviewTaskStatus.not_settled {status : ReviewTaskStatus}
    (h : status.isClaimable = true) : status.isSettled = false := by
  cases status with
  | open_ | reassigned => rfl
  | claimed | submitted | expired | invalidated => cases h

section Steps

variable {host : ReviewHost} {desk desk' : ReviewDesk}

variable {taskId : Id} {task : ReviewTask}

theorem getTask_spec (h : desk.getTask taskId = .ok task) :
    task.toReviewTaskRow ∈ desk.tasks ∧ task.reviewTaskId = taskId ∧
      ∃ identity ∈ desk.accounts.identities, identity.identityId = task.assigneeIdentityId ∧
        identity.subjectId = task.assigneeSubjectId := by
  obtain ⟨row, hrow, h⟩ := bind_eq_ok.mp h
  obtain ⟨identity, hidentity, h⟩ := bind_eq_ok.mp h
  cases pure_eq_ok.mp h
  have hfound := orReject_eq_ok.mp hrow
  have hread := orReject_eq_ok.mp hidentity
  unfold Sessions.identityRow? at hread
  have hid := List.find?_some hfound
  have hassignee := List.find?_some hread
  exact ⟨List.mem_of_find?_eq_some hfound, beq_iff_eq.mp hid, identity,
    List.mem_of_find?_eq_some hread, beq_iff_eq.mp hassignee, rfl⟩

variable {row : ReviewTaskRow}

theorem eq_of_getTask (hids : (desk.tasks.map (·.reviewTaskId)).Nodup)
    (h : desk.getTask taskId = .ok task) (hrow : row ∈ desk.tasks)
    (hid : row.reviewTaskId = taskId) : row = task.toReviewTaskRow := by
  obtain ⟨hmem, htask, -⟩ := getTask_spec h
  exact List.inj_on_of_nodup_map hids hrow hmem (hid.trans htask.symm)

variable {identityId : Id} {reviewType : ReviewType} {identity : Sessions.ProductIdentity}

/-- A reviewer has a row. -/
theorem reviewer_spec (h : desk.reviewer identityId reviewType = .ok identity) :
    identity.identityId = identityId ∧
      ∃ row ∈ desk.accounts.identities, row.toProductIdentity = identity := by
  obtain ⟨read, hread, h⟩ := bind_eq_ok.mp h
  obtain ⟨_, -, h⟩ := bind_eq_ok.mp h
  cases pure_eq_ok.mp h
  have hread := eq_ok_of_toOption (orReject_eq_ok.mp hread)
  unfold Sessions.getIdentity at hread
  cases hfound : Sessions.identityRow? identityId desk.accounts with
  | none =>
    rw [hfound] at hread
    cases hread
  | some row =>
    rw [hfound] at hread
    have heq : row.toProductIdentity = identity := by
      injection hread
    unfold Sessions.identityRow? at hfound
    have hid := List.find?_some hfound
    have hidentity : identity.identityId = row.identityId := by
      rw [← heq]
    exact ⟨hidentity.trans (beq_iff_eq.mp hid), row, List.mem_of_find?_eq_some hfound, heq⟩

/-- A reviewer who is none of the authors is independent of them. -/
theorem independent_of_reviewer {authors : List Id}
    (h : desk.reviewer identityId reviewType = .ok identity)
    (hauthors : authors.contains identity.subjectId = false) :
    Independent desk identityId authors := by
  obtain ⟨hid, row, hrow, rfl⟩ := reviewer_spec h
  refine ⟨row, hrow, hid, fun hmem => ?_⟩
  rw [List.contains_iff_mem.mpr hmem] at hauthors
  cases hauthors

/-- The only task that satisfies a test is rewritten. -/
theorem updateOne_spec {test : ReviewTaskRow → Bool} {change : ReviewTaskRow → ReviewTaskRow}
    {error : ReviewError} (h : desk.updateOne test change error = .ok desk') :
    desk' = desk.updateTasks test change := by
  obtain ⟨_, -, h⟩ := bind_eq_ok.mp h
  exact (pure_eq_ok.mp h).symm

/-- An attempt to claim a task changes the tasks only. -/
theorem claim_spec {now : Stamp} {outcome : Claiming}
    (hids : (desk.tasks.map (·.reviewTaskId)).Nodup)
    (h : desk.claim host.sessions taskId identityId now = .ok (desk', outcome)) :
    TasksMove host desk (.claim taskId identityId now) desk'.tasks ∧
      desk'.accounts = desk.accounts ∧ desk'.pending = desk.pending := by
  have hcall := h
  obtain ⟨task, htask, h⟩ := bind_eq_ok.mp h
  obtain ⟨identity, hidentity, h⟩ := bind_eq_ok.mp h
  obtain ⟨_, hassigned, h⟩ := bind_eq_ok.mp h
  obtain ⟨_, -, h⟩ := bind_eq_ok.mp h
  obtain ⟨moment, -, h⟩ := bind_eq_ok.mp h
  obtain ⟨expires, -, h⟩ := bind_eq_ok.mp h
  have hassignee : task.assigneeIdentityId = identityId := by
    have hsame := rejectIf_eq_ok.mp hassigned
    rw [bne_eq_false_iff_eq] at hsame
    exact hsame.trans (reviewer_spec hidentity).1
  rcases ite_eq_ok.mp h with ⟨-, h⟩ | ⟨-, h⟩
  · cases pure_eq_ok.mp h
    refine ⟨.updated _ _ (fun _ => rfl) ?_, rfl, rfl⟩
    intro row _ htest
    have hclaimable := (Bool.and_eq_true_iff.mp htest).2
    exact ⟨ReviewTaskStatus.not_settled hclaimable, .ended .expired (Or.inl rfl)⟩
  · rcases ite_eq_ok.mp h with ⟨-, h⟩ | ⟨-, h⟩
    · cases pure_eq_ok.mp h
      exact ⟨.same, rfl, rfl⟩
    · obtain ⟨_, -, h⟩ := bind_eq_ok.mp h
      obtain ⟨claimed, hclaimed, h⟩ := bind_eq_ok.mp h
      cases pure_eq_ok.mp h
      rw [updateOne_spec hclaimed]
      refine ⟨.updated _ _ (fun _ => rfl) ?_, rfl, rfl⟩
      intro row hrow htest
      simp only [Bool.and_eq_true, beq_iff_eq] at htest
      obtain ⟨⟨hid, hclaimable⟩, -⟩ := htest
      have hrowAssignee : row.assigneeIdentityId = identityId := by
        rw [eq_of_getTask hids htask hrow hid]
        exact hassignee
      rw [← hid, ← hrowAssignee] at hcall
      rw [← hid, ← hrowAssignee]
      exact ⟨ReviewTaskStatus.not_settled hclaimable, .claimed now _ rfl hcall⟩

variable {assigneeIdentityId : Id} {expiresAt : Stamp}

/-- Giving a task to another reviewer changes the tasks only. -/
theorem reassign_spec {reassignedAt : Stamp} {op : ReviewOp}
    (hids : (desk.tasks.map (·.reviewTaskId)).Nodup)
    (h : desk.reassign host.sessions taskId assigneeIdentityId reassignedAt expiresAt = .ok desk') :
    TasksMove host desk op desk'.tasks ∧ desk'.accounts = desk.accounts ∧
      desk'.pending = desk.pending := by
  obtain ⟨expires, -, h⟩ := bind_eq_ok.mp h
  obtain ⟨moment, -, h⟩ := bind_eq_ok.mp h
  obtain ⟨_, -, h⟩ := bind_eq_ok.mp h
  obtain ⟨task, htask, h⟩ := bind_eq_ok.mp h
  obtain ⟨assignee, hassignee, h⟩ := bind_eq_ok.mp h
  obtain ⟨_, -, h⟩ := bind_eq_ok.mp h
  obtain ⟨_, hauthors, h⟩ := bind_eq_ok.mp h
  obtain ⟨_, -, h⟩ := bind_eq_ok.mp h
  rw [updateOne_spec h]
  refine ⟨.updated _ _ (fun _ => rfl) ?_, rfl, rfl⟩
  intro row hrow htest
  simp only [Bool.and_eq_true, beq_iff_eq, Bool.not_eq_true'] at htest
  obtain ⟨⟨hid, hopen⟩, -⟩ := htest
  refine ⟨hopen, .reassigned assigneeIdentityId expiresAt ?_⟩
  rw [eq_of_getTask hids htask hrow hid]
  exact independent_of_reviewer hassignee (rejectIf_eq_ok.mp hauthors)

/-- Recording an artifact for a task that is not submitted submits it. -/
theorem recordVerifiedArtifact_spec {index : ℕ} {task : ReviewTask} {artifact : ArtifactRef}
    {submittedAt : Stamp} {rest : ReviewDesk} (hrest : rest.tasks = desk.tasks)
    (hids : (desk.tasks.map (·.reviewTaskId)).Nodup)
    (hpending : desk.pending[index]? = some (.record task artifact submittedAt))
    (h : rest.recordVerifiedArtifact host.sessions task.reviewTaskId artifact submittedAt =
      .ok desk') :
    TasksMove host desk (.finish index) desk'.tasks ∧ desk'.accounts = rest.accounts ∧
      desk'.pending = rest.pending := by
  obtain ⟨read, hread, h⟩ := bind_eq_ok.mp h
  rcases ite_eq_ok.mp h with ⟨-, h⟩ | ⟨-, h⟩
  · obtain ⟨_, -, h⟩ := bind_eq_ok.mp h
    cases pure_eq_ok.mp h
    rw [hrest]
    exact ⟨.same, rfl, rfl⟩
  · obtain ⟨_, -, h⟩ := bind_eq_ok.mp h
    obtain ⟨submitted, hsubmitted, h⟩ := bind_eq_ok.mp h
    obtain ⟨expires, hexpires, h⟩ := bind_eq_ok.mp h
    obtain ⟨_, hbefore, h⟩ := bind_eq_ok.mp h
    rw [updateOne_spec h]
    have hbefore : submitted < expires := by
      have hnot := rejectIf_eq_ok.mp hbefore
      rw [decide_eq_false_iff_not] at hnot
      omega
    unfold ReviewDesk.updateTasks
    rw [hrest]
    refine ⟨.updated _ _ (fun _ => rfl) ?_, rfl, rfl⟩
    intro row hrow htest
    simp only [Bool.and_eq_true, beq_iff_eq] at htest
    obtain ⟨⟨hid, hclaimed⟩, -⟩ := htest
    have heq : row = read.toReviewTaskRow := by
      rw [← hrest] at hrow hids
      exact eq_of_getTask hids hread hrow hid
    refine ⟨?_, .submitted index task artifact submittedAt submitted expires rfl hpending hid
      hclaimed (orReject_eq_ok.mp hsubmitted) ?_ hbefore⟩
    · rw [hclaimed]
      rfl
    · rw [heq]
      exact orReject_eq_ok.mp hexpires

theorem insertTask_spec {rest : ReviewDesk} (h : rest.insertTask row = .ok desk') :
    (∀ old ∈ rest.tasks, old.reviewTaskId ≠ row.reviewTaskId) ∧
      desk' = { rest with tasks := rest.tasks ++ [row] } := by
  obtain ⟨_, -, h⟩ := bind_eq_ok.mp h
  obtain ⟨tasks, htasks, h⟩ := bind_eq_ok.mp h
  cases pure_eq_ok.mp h
  obtain ⟨hfresh, rfl⟩ := insertRow_eq_some.mp (orReject_eq_ok.mp htasks)
  refine ⟨fun old hold hsame => ?_, rfl⟩
  have hclash := hfresh old hold
  rw [hsame, beq_self_eq_true] at hclash
  cases hclash

/-- The row that `create` is going to insert is open, and its assignee independent. -/
theorem prepareCreate_spec {binding : ReviewBinding} {authorSubjectIds : List Id}
    {createdAt : Stamp}
    (h : desk.prepareCreate host.sessions taskId reviewType binding authorSubjectIds
      assigneeIdentityId createdAt expiresAt = .ok row) :
    Prepared host desk (.create row) := by
  obtain ⟨_, -, h⟩ := bind_eq_ok.mp h
  obtain ⟨_, -, h⟩ := bind_eq_ok.mp h
  obtain ⟨authors, -, h⟩ := bind_eq_ok.mp h
  obtain ⟨assignee, hassignee, h⟩ := bind_eq_ok.mp h
  obtain ⟨_, hauthors, h⟩ := bind_eq_ok.mp h
  obtain ⟨expires, -, h⟩ := bind_eq_ok.mp h
  obtain ⟨created, -, h⟩ := bind_eq_ok.mp h
  obtain ⟨_, -, h⟩ := bind_eq_ok.mp h
  cases pure_eq_ok.mp h
  exact ⟨rfl, independent_of_reviewer hassignee (rejectIf_eq_ok.mp hauthors)⟩

/-- A review that has been checked names the assignee of the task and its subject. -/
theorem verifyTaskBinding_spec {review : JsonObject} {u : Unit}
    (h : verifyTaskBinding host task review = .ok u) :
    reviewText host review "verifier_identity_id" = task.assigneeIdentityId ∧
      reviewText host review "reviewer_subject_id" = task.assigneeSubjectId := by
  obtain ⟨_, -, h⟩ := bind_eq_ok.mp h
  obtain ⟨_, -, h⟩ := bind_eq_ok.mp h
  obtain ⟨_, -, h⟩ := bind_eq_ok.mp h
  obtain ⟨_, hverifier, h⟩ := bind_eq_ok.mp h
  obtain ⟨_, hsubject, -⟩ := bind_eq_ok.mp h
  exact ⟨bne_eq_false_iff_eq.mp (rejectIf_eq_ok.mp hverifier),
    bne_eq_false_iff_eq.mp (rejectIf_eq_ok.mp hsubject)⟩

/-- A signature that has been checked is valid. -/
theorem verifySignature_spec {review : JsonObject} {u : Unit}
    (h : verifySignature host review = .ok u) : Signed host review := by
  obtain ⟨signedPayload, hpayload, h⟩ := bind_eq_ok.mp h
  obtain ⟨_, -, h⟩ := bind_eq_ok.mp h
  obtain ⟨authority, hauthority, h⟩ := bind_eq_ok.mp h
  obtain ⟨_, hvalid, -⟩ := bind_eq_ok.mp h
  have hvalid := rejectIf_eq_ok.mp hvalid
  rw [Bool.not_eq_false'] at hvalid
  exact ⟨signedPayload, authority, orReject_eq_ok.mp hpayload, hauthority, hvalid⟩

/-- An artifact that has been checked is a review by the assignee that the task had. -/
theorem checkArtifact_spec {artifact : ArtifactRef} {submittedAt : Stamp}
    (h : checkArtifact host desk taskId artifact = .ok task) :
    Prepared host desk (.record task artifact submittedAt) := by
  obtain ⟨review, hreview, h⟩ := bind_eq_ok.mp h
  obtain ⟨read, hread, h⟩ := bind_eq_ok.mp h
  obtain ⟨_, hbinding, h⟩ := bind_eq_ok.mp h
  obtain ⟨_, hsignature, h⟩ := bind_eq_ok.mp h
  cases pure_eq_ok.mp h
  obtain ⟨-, -, identity, hidentity, hid, hsubject⟩ := getTask_spec hread
  obtain ⟨hverifier, hreviewer⟩ := verifyTaskBinding_spec hbinding
  exact ⟨review, identity, hidentity, hid, hreview, hverifier, hreviewer.trans hsubject.symm,
    verifySignature_spec hsignature⟩

/-- A call that is noted has passed its checks. -/
theorem mem_pending_later {call : Except ReviewError PendingReview} {pending : PendingReview}
    (h : pending ∈ (desk.later call).pending) : pending ∈ desk.pending ∨ call = .ok pending := by
  unfold ReviewDesk.later at h
  cases call with
  | error error => exact Or.inl h
  | ok noted =>
    rcases List.mem_append.mp h with h | h
    · exact Or.inl h
    · rw [List.mem_singleton.mp h]
      exact Or.inr rfl

/-- Noting a call leaves the tables. -/
theorem later_tables (call : Except ReviewError PendingReview) :
    (desk.later call).tasks = desk.tasks ∧ (desk.later call).accounts = desk.accounts := by
  unfold ReviewDesk.later
  cases call <;> exact ⟨rfl, rfl⟩

/-- What one step does. -/
structure Moves (host : ReviewHost) (desk : ReviewDesk) (op : ReviewOp) (desk' : ReviewDesk) :
    Prop where
  tasks : TasksMove host desk op desk'.tasks
  identities : IdentitiesMove desk.accounts.identities desk'.accounts.identities
  pending : ∀ pending ∈ desk'.pending, pending ∈ desk.pending ∨ Prepared host desk pending

/-- A step that leaves the identities and begins no call. -/
theorem Moves.of_same {op : ReviewOp} (htasks : TasksMove host desk op desk'.tasks)
    (haccounts : desk'.accounts = desk.accounts) (hpending : ∀ p ∈ desk'.pending, p ∈ desk.pending) :
    Moves host desk op desk' where
  tasks := htasks
  identities := by
    rw [haccounts]
    exact .same
  pending := fun p hp => Or.inl (hpending p hp)

/-- A call that carries out its transaction moves the desk. -/
theorem moves_finish (hids : (desk.tasks.map (·.reviewTaskId)).Nodup) (index : ℕ) :
    Moves host desk (.finish index) (desk.finish host.sessions index) := by
  cases hfound : desk.pending[index]? with
  | none =>
    have hsame : desk.finish host.sessions index = desk := by
      simp only [ReviewDesk.finish, hfound]
    rw [hsame]
    exact .of_same .same rfl fun _ h => h
  | some pending =>
    let rest : ReviewDesk := { desk with pending := desk.pending.eraseIdx index }
    have hfinish : desk.finish host.sessions index =
        ((pending.run host.sessions rest).toOption).getD rest := by
      simp only [ReviewDesk.finish, hfound]
      rfl
    have hrest : ∀ p ∈ rest.pending, p ∈ desk.pending := fun p hp => List.mem_of_mem_eraseIdx hp
    rw [hfinish]
    cases hrun : pending.run host.sessions rest with
    | error error => exact .of_same .same rfl hrest
    | ok desk' =>
      show Moves host desk (.finish index) desk'
      cases pending with
      | create row =>
        obtain ⟨hfresh, rfl⟩ := insertTask_spec hrun
        exact .of_same (.inserted row (List.mem_of_getElem? hfound) hfresh) rfl hrest
      | record task artifact submittedAt =>
        obtain ⟨htasks, haccounts, hpending⟩ :=
          @recordVerifiedArtifact_spec host desk desk' index task artifact submittedAt rest rfl
            hids hfound hrun
        refine .of_same htasks haccounts ?_
        rw [hpending]
        exact hrest

/-- Every step moves the desk. -/
theorem moves_step (hids : (desk.tasks.map (·.reviewTaskId)).Nodup) (op : ReviewOp) :
    Moves host desk op (step host desk op) := by
  cases op with
  | account op => exact ⟨.same, identitiesMove_step op, fun p hp => Or.inl hp⟩
  | create taskId reviewType binding authors assigneeIdentityId createdAt expiresAt =>
    refine ⟨?_, ?_, fun p hp => ?_⟩
    · show TasksMove _ _ _ (desk.later _).tasks
      rw [(later_tables _).1]
      exact .same
    · show IdentitiesMove _ (desk.later _).accounts.identities
      rw [(later_tables _).2]
      exact .same
    · rcases mem_pending_later hp with hp | hp
      · exact Or.inl hp
      · obtain ⟨row, hrow, rfl⟩ := map_eq_ok.mp hp
        exact Or.inr (prepareCreate_spec hrow)
  | claim taskId identityId now =>
    show Moves _ _ _ (((desk.claim _ _ _ _).toOption.map Prod.fst).getD desk)
    cases hclaim : desk.claim host.sessions taskId identityId now with
    | error error => exact .of_same .same rfl fun _ h => h
    | ok result =>
      obtain ⟨desk', outcome⟩ := result
      obtain ⟨htasks, haccounts, hpending⟩ := claim_spec hids hclaim
      refine .of_same htasks haccounts ?_
      show ∀ p ∈ desk'.pending, _
      rw [hpending]
      exact fun _ h => h
  | reassign taskId assigneeIdentityId reassignedAt expiresAt =>
    show Moves _ _ _ ((desk.reassign _ _ _ _ _).toOption.getD desk)
    cases hreassign : desk.reassign host.sessions taskId assigneeIdentityId reassignedAt
        expiresAt with
    | error error => exact .of_same .same rfl fun _ h => h
    | ok desk' =>
      obtain ⟨htasks, haccounts, hpending⟩ := reassign_spec hids hreassign
      refine .of_same htasks haccounts ?_
      show ∀ p ∈ desk'.pending, _
      rw [hpending]
      exact fun _ h => h
  | importArtifact taskId artifact submittedAt =>
    refine ⟨?_, ?_, fun p hp => ?_⟩
    · show TasksMove _ _ _ (desk.later _).tasks
      rw [(later_tables _).1]
      exact .same
    · show IdentitiesMove _ (desk.later _).accounts.identities
      rw [(later_tables _).2]
      exact .same
    · rcases mem_pending_later hp with hp | hp
      · exact Or.inl hp
      · obtain ⟨task, htask, rfl⟩ := map_eq_ok.mp hp
        exact Or.inr (checkArtifact_spec htask)
  | finish index => exact moves_finish hids index
  | invalidate taskId =>
    refine .of_same (.updated _ _ (fun _ => rfl) ?_) rfl fun _ h => h
    intro row _ htest
    have hopen := (Bool.and_eq_true_iff.mp htest).2
    rw [Bool.not_eq_true'] at hopen
    exact ⟨hopen, .ended .invalidated (Or.inr rfl)⟩

end Steps

/-! ## Settled tasks stay -/

section Runs

variable {host : ReviewHost} {desk desk' : ReviewDesk} {history : List ReviewOp} {op : ReviewOp}
  {tasks : List ReviewTaskRow}

/-- Tasks keep identifiers of their own. -/
theorem TasksMove.ids (h : TasksMove host desk op tasks)
    (hids : (desk.tasks.map (·.reviewTaskId)).Nodup) : (tasks.map (·.reviewTaskId)).Nodup := by
  cases h with
  | same => exact hids
  | inserted row hpending hfresh =>
    rw [List.map_append]
    refine nodup_concat_of_fresh hids fun id hid => ?_
    obtain ⟨old, hold, rfl⟩ := List.mem_map.mp hid
    exact hfresh old hold
  | updated test change hid hrow => exact nodup_map_updateWhere hid hids

variable {row : ReviewTaskRow}

theorem TasksMove.settled (h : TasksMove host desk op tasks) (hmem : row ∈ desk.tasks)
    (hsettled : row.status.isSettled = true) : row ∈ tasks := by
  cases h with
  | same => exact hmem
  | inserted row hpending hfresh => exact List.mem_append_left _ hmem
  | updated test change hid hrow =>
    refine mem_updateWhere.mpr ⟨row, hmem, ?_⟩
    cases htest : test row with
    | false => rfl
    | true =>
      have hopen := (hrow row hmem htest).1
      rw [hsettled] at hopen
      cases hopen

/-- Every task has an identifier of its own after every history. -/
theorem ids_reached (host : ReviewHost) (history : List ReviewOp) :
    ((reached host history).tasks.map (·.reviewTaskId)).Nodup := by
  refine @runFrom_invariant _ _ (step host)
    (fun desk => (desk.tasks.map (·.reviewTaskId)).Nodup) _ ?_ ?_ history
  · exact List.nodup_nil
  · exact fun desk op hids => (moves_step hids op).tasks.ids hids

/-- Settled tasks stay as they are along a history. -/
theorem settled_reached (host : ReviewHost) (earlier later : List ReviewOp)
    (hmem : row ∈ (reached host earlier).tasks) (hsettled : row.status.isSettled = true) :
    row ∈ (reached host (earlier ++ later)).tasks :=
  runFrom_stays (I := fun desk : ReviewDesk => row ∈ desk.tasks) hmem (fun history op ih =>
    (moves_step (ids_reached host history) op).tasks.settled ih hsettled) later

theorem settledStay (host : ReviewHost) (history : List ReviewOp) : SettledStay host history := by
  rintro earlier later rfl row hrow hsettled
  have hmem := settled_reached host earlier later hrow hsettled
  exact ⟨hmem, fun row' hrow' hid =>
    List.inj_on_of_nodup_map (ids_reached host _) hrow' hmem hid⟩

/-! ## Reviews are the assignee's own -/

theorem Independent.later (h : IdentitiesMove desk.accounts.identities desk'.accounts.identities)
    {identityId : Id} {authors : List Id} (hindependent : Independent desk identityId authors) :
    Independent desk' identityId authors := by
  obtain ⟨identity, hidentity, hid, hauthors⟩ := hindependent
  obtain ⟨later, hlater, hsame, hsubject, -⟩ := h.kept identity hidentity
  refine ⟨later, hlater, hsame.trans hid, ?_⟩
  rwa [hsubject]

/-- What has been checked for a call stays true. -/
theorem Prepared.later (h : IdentitiesMove desk.accounts.identities desk'.accounts.identities)
    {pending : PendingReview} (hprepared : Prepared host desk pending) :
    Prepared host desk' pending := by
  cases pending with
  | create row => exact ⟨hprepared.1, hprepared.2.later h⟩
  | record task artifact submittedAt =>
    obtain ⟨review, identity, hidentity, hid, hreview⟩ := hprepared
    obtain ⟨later, hlater, hsame, hsubject, -⟩ := h.kept identity hidentity
    refine ⟨review, later, hlater, hsame.trans hid, ?_⟩
    rwa [hsubject]

/-- A review that is the assignee's own stays so. -/
theorem OwnReview.later (h : IdentitiesMove desk.accounts.identities desk'.accounts.identities)
    {row : ReviewTaskRow} (hown : OwnReview host history desk row) :
    OwnReview host (history ++ [op]) desk' row where
  signed := by
    obtain ⟨artifact, review, identity, hidentity, hartifact, hid, hreview, hauthors⟩ := hown.signed
    obtain ⟨later, hlater, hsame, hsubject, -⟩ := h.kept identity hidentity
    refine ⟨artifact, review, later, hlater, hartifact, hsame.trans hid, ?_, ?_⟩
    · rwa [hsubject]
    · rwa [hsubject]
  claimed := hown.claimed.left
  inTime := hown.inTime

/-- What holds along a history in which artifacts are recorded for the assignee they were
checked against. -/
structure Sound (host : ReviewHost) (history : List ReviewOp) (desk : ReviewDesk) : Prop where
  ids : (desk.tasks.map (·.reviewTaskId)).Nodup
  identities : UniqueIdentities desk.accounts.identities
  assigned : ∀ row ∈ desk.tasks, Independent desk row.assigneeIdentityId row.authorSubjectIds
  claimed : ∀ row ∈ desk.tasks, row.status = .claimed →
    ClaimedBy host history row.reviewTaskId row.assigneeIdentityId
  own : ∀ row ∈ desk.tasks, row.status = .submitted → OwnReview host history desk row
  prepared : ∀ pending ∈ desk.pending, Prepared host desk pending

/-- What a step keeps about a single task. -/
structure Trusted (host : ReviewHost) (history : List ReviewOp) (desk : ReviewDesk)
    (row : ReviewTaskRow) : Prop where
  assigned : Independent desk row.assigneeIdentityId row.authorSubjectIds
  claimed : row.status = .claimed → ClaimedBy host history row.reviewTaskId row.assigneeIdentityId
  own : row.status = .submitted → OwnReview host history desk row

theorem Sound.trusted (h : Sound host history desk) (hrow : row ∈ desk.tasks) :
    Trusted host history desk row :=
  ⟨h.assigned row hrow, h.claimed row hrow, h.own row hrow⟩

/-- A task that is not changed stays trusted. -/
theorem Trusted.later (h : IdentitiesMove desk.accounts.identities desk'.accounts.identities)
    {row : ReviewTaskRow} (htrusted : Trusted host history desk row) :
    Trusted host (history ++ [op]) desk' row :=
  ⟨htrusted.assigned.later h, fun hstatus => (htrusted.claimed hstatus).left,
    fun hstatus => (htrusted.own hstatus).later h⟩

/-- A task that a step changes stays trusted. The artifact that is recorded was checked against
the assignee that the task has, by the condition on the step. -/
theorem Trusted.change (h : Sound host history (reached host history))
    (hidentities : IdentitiesMove (reached host history).accounts.identities
      desk'.accounts.identities) (hop : RecordsForSame (reached host history) op)
    {row' : ReviewTaskRow} (hrow : row ∈ (reached host history).tasks)
    (hchange : RowChange host (reached host history) op row row') :
    Trusted host (history ++ [op]) desk' row' := by
  have htrusted := h.trusted hrow
  have hassigned := htrusted.assigned.later hidentities
  cases hchange with
  | ended status hstatus =>
    refine ⟨hassigned, fun hclaimed => ?_, fun hsubmitted => ?_⟩
    · rcases hstatus with rfl | rfl <;> cases hclaimed
    · rcases hstatus with rfl | rfl <;> cases hsubmitted
  | claimed now claimedDesk hclaimOp hclaim =>
    refine ⟨hassigned, fun _ => ?_, fun hsubmitted => by cases hsubmitted⟩
    exact Performs.last ⟨now, claimedDesk, hclaimOp, hclaim⟩
  | reassigned assigneeIdentityId expiresAt hindependent =>
    exact ⟨hindependent.later hidentities, fun hclaimed => (by cases hclaimed),
      fun hsubmitted => (by cases hsubmitted)⟩
  | submitted index task artifact submittedAt submitted expires hfinish hpending hid hstatus
      hsubmitted hexpires hbefore =>
    refine ⟨hassigned, fun hclaimed => (by cases hclaimed), fun _ => ?_⟩
    have hsame := hop index task artifact submittedAt hfinish hpending row hrow hid hstatus
    obtain ⟨review, identity, hidentity, hassignee, hreview⟩ :=
      h.prepared _ (List.mem_of_getElem? hpending)
    obtain ⟨other, hother, hotherId, hauthors⟩ := htrusted.assigned
    have heq : other = identity := List.inj_on_of_nodup_map h.identities.ids hother hidentity
      (hotherId.trans (hsame.trans hassignee.symm))
    subst heq
    obtain ⟨later, hlater, hlaterId, hsubject, -⟩ := hidentities.kept other hother
    refine ⟨⟨artifact, review, later, hlater, rfl, hlaterId.trans hotherId, ?_, ?_⟩,
      (htrusted.claimed hstatus).left,
      ⟨submittedAt, submitted, expires, rfl, hsubmitted, hexpires, hbefore⟩⟩
    · rw [hsubject]
      show ReviewOf host artifact review row.assigneeIdentityId other.subjectId
      rw [hsame]
      exact hreview
    · rwa [hsubject]

/-- A step keeps the desk sound. -/
theorem sound_step (h : Sound host history (reached host history))
    (hop : RecordsForSame (reached host history) op) :
    Sound host (history ++ [op]) (step host (reached host history) op) := by
  have hmoves : Moves host (reached host history) op (step host (reached host history) op) :=
    moves_step h.ids op
  have htrusted : ∀ row ∈ (step host (reached host history) op).tasks,
      Trusted host (history ++ [op]) (step host (reached host history) op) row := by
    intro row hrow
    have htasks := hmoves.tasks
    generalize htable : (step host (reached host history) op).tasks = table at hrow htasks
    cases htasks with
    | same => exact (h.trusted hrow).later hmoves.identities
    | inserted new hpending hfresh =>
      rcases List.mem_append.mp hrow with hold | hnew
      · exact (h.trusted hold).later hmoves.identities
      · rw [List.mem_singleton.mp hnew]
        obtain ⟨hopen, hindependent⟩ := h.prepared _ hpending
        exact ⟨hindependent.later hmoves.identities, fun hclaimed => by simp [hopen] at hclaimed,
          fun hsubmitted => by simp [hopen] at hsubmitted⟩
    | updated test change hid hchange =>
      obtain ⟨old, hold, hupdated⟩ := mem_updateWhere.mp hrow
      cases htest : test old with
      | false =>
        rw [htest] at hupdated
        have hsame : old = row := hupdated
        rw [← hsame]
        exact (h.trusted hold).later hmoves.identities
      | true =>
        rw [htest] at hupdated
        have hsame : change old = row := hupdated
        rw [← hsame]
        exact Trusted.change h hmoves.identities hop hold (hchange old hold htest).2
  exact
    { ids := hmoves.tasks.ids h.ids
      identities := hmoves.identities.unique h.identities
      assigned := fun row hrow => (htrusted row hrow).assigned
      claimed := fun row hrow => (htrusted row hrow).claimed
      own := fun row hrow => (htrusted row hrow).own
      prepared := by
        intro pending hpending
        rcases hmoves.pending pending hpending with hold | hprepared
        · exact (h.prepared pending hold).later hmoves.identities
        · exact hprepared.later hmoves.identities }

/-- The desk is sound after every history in which artifacts are recorded for the assignee they
were checked against. -/
theorem sound_reached (h : StepsSatisfy (step host) RecordsForSame {} history) :
    Sound host history (reached host history) := by
  induction history using List.reverseRecOn with
  | nil =>
    exact
      { ids := List.nodup_nil
        identities := ⟨List.nodup_nil, List.nodup_nil⟩
        assigned := fun row hrow => absurd hrow List.not_mem_nil
        claimed := fun row hrow => absurd hrow List.not_mem_nil
        own := fun row hrow => absurd hrow List.not_mem_nil
        prepared := fun pending hpending => absurd hpending List.not_mem_nil }
  | append_singleton history op ih =>
    show Sound host (history ++ [op]) (runFrom (step host) {} (history ++ [op]))
    rw [runFrom_concat]
    exact sound_step (ih h.left) h.last

/-- Where every artifact is recorded for the assignee it was checked against, a submitted task has
a review of its own assignee; and settled tasks stay as they are. -/
theorem reviews_are_own (h : StepsSatisfy (step host) RecordsForSame {} history) :
    OwnReviews host history ∧ SettledStay host history :=
  ⟨(sound_reached h).own, settledStay host history⟩

end Runs

namespace ReviewSample

/-- The moments of the sample. -/
def sessions : Sessions.Runtime where
  credentialDigest secret salt :=
    if secret = "sixteen characters" ∧ salt = List.replicate 16 0 then
      [1, 159, 67, 136, 151, 242, 59, 52, 35, 41, 35, 243, 158, 120, 223, 16, 17, 141, 156, 154,
        38, 78, 25, 207, 119, 19, 98, 75, 68, 129, 190, 200]
    else []
  parseUtc text :=
    if text = "2026-08-13T18:00:00Z" then some 1786644000
    else if text = "2026-08-13T18:10:00Z" then some 1786644600
    else if text = "2026-08-14T18:00:00Z" then some 1786730400
    else none

/-- When the task is created and claimed. -/
def created : Stamp := "2026-08-13T18:00:00Z"

/-- When the review is submitted. -/
def submitted : Stamp := "2026-08-13T18:10:00Z"

/-- When the task expires. -/
def expires : Stamp := "2026-08-14T18:00:00Z"

def taskId : Id := "76e89cf5-2d2e-461b-b03d-c4ed076fd6c1"

def binding : ReviewBinding where
  runId := "c73f6387-2ea0-487a-aebf-dd2b8dad8ec2"
  kernelRevision := 8
  contractVersion := 2
  targetId := "2999d48e-d478-4094-b212-d33e061a448a"
  targetDigest := "aaaaaaaaaaaaaaaaaaaaaaaaaaaaaaaaaaaaaaaaaaaaaaaaaaaaaaaaaaaaaaaa"

/-- A check of the review that has been passed. -/
def passed : Json :=
  .obj [("passed", .bool true), ("status", .str "HUMAN_ATTESTED"), ("conclusion", .str "checked"),
    ("evidence_refs", .arr [.str "evidence"])]

/-- The review by the first reviewer, without its signature. -/
def unsigned : JsonObject :=
  [("schema_version", .str "rk.product.review.v1"),
    ("review_id", .str "66e89cf5-2d2e-461b-b03d-c4ed076fd6c1"), ("review_type", .str "ATOMIC"),
    ("review_task_id", .str taskId), ("verifier_identity_id", .str "verifier:one"),
    ("reviewer_subject_id", .str "reviewer:one"), ("binding", .obj binding.reviewBinding),
    ("independence", .obj [("blind_review", .bool true),
      ("author_subject_ids", .arr [.str "worker:one"]), ("saw_other_verdicts", .bool false)]),
    ("verdict", .str "ACCEPT"), ("issued_at", .str submitted),
    ("checks", .obj [("statement_correct", passed), ("proof_valid", passed),
      ("dependency_scope_valid", passed), ("evidence_sufficient", passed)])]

def review : JsonObject :=
  unsigned ++ [("signature", .obj [("algorithm", .str "HMAC_SHA256"), ("key_id", .str "key-one"),
    ("signed_payload_sha256",
      .str "c270b6dd3277b0adebe5958a2c9aa8551d9386370151c942fde8ff762a63c45d"),
    ("value", .str "9485c356490039d967161cb159ac664804de47f08b161cfa71f60f83f449eeea")])]

/-- The bytes of the signed review. -/
def raw : List UInt8 := (dumps (.obj review)).map fun c => UInt8.ofNat c.toNat

/-- The artifact of the signed review. -/
def artifact : ArtifactRef where
  artifactId := "77e89cf5-2d2e-461b-b03d-c4ed076fd6c1"
  sha256 := "dce2607ae6f4a799c68030f8ff11c04bde7005856fad645511fbcbe8dc396f37"
  byteCount := 1328
  mediaType := "application/json"

/-- The platform of the sample. It is asked about one payload and one key only. -/
def platform : Platform where
  nfc text := text
  sha256 _ := "c270b6dd3277b0adebe5958a2c9aa8551d9386370151c942fde8ff762a63c45d"
  hmacSha256 _ _ := "9485c356490039d967161cb159ac664804de47f08b161cfa71f60f83f449eeea"
  uuid5 text := text
  repr _ := ""
  parseInt _ := none

/-- The key of the first reviewer. -/
def keyring : List (String × HmacAttestationKey) :=
  [("key-one",
    { secret := "managed-review-key-material-32bytes!".toList.map Char.toNat
      verifierIdentityId := "verifier:one"
      trustClass := .managedPeerReview
      authorityEffect := .peerPromotionEligible
      promotionEligible := true })]

/-- The surroundings of the importer, with one artifact. -/
def host : ReviewHost where
  sessions := sessions
  organizationId := "organization"
  platform := platform
  sha256 _ := "dce2607ae6f4a799c68030f8ff11c04bde7005856fad645511fbcbe8dc396f37"
  readBytes _ := some raw
  decodeUtf8 _ := some (String.ofList (dumps (.obj review)))
  loads _ := some (.obj review)
  conforms _ := true
  verify := hmacVerify platform keyring

/-- Two reviewers are registered. The task is created for the first one, who claims it, and the
review is checked. -/
def checked : List ReviewOp :=
  [.account (.register "verifier:one" "reviewer:one" "One" .peerReviewer "capability:one"
      "sixteen characters" (List.replicate 16 0) created),
    .account (.register "verifier:two" "reviewer:two" "Two" .peerReviewer "capability:two"
      "sixteen characters" (List.replicate 16 0) created),
    .create taskId .atomic binding ["worker:one"] "verifier:one" created expires,
    .finish 0,
    .claim taskId "verifier:one" created,
    .importArtifact taskId artifact submitted]

def recorded : List ReviewOp := checked ++ [.finish 0]

/-- Before the review is recorded, the task goes to the second reviewer, who claims it. -/
def crossed : List ReviewOp :=
  checked ++ [.reassign taskId "verifier:two" created expires, .claim taskId "verifier:two" created,
    .finish 0]

end ReviewSample

/-- As long as there is one assignee only, artifacts are recorded for the same. -/
theorem recordsForSame_of_one {desk : ReviewDesk} {op : ReviewOp} {identityId : Id}
    (htasks : ∀ row ∈ desk.tasks, row.assigneeIdentityId = identityId)
    (hpending : ∀ pending ∈ desk.pending, pending.isFor identityId = true) :
    RecordsForSame desk op := by
  intro index task artifact submittedAt _ hfound row hrow _ _
  have hfor := hpending _ (List.mem_of_getElem? hfound)
  exact (htasks row hrow).trans (beq_iff_eq.mp hfor).symm

open ReviewSample in
/-- The first reviewer still has the task when the review is recorded. -/
theorem reviews_are_own_of_kept : OwnReviews host recorded ∧ SettledStay host recorded := by
  have hone : ∀ n < recorded.length,
      (∀ row ∈ (reached host (recorded.take n)).tasks,
        row.assigneeIdentityId = "verifier:one") ∧
      ∀ pending ∈ (reached host (recorded.take n)).pending, pending.isFor "verifier:one" = true := by
    decide +kernel
  refine reviews_are_own (StepsSatisfy.of_take fun n op hop => ?_)
  obtain ⟨htasks, hpending⟩ := hone n (List.getElem?_eq_some_iff.mp hop).1
  exact recordsForSame_of_one htasks hpending

open ReviewSample in
/-- The review of the first reviewer is recorded for the second one, who has the task by then. -/
theorem another_reviewers_artifact : ¬ (OwnReviews host crossed ∧ SettledStay host crossed) := by
  rintro ⟨hown, -⟩
  have hrow : ∃ row ∈ (reached host crossed).tasks, row.status = .submitted ∧
      row.assigneeIdentityId = "verifier:two" ∧ row.signedArtifact = some artifact := by
    decide +kernel
  obtain ⟨row, hrow, hstatus, hassignee, hartifact⟩ := hrow
  obtain ⟨other, read, identity, -, hother, -, hreview, -⟩ := (hown row hrow hstatus).signed
  obtain rfl : artifact = other := Option.some.inj (hartifact.symm.trans hother)
  have hverifier : (fun review => reviewText host review "verifier_identity_id") <$>
      readReview host artifact = .ok "verifier:one" := by
    decide +kernel
  obtain ⟨review, hread, hone⟩ := map_eq_ok.mp hverifier
  have hsame : read = review := Except.ok.inj (hreview.read.symm.trans hread)
  have htwo := hreview.verifier
  rw [hsame, hassignee] at htwo
  exact absurd (hone.symm.trans htwo) (by decide)

end ResearchKernel.Product.Reviews
