import ResearchKernel.Product.Commits
import ResearchKernel.Product.Spools

/-!
# A commit proves possession

Who commits an upload has sent the content of the artifact that comes back, as long as the
artifact was made from the spool file. An artifact that is there already is bound on its digest
alone, whatever was sent.
-/

namespace ResearchKernel.Product.Possession

open Foundation
open Uploads
open Registry

/-! ## What later steps leave alone -/

/-- The bytes that were received for an upload: its accepted chunks, one after the other. -/
def received (s : UploadStore) (uploadId : Id) : List UInt8 :=
  (s.chunksOf uploadId).flatMap ChunkRow.data

/-- What a row of an upload keeps. -/
structure RowFollows (row row' : UploadRow) : Prop where
  uploadId : row'.uploadId = row.uploadId
  sha256 : row'.declaredSha256 = row.declaredSha256
  byteCount : row'.declaredByteCount = row.declaredByteCount
  closed : row.state ≠ .opened →
    row'.state ≠ .opened ∧ row'.receivedByteCount = row.receivedByteCount
  aborted : row.state = .aborted → row'.state = .aborted
  committed : row.state = .committed → row'.state = .committed ∧ row'.artifactId = row.artifactId

/-- Every upload is still there, and one that takes no more chunks has the bytes that it had. -/
structure Follows (s s' : UploadStore) : Prop where
  kept : Kept RowFollows s.uploads s'.uploads
  frozen : ∀ row ∈ s.uploads, row.state ≠ .opened →
    received s' row.uploadId = received s row.uploadId

/-- No upload has been committed. -/
def NoCommit (s s' : UploadStore) : Prop :=
  ∀ row' ∈ s'.uploads, row'.state = .committed →
    ∃ row ∈ s.uploads, row.state = .committed ∧ RowFollows row row'

/-- The session is that of an upload that is complete and takes no more chunks. -/
def Declared (s : UploadStore) (session : UploadSession) : Prop :=
  ∃ row ∈ s.uploads, row.uploadId = session.uploadId ∧ row.state ≠ .opened ∧
    row.declaredSha256 = session.declaredSha256 ∧
      row.declaredByteCount = session.declaredByteCount ∧
        row.receivedByteCount = row.declaredByteCount

/-- What is known of the row of the call that has the write lock. -/
def Ready : Transaction → Prop
  | .insert row => row.state = .opened
  | .prepare row _ _ => row.Live ∧ row.receivedByteCount = row.declaredByteCount
  | .discard _ => True
  | .append _ _ _ _ _ => True

/-- What is known of the sessions that are pending. -/
def Waiting (s : UploadStore) : Pending → Prop
  | .bind session => Declared s session
  | .confirm session _ => Declared s session
  | .check _ => True
  | .truncate _ => True
  | .unlink _ => True

/-- What a commit relies on: an upload that is committed or being committed is complete. -/
structure Prepared (s : UploadStore) : Prop where
  complete : ∀ row ∈ s.uploads, row.state = .committed → row.receivedByteCount = row.declaredByteCount
  ready : ∀ transaction, s.transaction = some transaction → Ready transaction
  waiting : ∀ pending ∈ s.pending, Waiting s pending

theorem RowFollows.refl (row : UploadRow) : RowFollows row row :=
  ⟨rfl, rfl, rfl, fun h => ⟨h, rfl⟩, fun h => h, fun h => ⟨h, rfl⟩⟩

theorem RowFollows.trans {a b c : UploadRow} (h : RowFollows a b) (h' : RowFollows b c) :
    RowFollows a c where
  uploadId := h'.uploadId.trans h.uploadId
  sha256 := h'.sha256.trans h.sha256
  byteCount := h'.byteCount.trans h.byteCount
  closed hopen := by
    obtain ⟨hstate, hcount⟩ := h.closed hopen
    obtain ⟨hstate', hcount'⟩ := h'.closed hstate
    exact ⟨hstate', hcount'.trans hcount⟩
  aborted haborted := h'.aborted (h.aborted haborted)
  committed hcommitted := by
    obtain ⟨hstate, hid⟩ := h.committed hcommitted
    obtain ⟨hstate', hid'⟩ := h'.committed hstate
    exact ⟨hstate', hid'.trans hid⟩

section Frames

variable {s s' : UploadStore} {session : UploadSession}

theorem received_of_chunks (h : s'.chunks = s.chunks) (uploadId : Id) :
    received s' uploadId = received s uploadId := by
  rw [received, received, UploadStore.chunksOf, UploadStore.chunksOf, h]

/-- The same ledger. -/
theorem follows_of_same (huploads : s'.uploads = s.uploads) (hchunks : s'.chunks = s.chunks) :
    Follows s s' ∧ NoCommit s s' := by
  refine ⟨⟨?_, fun row _ _ => received_of_chunks hchunks _⟩, fun row hrow hstate => ?_⟩
  · rw [huploads]
    exact Kept.refl RowFollows.refl _
  · exact ⟨row, huploads ▸ hrow, hstate, RowFollows.refl row⟩

/-- The session of an upload stays its session. -/
theorem Declared.follows (h : Declared s session) (hfollows : Follows s s') : Declared s' session := by
  obtain ⟨row, hrow, hid, hstate, hsha, hcount, hcomplete⟩ := h
  obtain ⟨row', hrow', hkept⟩ := hfollows.kept row hrow
  obtain ⟨hstate', hreceived⟩ := hkept.closed hstate
  refine ⟨row', hrow', hkept.uploadId.trans hid, hstate', hkept.sha256.trans hsha,
    hkept.byteCount.trans hcount, ?_⟩
  rw [hreceived, hkept.byteCount]
  exact hcomplete

/-- What is pending stays known. -/
theorem waiting_follows {pending : Pending} (h : Waiting s pending) (hfollows : Follows s s') :
    Waiting s' pending := by
  cases pending with
  | bind | confirm => exact Declared.follows h hfollows
  | check | truncate | unlink => trivial

/-- The same ledger, with a call and with pending sessions that are known. -/
theorem Prepared.of_same (h : Prepared s) (huploads : s'.uploads = s.uploads)
    (hchunks : s'.chunks = s.chunks)
    (hready : ∀ transaction, s'.transaction = some transaction → Ready transaction)
    (hwaiting : ∀ pending ∈ s'.pending, pending ∈ s.pending ∨ Waiting s' pending) :
    (Follows s s' ∧ NoCommit s s') ∧ Prepared s' := by
  have hsame := follows_of_same huploads hchunks
  refine ⟨hsame, huploads ▸ h.complete, hready, fun pending hpending => ?_⟩
  rcases hwaiting pending hpending with hold | hnew
  · exact waiting_follows (h.waiting pending hold) hsame.1
  · exact hnew

/-- The write lock is given back, and a spool file may have changed. -/
theorem Prepared.unlocked (h : Prepared s) (huploads : s'.uploads = s.uploads)
    (hchunks : s'.chunks = s.chunks) (hpending : s'.pending = s.pending)
    (htransaction : s'.transaction = none) : (Follows s s' ∧ NoCommit s s') ∧ Prepared s' := by
  refine h.of_same huploads hchunks (fun transaction ht => ?_) fun pending hmem => ?_
  · rw [htransaction] at ht
    cases ht
  · exact Or.inl (hpending ▸ hmem)

theorem Follows.updateUploads {test : UploadRow → Bool} {change : UploadRow → UploadRow}
    (hchange : ∀ row ∈ s.uploads, test row = true →
      RowFollows row (change row) ∧ (change row).state ≠ .committed) :
    Follows s (s.updateUploads test change) ∧ NoCommit s (s.updateUploads test change) := by
  refine ⟨⟨fun row hrow => ⟨_, mem_updateWhere.mpr ⟨row, hrow, rfl⟩, ?_⟩, fun _ _ _ => rfl⟩,
    fun row' hrow' hstate => ?_⟩
  · split
    · exact (hchange row hrow ‹_›).1
    · exact RowFollows.refl row
  · obtain ⟨row, hrow, rfl⟩ := mem_updateWhere.mp hrow'
    by_cases htest : test row = true
    · rw [if_pos htest] at hstate
      exact absurd hstate (hchange row hrow htest).2
    · rw [if_neg htest] at hstate ⊢
      exact ⟨row, hrow, hstate, RowFollows.refl row⟩

/-- Uploads that were complete are so afterwards. -/
theorem Prepared.complete_of_noCommit (h : Prepared s) (hnone : NoCommit s s') : ∀ row ∈ s'.uploads, row.state = .committed →
      row.receivedByteCount = row.declaredByteCount := by
  intro row' hrow' hstate'
  obtain ⟨row, hrow, hstate, hkept⟩ := hnone row' hrow' hstate'
  obtain ⟨-, hreceived⟩ := hkept.closed (by rw [hstate]; exact UploadState.noConfusion)
  rw [hreceived, hkept.byteCount]
  exact h.complete row hrow hstate

end Frames

/-! ## The calls of the upload store -/

section Calls

variable {U : UploadRuntime} {s s' : UploadStore}

/-- What a step of the upload store keeps. -/
def Keeps (s s' : UploadStore) : Prop := (Follows s s' ∧ NoCommit s s') ∧ Prepared s'

theorem keeps_refl (h : Prepared s) : Keeps s s :=
  ⟨follows_of_same rfl rfl, h⟩

theorem Follows.trans {s'' : UploadStore} (h : Follows s s') (h' : Follows s' s'') :
    Follows s s'' where
  kept := h.kept.trans (fun _ _ _ => RowFollows.trans) h'.kept
  frozen := by
    intro row hrow hstate
    obtain ⟨row', hrow', hkept⟩ := h.kept row hrow
    have hlast := h'.frozen row' hrow' (hkept.closed hstate).1
    rw [hkept.uploadId] at hlast
    exact hlast.trans (h.frozen row hrow hstate)

/-- Two steps, one after the other. -/
theorem Keeps.trans {s'' : UploadStore} (h : Keeps s s') (h' : Keeps s' s'') : Keeps s s'' := by
  obtain ⟨⟨hfollows, hnone⟩, -⟩ := h
  obtain ⟨⟨hfollows', hnone'⟩, hprepared⟩ := h'
  refine ⟨⟨hfollows.trans hfollows', fun row'' hrow'' hstate'' => ?_⟩, hprepared⟩
  obtain ⟨row', hrow', hstate', hkept'⟩ := hnone' row'' hrow'' hstate''
  obtain ⟨row, hrow, hstate, hkept⟩ := hnone row' hrow' hstate'
  exact ⟨row, hrow, hstate, hkept.trans hkept'⟩

/-- Something more is pending. -/
theorem Prepared.later (h : Prepared s) {pending : Pending} (hpending : Waiting s pending) :
    Keeps s (s.later pending) := by
  have hsame := (@follows_of_same s (s.later pending) rfl rfl).1
  refine h.of_same rfl rfl h.ready fun other hother => ?_
  rcases List.mem_append.mp hother with hold | hlast
  · exact Or.inl hold
  · rw [List.mem_singleton.mp hlast]
    exact Or.inr (waiting_follows hpending hsame)

/-- Something is no longer pending. -/
theorem Prepared.eraseIdx (h : Prepared s) (index : ℕ) :
    Keeps s { s with pending := s.pending.eraseIdx index } :=
  h.of_same rfl rfl h.ready fun _ hother => Or.inl (List.mem_of_mem_eraseIdx hother)

variable {uploadId : Id} {now : Stamp}

/-- The first step of a declaration. -/
theorem Prepared.begin (h : Prepared s) {requestId : Id} {logicalName mediaType : String}
    {byteCount : ℤ} {sha256 : Digest}
    (hok : begin U s requestId logicalName mediaType byteCount sha256 uploadId now = .ok s') :
    Keeps s s' := by
  obtain ⟨_, -, hok⟩ := bind_eq_ok.mp hok
  obtain ⟨_, -, hok⟩ := bind_eq_ok.mp hok
  obtain ⟨_, -, hok⟩ := bind_eq_ok.mp hok
  split at hok
  · obtain ⟨_, -, hok⟩ := bind_eq_ok.mp hok
    split at hok
    · cases hok
      exact keeps_refl h
    · cases hok
      exact h.later trivial
  · dsimp only at hok
    split at hok
    · cases hok
      refine h.of_same rfl rfl (fun transaction ht => ?_) fun _ hold => Or.inl hold
      cases ht
      trivial
    · cases hok
      refine h.of_same rfl rfl (fun transaction ht => ?_) fun _ hold => Or.inl hold
      cases ht
      rfl

/-- The first step of an offer of a chunk. -/
theorem Prepared.append (h : Prepared s) {uploadId : Id} {offset : ℤ} {data : List UInt8}
    {transferSha256 : Digest} {now : Stamp}
    (hok : append U s uploadId offset data transferSha256 now = .ok s') : Keeps s s' := by
  obtain ⟨_, -, hok⟩ := bind_eq_ok.mp hok
  obtain ⟨_, -, hok⟩ := bind_eq_ok.mp hok
  obtain ⟨_, -, hok⟩ := bind_eq_ok.mp hok
  obtain ⟨current, -, hok⟩ := bind_eq_ok.mp hok
  obtain ⟨_, -, hok⟩ := bind_eq_ok.mp hok
  split at hok
  · split at hok
    · cases hok
      exact keeps_refl h
    · cases hok
  · obtain ⟨_, -, hok⟩ := bind_eq_ok.mp hok
    cases hok
    refine h.of_same rfl rfl (fun transaction ht => ?_) fun _ hold => Or.inl hold
    cases ht
    trivial

/-- The first step of a commit: the upload is complete. -/
theorem Prepared.prepareCommit (h : Prepared s) (hok : prepareCommit s uploadId now = .ok s') :
    Keeps s s' := by
  obtain ⟨_, -, hok⟩ := bind_eq_ok.mp hok
  obtain ⟨current, hcurrent, hok⟩ := bind_eq_ok.mp hok
  have hmem := (mem_of_upload (orReject_eq_ok.mp hcurrent)).1
  split at hok
  next hcommitted =>
    cases hok
    have hclosed : current.state ≠ .opened := by
      rw [hcommitted]
      exact UploadState.noConfusion
    have hdeclared : Declared s current.toUploadSession :=
      ⟨current, hmem, rfl, hclosed, rfl, rfl, h.complete current hmem hcommitted⟩
    exact h.later hdeclared
  next hcommitted =>
    obtain ⟨_, haborted, hok⟩ := bind_eq_ok.mp hok
    obtain ⟨_, hcomplete, hok⟩ := bind_eq_ok.mp hok
    have haborted := of_decide_eq_false (rejectIf_eq_ok.mp haborted)
    have hcomplete := not_not.mp (of_decide_eq_false (rejectIf_eq_ok.mp hcomplete))
    cases hok
    refine h.of_same rfl rfl (fun transaction ht => ?_) fun _ hold => Or.inl hold
    cases ht
    refine ⟨?_, hcomplete⟩
    cases hstate : current.state with
    | opened => exact Or.inl hstate
    | committing => exact Or.inr hstate
    | committed => exact absurd hstate hcommitted
    | aborted => exact absurd hstate haborted

/-- An abort. -/
theorem Prepared.abort (h : Prepared s) (hs : Uploads.Sound U s)
    (hok : abort s uploadId now = .ok s') : Keeps s s' := by
  obtain ⟨_, -, hok⟩ := bind_eq_ok.mp hok
  obtain ⟨current, hcurrent, hok⟩ := bind_eq_ok.mp hok
  obtain ⟨_, hcommitted, hok⟩ := bind_eq_ok.mp hok
  obtain ⟨hmem, hid⟩ := mem_of_upload (orReject_eq_ok.mp hcurrent)
  have hcommitted := of_decide_eq_false (rejectIf_eq_ok.mp hcommitted)
  cases hok
  have hkeeps : Follows s (s.updateUploads (·.uploadId == uploadId) fun row =>
      { row with state := .aborted, updatedAt := now }) ∧
        NoCommit s (s.updateUploads (·.uploadId == uploadId) fun row =>
          { row with state := .aborted, updatedAt := now }) := by
    refine Follows.updateUploads fun row hrow htest => ?_
    have hsame := hs.eq_of_uploadId hrow hmem ((beq_iff_eq.mp htest).trans hid.symm)
    subst hsame
    exact ⟨⟨rfl, rfl, rfl, fun _ => ⟨UploadState.noConfusion, rfl⟩, fun _ => rfl,
      fun hstate => absurd hstate hcommitted⟩, UploadState.noConfusion⟩
  have hprepared : Prepared (s.updateUploads (·.uploadId == uploadId) fun row =>
      { row with state := .aborted, updatedAt := now }) :=
    ⟨h.complete_of_noCommit hkeeps.2, h.ready,
      fun pending hpending => waiting_follows (h.waiting pending hpending) hkeeps.1⟩
  have hlater : Keeps _ _ := hprepared.later (show Waiting _ (.unlink current.spoolName) from trivial)
  exact Keeps.trans ⟨hkeeps, hprepared⟩ hlater

/-- A chunk is accepted: the uploads that take no more chunks have the bytes that they had. -/
theorem Prepared.acceptChunk (h : Prepared s) (hs : Uploads.Sound U s) {row : UploadRow}
    {data : List UInt8} {transferSha256 : Digest} {now : Stamp} (hmem : row ∈ s.uploads)
    (hopened : row.state = .opened) : Keeps s (acceptChunk s row data transferSha256 now) := by
  unfold Uploads.acceptChunk
  split
  · exact h.unlocked rfl rfl rfl rfl
  next chunks hinsert =>
    obtain ⟨-, rfl⟩ := insertRow_eq_some.mp hinsert
    have hchange : ∀ old ∈ s.uploads, (old.uploadId == row.uploadId && (old.state == .opened &&
        old.receivedByteCount == row.receivedByteCount)) = true → old.state = .opened := by
      intro old _ htest
      simp only [Bool.and_eq_true, beq_iff_eq] at htest
      exact htest.2.1
    obtain ⟨hfollows, hnone⟩ := @Follows.updateUploads s (fun old => old.uploadId == row.uploadId &&
        (old.state == .opened && old.receivedByteCount == row.receivedByteCount)) (fun old =>
          { old with receivedByteCount := row.receivedByteCount + data.length, updatedAt := now })
      fun old hold htest => by
        have hstate := hchange old hold htest
        refine ⟨⟨rfl, rfl, rfl, fun hclosed => absurd hstate hclosed, fun haborted => ?_,
          fun hcommitted => ?_⟩, fun hcommitted => ?_⟩
        · rw [hstate] at haborted
          cases haborted
        · rw [hstate] at hcommitted
          cases hcommitted
        · have hcommitted : old.state = .committed := hcommitted
          rw [hstate] at hcommitted
          cases hcommitted
    let chunk : ChunkRow := ⟨row.uploadId, row.receivedByteCount, data.length, transferSha256, now,
      data⟩
    have hkept : ∀ old ∈ s.uploads, old.state ≠ .opened →
        (s.chunks ++ [chunk]).filter (·.uploadId == old.uploadId) =
          s.chunks.filter (·.uploadId == old.uploadId) := by
      intro old hold hclosed
      have hne : chunk.uploadId ≠ old.uploadId := by
        intro heq
        rw [hs.eq_of_uploadId hold hmem heq.symm] at hclosed
        exact hclosed hopened
      rw [List.filter_append, List.filter_cons_of_neg (by simpa using hne), List.filter_nil,
        List.append_nil]
    let accepted : UploadStore :=
      { s.updateUploads (fun old => old.uploadId == row.uploadId &&
            (old.state == .opened && old.receivedByteCount == row.receivedByteCount)) fun old =>
          { old with receivedByteCount := row.receivedByteCount + data.length, updatedAt := now } with
        chunks := s.chunks ++ [chunk], transaction := none }
    have hfrozen : Follows s accepted := ⟨hfollows.kept, fun old hold hclosed =>
      congrArg (List.flatMap ChunkRow.data) (hkept old hold hclosed)⟩
    have hprepared : Prepared accepted := ⟨h.complete_of_noCommit hnone, (fun _ ht => nomatch ht),
      fun pending hpending => waiting_follows (h.waiting pending hpending) hfrozen⟩
    exact ⟨⟨hfrozen, hnone⟩, hprepared⟩

/-- The row of a call that begins to commit its upload, when the call gives the write lock back. -/
theorem Prepared.committing (h : Prepared s) {row : UploadRow} {now : Stamp}
    (hmem : row ∈ s.uploads) (hlive : row.Live)
    (hcomplete : row.receivedByteCount = row.declaredByteCount) :
    Keeps s (((s.updateUploads (fun (old : UploadRow) => old.uploadId == row.uploadId &&
        (old.state == .opened || old.state == .committing)) fun old =>
      { old with state := .committing, updatedAt := now }).rollback).later
        (.bind { row.toUploadSession with state := .committing, updatedAt := now })) := by
  have hstate : ∀ old : UploadRow, (old.state == .opened || old.state == .committing) = true →
      old.state ≠ .aborted ∧ old.state ≠ .committed := by
    intro old htest
    rw [Bool.or_eq_true, beq_iff_eq, beq_iff_eq] at htest
    rcases htest with hold | hold <;> rw [hold] <;> exact ⟨nofun, nofun⟩
  obtain ⟨hfollows, hnone⟩ := @Follows.updateUploads s (fun old => old.uploadId == row.uploadId &&
      (old.state == .opened || old.state == .committing))
    (fun old => { old with state := .committing, updatedAt := now }) fun old _ htest => by
      obtain ⟨hnotAborted, hnotCommitted⟩ := hstate old ((Bool.and_eq_true ..).mp htest).2
      exact ⟨⟨rfl, rfl, rfl, fun _ => ⟨nofun, rfl⟩, fun haborted => absurd haborted hnotAborted,
        fun hcommitted => absurd hcommitted hnotCommitted⟩, nofun⟩
  let committing : UploadStore := (s.updateUploads (fun (old : UploadRow) =>
    old.uploadId == row.uploadId && (old.state == .opened || old.state == .committing)) fun old =>
      { old with state := .committing, updatedAt := now }).rollback
  have hrollback : Follows s committing ∧ NoCommit s committing :=
    ⟨⟨hfollows.kept, hfollows.frozen⟩, hnone⟩
  have hprepared : Prepared committing := ⟨h.complete_of_noCommit hnone, (fun _ ht => nomatch ht),
    fun pending hpending => waiting_follows (h.waiting pending hpending) hrollback.1⟩
  have htest : (row.uploadId == row.uploadId &&
      (row.state == .opened || row.state == .committing)) = true := by
    rcases hlive with hold | hold <;> simp [hold]
  have hdeclared : Waiting committing
      (.bind { row.toUploadSession with state := .committing, updatedAt := now }) := by
    refine ⟨_, mem_updateWhere.mpr ⟨row, hmem, if_pos htest⟩, rfl, nofun, rfl, rfl, hcomplete⟩
  exact Keeps.trans ⟨hrollback, hprepared⟩ (hprepared.later hdeclared)

/-- The next step of the call that has the write lock. -/
theorem Prepared.advance (h : Prepared s) (hs : Uploads.Sound U s) : Keeps s (advance s) := by
  unfold Uploads.advance
  cases ht : s.transaction with
  | none => exact keeps_refl h
  | some transaction =>
    have hready := h.ready _ ht
    cases transaction with
    | insert row =>
      dsimp only
      split
      · refine h.of_same rfl rfl (fun other hother => ?_) fun _ hold => Or.inl hold
        cases hother
        trivial
      next uploads hinsert =>
        obtain ⟨-, rfl⟩ := insertRow_eq_some.mp hinsert
        have hopened : row.state = .opened := hready
        have hfollows : Follows s { s with uploads := s.uploads ++ [row], transaction := none } :=
          ⟨Kept.append RowFollows.refl _ _, fun _ _ _ => rfl⟩
        have hnone : NoCommit s { s with uploads := s.uploads ++ [row], transaction := none } := by
          intro other hother hstate
          rcases List.mem_append.mp hother with hold | hlast
          · exact ⟨other, hold, hstate, RowFollows.refl other⟩
          · rw [List.mem_singleton.mp hlast, hopened] at hstate
            cases hstate
        exact ⟨⟨hfollows, hnone⟩, h.complete_of_noCommit hnone, (fun _ hother => nomatch hother),
          fun pending hpending => waiting_follows (h.waiting pending hpending) hfollows⟩
    | discard name =>
      have hrollback : Keeps s s.rollback := h.unlocked rfl rfl rfl rfl
      exact hrollback.trans (hrollback.2.later (show Waiting _ (.unlink name) from trivial))
    | append row data transferSha256 now stage =>
      obtain ⟨hmem, hopened, -⟩ := hs.locked _ ht
      cases stage with
      | found =>
        dsimp only
        split
        · exact h.unlocked rfl rfl rfl rfl
        · exact h.of_same rfl rfl (fun other hother => by cases hother; trivial)
            fun _ hold => Or.inl hold
        · exact h.of_same rfl rfl (fun other hother => by cases hother; trivial)
            fun _ hold => Or.inl hold
      | longer | ready =>
        dsimp only
        split
        · exact h.unlocked rfl rfl rfl rfl
        · exact h.of_same rfl rfl (fun other hother => by cases hother; trivial)
            fun _ hold => Or.inl hold
      | written => exact h.acceptChunk hs hmem hopened
    | prepare row now stage =>
      have hmem : row ∈ s.uploads := hs.locked _ ht
      obtain ⟨hlive, hcomplete⟩ : row.Live ∧ row.receivedByteCount = row.declaredByteCount := hready
      cases stage with
      | found =>
        dsimp only
        split
        · exact h.unlocked rfl rfl rfl rfl
        · exact h.of_same rfl rfl (fun other hother => by cases hother; exact ⟨hlive, hcomplete⟩)
            fun _ hold => Or.inl hold
        · exact h.of_same rfl rfl (fun other hother => by cases hother; exact ⟨hlive, hcomplete⟩)
            fun _ hold => Or.inl hold
      | longer =>
        dsimp only
        split
        · exact h.unlocked rfl rfl rfl rfl
        · exact h.of_same rfl rfl (fun other hother => by cases hother; exact ⟨hlive, hcomplete⟩)
            fun _ hold => Or.inl hold
      | ready | written => exact h.committing hmem hlive hcomplete

/-- The call that has the write lock ends early. -/
theorem Prepared.interrupt (h : Prepared s) (handled : Bool) (written : ℕ) :
    Keeps s (interrupt handled written s) := by
  unfold Uploads.interrupt
  split
  · split
    · refine h.of_same rfl rfl (fun other hother => ?_) fun _ hold => Or.inl hold
      cases hother
      trivial
    · exact h.unlocked rfl rfl rfl rfl
  · exact h.unlocked rfl rfl rfl rfl
  · exact h.unlocked rfl rfl rfl rfl

/-- A step that is carried on, on how it ends: a busy store leaves it pending. -/
theorem Prepared.settle (h : Prepared s) (index : ℕ) (result : Except UploadError UploadStore) :
    (∀ after, result = .ok after → Keeps { s with pending := s.pending.eraseIdx index } after) →
      Keeps s (match result with
        | .ok after => after
        | .error .busy => s
        | .error _ => { s with pending := s.pending.eraseIdx index }) := by
  intro hresult
  have hrest := h.eraseIdx index
  split
  · exact hrest.trans (hresult _ rfl)
  · exact keeps_refl h
  · exact hrest

/-- What is pending at a place is carried on, when it binds no artifact. -/
theorem Prepared.resume (h : Prepared s) {index : ℕ} {now : Stamp} {artifact : Option ArtifactRef}
    (hplain : ∀ session, s.pending[index]? ≠ some (.bind session)) :
    Keeps s (resume s index now artifact) := by
  unfold Uploads.resume
  cases hat : s.pending[index]? with
  | none => exact keeps_refl h
  | some pending =>
    have hrest := h.eraseIdx index
    refine h.settle index _ fun after hok => ?_
    cases pending with
    | check session =>
      obtain ⟨longer, -, hok⟩ := bind_eq_ok.mp hok
      split at hok
      · cases hok
        exact hrest.2.later (show Waiting _ (.truncate session) from trivial)
      · cases hok
        exact keeps_refl hrest.2
    | truncate | unlink =>
      cases hok
      exact hrest.2.of_same rfl rfl hrest.2.ready fun _ hold => Or.inl hold
    | bind session => exact absurd hat (hplain session)
    | confirm session name =>
      obtain ⟨_, -, hok⟩ := bind_eq_ok.mp hok
      obtain ⟨_, -, hok⟩ := bind_eq_ok.mp hok
      obtain ⟨_, -, hok⟩ := bind_eq_ok.mp hok
      cases hok
      have hdeclared : Declared s session := h.waiting _ (List.mem_of_getElem? hat)
      have hcleared : Keeps { s with pending := s.pending.eraseIdx index }
          (UploadStore.setSpool { s with pending := s.pending.eraseIdx index } name none) :=
        hrest.2.of_same rfl rfl hrest.2.ready fun _ hold => Or.inl hold
      have hwaiting : Waiting (UploadStore.setSpool
          { s with pending := s.pending.eraseIdx index } name none) (.bind session) :=
        (hdeclared.follows hrest.1.1).follows hcleared.1.1
      exact hcleared.trans (hcleared.2.later hwaiting)

/-- An operation on the uploads that is no later step of a commit commits no upload. -/
theorem Prepared.step (h : Prepared s) (hs : Uploads.Sound U s) {op : UploadOp}
    (hplain : takesArtifact s op = false) : Keeps s (Uploads.step U s op) := by
  have hsettle : ∀ result : Except UploadError UploadStore,
      (∀ after, result = .ok after → Keeps s after) → Keeps s (result.toOption.getD s) := by
    intro result hresult
    cases result with
    | error error => exact keeps_refl h
    | ok after => exact hresult after rfl
  cases op with
  | begin requestId logicalName mediaType byteCount sha256 uploadId now =>
    exact hsettle _ fun _ => h.begin
  | append uploadId offset data transferSha256 now => exact hsettle _ fun _ => h.append
  | prepareCommit uploadId now => exact hsettle _ fun _ => h.prepareCommit
  | abort uploadId now => exact hsettle _ fun _ => h.abort hs
  | advance => exact h.advance hs
  | interrupt handled written => exact h.interrupt handled written
  | resume index now artifact =>
    refine h.resume fun session hat => ?_
    rw [takesArtifact, hat] at hplain
    cases hplain
  | drop index => exact h.eraseIdx index

end Calls

/-! ## The invariant -/

/-- What was received for an upload has the declared digest, unless the upload is aborted. -/
def Verified (V : VaultRuntime) (s : UploadStore) (session : UploadSession) : Prop :=
  ∀ row ∈ s.uploads, row.uploadId = session.uploadId → row.state ≠ .aborted →
    V.sha256 (received s row.uploadId) = session.declaredSha256

/-- What is known of a call of `commit`. -/
def CommitCall.Sound (V : VaultRuntime) (v : Vault) : CommitCall → Prop
  | .stage session => Declared v.uploads session
  | .commit session staged => Declared v.uploads session ∧ Verified V v.uploads session ∧
      V.sha256 staged.bytes = session.declaredSha256
  | .register session file => Declared v.uploads session ∧ Verified V v.uploads session ∧
      file.sha256 = session.declaredSha256 ∧ v.contents.holds file = true
  | .bind session artifact => Declared v.uploads session ∧ Verified V v.uploads session ∧
      ∃ row ∈ v.contents.db.artifacts, artifact = artifactRef row ∧
        row.sha256 = session.declaredSha256

/-- What was received for an upload is what was declared, and its artifact has that digest. -/
def Proven (V : VaultRuntime) (v : Vault) (row : UploadRow) : Prop :=
  V.sha256 (received v.uploads row.uploadId) = row.declaredSha256 ∧
    (received v.uploads row.uploadId).length = row.declaredByteCount ∧
      ∃ artifact ∈ v.contents.db.artifacts, row.artifactId = some artifact.artifactId ∧
        artifact.sha256 = row.declaredSha256

/-- The artifact that a call has returned is that of its upload. -/
def Delivered (v : Vault) (entry : Id × ArtifactRef) : Prop :=
  ∃ row ∈ v.uploads.uploads, row.uploadId = entry.1 ∧ row.state = .committed ∧
    ∃ artifact ∈ v.contents.db.artifacts, entry.2 = artifactRef artifact ∧
      row.artifactId = some artifact.artifactId

/-- The invariant of the uploads and the artifacts. -/
structure VaultSound (V : VaultRuntime) (v : Vault) : Prop where
  uploads : Uploads.Sound V.uploads v.uploads
  prepared : Prepared v.uploads
  genuine : Registry.Genuine V.content v.contents
  calls : ∀ call ∈ v.calls, call.Sound V v
  proven : ∀ row ∈ v.uploads.uploads, row.state = .committed → Proven V v row
  returned : ∀ entry ∈ v.returned, Delivered v entry

section Vaults

variable {V : VaultRuntime} {v v' : Vault}

variable {session : UploadSession}

theorem Verified.follows {s s' : UploadStore} (h : Verified V s session)
    (hdeclared : Declared s session) (hfollows : Follows s s')
    (hids : (s'.uploads.map (·.uploadId)).Nodup) : Verified V s' session := by
  intro row' hrow' hid' hstate'
  obtain ⟨row, hrow, hid, hclosed, -⟩ := hdeclared
  obtain ⟨other, hother, hkept⟩ := hfollows.kept row hrow
  have hsame : other = row' :=
    List.inj_on_of_nodup_map hids hother hrow' ((hkept.uploadId.trans hid).trans hid'.symm)
  subst hsame
  have hstate : row.state ≠ .aborted := fun haborted => hstate' (hkept.aborted haborted)
  rw [hkept.uploadId, hfollows.frozen row hrow hclosed]
  exact h row hrow hid hstate

/-- What is known of a call of `commit` stays true. -/
theorem CommitCall.Sound.follows {call : CommitCall} (h : call.Sound V v)
    (hfollows : Follows v.uploads v'.uploads)
    (hids : (v'.uploads.uploads.map (·.uploadId)).Nodup)
    (hgrows : Registry.Grows v.contents v'.contents) : call.Sound V v' := by
  cases call with
  | stage session => exact Declared.follows h hfollows
  | commit session staged =>
    exact ⟨h.1.follows hfollows, h.2.1.follows h.1 hfollows hids, h.2.2⟩
  | register session file =>
    exact ⟨h.1.follows hfollows, h.2.1.follows h.1 hfollows hids, h.2.2.1,
      hgrows.holds h.2.2.2⟩
  | bind session artifact =>
    obtain ⟨hdeclared, hverified, row, hrow, href, hsha⟩ := h
    exact ⟨hdeclared.follows hfollows, hverified.follows hdeclared hfollows hids, row,
      hgrows.artifacts row hrow, href, hsha⟩

theorem Proven.follows {row row' : UploadRow} (h : Proven V v row) (hkept : RowFollows row row')
    (hstate : row.state = .committed)
    (hreceived : received v'.uploads row.uploadId = received v.uploads row.uploadId)
    (hgrows : Registry.Grows v.contents v'.contents) : Proven V v' row' := by
  obtain ⟨hsha, hlength, artifact, hartifact, hid, hdigest⟩ := h
  unfold Proven
  rw [hkept.uploadId, hkept.sha256, hkept.byteCount, hreceived]
  exact ⟨hsha, hlength, artifact, hgrows.artifacts artifact hartifact,
    (hkept.committed hstate).2.trans hid, hdigest⟩

theorem Delivered.follows {entry : Id × ArtifactRef} (h : Delivered v entry)
    (hfollows : Follows v.uploads v'.uploads) (hgrows : Registry.Grows v.contents v'.contents) :
    Delivered v' entry := by
  obtain ⟨row, hrow, hid, hstate, artifact, hartifact, href, hbound⟩ := h
  obtain ⟨row', hrow', hkept⟩ := hfollows.kept row hrow
  obtain ⟨hstate', hbound'⟩ := hkept.committed hstate
  exact ⟨row', hrow', hkept.uploadId.trans hid, hstate', artifact,
    hgrows.artifacts artifact hartifact, href, hbound'.trans hbound⟩

/-- A step that commits no upload. -/
theorem VaultSound.frame (h : VaultSound V v) (huploads : Uploads.Sound V.uploads v'.uploads)
    (hkeeps : Keeps v.uploads v'.uploads) (hgenuine : Registry.Genuine V.content v'.contents)
    (hgrows : Registry.Grows v.contents v'.contents) (hreturned : v'.returned = v.returned)
    (hcalls : ∀ call ∈ v'.calls, call ∈ v.calls ∨ call.Sound V v') : VaultSound V v' where
  uploads := huploads
  prepared := hkeeps.2
  genuine := hgenuine
  calls call hcall := by
    rcases hcalls call hcall with hold | hnew
    · exact (h.calls call hold).follows hkeeps.1.1 huploads.ids hgrows
    · exact hnew
  proven := by
    intro row' hrow' hstate'
    obtain ⟨row, hrow, hstate, hkept⟩ := hkeeps.1.2 row' hrow' hstate'
    have hclosed : row.state ≠ .opened := by
      rw [hstate]
      exact nofun
    exact (h.proven row hrow hstate).follows hkept hstate (hkeeps.1.1.frozen row hrow hclosed) hgrows
  returned entry hentry := (h.returned entry (hreturned ▸ hentry)).follows hkeeps.1.1 hgrows

/-- The same uploads and artifacts. -/
theorem VaultSound.recall (h : VaultSound V v) (huploads : v'.uploads = v.uploads)
    (hcontents : v'.contents = v.contents) (hreturned : v'.returned = v.returned)
    (hcalls : ∀ call ∈ v'.calls, call ∈ v.calls ∨ call.Sound V v) : VaultSound V v' := by
  have hgrows : Registry.Grows v.contents v'.contents := hcontents ▸ Registry.Grows.refl _
  have hkeeps : Keeps v.uploads v'.uploads := by
    rw [huploads]
    exact keeps_refl h.prepared
  have hsound : Uploads.Sound V.uploads v'.uploads := huploads ▸ h.uploads
  refine h.frame hsound hkeeps (hcontents ▸ h.genuine) hgrows hreturned fun call hcall => ?_
  rcases hcalls call hcall with hold | hnew
  · exact Or.inl hold
  · exact Or.inr (hnew.follows hkeeps.1.1 hsound.ids hgrows)

/-- One more step of `commit` to do. -/
theorem VaultSound.later (h : VaultSound V v) {call : CommitCall} (hcall : call.Sound V v) :
    VaultSound V (v.later call) := by
  refine h.recall rfl rfl rfl fun other hother => ?_
  rcases List.mem_append.mp hother with hold | hlast
  · exact Or.inl hold
  · rw [List.mem_singleton.mp hlast]
    exact Or.inr hcall

theorem VaultSound.setContents (h : VaultSound V v) {contents : ContentStore}
    (hgenuine : Registry.Genuine V.content contents) (hgrows : Registry.Grows v.contents contents) :
    VaultSound V { v with contents := contents } :=
  h.frame h.uploads (keeps_refl h.prepared) hgenuine hgrows rfl fun _ hold => Or.inl hold

variable {artifact : ArtifactRef}

/-- What a bind has checked, and what it does. -/
theorem bindCommitted_spec {s s' : UploadStore} {now : Stamp}
    (hok : bindCommitted s session artifact now = .ok s') :
    s'.chunks = s.chunks ∧ s'.transaction = none ∧ ∃ row ∈ s.uploads,
      row.uploadId = session.uploadId ∧
      (row.state = .committed ∧ row.artifactId = some artifact.artifactId ∧ s' = s ∨
        row.state = .committing ∧ s'.uploads = updateWhere
            (fun old => old.uploadId == session.uploadId && old.state == .committing)
            (fun old => { old with state := .committed, artifactId := some artifact.artifactId,
                                   committedAt := some now, updatedAt := now }) s.uploads ∧
          s'.pending = s.pending ++ [.unlink (spoolName session.uploadId)]) := by
  obtain ⟨_, -, hok⟩ := bind_eq_ok.mp hok
  obtain ⟨_, hfree, hok⟩ := bind_eq_ok.mp hok
  obtain ⟨row, hrow, hok⟩ := bind_eq_ok.mp hok
  have hfree := free_of_passes hfree
  obtain ⟨hmem, hid⟩ := mem_of_upload (orReject_eq_ok.mp hrow)
  split at hok
  next hstate =>
    obtain ⟨_, hartifact, hok⟩ := bind_eq_ok.mp hok
    have hartifact := not_not.mp (of_decide_eq_false (rejectIf_eq_ok.mp hartifact))
    cases hok
    exact ⟨rfl, hfree, row, hmem, hid, Or.inl ⟨hstate, hartifact, rfl⟩⟩
  · obtain ⟨_, hstate, hok⟩ := bind_eq_ok.mp hok
    have hstate := not_not.mp (of_decide_eq_false (rejectIf_eq_ok.mp hstate))
    cases hok
    exact ⟨rfl, hfree, row, hmem, hid, Or.inr ⟨hstate, rfl, rfl⟩⟩

/-- An artifact with the digest of what was received is bound to an upload. -/
theorem VaultSound.bind (h : VaultSound V v) {now : Stamp} {uploads : UploadStore}
    (hcall : CommitCall.Sound V v (.bind session artifact))
    (hok : bindCommitted v.uploads session artifact now = .ok uploads) :
    VaultSound V { v with uploads := uploads,
                          returned := v.returned ++ [(session.uploadId, artifact)] } := by
  have hsound := h.uploads.bindCommitted hok
  obtain ⟨hchunks, hfree, row, hrow, hid, hcase⟩ := bindCommitted_spec hok
  obtain ⟨hdeclared, hverified, registered, hregistered, rfl, hdigest⟩ := hcall
  obtain ⟨declared, hdeclaredMem, hdeclaredId, hclosed, hsha, hcount, hcomplete⟩ := hdeclared
  have hsame := h.uploads.eq_of_uploadId hdeclaredMem hrow (hdeclaredId.trans hid.symm)
  subst hsame
  rcases hcase with ⟨hstate, hartifact, rfl⟩ | ⟨hstate, hupdated, hpending⟩
  · -- the upload was committed before, to this artifact
    refine ⟨h.uploads, h.prepared, h.genuine, h.calls, h.proven, fun entry hentry => ?_⟩
    rcases List.mem_append.mp hentry with hold | hlast
    · exact h.returned entry hold
    · rw [List.mem_singleton.mp hlast]
      exact ⟨declared, hrow, hid, hstate, registered, hregistered, rfl, hartifact⟩
  · have hbound : ∀ old : UploadRow, (old.uploadId == session.uploadId &&
        old.state == .committing) = true → old.state = .committing :=
      fun old htest => beq_iff_eq.mp ((Bool.and_eq_true ..).mp htest).2
    have hkept : ∀ old ∈ v.uploads.uploads, ∃ old' ∈ uploads.uploads, RowFollows old old' := by
      intro old hold
      rw [hupdated]
      refine ⟨_, mem_updateWhere.mpr ⟨old, hold, rfl⟩, ?_⟩
      split
      next htest =>
        have hcommitting := hbound old htest
        refine ⟨rfl, rfl, rfl, fun _ => ⟨nofun, rfl⟩, fun haborted => ?_, fun hcommitted => ?_⟩
        · rw [hcommitting] at haborted
          cases haborted
        · rw [hcommitting] at hcommitted
          cases hcommitted
      · exact RowFollows.refl old
    have hfollows : Follows v.uploads uploads :=
      ⟨hkept, fun old _ _ => received_of_chunks hchunks _⟩
    -- every committed upload was committed before, or is the one that is bound
    have hcommitted : ∀ row' ∈ uploads.uploads, row'.state = .committed →
        row' ∈ v.uploads.uploads ∨ row' = { declared with
          state := .committed, artifactId := some (artifactRef registered).artifactId,
          committedAt := some now, updatedAt := now } := by
      intro row' hrow' _
      rw [hupdated] at hrow'
      obtain ⟨old, hold, rfl⟩ := mem_updateWhere.mp hrow'
      split
      next htest =>
        have hoperand := beq_iff_eq.mp ((Bool.and_eq_true ..).mp htest).1
        rw [h.uploads.eq_of_uploadId hold hrow (hoperand.trans hid.symm)]
        exact Or.inr rfl
      · exact Or.inl hold
    have hlength : (received v.uploads declared.uploadId).length = declared.declaredByteCount := by
      have htiled := (h.uploads.matched declared hrow (Or.inr hstate)).tiled.length_flatMap
      rw [Nat.zero_add] at htiled
      exact htiled.trans hcomplete
    have hprepared : Prepared uploads := by
      refine ⟨fun row' hrow' hstate' => ?_, fun transaction ht => ?_, fun pending hmem => ?_⟩
      · rcases hcommitted row' hrow' hstate' with hold | rfl
        · exact h.prepared.complete row' hold hstate'
        · exact hcomplete
      · rw [hfree] at ht
        cases ht
      · rw [hpending] at hmem
        rcases List.mem_append.mp hmem with hold | hlast
        · exact waiting_follows (h.prepared.waiting pending hold) hfollows
        · rw [List.mem_singleton.mp hlast]
          trivial
    have hmemBound : { declared with
        state := .committed, artifactId := some (artifactRef registered).artifactId,
        committedAt := some now, updatedAt := now } ∈ uploads.uploads := by
      rw [hupdated]
      refine mem_updateWhere.mpr ⟨declared, hrow, if_pos ?_⟩
      rw [hid, hstate]
      simp
    refine ⟨hsound, hprepared, h.genuine, fun call hcall =>
      (h.calls call hcall).follows hfollows hsound.ids (Registry.Grows.refl _), fun row' hrow' hstate' => ?_,
      fun entry hentry => ?_⟩
    · have hreceived : received uploads row'.uploadId = received v.uploads row'.uploadId :=
        received_of_chunks hchunks _
      rcases hcommitted row' hrow' hstate' with hold | rfl
      · exact (h.proven row' hold hstate').follows (RowFollows.refl row') hstate' hreceived
          (Registry.Grows.refl _)
      · have hnotAborted : declared.state ≠ .aborted := by
          rw [hstate]
          exact nofun
        have hproof := hverified declared hrow hid hnotAborted
        refine ⟨?_, ?_, registered, hregistered, rfl, hdigest.trans hsha.symm⟩
        · exact (congrArg V.sha256 hreceived).trans (hproof.trans hsha.symm)
        · exact (congrArg List.length hreceived).trans hlength
    · rcases List.mem_append.mp hentry with hold | hlast
      · exact (h.returned entry hold).follows hfollows (Registry.Grows.refl _)
      · rw [List.mem_singleton.mp hlast]
        exact ⟨_, hmemBound, hid, rfl, registered, hregistered, rfl, rfl⟩

/-- A staged spool file is what was received, unless the upload is aborted. -/
theorem VaultSound.stage (h : VaultSound V v) {generated : Id} {staged : StagedArtifact}
    (hdeclared : Declared v.uploads session) (hok : stageSpool V v session generated = .ok staged) :
    Verified V v.uploads session ∧ V.sha256 staged.bytes = session.declaredSha256 := by
  obtain ⟨bytes, hspool, hok⟩ := bind_eq_ok.mp hok
  obtain ⟨_, hsize, hok⟩ := bind_eq_ok.mp hok
  have hspool := orReject_eq_ok.mp hspool
  have hsize := bne_eq_false_iff_eq.mp (rejectIf_eq_ok.mp hsize)
  cases hstage : stageInput V.content
      { name := session.logicalName, sha256 := session.declaredSha256,
        byteCount := session.declaredByteCount, mediaType := session.mediaType }
      (v.uploads.spools (spoolName session.uploadId)) generated with
  | error error =>
    rw [hstage] at hok
    cases hok
  | ok result =>
    rw [hstage] at hok
    cases hok
    obtain ⟨hsource, -, hdigest, -⟩ := stageInput_spec hstage
    have hbytes : staged.bytes = bytes := Option.some.inj (hsource.symm.trans hspool)
    refine ⟨fun row hrow hid hnotAborted => ?_, hdigest⟩
    obtain ⟨declared, hmem, hdeclaredId, hclosed, hsha, hcount, hcomplete⟩ := hdeclared
    have hsame := h.uploads.eq_of_uploadId hmem hrow (hdeclaredId.trans hid.symm)
    subst hsame
    cases hstate : declared.state with
    | opened => exact absurd hstate hclosed
    | aborted => exact absurd hstate hnotAborted
    | committed => exact ((h.proven declared hrow hstate).1).trans hsha
    | committing =>
      obtain ⟨-, -, found, hfound, -, htake⟩ := h.uploads.matched declared hrow (Or.inr hstate)
      rw [h.uploads.names declared hrow, hid, hspool] at hfound
      have hfoundBytes := Option.some.inj hfound
      subst hfoundBytes
      have hall : declared.receivedByteCount = bytes.length := by omega
      rw [hall, List.take_length] at htake
      have hreceived : received v.uploads declared.uploadId = staged.bytes :=
        htake.symm.trans hbytes.symm
      rw [hreceived]
      exact hdigest

/-- A step of a call of `commit`. -/
theorem VaultSound.carryOn (h : VaultSound V v) {call : CommitCall} {now : Stamp} {generated : Id}
    (hcall : call.Sound V v) (hok : carryOn V v call now generated = .ok v') : VaultSound V v' := by
  cases call with
  | stage session =>
    obtain ⟨staged, hstage, hok⟩ := bind_eq_ok.mp hok
    cases pure_eq_ok.mp hok
    obtain ⟨hverified, hdigest⟩ := h.stage hcall hstage
    have hnext : CommitCall.Sound V v (.commit session staged) := ⟨hcall, hverified, hdigest⟩
    exact h.later hnext
  | commit session staged =>
    have hcontents := h.setContents (h.genuine.place staged) (grows_place staged)
    simp only [Possession.carryOn] at hok
    split at hok
    · rename_i contents error hcommit
      cases hok
      rw [show contents = (v.contents.commit V.content staged).1 by rw [hcommit]]
      exact hcontents
    · rename_i contents file hcommit
      cases hok
      rw [show contents = (v.contents.commit V.content staged).1 by rw [hcommit]]
      obtain ⟨rfl, hholds⟩ := commit_spec (show (v.contents.commit V.content staged).2 = .ok file by
        rw [hcommit])
      have hnext : CommitCall.Sound V
          { v with contents := (v.contents.commit V.content staged).1 }
          (.register session (staged.committed V.content)) :=
        ⟨hcall.1, hcall.2.1, hcall.2.2, hholds⟩
      exact hcontents.later hnext
  | register session file =>
    obtain ⟨⟨contents, artifact⟩, hregister, hok⟩ := bind_eq_ok.mp hok
    have hregister : v.contents.register file = .ok (contents, artifact) := by
      cases hresult : v.contents.register file with
      | error error =>
        rw [hresult] at hregister
        cases hregister
      | ok result =>
        rw [hresult] at hregister
        cases hregister
        rfl
    have hcontents := h.setContents (h.genuine.register hcall.2.2.2 hregister)
      (grows_register hregister)
    obtain ⟨-, hartifact, hdigest, -⟩ := register_spec hregister
    dsimp only at hok
    split at hok
    · cases hok
      exact hcontents
    · cases hok
      have hnext : CommitCall.Sound V { v with contents := contents }
          (.bind session (artifactRef artifact)) :=
        ⟨hcall.1, hcall.2.1, artifact, hartifact, rfl, hdigest.trans hcall.2.2.1⟩
      exact hcontents.later hnext
  | bind session artifact =>
    obtain ⟨uploads, hbind, hok⟩ := bind_eq_ok.mp hok
    cases pure_eq_ok.mp hok
    cases hresult : bindCommitted v.uploads session artifact now with
    | error error =>
      rw [hresult] at hbind
      cases hbind
    | ok result =>
      rw [hresult] at hbind
      cases hbind
      exact h.bind hcall hresult

end Vaults

/-! ## The condition -/

/-- The identifiers that are generated for uploads are new. -/
def NewUpload (v : Vault) : VaultOp → Prop
  | .upload op => NewIdentifier v.uploads op
  | _ => True

/-- Replayed declarations cut spool files in time. -/
def CutsSpoolInTime (v : Vault) : VaultOp → Prop
  | .upload op => CutsInTime v.uploads op
  | _ => True

/-- When `commit` finds an artifact with the declared digest of an upload that is not committed
yet, what was received has that digest. -/
def FoundReceived (V : VaultRuntime) (v : Vault) : VaultOp → Prop
  | .lookup index => ∀ session, v.uploads.pending[index]? = some (.bind session) →
      (v.contents.findBySha256 session.declaredSha256).isSome = true →
        ∀ row ∈ v.uploads.uploads, row.uploadId = session.uploadId → row.state = .committing →
          V.sha256 (received v.uploads row.uploadId) = row.declaredSha256
  | _ => True

section Steps

variable {V : VaultRuntime} {v : Vault}

/-- `commit` looks for an artifact. -/
theorem VaultSound.lookup (h : VaultSound V v) {index : ℕ}
    (hfound : FoundReceived V v (.lookup index)) : VaultSound V (lookup v index) := by
  unfold Possession.lookup
  split
  next session hat =>
    have hdeclared : Declared v.uploads session := h.prepared.waiting _ (List.mem_of_getElem? hat)
    have hrest : VaultSound V { v with
        uploads := { v.uploads with pending := v.uploads.pending.eraseIdx index } } :=
      h.frame (h.uploads.eraseIdx index) (h.prepared.eraseIdx index) h.genuine (Registry.Grows.refl _) rfl
        fun _ hold => Or.inl hold
    have hfollows := (h.prepared.eraseIdx index).1.1
    dsimp only
    split
    · exact hrest.later (show CommitCall.Sound V _ (.stage session) from hdeclared.follows hfollows)
    next artifact hartifact =>
      split
      · exact hrest
      · obtain ⟨hmem, hdigest⟩ := mem_of_findBySha256 hartifact
        have hverified : Verified V v.uploads session := by
          intro row hrow hid hnotAborted
          have hreceived := hfound session hat (by rw [hartifact]; rfl) row hrow hid
          obtain ⟨declared, hdeclaredMem, hdeclaredId, hclosed, hsha, -⟩ := hdeclared
          have hsame := h.uploads.eq_of_uploadId hdeclaredMem hrow (hdeclaredId.trans hid.symm)
          subst hsame
          cases hstate : declared.state with
          | opened => exact absurd hstate hclosed
          | aborted => exact absurd hstate hnotAborted
          | committed => exact ((h.proven declared hrow hstate).1).trans hsha
          | committing => exact (hreceived hstate).trans hsha
        exact hrest.later (show CommitCall.Sound V _ (.bind session (artifactRef artifact)) from
          ⟨hdeclared.follows hfollows,
            hverified.follows hdeclared hfollows (h.uploads.eraseIdx index).ids,
            artifact, hmem, rfl, hdigest⟩)
  · exact h

/-- `commit` finds the artifact of a committed upload. -/
theorem VaultSound.confirm (h : VaultSound V v) (index : ℕ) (now : Stamp) :
    VaultSound V (confirm v index now) := by
  unfold Possession.confirm
  split
  next session name hat =>
    dsimp only
    have hsound : Uploads.Sound V.uploads (Uploads.step V.uploads v.uploads (.resume index now
        ((v.contents.findBySha256 session.declaredSha256).map artifactRef))) := by
      refine sound_step h.uploads trivial fun other hother => ?_
      rw [hat] at hother
      cases hother
    have hkeeps : Keeps v.uploads (Uploads.resume v.uploads index now
        ((v.contents.findBySha256 session.declaredSha256).map artifactRef)) := by
      refine h.prepared.resume fun other hother => ?_
      rw [hat] at hother
      cases hother
    exact h.frame hsound hkeeps h.genuine (Registry.Grows.refl _) rfl fun _ hold => Or.inl hold
  · exact h

/-- A call of `commit` ends. -/
theorem VaultSound.drop (h : VaultSound V v) (index : ℕ) :
    VaultSound V { v with calls := v.calls.eraseIdx index } :=
  h.recall rfl rfl rfl fun _ hcall => Or.inl (List.mem_of_mem_eraseIdx hcall)

/-- A step of the call at a place. -/
theorem VaultSound.carryOnAt (h : VaultSound V v) (index : ℕ) (now : Stamp) (generated : Id) :
    VaultSound V (carryOnAt V v index now generated) := by
  unfold Possession.carryOnAt
  cases hat : v.calls[index]? with
  | none => exact h
  | some call =>
    have hcall := h.calls call (List.mem_of_getElem? hat)
    dsimp only
    split
    next after hok =>
      refine (h.drop index).carryOn ?_ hok
      exact hcall.follows (follows_of_same rfl rfl).1 h.uploads.ids (Registry.Grows.refl _)
    · exact h
    · exact h.drop index

/-- An operation that satisfies the conditions keeps the invariant. -/
theorem vaultSound_step {op : VaultOp} (h : VaultSound V v) (hnew : NewUpload v op)
    (htime : CutsSpoolInTime v op) (hfound : FoundReceived V v op) : VaultSound V (step V v op) := by
  cases op with
  | upload op =>
    by_cases htakes : takesArtifact v.uploads op = true
    · rw [step, if_pos htakes]
      exact h
    · rw [step, if_neg htakes]
      exact h.frame (sound_step h.uploads hnew htime)
        (h.prepared.step h.uploads (Bool.not_eq_true _ ▸ htakes)) h.genuine (Registry.Grows.refl _) rfl
        fun _ hold => Or.inl hold
  | lookup index => exact h.lookup hfound
  | confirm index now => exact h.confirm index now
  | carryOn index now generated => exact h.carryOnAt index now generated
  | drop index => exact h.drop index
  | elsewhere op => exact h.setContents (h.genuine.step op) (Registry.grows_step _ op)

/-- Nothing is wrong before anything has happened. -/
theorem vaultSound_empty : VaultSound V {} where
  uploads := Uploads.sound_empty
  prepared := ⟨fun _ h => (nomatch h), fun _ h => (nomatch h), fun _ h => (nomatch h)⟩
  genuine := genuine_empty
  calls _ h := nomatch h
  proven _ h := nomatch h
  returned _ h := nomatch h

end Steps

/-! ## The law of the commits -/

/-- No byte string of the content store has the digest of what was received for an upload without
being the same. -/
def CollisionFree (V : VaultRuntime) (v : Vault) : Prop :=
  ∀ digest content, v.contents.finals digest = some content → ∀ row ∈ v.uploads.uploads,
    V.sha256 content = V.sha256 (received v.uploads row.uploadId) →
      content = received v.uploads row.uploadId

def Possesses (V : VaultRuntime) (v : Vault) (row : UploadRow) (artifact : Artifact) : Prop :=
  V.sha256 (received v.uploads row.uploadId) = row.declaredSha256 ∧
    (received v.uploads row.uploadId).length = row.declaredByteCount ∧
      v.contents.findById artifact.artifactId = some artifact ∧
        Stored v.contents artifact (received v.uploads row.uploadId)

/-- A commit proves possession: of every artifact that a call of `commit` has returned, and of the
artifact of every committed upload. -/
structure ProvesPossession (V : VaultRuntime) (v : Vault) : Prop where
  returned : ∀ uploadId ref, (uploadId, ref) ∈ v.returned → ∃ row ∈ v.uploads.uploads,
    row.uploadId = uploadId ∧ ∃ artifact, ref = artifactRef artifact ∧ Possesses V v row artifact
  committed : ∀ row ∈ v.uploads.uploads, row.state = .committed → ∃ artifact,
    row.artifactId = some artifact.artifactId ∧ Possesses V v row artifact

section Laws

variable {V : VaultRuntime} {v : Vault}

theorem VaultSound.possesses (h : VaultSound V v) (hfree : CollisionFree V v) {row : UploadRow}
    (hrow : row ∈ v.uploads.uploads) (hstate : row.state = .committed) {artifact : Artifact}
    (hartifact : artifact ∈ v.contents.db.artifacts)
    (hid : row.artifactId = some artifact.artifactId) : Possesses V v row artifact := by
  obtain ⟨hsha, hlength, bound, hbound, hboundId, hdigest⟩ := h.proven row hrow hstate
  have hsame : bound = artifact :=
    h.genuine.eq_of_artifactId hbound hartifact (Option.some.inj (hboundId.symm.trans hid))
  subst hsame
  obtain ⟨content, hstored⟩ := h.genuine.stored bound hbound
  have haddress : V.sha256 content = bound.sha256 := h.genuine.addressed _ _ hstored.1
  have hcontent := hfree _ content hstored.1 row hrow (haddress.trans (hdigest.trans hsha.symm))
  rw [hcontent] at hstored
  exact ⟨hsha, hlength, h.genuine.findById_eq hbound, hstored⟩

/-- In every run in which declarations cut in time and `commit` finds no artifact that was not
sent, a commit proves possession. -/
theorem commit_proves_possession {history : List VaultOp}
    (hnew : StepsSatisfy (step V) NewUpload {} history)
    (htime : StepsSatisfy (step V) CutsSpoolInTime {} history)
    (hfound : StepsSatisfy (step V) (FoundReceived V) {} history)
    (hfree : CollisionFree V (reached V history)) : ProvesPossession V (reached V history) := by
  have h : VaultSound V (reached V history) := by
    refine @runFrom_invariant_of _ _ (step V) (VaultSound V)
      (fun v op => NewUpload v op ∧ CutsSpoolInTime v op ∧ FoundReceived V v op) _ vaultSound_empty
      (fun v op hv hop => vaultSound_step hv hop.1 hop.2.1 hop.2.2) _ ?_
    exact fun before op after hsplit =>
      ⟨hnew before op after hsplit, htime before op after hsplit, hfound before op after hsplit⟩
  constructor
  · intro uploadId ref hentry
    obtain ⟨row, hrow, hid, hstate, artifact, hartifact, href, hbound⟩ := h.returned _ hentry
    exact ⟨row, hrow, hid, artifact, href, h.possesses hfree hrow hstate hartifact hbound⟩
  · intro row hrow hstate
    obtain ⟨-, -, artifact, hartifact, hbound, -⟩ := h.proven row hrow hstate
    exact ⟨artifact, hbound, h.possesses hfree hrow hstate hartifact hbound⟩

end Laws

/-! ## Content that was not sent -/

/-- Surroundings in which one byte has a digest of its own. -/
def oneByte : VaultRuntime where
  sha256 bytes := String.ofList (List.replicate 64 (if bytes = [8] then '8' else '7'))
  maxUploadBytes := 10
  maxChunkBytes := 10
  maxBytes := 10

/-- A declaration of the byte `8`, an offer of one byte, and the first part of a commit. -/
def declareAndSend (byte : UInt8) : List VaultOp :=
  [.upload (.begin "request" "name" "text/plain" 1 (oneByte.sha256 [8]) "u" "now"), .upload .advance,
    .upload (.append "u" 0 [byte] (oneByte.sha256 [byte]) "now"), .upload .advance, .upload .advance,
    .upload .advance, .upload (.prepareCommit "u" "now"), .upload .advance, .upload .advance,
    .lookup 0]

/-- The byte `8` is an artifact already. Another byte is sent for it. -/
def unsentContent : List VaultOp :=
  .elsewhere (.put [8] "text/plain" "a") ::
    .elsewhere (.register ⟨"a", oneByte.sha256 [8], 1, "text/plain"⟩) ::
      (declareAndSend 7 ++ [.carryOn 0 "now" "g"])

/-- The byte `8` is sent. -/
def sentContent : List VaultOp :=
  declareAndSend 8 ++ [.carryOn 0 "now" "a", .carryOn 0 "now" "g", .carryOn 0 "now" "g",
    .carryOn 0 "now" "g"]

/-- The upload of one byte is committed to an artifact with another content. -/
theorem unsent_content_committed :
    StepsSatisfy (step oneByte) NewUpload {} unsentContent ∧
      StepsSatisfy (step oneByte) CutsSpoolInTime {} unsentContent ∧
        CollisionFree oneByte (reached oneByte unsentContent) ∧
          ¬ ProvesPossession oneByte (reached oneByte unsentContent) := by
  have hreceived : ∀ row ∈ (reached oneByte unsentContent).uploads.uploads,
      received (reached oneByte unsentContent).uploads row.uploadId = [7] := by decide +kernel
  refine ⟨?_, ?_, ?_, fun hproves => ?_⟩
  · have hbegin : StepsSatisfy (step oneByte) NewUpload (reached oneByte (unsentContent.take 2))
        (declareAndSend 7 ++ [.carryOn 0 "now" "g"]) := by
      refine .cons ⟨by decide, rfl, fun _ hmem => nomatch hmem⟩ (.of_forall fun op hop v => ?_)
      rcases List.mem_append.mp (show op ∈ (declareAndSend 7).tail ++ _ from hop) with hop | hop
      · simp only [declareAndSend, List.tail_cons, List.mem_cons, List.not_mem_nil, or_false] at hop
        rcases hop with rfl | rfl | rfl | rfl | rfl | rfl | rfl | rfl | rfl <;> exact trivial
      · rw [List.mem_singleton.mp hop]
        trivial
    exact .cons trivial (.cons trivial hbegin)
  · refine .of_forall fun op hop v => ?_
    simp only [unsentContent, declareAndSend, List.mem_append, List.mem_cons, List.not_mem_nil,
      or_false] at hop
    rcases hop with rfl | rfl | (rfl | rfl | rfl | rfl | rfl | rfl | rfl | rfl | rfl | rfl) | rfl <;>
      exact trivial
  · intro digest content hfinal row hrow hsha
    have hfinals : (reached oneByte unsentContent).contents.finals =
        Function.update (fun _ => none) (oneByte.sha256 [8]) (some [8]) := rfl
    rw [hfinals] at hfinal
    by_cases heq : digest = oneByte.sha256 [8]
    · rw [heq, Function.update_self] at hfinal
      rw [hreceived row hrow, ← Option.some.inj hfinal] at hsha
      exact absurd hsha (by decide +kernel)
    · rw [Function.update_of_ne heq] at hfinal
      cases hfinal
  · have hcommitted : ∃ row ∈ (reached oneByte unsentContent).uploads.uploads,
        row.state = .committed ∧ row.declaredSha256 = oneByte.sha256 [8] := by decide +kernel
    obtain ⟨row, hrow, hstate, hdeclared⟩ := hcommitted
    obtain ⟨artifact, -, hsha, -⟩ := hproves.committed row hrow hstate
    rw [hreceived row hrow, hdeclared] at hsha
    exact absurd hsha (by decide +kernel)

/-- The upload of the byte that was declared is committed to an artifact with this content. -/
theorem sent_content_possessed : ProvesPossession oneByte (reached oneByte sentContent) ∧
    (reached oneByte sentContent).uploads.uploads.map (·.artifactId) = [some "a"] := by
  refine ⟨commit_proves_possession ?_ ?_ ?_ ?_, by decide +kernel⟩
  · refine .cons ⟨by decide, rfl, fun _ hmem => nomatch hmem⟩ (.of_forall fun op hop v => ?_)
    rcases List.mem_append.mp (show op ∈ (declareAndSend 8).tail ++ _ from hop) with hop | hop
    · simp only [declareAndSend, List.tail_cons, List.mem_cons, List.not_mem_nil, or_false] at hop
      rcases hop with rfl | rfl | rfl | rfl | rfl | rfl | rfl | rfl | rfl <;> exact trivial
    · simp only [List.mem_cons, List.not_mem_nil, or_false] at hop
      rcases hop with rfl | rfl | rfl | rfl <;> exact trivial
  · refine .of_forall fun op hop v => ?_
    simp only [sentContent, declareAndSend, List.mem_append, List.mem_cons, List.not_mem_nil,
      or_false] at hop
    rcases hop with (rfl | rfl | rfl | rfl | rfl | rfl | rfl | rfl | rfl | rfl) | rfl | rfl | rfl |
      rfl <;> exact trivial
  · refine .cons trivial (.cons trivial (.cons trivial (.cons trivial (.cons trivial (.cons trivial
      (.cons trivial (.cons trivial (.cons trivial (.cons (fun session hat hsome => ?_)
        (.cons trivial (.cons trivial (.cons trivial (.cons trivial .nil)))))))))))))
    cases hat
    exact absurd hsome (by decide +kernel)
  · intro digest content hfinal row hrow _
    have hreceived : ∀ row ∈ (reached oneByte sentContent).uploads.uploads,
        received (reached oneByte sentContent).uploads row.uploadId = [8] := by decide +kernel
    have hfinals : (reached oneByte sentContent).contents.finals =
        Function.update (fun _ => none) (oneByte.sha256 [8]) (some [8]) := rfl
    rw [hfinals] at hfinal
    rw [hreceived row hrow]
    by_cases heq : digest = oneByte.sha256 [8]
    · rw [heq, Function.update_self] at hfinal
      exact (Option.some.inj hfinal).symm
    · rw [Function.update_of_ne heq] at hfinal
      cases hfinal

end ResearchKernel.Product.Possession
