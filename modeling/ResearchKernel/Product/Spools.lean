import ResearchKernel.Product.Uploads

/-!
# Spool files match the ledger

What the ledger calls durable is in the spool file: the chunks that were accepted, one after the
other. A replayed declaration cuts the spool file without the write lock, to the bytes that were
durable when it read the ledger. As long as no chunk has come in the meantime, that is harmless.
-/

namespace ResearchKernel.Product.Uploads

open Foundation

/-! ## What the ledger promises -/

/-- An upload that still takes chunks or is being committed. -/
def UploadRow.Live (row : UploadRow) : Prop := row.state = .opened ∨ row.state = .committing

instance (row : UploadRow) : Decidable row.Live :=
  inferInstanceAs (Decidable (row.state = .opened ∨ row.state = .committing))

/-- The chunks of an upload tile its durable bytes, and the spool file begins with them. -/
structure Holds (U : UploadRuntime) (spools : String → Option (List UInt8)) (chunks : List ChunkRow)
    (row : UploadRow) : Prop where
  tiled : Tiles ChunkRow.chunkOffset ChunkRow.data 0 (chunks.filter (·.uploadId == row.uploadId))
    row.receivedByteCount
  recorded : ∀ chunk ∈ chunks, chunk.uploadId = row.uploadId →
    chunk.byteCount = chunk.data.length ∧ chunk.transferSha256 = U.sha256 chunk.data
  spooled : ∃ bytes, spools row.spoolName = some bytes ∧ row.receivedByteCount ≤ bytes.length ∧
    bytes.take row.receivedByteCount =
      (chunks.filter (·.uploadId == row.uploadId)).flatMap ChunkRow.data

/-- The spool files match the ledger. -/
def SpoolsMatch (U : UploadRuntime) (s : UploadStore) : Prop :=
  ∀ row ∈ s.uploads, row.Live → Holds U s.spools s.chunks row

/-- An operation cuts a spool file to a size. -/
def Cuts (s : UploadStore) (name : String) (size : ℕ) : UploadOp → Prop
  | .resume index _ _ => ∃ session, s.pending[index]? = some (.truncate session) ∧
      name = spoolName session.uploadId ∧ size = session.receivedByteCount
  | .advance =>
      (∃ row data transferSha256 now,
        s.transaction = some (.append row data transferSha256 now .longer) ∧
          name = row.spoolName ∧ size = row.receivedByteCount) ∨
        ∃ row now, s.transaction = some (.prepare row now .longer) ∧
          name = spoolName row.uploadId ∧ size = row.receivedByteCount
  | _ => False

/-- No operation cuts a spool file below its durable bytes. -/
def NeverCutsShort (s : UploadStore) (op : UploadOp) : Prop :=
  ∀ name size, Cuts s name size op → ∀ row ∈ s.uploads, row.Live → row.spoolName = name →
    row.receivedByteCount ≤ size

/-! ## The condition -/

/-- A call is about to accept a chunk that it has written. -/
def Writing (s : UploadStore) (uploadId : Id) : Prop :=
  ∃ row data transferSha256 now,
    s.transaction = some (.append row data transferSha256 now .written) ∧ row.uploadId = uploadId

/-- Whether something pending removes a spool file. -/
def Pending.Unlinks (pending : Pending) (name : String) : Prop :=
  pending = .unlink name ∨ ∃ session, pending = .confirm session name

/-- The identifier that is generated for an upload is new. -/
def NewIdentifier (s : UploadStore) : UploadOp → Prop
  | .begin _ _ _ _ _ uploadId _ => (∀ row ∈ s.uploads, row.uploadId ≠ uploadId) ∧
      s.spools (spoolName uploadId) = none ∧
        ∀ pending ∈ s.pending, ¬ pending.Unlinks (spoolName uploadId)
  | _ => True

/-- When a replayed declaration cuts the spool file of an upload that is not at its end, no chunk
was accepted since it read the ledger, and none is written and about to be accepted. -/
def CutsInTime (s : UploadStore) : UploadOp → Prop
  | .resume index _ _ => ∀ session, s.pending[index]? = some (.truncate session) →
      ∀ row ∈ s.uploads, row.uploadId = session.uploadId → row.Live →
        row.receivedByteCount = session.receivedByteCount ∧ ¬ Writing s row.uploadId
  | _ => True

/-! ## The invariant -/

/-- What is pending removes no spool file that is needed. -/
def Pending.Sound (s : UploadStore) (pending : Pending) : Prop :=
  ∀ name, pending.Unlinks name → ∀ row ∈ s.uploads, row.spoolName = name → ¬ row.Live

/-- What is known of the call that has the write lock. -/
def Transaction.Sound (U : UploadRuntime) (s : UploadStore) : Transaction → Prop
  | .insert row => row.receivedByteCount = 0 ∧ row.spoolName = spoolName row.uploadId ∧
      (∀ old ∈ s.uploads, old.uploadId ≠ row.uploadId) ∧ (s.spools row.spoolName).isSome = true ∧
        ∀ pending ∈ s.pending, ¬ pending.Unlinks row.spoolName
  | .discard name => ∀ row ∈ s.uploads, row.spoolName = name → ¬ row.Live
  | .append row data transferSha256 _ stage => row ∈ s.uploads ∧ row.state = .opened ∧ data ≠ [] ∧
      transferSha256 = U.sha256 data ∧ (stage = .written → ∃ bytes,
        s.spools row.spoolName = some bytes ∧
          row.receivedByteCount + data.length ≤ bytes.length ∧
            (bytes.drop row.receivedByteCount).take data.length = data)
  | .prepare row _ _ => row ∈ s.uploads

/-- The invariant of the uploads. -/
structure Sound (U : UploadRuntime) (s : UploadStore) : Prop where
  ids : (s.uploads.map (·.uploadId)).Nodup
  names : ∀ row ∈ s.uploads, row.spoolName = spoolName row.uploadId
  matched : SpoolsMatch U s
  owned : ∀ chunk ∈ s.chunks, ∃ row ∈ s.uploads, row.uploadId = chunk.uploadId
  locked : ∀ transaction, s.transaction = some transaction → transaction.Sound U s
  pending : ∀ pending ∈ s.pending, pending.Sound s

section Lemmas

variable {U : UploadRuntime} {s : UploadStore}

/-- The name of a spool file says whose it is. -/
theorem spoolName_inj {a b : Id} (h : spoolName a = spoolName b) : a = b := by
  unfold spoolName at h
  have hlists := congrArg String.toList h
  rw [String.toList_append, String.toList_append] at hlists
  exact String.toList_injective (List.append_cancel_right hlists)

variable {row : UploadRow}

/-- An upload is found by its identifier. -/
theorem Sound.eq_of_uploadId (h : Sound U s) {other : UploadRow} (hrow : row ∈ s.uploads)
    (hother : other ∈ s.uploads) (hid : row.uploadId = other.uploadId) : row = other :=
  List.inj_on_of_nodup_map h.ids hrow hother hid

theorem Sound.eq_of_spoolName (h : Sound U s) {other : UploadRow} (hrow : row ∈ s.uploads)
    (hother : other ∈ s.uploads) (hname : row.spoolName = other.spoolName) : row = other := by
  rw [h.names row hrow, h.names other hother] at hname
  exact h.eq_of_uploadId hrow hother (spoolName_inj hname)

/-- The upload that is looked up. -/
theorem mem_of_upload {uploadId : Id} (h : s.upload uploadId = some row) :
    row ∈ s.uploads ∧ row.uploadId = uploadId :=
  ⟨List.mem_of_find?_eq_some h, by simpa using List.find?_some h⟩

/-- What a spool file holds is not changed by what leaves its durable bytes. -/
theorem Holds.of_spools {spools spools' : String → Option (List UInt8)} {chunks : List ChunkRow}
    (h : Holds U spools chunks row)
    (hkeeps : ∀ bytes, spools row.spoolName = some bytes → row.receivedByteCount ≤ bytes.length →
      ∃ bytes', spools' row.spoolName = some bytes' ∧ row.receivedByteCount ≤ bytes'.length ∧
        bytes'.take row.receivedByteCount = bytes.take row.receivedByteCount) :
    Holds U spools' chunks row where
  tiled := h.tiled
  recorded := h.recorded
  spooled := by
    obtain ⟨bytes, hspool, hlength, htake⟩ := h.spooled
    obtain ⟨bytes', hspool', hlength', htake'⟩ := hkeeps bytes hspool hlength
    exact ⟨bytes', hspool', hlength', htake'.trans htake⟩

theorem Sound.of_ledger {s' : UploadStore} (h : Sound U s) (huploads : s'.uploads = s.uploads)
    (hchunks : s'.chunks = s.chunks) (hspools : s'.spools = s.spools)
    (hlocked : ∀ transaction, s'.transaction = some transaction → transaction.Sound U s')
    (hpending : ∀ pending ∈ s'.pending, pending.Sound s') : Sound U s' where
  ids := huploads ▸ h.ids
  names := huploads ▸ h.names
  matched := by
    unfold SpoolsMatch
    rw [huploads, hchunks, hspools]
    exact h.matched
  owned := by
    rw [huploads, hchunks]
    exact h.owned
  locked := hlocked
  pending := hpending

/-- A change of one spool file that leaves the durable bytes of its upload. -/
theorem Sound.setSpool (h : Sound U s) {name : String} {spool : Option (List UInt8)}
    (hkeeps : ∀ row ∈ s.uploads, row.Live → row.spoolName = name → ∀ bytes,
      s.spools name = some bytes → row.receivedByteCount ≤ bytes.length →
        ∃ bytes', spool = some bytes' ∧ row.receivedByteCount ≤ bytes'.length ∧
          bytes'.take row.receivedByteCount = bytes.take row.receivedByteCount)
    (hlocked : ∀ transaction, s.transaction = some transaction →
      transaction.Sound U (s.setSpool name spool)) : Sound U (s.setSpool name spool) where
  ids := h.ids
  names := h.names
  matched := by
    intro row hrow hlive
    refine (h.matched row hrow hlive).of_spools fun bytes hspool hlength => ?_
    by_cases hname : row.spoolName = name
    · rw [hname] at hspool
      obtain ⟨bytes', hspool', hkept⟩ := hkeeps row hrow hlive hname bytes hspool hlength
      refine ⟨bytes', ?_, hkept⟩
      rw [hname]
      exact (Function.update_self ..).trans hspool'
    · exact ⟨bytes, (Function.update_of_ne hname ..).trans hspool, hlength, rfl⟩
  owned := h.owned
  locked := hlocked
  pending := h.pending

/-- The write lock is given back. -/
theorem Sound.rollback (h : Sound U s) : Sound U s.rollback :=
  h.of_ledger rfl rfl rfl (fun _ ht => nomatch ht) h.pending

/-- Something more is pending. -/
theorem Sound.later (h : Sound U s) {pending : Pending} (hpending : pending.Sound s)
    (hnew : ∀ row, s.transaction = some (.insert row) → ¬ pending.Unlinks row.spoolName) :
    Sound U (s.later pending) := by
  refine h.of_ledger rfl rfl rfl (fun transaction ht => ?_) fun other hother => ?_
  · have hsound := h.locked transaction ht
    cases transaction with
    | insert row =>
      refine ⟨hsound.1, hsound.2.1, hsound.2.2.1, hsound.2.2.2.1, fun other hother => ?_⟩
      rcases List.mem_append.mp hother with hold | hlast
      · exact hsound.2.2.2.2 other hold
      · rw [List.mem_singleton.mp hlast]
        exact hnew row ht
    | discard | append | prepare => exact hsound
  · rcases List.mem_append.mp hother with hold | hlast
    · exact h.pending other hold
    · rw [List.mem_singleton.mp hlast]
      exact hpending

/-- Something is no longer pending. -/
theorem Sound.eraseIdx (h : Sound U s) (index : ℕ) :
    Sound U { s with pending := s.pending.eraseIdx index } := by
  refine h.of_ledger rfl rfl rfl (fun transaction ht => ?_) fun other hother =>
    h.pending other (List.mem_of_mem_eraseIdx hother)
  have hsound := h.locked transaction ht
  cases transaction with
  | insert row =>
    exact ⟨hsound.1, hsound.2.1, hsound.2.2.1, hsound.2.2.2.1, fun other hother =>
      hsound.2.2.2.2 other (List.mem_of_mem_eraseIdx hother)⟩
  | discard | append | prepare => exact hsound

/-- A change of rows that leaves their names and their durable bytes, and brings no upload back. -/
theorem Sound.updateUploads (h : Sound U s) (hfree : s.transaction = none)
    {test : UploadRow → Bool} {change : UploadRow → UploadRow}
    (hid : ∀ row, (change row).uploadId = row.uploadId)
    (hname : ∀ row, (change row).spoolName = row.spoolName)
    (hreceived : ∀ row, (change row).receivedByteCount = row.receivedByteCount)
    (hlive : ∀ row, test row = true → (change row).Live → row.Live) :
    Sound U (s.updateUploads test change) := by
  have hrow : ∀ row' ∈ updateWhere test change s.uploads, ∃ row ∈ s.uploads,
      row'.uploadId = row.uploadId ∧ row'.spoolName = row.spoolName ∧
        row'.receivedByteCount = row.receivedByteCount ∧ (row'.Live → row.Live) := by
    intro row' hrow'
    obtain ⟨row, hrow, rfl⟩ := mem_updateWhere.mp hrow'
    refine ⟨row, hrow, ?_⟩
    split
    next htest => exact ⟨hid row, hname row, hreceived row, hlive row htest⟩
    · exact ⟨rfl, rfl, rfl, id⟩
  have hids : (updateWhere test change s.uploads).map (·.uploadId) = s.uploads.map (·.uploadId) :=
    map_updateWhere hid s.uploads
  constructor
  · exact hids ▸ h.ids
  · intro row' hrow'
    obtain ⟨row, hmem, hid', hname', -⟩ := hrow row' hrow'
    rw [hname', hid', h.names row hmem]
  · intro row' hrow' hlive'
    obtain ⟨row, hmem, hid', hname', hreceived', hlive⟩ := hrow row' hrow'
    obtain ⟨htiled, hrecorded, hspooled⟩ := h.matched row hmem (hlive hlive')
    exact ⟨by rw [hid', hreceived']; exact htiled, by rw [hid']; exact hrecorded,
      by rw [hid', hname', hreceived']; exact hspooled⟩
  · intro chunk hchunk
    obtain ⟨row, hmem, hid'⟩ := h.owned chunk hchunk
    have hmapped : chunk.uploadId ∈ (updateWhere test change s.uploads).map (·.uploadId) := by
      rw [hids, ← hid']
      exact List.mem_map_of_mem hmem
    obtain ⟨row', hrow', heq⟩ := List.mem_map.mp hmapped
    exact ⟨row', hrow', heq⟩
  · intro transaction ht
    rw [UploadStore.updateUploads, hfree] at ht
    cases ht
  · intro pending hpending name hunlinks row' hrow' heq hlive'
    obtain ⟨row, hmem, -, hname', -, hlive⟩ := hrow row' hrow'
    exact h.pending pending hpending name hunlinks row hmem (hname'.symm.trans heq) (hlive hlive')

end Lemmas

/-! ## The calls -/

section Calls

variable {U : UploadRuntime} {s s' : UploadStore}

/-- What holds of a lock that is free. -/
theorem free_of_passes {u : Unit} (h : rejectIf s.transaction.isSome UploadError.busy = .ok u) :
    s.transaction = none := by
  have hfree := rejectIf_eq_ok.mp h
  simpa using hfree

variable {uploadId : Id} {now : Stamp}

/-- A declaration. -/
theorem Sound.begin (h : Sound U s) {requestId : Id} {logicalName mediaType : String}
    {byteCount : ℤ} {sha256 : Digest}
    (hnew : NewIdentifier s (.begin requestId logicalName mediaType byteCount sha256 uploadId now))
    (hok : begin U s requestId logicalName mediaType byteCount sha256 uploadId now = .ok s') :
    Sound U s' := by
  obtain ⟨_, -, hok⟩ := bind_eq_ok.mp hok
  obtain ⟨_, -, hok⟩ := bind_eq_ok.mp hok
  obtain ⟨_, hfree, hok⟩ := bind_eq_ok.mp hok
  have hfree := free_of_passes hfree
  obtain ⟨hids, hspool, hpending⟩ := hnew
  split at hok
  next current _ =>
    obtain ⟨_, -, hok⟩ := bind_eq_ok.mp hok
    split at hok
    · cases hok
      exact h
    · cases hok
      refine h.later (fun name hunlinks => ?_) fun row ht => ?_
      · rcases hunlinks with heq | ⟨_, heq⟩ <;> cases heq
      · rw [hfree] at ht
        cases ht
  · dsimp only at hok
    split at hok
    next hexists =>
      rw [hspool] at hexists
      cases hexists
    · cases hok
      have hmade : Sound U (s.setSpool (spoolName uploadId) (some [])) := by
        refine h.setSpool (fun row hrow _ hname => ?_) fun transaction ht => ?_
        · rw [h.names row hrow] at hname
          exact absurd (spoolName_inj hname) (hids row hrow)
        · rw [hfree] at ht
          cases ht
      refine hmade.of_ledger rfl rfl rfl (fun transaction ht => ?_) hmade.pending
      cases ht
      refine ⟨rfl, rfl, hids, ?_, hpending⟩
      dsimp only [UploadStore.setSpool]
      rw [Function.update_self]
      rfl

/-- An offer of a chunk. -/
theorem Sound.append (h : Sound U s) {uploadId : Id} {offset : ℤ} {data : List UInt8}
    {transferSha256 : Digest} {now : Stamp}
    (hok : append U s uploadId offset data transferSha256 now = .ok s') : Sound U s' := by
  obtain ⟨_, hshape, hok⟩ := bind_eq_ok.mp hok
  obtain ⟨_, hdigest, hok⟩ := bind_eq_ok.mp hok
  obtain ⟨_, hfree, hok⟩ := bind_eq_ok.mp hok
  obtain ⟨current, hcurrent, hok⟩ := bind_eq_ok.mp hok
  obtain ⟨_, hopened, hok⟩ := bind_eq_ok.mp hok
  have hmem := (mem_of_upload (orReject_eq_ok.mp hcurrent)).1
  have hopened : current.state = .opened := by simpa using rejectIf_eq_ok.mp hopened
  have hdigest : U.sha256 data = transferSha256 := by simpa using rejectIf_eq_ok.mp hdigest
  have hdata : data ≠ [] := by
    have hshape := rejectIf_eq_ok.mp hshape
    simp only [Bool.or_eq_false_iff] at hshape
    simpa using hshape.1.1.2
  split at hok
  · split at hok
    · cases hok
      exact h
    · cases hok
  · obtain ⟨_, -, hok⟩ := bind_eq_ok.mp hok
    cases hok
    refine h.of_ledger rfl rfl rfl (fun transaction ht => ?_) h.pending
    cases ht
    exact ⟨hmem, hopened, hdata, hdigest.symm, fun hstage => nomatch hstage⟩

/-- The first step of a commit. -/
theorem Sound.prepareCommit (h : Sound U s) (hok : prepareCommit s uploadId now = .ok s') :
    Sound U s' := by
  obtain ⟨_, hfree, hok⟩ := bind_eq_ok.mp hok
  obtain ⟨current, hcurrent, hok⟩ := bind_eq_ok.mp hok
  have hmem := (mem_of_upload (orReject_eq_ok.mp hcurrent)).1
  split at hok
  next hcommitted =>
    cases hok
    refine h.later (fun name hunlinks row hrow hname hlive => ?_) fun row ht => ?_
    · rcases hunlinks with heq | ⟨_, heq⟩
      · cases heq
      · cases heq
        have hsame := h.eq_of_spoolName hrow hmem hname
        subst hsame
        rcases hlive with hlive | hlive <;> rw [hcommitted] at hlive <;> cases hlive
    · rw [free_of_passes hfree] at ht
      cases ht
  · obtain ⟨_, -, hok⟩ := bind_eq_ok.mp hok
    obtain ⟨_, -, hok⟩ := bind_eq_ok.mp hok
    cases hok
    refine h.of_ledger rfl rfl rfl (fun transaction ht => ?_) h.pending
    cases ht
    exact hmem

theorem not_live_of_aborted {row : UploadRow} (h : row.state = .aborted) : ¬ row.Live := by
  rintro (hlive | hlive) <;> rw [h] at hlive <;> cases hlive

theorem not_live_of_committed {row : UploadRow} (h : row.state = .committed) : ¬ row.Live := by
  rintro (hlive | hlive) <;> rw [h] at hlive <;> cases hlive

/-- An abort. -/
theorem Sound.abort (h : Sound U s) (hok : abort s uploadId now = .ok s') : Sound U s' := by
  obtain ⟨_, hfree, hok⟩ := bind_eq_ok.mp hok
  obtain ⟨current, hcurrent, hok⟩ := bind_eq_ok.mp hok
  obtain ⟨_, -, hok⟩ := bind_eq_ok.mp hok
  cases hok
  have hfree := free_of_passes hfree
  obtain ⟨hmem, hid⟩ := mem_of_upload (orReject_eq_ok.mp hcurrent)
  have hupdated := @Sound.updateUploads U s h hfree (·.uploadId == uploadId)
    (fun row => { row with state := .aborted, updatedAt := now }) (fun _ => rfl) (fun _ => rfl)
    (fun _ => rfl) fun row _ hlive => absurd hlive (not_live_of_aborted rfl)
  refine hupdated.later (fun name hunlinks row' hrow' hname => ?_) fun row ht => ?_
  · rcases hunlinks with heq | ⟨_, heq⟩
    · cases heq
      obtain ⟨row, hrow, rfl⟩ := mem_updateWhere.mp hrow'
      split at hname
      next htest =>
        rw [if_pos htest]
        exact not_live_of_aborted rfl
      next htest =>
        have hsame := h.eq_of_spoolName hrow hmem hname
        rw [hsame] at htest
        exact absurd (by simpa using hid) htest
    · cases heq
  · rw [show (s.updateUploads _ _).transaction = s.transaction from rfl, hfree] at ht
    cases ht

end Calls

/-! ## The further steps -/

section Steps

variable {U : UploadRuntime} {s s' : UploadStore}

/-- A change of a spool file leaves what is known of the call that has the write lock, unless it
removes the file that the call has made or touches the chunk that it has written. -/
theorem Transaction.Sound.setSpool {transaction : Transaction} (h : transaction.Sound U s)
    {name : String} {spool : Option (List UInt8)}
    (hinsert : ∀ row, transaction = .insert row → row.spoolName = name → spool.isSome = true)
    (hwritten : ∀ row data transferSha256 now,
      transaction = .append row data transferSha256 now .written → row.spoolName ≠ name) :
    transaction.Sound U (s.setSpool name spool) := by
  cases transaction with
  | insert row =>
    obtain ⟨hreceived, hspoolName, hids, hspool, hpending⟩ := h
    refine ⟨hreceived, hspoolName, hids, ?_, hpending⟩
    change (Function.update s.spools name spool row.spoolName).isSome = true
    by_cases hname : row.spoolName = name
    · rw [hname, Function.update_self]
      exact hinsert row rfl hname
    · rw [Function.update_of_ne hname]
      exact hspool
  | discard | prepare => exact h
  | append row data transferSha256 now stage =>
    obtain ⟨hmem, hopened, hdata, hdigest, hwrote⟩ := h
    refine ⟨hmem, hopened, hdata, hdigest, fun hstage => ?_⟩
    subst hstage
    obtain ⟨bytes, hspool, hrest⟩ := hwrote rfl
    exact ⟨bytes, (Function.update_of_ne (hwritten row data transferSha256 now rfl) ..).trans hspool,
      hrest⟩

/-- A chunk is accepted. -/
theorem Sound.acceptChunk (h : Sound U s) {row : UploadRow} {data : List UInt8}
    {transferSha256 : Digest} {now : Stamp}
    (ht : s.transaction = some (.append row data transferSha256 now .written)) :
    Sound U (acceptChunk s row data transferSha256 now) := by
  obtain ⟨hmem, hopened, hdata, hdigest, hwrote⟩ := h.locked _ ht
  obtain ⟨bytes, hspool, hlength, hpiece⟩ := hwrote rfl
  have hlive : row.Live := Or.inl hopened
  obtain ⟨htiled, hrecorded, bytes', hspool', -, htake⟩ := h.matched row hmem hlive
  rw [hspool] at hspool'
  cases hspool'
  unfold Uploads.acceptChunk
  split
  · exact h.rollback
  next chunks hinsert =>
    obtain ⟨-, rfl⟩ := insertRow_eq_some.mp hinsert
    set chunk : ChunkRow := ⟨row.uploadId, row.receivedByteCount, data.length, transferSha256, now,
      data⟩ with hchunk
    set test : UploadRow → Bool := fun old => old.uploadId == row.uploadId &&
      (old.state == .opened && old.receivedByteCount == row.receivedByteCount) with htest
    set change : UploadRow → UploadRow := fun old =>
      { old with receivedByteCount := row.receivedByteCount + data.length, updatedAt := now }
    have hupdate : ∀ row' ∈ updateWhere test change s.uploads,
        row' = { row with receivedByteCount := row.receivedByteCount + data.length, updatedAt := now } ∨
          row' ∈ s.uploads ∧ row'.uploadId ≠ row.uploadId := by
      intro row' hrow'
      obtain ⟨old, hold, rfl⟩ := mem_updateWhere.mp hrow'
      split
      next hpicked =>
        simp only [htest, Bool.and_eq_true, beq_iff_eq] at hpicked
        rw [h.eq_of_uploadId hold hmem hpicked.1]
        exact Or.inl rfl
      next hpicked =>
        refine Or.inr ⟨hold, fun hid => hpicked ?_⟩
        rw [h.eq_of_uploadId hold hmem hid, htest]
        simp [hopened]
    have hids : (updateWhere test change s.uploads).map (·.uploadId) =
        s.uploads.map (·.uploadId) :=
      @map_updateWhere _ _ test change (·.uploadId) (fun _ => rfl) s.uploads
    constructor
    · exact hids ▸ h.ids
    · intro row' hrow'
      rcases hupdate row' hrow' with rfl | ⟨hold, -⟩
      · exact h.names row hmem
      · exact h.names row' hold
    · intro row' hrow' hlive'
      rcases hupdate row' hrow' with rfl | ⟨hold, hne⟩
      · have hchunks : (s.chunks ++ [chunk]).filter (·.uploadId == row.uploadId) =
            s.chunks.filter (·.uploadId == row.uploadId) ++ [chunk] := by
          rw [List.filter_append]
          simp [hchunk]
        constructor
        · have hmore := @Tiles.concat _ _ _ _ _ _ _ htiled chunk rfl hdata
          dsimp only
          rw [hchunks]
          exact hmore
        · intro other hother hid
          rcases List.mem_append.mp hother with hold | hlast
          · exact hrecorded other hold hid
          · rw [List.mem_singleton.mp hlast]
            exact ⟨rfl, hdigest⟩
        · refine ⟨bytes, hspool, hlength, ?_⟩
          dsimp only
          rw [hchunks, List.flatMap_append, take_add_eq hpiece, htake]
          simp [hchunk]
      · obtain ⟨htiled', hrecorded', hspooled'⟩ := h.matched row' hold hlive'
        have hchunks : (s.chunks ++ [chunk]).filter (·.uploadId == row'.uploadId) =
            s.chunks.filter (·.uploadId == row'.uploadId) := by
          rw [List.filter_append]
          simp [hchunk, Ne.symm hne]
        constructor
        · dsimp only
          rw [hchunks]
          exact htiled'
        · intro other hother hid
          rcases List.mem_append.mp hother with hold | hlast
          · exact hrecorded' other hold hid
          · rw [List.mem_singleton.mp hlast] at hid
            exact absurd hid.symm hne
        · dsimp only
          rw [hchunks]
          exact hspooled'
    · intro other hother
      have hfound : ∀ {id : Id}, (∃ old ∈ s.uploads, old.uploadId = id) →
          ∃ row' ∈ updateWhere test change s.uploads, row'.uploadId = id := by
        rintro id ⟨old, hold, rfl⟩
        refine List.mem_map.mp ?_
        rw [hids]
        exact List.mem_map_of_mem hold
      rcases List.mem_append.mp hother with hold | hlast
      · exact hfound (h.owned other hold)
      · rw [List.mem_singleton.mp hlast]
        exact hfound ⟨row, hmem, rfl⟩
    · exact fun _ hnone => nomatch hnone
    · intro pending hpending name hunlinks row' hrow' hname hlive'
      rcases hupdate row' hrow' with rfl | ⟨hold, -⟩
      · exact h.pending pending hpending name hunlinks row hmem hname hlive
      · exact h.pending pending hpending name hunlinks row' hold hname hlive'

/-- The call that has the write lock comes to another stage. -/
theorem Sound.locks (h : Sound U s) {transaction : Transaction}
    (hsound : transaction.Sound U { s with transaction := some transaction }) :
    Sound U { s with transaction := some transaction } := by
  refine h.of_ledger rfl rfl rfl (fun other ht => ?_) h.pending
  cases ht
  exact hsound

/-- The call that has the write lock changes the spool file of its upload, and leaves the durable
bytes. -/
theorem Sound.rewrite (h : Sound U s) {row : UploadRow} (hmem : row ∈ s.uploads)
    {bytes bytes' : List UInt8} (hspool : s.spools row.spoolName = some bytes)
    (hkeeps : row.receivedByteCount ≤ bytes.length → row.receivedByteCount ≤ bytes'.length ∧
      bytes'.take row.receivedByteCount = bytes.take row.receivedByteCount) :
    Sound U (s.setSpool row.spoolName (some bytes')).rollback := by
  refine @Sound.setSpool _ _ h.rollback row.spoolName (some bytes') ?_ ?_
  · intro other hother _ hname old hold hlength
    have hsame : other = row := h.eq_of_spoolName hother hmem hname
    have hbytes : old = bytes := Option.some.inj (hold.symm.trans hspool)
    subst hsame
    subst hbytes
    exact ⟨bytes', rfl, hkeeps hlength⟩
  · exact fun _ ht => nomatch ht

/-- The next step of the call that has the write lock. -/
theorem Sound.advance (h : Sound U s) : Sound U (advance s) := by
  unfold Uploads.advance
  cases ht : s.transaction with
  | none => exact h
  | some transaction =>
    have hsound := h.locked _ ht
    cases transaction with
    | insert row =>
      obtain ⟨hreceived, hname, hids, hspool, hpending⟩ := hsound
      have hnames : ∀ old ∈ s.uploads, old.spoolName ≠ row.spoolName := by
        intro old hold heq
        rw [h.names old hold, hname] at heq
        exact hids old hold (spoolName_inj heq)
      dsimp only
      split
      · exact h.locks fun old hold heq => absurd heq (hnames old hold)
      next uploads hinsert =>
        obtain ⟨-, rfl⟩ := insertRow_eq_some.mp hinsert
        have hnone : s.chunks.filter (·.uploadId == row.uploadId) = [] := by
          refine List.filter_eq_nil_iff.mpr fun chunk hchunk heq => ?_
          obtain ⟨old, hold, hid⟩ := h.owned chunk hchunk
          exact hids old hold (hid.trans (by simpa using heq))
        constructor
        · dsimp only
          rw [List.map_append, List.map_singleton, List.nodup_append']
          refine ⟨h.ids, List.nodup_singleton _, fun id hold hlast => ?_⟩
          obtain ⟨old, hmem, rfl⟩ := List.mem_map.mp hold
          exact hids old hmem (List.mem_singleton.mp hlast)
        · intro other hother
          rcases List.mem_append.mp hother with hold | hlast
          · exact h.names other hold
          · rw [List.mem_singleton.mp hlast]
            exact hname
        · intro other hother hlive
          rcases List.mem_append.mp hother with hold | hlast
          · exact h.matched other hold hlive
          · rw [List.mem_singleton.mp hlast]
            obtain ⟨bytes, hbytes⟩ := Option.isSome_iff_exists.mp hspool
            constructor
            · dsimp only
              rw [hnone, hreceived]
              exact rfl
            · intro chunk hchunk hid
              have hmem : chunk ∈ s.chunks.filter (·.uploadId == row.uploadId) :=
                List.mem_filter.mpr ⟨hchunk, by simpa using hid⟩
              rw [hnone] at hmem
              cases hmem
            · refine ⟨bytes, hbytes, by omega, ?_⟩
              dsimp only
              rw [hnone, hreceived]
              rfl
        · intro chunk hchunk
          obtain ⟨old, hold, hid⟩ := h.owned chunk hchunk
          exact ⟨old, List.mem_append_left _ hold, hid⟩
        · exact fun _ hnone => nomatch hnone
        · intro pending hmem name hunlinks other hother heq hlive
          rcases List.mem_append.mp hother with hold | hlast
          · exact h.pending pending hmem name hunlinks other hold heq hlive
          · rw [List.mem_singleton.mp hlast] at heq
            exact hpending pending hmem (heq ▸ hunlinks)
    | discard name =>
      refine h.rollback.later (fun other hunlinks => ?_) fun row ht => nomatch ht
      rcases hunlinks with heq | ⟨_, heq⟩
      · cases heq
        exact hsound
      · cases heq
    | append row data transferSha256 now stage =>
      obtain ⟨hmem, hopened, hdata, hdigest, hwrote⟩ := hsound
      cases stage with
      | found =>
        dsimp only
        split
        · exact h.rollback
        all_goals exact h.locks ⟨hmem, hopened, hdata, hdigest, fun hstage => nomatch hstage⟩
      | longer =>
        dsimp only
        split
        · exact h.rollback
        next bytes hspool =>
          have hcut := @Sound.rewrite _ _ h _ hmem _ (resize 0 bytes row.receivedByteCount) hspool
            fun hlength => ⟨(length_resize ..).ge, take_resize (Nat.le_refl _) hlength⟩
          exact hcut.locks ⟨hmem, hopened, hdata, hdigest, fun hstage => nomatch hstage⟩
      | ready =>
        dsimp only
        split
        · exact h.rollback
        next bytes hspool =>
          have hwritten := @Sound.rewrite _ _ h _ hmem _
            (overwrite 0 bytes row.receivedByteCount data) hspool fun hlength =>
              ⟨le_trans (Nat.le_add_right ..) (length_overwrite_ge 0 bytes _ data),
                take_overwrite data hlength⟩
          refine hwritten.locks ⟨hmem, hopened, hdata, hdigest, fun _ =>
            ⟨_, Function.update_self .., length_overwrite_ge 0 bytes _ data,
              take_drop_overwrite 0 bytes _ data⟩⟩
      | written => exact h.acceptChunk ht
    | prepare row now stage =>
      have hmem : row ∈ s.uploads := hsound
      have hname := h.names row hmem
      have hcommitting : Sound U (((s.updateUploads (fun (old : UploadRow) =>
          old.uploadId == row.uploadId && (old.state == .opened || old.state == .committing))
            fun old => { old with state := .committing, updatedAt := now }).rollback).later
              (.bind { row.toUploadSession with state := .committing, updatedAt := now })) := by
        have hupdated := @Sound.updateUploads _ _ h.rollback rfl (fun (old : UploadRow) =>
          old.uploadId == row.uploadId && (old.state == .opened || old.state == .committing))
            (fun old => { old with state := .committing, updatedAt := now }) (fun _ => rfl) (fun _ => rfl) (fun _ => rfl) fun old htest _ => by
              simpa [UploadRow.Live] using (Bool.and_eq_true_iff.mp htest).2
        refine hupdated.later (fun name hunlinks => ?_) fun row ht => nomatch ht
        rcases hunlinks with heq | ⟨_, heq⟩ <;> cases heq
      cases stage with
      | found =>
        dsimp only
        split
        · exact h.rollback
        · exact h.locks hmem
        · exact h.locks hmem
      | longer =>
        dsimp only
        split
        · exact h.rollback
        next bytes hspool =>
          rw [← hname] at hspool ⊢
          have hcut := @Sound.rewrite _ _ h _ hmem _ (resize 0 bytes row.receivedByteCount) hspool
            fun hlength => ⟨(length_resize ..).ge, take_resize (Nat.le_refl _) hlength⟩
          exact hcut.locks hmem
      | ready | written => exact hcommitting

/-- The call that has the write lock ends early. -/
theorem Sound.interrupt (h : Sound U s) (handled : Bool) (written : ℕ) :
    Sound U (interrupt handled written s) := by
  unfold Uploads.interrupt
  split
  next row ht =>
    obtain ⟨-, hname, hids, -, -⟩ := h.locked _ ht
    split
    · refine h.locks fun old hold heq => ?_
      rw [h.names old hold, hname] at heq
      exact absurd (spoolName_inj heq) (hids old hold)
    · exact h.rollback
  next row data transferSha256 now ht =>
    obtain ⟨hmem, -⟩ := h.locked _ ht
    cases hspool : s.spools row.spoolName with
    | none =>
      refine (h.rollback.setSpool (fun other hother _ hname old hold _ => ?_) fun _ ht => nomatch ht)
      rw [show s.rollback.spools = s.spools from rfl, hspool] at hold
      cases hold
    | some bytes =>
      exact h.rewrite hmem hspool fun hlength =>
        ⟨le_trans (Nat.le_add_right ..) (length_overwrite_ge 0 bytes _ (data.take written)),
          take_overwrite _ hlength⟩
  · exact h.rollback

variable {session : UploadSession}

/-- An artifact is bound to an upload. -/
theorem Sound.bindCommitted (h : Sound U s) {artifact : ArtifactRef} {now : Stamp}
    (hok : bindCommitted s session artifact now = .ok s') : Sound U s' := by
  obtain ⟨_, -, hok⟩ := bind_eq_ok.mp hok
  obtain ⟨_, hfree, hok⟩ := bind_eq_ok.mp hok
  obtain ⟨row, hrow, hok⟩ := bind_eq_ok.mp hok
  have hfree := free_of_passes hfree
  obtain ⟨hmem, hid⟩ := mem_of_upload (orReject_eq_ok.mp hrow)
  split at hok
  · obtain ⟨_, -, hok⟩ := bind_eq_ok.mp hok
    cases hok
    exact h
  · obtain ⟨_, hstate, hok⟩ := bind_eq_ok.mp hok
    have hstate : row.state = .committing := by simpa using rejectIf_eq_ok.mp hstate
    cases hok
    have hupdated := @Sound.updateUploads _ _ h hfree (fun (old : UploadRow) =>
      old.uploadId == session.uploadId && old.state == .committing)
        (fun old => { old with state := .committed, artifactId := some artifact.artifactId,
                               committedAt := some now, updatedAt := now })
        (fun _ => rfl) (fun _ => rfl) (fun _ => rfl) fun _ _ hlive =>
          absurd hlive (not_live_of_committed rfl)
    refine hupdated.later (fun name hunlinks row' hrow' hname => ?_) fun row ht => ?_
    · rcases hunlinks with heq | ⟨_, heq⟩
      · cases heq
        obtain ⟨old, hold, rfl⟩ := mem_updateWhere.mp hrow'
        split at hname
        next htest =>
          rw [if_pos htest]
          exact not_live_of_committed rfl
        next htest =>
          rw [h.names old hold] at hname
          have hsame := h.eq_of_uploadId hold hmem ((spoolName_inj hname).trans hid.symm)
          rw [hsame] at htest
          exact absurd (by simp [hid, hstate]) htest
      · cases heq
    · rw [show (s.updateUploads _ _).transaction = s.transaction from rfl, hfree] at ht
      cases ht

/-- What removes a spool file removes none that is needed. -/
theorem Sound.unlink (h : Sound U s) {name : String}
    (hunneeded : ∀ row ∈ s.uploads, row.spoolName = name → ¬ row.Live)
    (hinsert : ∀ row, s.transaction = some (.insert row) → row.spoolName ≠ name) :
    Sound U (s.setSpool name none) := by
  refine h.setSpool (fun row hrow hlive hname => absurd hlive (hunneeded row hrow hname))
    fun transaction ht => (h.locked _ ht).setSpool (fun row hrow hname => ?_) ?_
  · subst hrow
    exact absurd hname (hinsert row ht)
  · intro row data transferSha256 now hrow hname
    subst hrow
    obtain ⟨hmem, hopened, -⟩ := h.locked _ ht
    exact hunneeded row hmem hname (Or.inl hopened)

/-- A replayed declaration cuts a spool file in time. -/
theorem Sound.truncate (h : Sound U s)
    (htime : ∀ row ∈ s.uploads, row.uploadId = session.uploadId → row.Live →
      row.receivedByteCount = session.receivedByteCount ∧ ¬ Writing s row.uploadId) :
    Sound U (s.truncate (spoolName session.uploadId) session.receivedByteCount) := by
  refine h.setSpool (fun row hrow hlive hname bytes hspool hlength => ?_) fun transaction ht =>
    (h.locked _ ht).setSpool (fun row hrow hname => ?_) ?_
  · rw [h.names row hrow] at hname
    obtain ⟨hreceived, -⟩ := htime row hrow (spoolName_inj hname) hlive
    rw [hspool]
    refine ⟨_, rfl, ?_, ?_⟩
    · rw [length_resize, hreceived]
    · exact take_resize hreceived.le hlength
  · subst hrow
    obtain ⟨-, -, -, hspool, -⟩ := h.locked _ ht
    rw [Option.isSome_map, ← hname]
    exact hspool
  · intro row data transferSha256 now hrow hname
    subst hrow
    obtain ⟨hmem, hopened, -⟩ := h.locked _ ht
    rw [h.names row hmem] at hname
    exact (htime row hmem (spoolName_inj hname) (Or.inl hopened)).2 ⟨row, _, _, _, ht, rfl⟩

/-- What was pending is carried on. -/
theorem Sound.carryOn (h : Sound U s) {pending : Pending} {now : Stamp}
    {artifact : Option ArtifactRef} (hpending : pending.Sound s)
    (hinsert : ∀ row, s.transaction = some (.insert row) → ¬ pending.Unlinks row.spoolName)
    (htime : ∀ session, pending = .truncate session →
      ∀ row ∈ s.uploads, row.uploadId = session.uploadId → row.Live →
        row.receivedByteCount = session.receivedByteCount ∧ ¬ Writing s row.uploadId)
    (hok : carryOn s pending now artifact = .ok s') : Sound U s' := by
  cases pending with
  | check session =>
    obtain ⟨longer, -, hok⟩ := bind_eq_ok.mp hok
    split at hok
    · cases hok
      refine h.later (fun name hunlinks => ?_) fun row _ hunlinks => ?_ <;>
        rcases hunlinks with heq | ⟨_, heq⟩ <;> cases heq
    · cases hok
      exact h
  | truncate session =>
    cases hok
    exact h.truncate (htime session rfl)
  | unlink name =>
    cases hok
    exact h.unlink (hpending name (Or.inl rfl)) fun row ht hname =>
      hinsert row ht (Or.inl (congrArg Pending.unlink hname.symm))
  | bind session =>
    obtain ⟨_, -, hok⟩ := bind_eq_ok.mp hok
    exact h.bindCommitted hok
  | confirm session name =>
    obtain ⟨_, -, hok⟩ := bind_eq_ok.mp hok
    obtain ⟨_, -, hok⟩ := bind_eq_ok.mp hok
    obtain ⟨_, -, hok⟩ := bind_eq_ok.mp hok
    cases hok
    have hunlinked := h.unlink (hpending name (Or.inr ⟨session, rfl⟩)) fun row ht hname =>
      hinsert row ht (Or.inr ⟨session, congrArg (Pending.confirm session) hname.symm⟩)
    refine hunlinked.later (fun other hunlinks => ?_) fun row _ hunlinks => ?_ <;>
      rcases hunlinks with heq | ⟨_, heq⟩ <;> cases heq

/-- Every operation with a new identifier that cuts in time keeps the invariant. -/
theorem sound_step {op : UploadOp} (h : Sound U s) (hnew : NewIdentifier s op)
    (htime : CutsInTime s op) : Sound U (step U s op) := by
  have hsettle : ∀ result : Except UploadError UploadStore,
      (∀ s', result = .ok s' → Sound U s') → Sound U (result.toOption.getD s) := by
    intro result hresult
    cases result with
    | error error => exact h
    | ok after => exact hresult after rfl
  cases op with
  | begin requestId logicalName mediaType byteCount sha256 uploadId now =>
    exact hsettle _ fun s' hok => h.begin hnew hok
  | append uploadId offset data transferSha256 now => exact hsettle _ fun s' hok => h.append hok
  | prepareCommit uploadId now => exact hsettle _ fun s' hok => h.prepareCommit hok
  | abort uploadId now => exact hsettle _ fun s' hok => h.abort hok
  | advance => exact h.advance
  | interrupt handled written => exact h.interrupt handled written
  | resume index now artifact =>
    change Sound U (resume s index now artifact)
    unfold resume
    split
    · exact h
    next pending hat =>
      have hmem := List.mem_of_getElem? hat
      split
      next after hok =>
        refine (h.eraseIdx index).carryOn (h.pending pending hmem) (fun row ht => ?_)
          (fun session heq => htime session (heq ▸ hat)) hok
        exact (h.locked _ ht).2.2.2.2 pending hmem
      · exact h
      · exact h.eraseIdx index
  | drop index => exact h.eraseIdx index

/-- Nothing is wrong before anything has happened. -/
theorem sound_empty : Sound U {} where
  ids := List.nodup_nil
  names _ hrow := nomatch hrow
  matched _ hrow := nomatch hrow
  owned _ hchunk := nomatch hchunk
  locked _ ht := nomatch ht
  pending _ hpending := nomatch hpending

end Steps

/-! ## Runs -/

section Runs

variable {U : UploadRuntime}

/-- Every run with new identifiers that cuts in time keeps the invariant. -/
theorem sound_reached {history : List UploadOp}
    (hnew : StepsSatisfy (step U) NewIdentifier {} history)
    (htime : StepsSatisfy (step U) CutsInTime {} history) : Sound U (reached U history) := by
  refine @runFrom_invariant_of _ _ (step U) (Sound U) (fun s op => NewIdentifier s op ∧ CutsInTime s op)
    _ sound_empty (fun s op hs hop => sound_step hs hop.1 hop.2) _ ?_
  exact fun before op after hsplit => ⟨hnew before op after hsplit, htime before op after hsplit⟩

/-- An operation that cuts in time does not cut below the durable bytes. -/
theorem Sound.neverCutsShort {s : UploadStore} (h : Sound U s) {op : UploadOp}
    (htime : CutsInTime s op) : NeverCutsShort s op := by
  intro name size hcuts row hrow hlive hname
  cases op with
  | resume index now artifact =>
    obtain ⟨session, hat, rfl, rfl⟩ := hcuts
    rw [h.names row hrow] at hname
    exact (htime session hat row hrow (spoolName_inj hname) hlive).1.le
  | advance =>
    rcases hcuts with ⟨other, data, transferSha256, now, ht, rfl, rfl⟩ | ⟨other, now, ht, rfl, rfl⟩
    · have hmem := (h.locked _ ht).1
      rw [h.eq_of_spoolName hrow hmem hname]
    · have hmem : other ∈ s.uploads := h.locked _ ht
      rw [h.names row hrow] at hname
      rw [h.eq_of_uploadId hrow hmem (spoolName_inj hname)]
  | begin | append | prepareCommit | abort | interrupt | drop => exact hcuts.elim

/-- In every run that cuts in time, the spool files match the ledger, and none is cut below its
durable bytes. -/
theorem spools_match_of_cuts_in_time {history : List UploadOp}
    (hnew : StepsSatisfy (step U) NewIdentifier {} history)
    (htime : StepsSatisfy (step U) CutsInTime {} history) :
    SpoolsMatch U (reached U history) ∧ StepsSatisfy (step U) NeverCutsShort {} history := by
  refine ⟨(sound_reached hnew htime).matched, fun before op after hsplit => ?_⟩
  subst hsplit
  exact (sound_reached hnew.left htime.left).neverCutsShort (htime before op after rfl)

end Runs

/-! ## A chunk that is lost -/

/-- Surroundings in which all bytes have one digest. -/
def plainUploads : UploadRuntime where
  sha256 _ := String.ofList (List.replicate 64 '0')
  maxUploadBytes := 10
  maxChunkBytes := 10

/-- A declaration of an upload of one byte, with the identifier that is generated for it. -/
def declare (uploadId : Id) : UploadOp :=
  .begin "request" "name" "text/plain" 1 (String.ofList (List.replicate 64 '0')) uploadId "now"

/-- An offer of the byte. -/
def offer : UploadOp := .append "u" 0 [7] (String.ofList (List.replicate 64 '0')) "now"

/-- The declaration is replayed before the byte comes, and cuts the spool file after it. -/
def lateReplay : List UploadOp :=
  [declare "u", .advance, declare "v", offer, .advance, .advance, .advance, .resume 0 "now" none,
    .resume 0 "now" none]

/-- The byte is written and not accepted, the declaration is replayed and cuts the spool file, and
the byte comes again. -/
def timelyReplay : List UploadOp :=
  [declare "u", .advance, offer, .advance, .advance, .interrupt true 0, declare "v",
    .resume 0 "now" none, .resume 0 "now" none, offer, .advance, .advance, .advance]

/-- The identifiers are new, the ledger says that a byte is durable, and the spool file is empty. -/
theorem late_replay_loses_chunk :
    StepsSatisfy (step plainUploads) NewIdentifier {} lateReplay ∧
      ¬ SpoolsMatch plainUploads (reached plainUploads lateReplay) := by
  constructor
  · refine .cons ⟨by decide, rfl, fun _ hmem => nomatch hmem⟩ (.cons trivial (.cons ⟨by decide, rfl,
      fun _ hmem => nomatch hmem⟩ (.of_forall fun op hop s => ?_)))
    simp only [List.mem_cons, List.not_mem_nil, or_false] at hop
    rcases hop with rfl | rfl | rfl | rfl | rfl | rfl <;> exact trivial
  · intro hmatch
    have hrow : ∃ row ∈ (reached plainUploads lateReplay).uploads, row.Live ∧
        row.spoolName = "u.part" ∧ row.receivedByteCount = 1 := by decide
    obtain ⟨row, hmem, hlive, hname, hreceived⟩ := hrow
    obtain ⟨bytes, hspool, hlength, -⟩ := (hmatch row hmem hlive).spooled
    have hempty : (reached plainUploads lateReplay).spools "u.part" = some [] := rfl
    rw [hname, hempty] at hspool
    cases hspool
    rw [hreceived] at hlength
    exact absurd hlength (by decide)

/-- The replay cuts what a call that has ended early has left, and nothing else. -/
theorem spools_match_of_timely_replay :
    SpoolsMatch plainUploads (reached plainUploads timelyReplay) ∧
      StepsSatisfy (step plainUploads) NeverCutsShort {} timelyReplay := by
  refine spools_match_of_cuts_in_time ?_ ?_
  · refine .cons ⟨by decide, rfl, fun _ hmem => absurd hmem List.not_mem_nil⟩ (.cons trivial (.cons trivial
      (.cons trivial (.cons trivial (.cons trivial (.cons ⟨by decide, rfl,
        fun _ hmem => absurd hmem List.not_mem_nil⟩ (.of_forall fun op hop s => ?_)))))))
    simp only [List.mem_cons, List.not_mem_nil, or_false] at hop
    rcases hop with rfl | rfl | rfl | rfl | rfl | rfl <;> exact trivial
  · refine .cons trivial (.cons trivial (.cons trivial (.cons trivial (.cons trivial
      (.cons trivial (.cons trivial (.cons (fun session heq => ?_) (.cons ?_
        (.of_forall fun op hop s => ?_)))))))))
    · cases heq
    · intro session heq row hrow _ _
      have hzero : ∀ row ∈ (reached plainUploads (timelyReplay.take 8)).uploads,
          row.receivedByteCount = 0 := by decide
      cases heq
      refine ⟨hzero row hrow, ?_⟩
      rintro ⟨_, _, _, _, ht, -⟩
      cases ht
    · simp only [List.mem_cons, List.not_mem_nil, or_false] at hop
      rcases hop with rfl | rfl | rfl | rfl <;> exact trivial

end ResearchKernel.Product.Uploads
