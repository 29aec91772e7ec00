import ResearchKernel.Product.PublicLogs

/-!
# A public log is an append-only stream of bytes

The accepted chunks of a log tile its bytes. A client that follows the cursors has read a prefix
of the bytes, a sealed log takes no more of them, and the artifact that is bound to it is the
stream.
-/

namespace ResearchKernel.Product.Logs

open Foundation
open Registry
open Uploads (ArtifactRef)

/-! ## Cutting bytes out of chunks -/

section Slices

variable {rows : List LogChunk} {start total position stop : ℕ} {output : List UInt8}

/-- Past the end nothing is collected. -/
theorem sliceFrom_of_le (h : stop ≤ position) : sliceFrom stop position output rows = .ok output := by
  induction rows with
  | nil => rfl
  | cons chunk rows ih =>
    have hskip : min (chunk.data.length : ℤ) ((stop : ℤ) - chunk.chunkOffset) -
        ((position - chunk.chunkOffset : ℕ) : ℤ) ≤ 0 := by omega
    rw [sliceFrom, if_pos hskip]
    exact ih

/-- A chunk that ends before the position or begins at the end is passed over. -/
theorem sliceFrom_skip {chunk : LogChunk}
    (h : chunk.chunkOffset + chunk.data.length ≤ position ∨ stop ≤ chunk.chunkOffset) :
    sliceFrom stop position output (chunk :: rows) = sliceFrom stop position output rows := by
  have hskip : min (chunk.data.length : ℤ) ((stop : ℤ) - chunk.chunkOffset) -
      ((position - chunk.chunkOffset : ℕ) : ℤ) ≤ 0 := by omega
  rw [sliceFrom, if_pos hskip]

/-- The chunks that are left out by the query of a range are passed over anyway. -/
theorem sliceFrom_filter {cursor : ℕ} (hcursor : cursor ≤ position)
    (hcounts : ∀ chunk ∈ rows, chunk.byteCount = chunk.data.length) :
    sliceFrom stop position output (rows.filter fun chunk =>
        decide (chunk.chunkOffset < stop) && decide (cursor < chunk.chunkOffset + chunk.byteCount)) =
      sliceFrom stop position output rows := by
  induction rows generalizing position output with
  | nil => rfl
  | cons chunk rows ih =>
    have hrest := fun other hother => hcounts other (List.mem_cons_of_mem chunk hother)
    have hcount := hcounts chunk (List.mem_cons_self ..)
    cases hkept : decide (chunk.chunkOffset < stop) &&
        decide (cursor < chunk.chunkOffset + chunk.byteCount) with
    | true =>
      rw [List.filter_cons_of_pos (by rw [hkept]), sliceFrom, sliceFrom]
      split
      · exact ih hcursor hrest
      · split
        · rfl
        · exact ih (by omega) hrest
    | false =>
      rw [List.filter_cons_of_neg (by rw [hkept]; exact Bool.false_ne_true)]
      rw [Bool.and_eq_false_iff, decide_eq_false_iff_not, decide_eq_false_iff_not] at hkept
      rw [sliceFrom_skip (by omega)]
      exact ih hcursor hrest

/-- Out of chunks that tile a range the loop collects the bytes from the position to the end. -/
theorem sliceFrom_tiled (h : Tiles LogChunk.chunkOffset LogChunk.data start rows total)
    (hstart : start ≤ position) (hstop : stop ≤ total) :
    sliceFrom stop position output rows =
      .ok (output ++ ((rows.flatMap LogChunk.data).drop (position - start)).take
        (stop - position)) := by
  induction rows generalizing start position output with
  | nil =>
    have htotal : start = total := h
    rw [sliceFrom_of_le (by omega), List.flatMap_nil, List.drop_nil, List.take_nil, List.append_nil]
  | cons chunk rows ih =>
    obtain ⟨hoffset, -, hrest⟩ := h
    by_cases hpast : stop ≤ position
    · have hnone : stop - position = 0 := by omega
      rw [sliceFrom_of_le hpast, hnone, List.take_zero, List.append_nil]
    by_cases hbefore : start + chunk.data.length ≤ position
    · have hdrop : position - start =
          chunk.data.length + (position - (start + chunk.data.length)) := by omega
      rw [sliceFrom_skip (by omega), ih hrest hbefore, List.flatMap_cons, hdrop,
        List.drop_length_add_append]
    · -- the position lies in this chunk
      have hwithin : position - start ≤ chunk.data.length := by omega
      have havailable : min (chunk.data.length : ℤ) ((stop : ℤ) - chunk.chunkOffset) -
          ((position - chunk.chunkOffset : ℕ) : ℤ) =
            ((min (start + chunk.data.length) stop - position : ℕ) : ℤ) := by omega
      have hpositive : ¬ ((min (start + chunk.data.length) stop - position : ℕ) : ℤ) ≤ 0 := by omega
      have hplace : ¬ chunk.chunkOffset + (position - chunk.chunkOffset) ≠ position := by omega
      have hnext : position + (min (start + chunk.data.length) stop - position) =
          min (start + chunk.data.length) stop := by omega
      rw [sliceFrom, havailable, if_neg hpositive, if_neg hplace, Int.toNat_natCast, hnext, hoffset,
        List.flatMap_cons, List.drop_append_of_le_length hwithin]
      by_cases hends : stop ≤ start + chunk.data.length
      · have hmin : min (start + chunk.data.length) stop = stop := by omega
        rw [hmin, sliceFrom_of_le (Nat.le_refl stop),
          List.take_append_of_le_length (by rw [List.length_drop]; omega)]
      · have hmin : min (start + chunk.data.length) stop = start + chunk.data.length := by omega
        have hlength : (chunk.data.drop (position - start)).length =
            start + chunk.data.length - position := by
          rw [List.length_drop]
          omega
        have hsplit : stop - position = (chunk.data.drop (position - start)).length +
            (stop - (start + chunk.data.length)) := by omega
        rw [hmin, ih hrest (Nat.le_refl _), Nat.sub_self, List.drop_zero, hsplit,
          List.take_length_add_append, ← hlength, List.take_length, List.append_assoc]

end Slices

/-! ## The invariant -/

/-- No byte string of the content store has the digest of the bytes of a log that are not the
same. -/
def CollisionFree (L : LogRuntime) (s : LogStore) : Prop :=
  ∀ digest content, s.contents.finals digest = some content → ∀ log ∈ s.logs,
    L.content.sha256 content = L.content.sha256 (s.bytesOf log.logId) →
      content = s.bytesOf log.logId

/-- The log takes no more bytes, and has those that a sealing call has read. -/
def Closed (s : LogStore) (log : PublicLog) : Prop :=
  ∃ row ∈ s.logs, row.logId = log.logId ∧ row.state ≠ .opened ∧ row.byteCount = log.byteCount

/-- The artifact of a log has the digest of its bytes. -/
def Bound (L : LogRuntime) (s : LogStore) (log : PublicLog) : Prop :=
  ∃ artifact ∈ s.contents.db.artifacts, log.artifactId = some artifact.artifactId ∧
    artifact.sha256 = L.content.sha256 (s.bytesOf log.logId)

/-- What is known of a sealing call. -/
def SealCall.Sound (L : LogRuntime) (s : LogStore) : SealCall → Prop
  | .reread logId => ∃ row ∈ s.logs, row.logId = logId ∧ row.state ≠ .opened
  | .confirm _ => True
  | .materialize log => Closed s log
  | .lookup log bytes => Closed s log ∧ bytes = s.bytesOf log.logId
  | .stage log bytes => Closed s log ∧ bytes = s.bytesOf log.logId
  | .commit log bytes staged => Closed s log ∧ bytes = s.bytesOf log.logId ∧ staged.bytes = bytes
  | .register log bytes file => Closed s log ∧ bytes = s.bytesOf log.logId ∧
      file.sha256 = L.content.sha256 bytes ∧ s.contents.holds file = true
  | .bind log artifact => Closed s log ∧
      ∃ row ∈ s.contents.db.artifacts, artifact = artifactRef row ∧
        row.sha256 = L.content.sha256 (s.bytesOf log.logId)

/-- What a client has received are the bytes before its cursor. -/
def LogReader.Sound (s : LogStore) (reader : LogReader) : Prop :=
  reader.cursor ≤ (s.bytesOf reader.logId).length ∧
    reader.received = (s.bytesOf reader.logId).take reader.cursor

/-- The invariant of the logs. -/
structure Sound (L : LogRuntime) (s : LogStore) : Prop where
  ids : (s.logs.map (·.logId)).Nodup
  tiled : ∀ log ∈ s.logs, Tiles LogChunk.chunkOffset LogChunk.data 0
    (s.chunks.filter (·.logId == log.logId)) log.byteCount
  recorded : ∀ chunk ∈ s.chunks, chunk.byteCount = chunk.data.length ∧
    chunk.data.length ≤ L.maxChunkBytes ∧ chunk.transferSha256 = L.content.sha256 chunk.data
  owned : ∀ chunk ∈ s.chunks, ∃ log ∈ s.logs, log.logId = chunk.logId
  genuine : Registry.Genuine L.content s.contents
  sealed : ∀ log ∈ s.logs, log.state = .sealed → Bound L s log
  calls : ∀ call ∈ s.calls, call.Sound L s
  readers : ∀ reader ∈ s.readers, reader.Sound s

/-- What one store has of another: every byte, and the closed logs as they are. -/
structure Extends (s s' : LogStore) : Prop where
  bytes : ∀ logId, s.bytesOf logId <+: s'.bytesOf logId
  closed : ∀ row ∈ s.logs, row.state ≠ .opened → s'.bytesOf row.logId = s.bytesOf row.logId ∧
    ∃ row' ∈ s'.logs, row'.logId = row.logId ∧ row'.state ≠ .opened ∧
      row'.byteCount = row.byteCount
  sealed : ∀ row ∈ s.logs, row.state = .sealed → ∃ row' ∈ s'.logs, row'.logId = row.logId ∧
    row'.state = .sealed ∧ row'.artifactId = row.artifactId
  contents : Registry.Grows s.contents s'.contents

section Lemmas

variable {L : LogRuntime} {s s' s'' : LogStore}

variable {logId : Id} {log : PublicLog}

/-- The log that is looked up. -/
theorem mem_of_log (h : s.log logId = some log) :
    log ∈ s.logs ∧ log.logId = logId :=
  ⟨List.mem_of_find?_eq_some h, by simpa using List.find?_some h⟩

/-- A log is found by its identifier. -/
theorem Sound.eq_of_logId (h : Sound L s) {a b : PublicLog} (ha : a ∈ s.logs) (hb : b ∈ s.logs)
    (hid : a.logId = b.logId) : a = b :=
  List.inj_on_of_nodup_map h.ids ha hb hid

/-- Chunks that tile a range are sorted already. -/
theorem chunksOf_of_tiled {stop : ℕ}
    (h : Tiles LogChunk.chunkOffset LogChunk.data 0 (s.chunks.filter (·.logId == logId)) stop) :
    s.chunksOf logId = s.chunks.filter (·.logId == logId) :=
  h.pairwise.insertionSort_eq

theorem Sound.chunksOf_eq (h : Sound L s) (hlog : log ∈ s.logs) :
    s.chunksOf log.logId = s.chunks.filter (·.logId == log.logId) :=
  chunksOf_of_tiled (h.tiled log hlog)

/-- The chunks of a log, in the order of their offsets, tile its bytes. -/
theorem Sound.tiled_chunksOf (h : Sound L s) (hlog : log ∈ s.logs) :
    Tiles LogChunk.chunkOffset LogChunk.data 0 (s.chunksOf log.logId) log.byteCount := by
  rw [h.chunksOf_eq hlog]
  exact h.tiled log hlog

/-- A log has as many bytes as its row says. -/
theorem Sound.length_bytesOf (h : Sound L s) (hlog : log ∈ s.logs) :
    (s.bytesOf log.logId).length = log.byteCount := by
  have hlength := (h.tiled_chunksOf hlog).length_flatMap
  rw [Nat.zero_add] at hlength
  exact hlength

theorem bytesOf_of_chunks (h : s'.chunks = s.chunks) (logId : Id) :
    s'.bytesOf logId = s.bytesOf logId := by
  rw [LogStore.bytesOf, LogStore.bytesOf, LogStore.chunksOf, LogStore.chunksOf, h]

/-! ### Later stores -/

theorem Extends.refl (s : LogStore) : Extends s s where
  bytes _ := List.prefix_refl _
  closed row hrow hstate := ⟨rfl, row, hrow, rfl, hstate, rfl⟩
  sealed row hrow hstate := ⟨row, hrow, rfl, hstate, rfl⟩
  contents := Registry.Grows.refl _

theorem Extends.trans (h : Extends s s') (h' : Extends s' s'') : Extends s s'' where
  bytes logId := (h.bytes logId).trans (h'.bytes logId)
  closed := by
    intro row hrow hstate
    obtain ⟨hbytes, mid, hmid, hid, hclosed, hcount⟩ := h.closed row hrow hstate
    obtain ⟨hbytes', last, hlast, hid', hclosed', hcount'⟩ := h'.closed mid hmid hclosed
    rw [hid] at hbytes' hid'
    exact ⟨hbytes'.trans hbytes, last, hlast, hid', hclosed', hcount'.trans hcount⟩
  sealed := by
    intro row hrow hstate
    obtain ⟨mid, hmid, hid, hsealed, hartifact⟩ := h.sealed row hrow hstate
    obtain ⟨last, hlast, hid', hsealed', hartifact'⟩ := h'.sealed mid hmid hsealed
    exact ⟨last, hlast, hid'.trans hid, hsealed', hartifact'.trans hartifact⟩
  contents := h.contents.trans h'.contents

theorem Extends.of_contents (hlogs : s'.logs = s.logs) (hchunks : s'.chunks = s.chunks)
    (hcontents : Registry.Grows s.contents s'.contents) : Extends s s' where
  bytes logId := (bytesOf_of_chunks hchunks logId) ▸ List.prefix_refl _
  closed row hrow hstate := ⟨bytesOf_of_chunks hchunks _, row, hlogs ▸ hrow, rfl, hstate, rfl⟩
  sealed row hrow hstate := ⟨row, hlogs ▸ hrow, rfl, hstate, rfl⟩
  contents := hcontents

theorem Closed.extends (h : Closed s log) (hext : Extends s s') :
    Closed s' log ∧ s'.bytesOf log.logId = s.bytesOf log.logId := by
  obtain ⟨row, hrow, hid, hstate, hcount⟩ := h
  obtain ⟨hbytes, row', hrow', hid', hstate', hcount'⟩ := hext.closed row hrow hstate
  rw [hid] at hbytes hid'
  exact ⟨⟨row', hrow', hid', hstate', hcount'.trans hcount⟩, hbytes⟩

/-- What is known of a sealing call stays true. -/
theorem SealCall.Sound.extends {call : SealCall} (h : call.Sound L s) (hext : Extends s s') :
    call.Sound L s' := by
  cases call with
  | reread logId =>
    obtain ⟨row, hrow, hid, hstate⟩ := h
    obtain ⟨-, row', hrow', hid', hstate', -⟩ := hext.closed row hrow hstate
    exact ⟨row', hrow', hid'.trans hid, hstate'⟩
  | confirm artifactId => trivial
  | materialize log => exact (Closed.extends h hext).1
  | lookup | stage =>
    obtain ⟨hclosed, hbytes⟩ := h.1.extends hext
    exact ⟨hclosed, h.2.trans hbytes.symm⟩
  | commit log bytes staged =>
    obtain ⟨hclosed, hbytes⟩ := h.1.extends hext
    exact ⟨hclosed, h.2.1.trans hbytes.symm, h.2.2⟩
  | register log bytes file =>
    obtain ⟨hclosed, hbytes⟩ := h.1.extends hext
    exact ⟨hclosed, h.2.1.trans hbytes.symm, h.2.2.1, hext.contents.holds h.2.2.2⟩
  | bind log artifact =>
    obtain ⟨hclosed, hbytes⟩ := h.1.extends hext
    obtain ⟨row, hrow, href, hdigest⟩ := h.2
    exact ⟨hclosed, row, hext.contents.artifacts row hrow, href, hbytes ▸ hdigest⟩

/-- What a client has received stays right. -/
theorem LogReader.Sound.extends {reader : LogReader} (h : reader.Sound s) (hext : Extends s s') :
    reader.Sound s' := by
  obtain ⟨more, hmore⟩ := hext.bytes reader.logId
  obtain ⟨hcursor, hreceived⟩ := h
  unfold LogReader.Sound
  rw [← hmore, List.length_append, List.take_append_of_le_length hcursor]
  exact ⟨by omega, hreceived⟩

/-- The artifact of a closed log stays the one with its bytes. -/
theorem Bound.extends (h : Bound L s log) (hbytes : s'.bytesOf log.logId = s.bytesOf log.logId)
    (hcontents : Registry.Grows s.contents s'.contents) : Bound L s' log := by
  obtain ⟨artifact, hartifact, hid, hdigest⟩ := h
  exact ⟨artifact, hcontents.artifacts artifact hartifact, hid, hbytes ▸ hdigest⟩

/-- The same logs and chunks, with calls and clients that are sound. -/
theorem Sound.of_contents (h : Sound L s) (hlogs : s'.logs = s.logs)
    (hchunks : s'.chunks = s.chunks) (hcontents : Registry.Grows s.contents s'.contents)
    (hgenuine : Registry.Genuine L.content s'.contents)
    (hcalls : ∀ call ∈ s'.calls, call ∈ s.calls ∨ call.Sound L s')
    (hreaders : ∀ reader ∈ s'.readers, reader ∈ s.readers ∨ reader.Sound s') : Sound L s' where
  ids := hlogs ▸ h.ids
  tiled := by
    rw [hlogs, hchunks]
    exact h.tiled
  recorded := hchunks ▸ h.recorded
  owned := by
    rw [hlogs, hchunks]
    exact h.owned
  genuine := hgenuine
  sealed log hlog hstate :=
    (h.sealed log (hlogs ▸ hlog) hstate).extends (bytesOf_of_chunks hchunks _) hcontents
  calls call hcall := by
    rcases hcalls call hcall with hold | hnew
    · exact (h.calls call hold).extends (Extends.of_contents hlogs hchunks hcontents)
    · exact hnew
  readers reader hreader := by
    rcases hreaders reader hreader with hold | hnew
    · exact (h.readers reader hold).extends (Extends.of_contents hlogs hchunks hcontents)
    · exact hnew

theorem Sound.later (h : Sound L s) {call : SealCall} (hcall : call.Sound L s) :
    Sound L (s.later call) ∧ Extends s (s.later call) := by
  have hext : Extends s (s.later call) := Extends.of_contents rfl rfl (Registry.Grows.refl _)
  refine ⟨h.of_contents rfl rfl (Registry.Grows.refl _) h.genuine (fun other hother => ?_)
    fun _ hreader => Or.inl hreader, hext⟩
  rcases List.mem_append.mp hother with hold | hlast
  · exact Or.inl hold
  · rw [List.mem_singleton.mp hlast]
    exact Or.inr (hcall.extends hext)

/-! ### One step -/

variable {now : Stamp}

/-- A new log has no bytes. -/
theorem Sound.create (h : Sound L s) {scopeKind stream logicalName : String}
    {scopeId producerRunId : Id}
    (hcreate : create s scopeKind scopeId producerRunId stream logicalName logId now = .ok s') :
    Sound L s' ∧ Extends s s' := by
  obtain ⟨declared, -, hcreate⟩ := bind_eq_ok.mp hcreate
  obtain ⟨_, -, hcreate⟩ := bind_eq_ok.mp hcreate
  cases hfound : s.logs.find? fun row =>
      row.producerRunId == producerRunId && row.stream == declared.2 with
  | some current =>
    rw [hfound] at hcreate
    obtain ⟨_, -, hcreate⟩ := bind_eq_ok.mp hcreate
    cases pure_eq_ok.mp hcreate
    exact ⟨h, Extends.refl s⟩
  | none =>
    rw [hfound] at hcreate
    obtain ⟨logs, hinsert, hcreate⟩ := bind_eq_ok.mp hcreate
    cases pure_eq_ok.mp hcreate
    obtain ⟨hfresh, rfl⟩ := insertRow_eq_some.mp (orReject_eq_ok.mp hinsert)
    have hnew : ∀ old ∈ s.logs, old.logId ≠ logId := by
      intro old hold heq
      have hclash := hfresh old hold
      rw [PublicLog.clash, Bool.or_eq_false_iff, beq_eq_false_iff_ne] at hclash
      exact hclash.1 heq.symm
    have hempty : s.chunks.filter (·.logId == logId) = [] := by
      rw [List.filter_eq_nil_iff]
      intro chunk hchunk hid
      obtain ⟨log, hlog, howner⟩ := h.owned chunk hchunk
      exact hnew log hlog (howner.trans (beq_iff_eq.mp hid))
    have hext : Extends s { s with logs := s.logs ++
        [{ logId := logId, scopeKind := declared.1, scopeId := scopeId
           producerRunId := producerRunId, stream := declared.2, state := .opened
           logicalName := logicalName, byteCount := 0, artifactId := none, createdAt := now
           updatedAt := now, sealedAt := none }] } :=
      ⟨fun _ => List.prefix_refl _,
        fun row hrow hstate => ⟨rfl, row, List.mem_append_left _ hrow, rfl, hstate, rfl⟩,
        fun row hrow hstate => ⟨row, List.mem_append_left _ hrow, rfl, hstate, rfl⟩, Registry.Grows.refl _⟩
    refine ⟨⟨?_, ?_, h.recorded, ?_, h.genuine, ?_, fun call hcall =>
      (h.calls call hcall).extends hext, h.readers⟩, hext⟩
    · rw [List.map_append, List.nodup_append]
      refine ⟨h.ids, List.nodup_singleton _, ?_⟩
      rintro value hvalue other hother rfl
      obtain ⟨old, hold, hvalue⟩ := List.mem_map.mp hvalue
      exact hnew old hold (hvalue.trans (List.mem_singleton.mp hother))
    · intro log hlog
      rcases List.mem_append.mp hlog with hold | hlast
      · exact h.tiled log hold
      · rw [List.mem_singleton.mp hlast]
        simp only [hempty]
        rfl
    · intro chunk hchunk
      obtain ⟨log, hlog, howner⟩ := h.owned chunk hchunk
      exact ⟨log, List.mem_append_left _ hlog, howner⟩
    · intro log hlog hstate
      rcases List.mem_append.mp hlog with hold | hlast
      · exact h.sealed log hold hstate
      · rw [List.mem_singleton.mp hlast] at hstate
        cases hstate

/-- What an accepted append has checked, and what it does. -/
theorem append_spec {offset : ℤ} {data : List UInt8} {transferSha256 : Digest}
    (happend : append L s logId offset data transferSha256 now = .ok s') :
    data ≠ [] ∧ data.length ≤ L.maxChunkBytes ∧ transferSha256 = L.content.sha256 data ∧
    ∃ current ∈ s.logs, current.logId = logId ∧ current.state = .opened ∧
      ((offset ≠ current.byteCount ∧ s' = s ∧ ∃ chunk ∈ s.chunks, chunk.logId = logId ∧
          (chunk.chunkOffset : ℤ) = offset ∧ chunk.data = data) ∨
        offset = current.byteCount ∧
        s'.logs = updateWhere (fun row => row.logId == logId && (row.state == .opened &&
            row.byteCount == current.byteCount)) (fun row =>
          { row with byteCount := current.byteCount + data.length, updatedAt := now }) s.logs ∧
        s'.chunks = s.chunks ++ [{ logId := logId
                                   chunkOffset := current.byteCount
                                   byteCount := data.length
                                   transferSha256 := transferSha256
                                   data := data
                                   appendedAt := now }] ∧
        s'.contents = s.contents ∧ s'.calls = s.calls ∧ s'.readers = s.readers) := by
  obtain ⟨_, hvalid, happend⟩ := bind_eq_ok.mp happend
  obtain ⟨_, hdigest, happend⟩ := bind_eq_ok.mp happend
  obtain ⟨current, hcurrent, happend⟩ := bind_eq_ok.mp happend
  obtain ⟨_, hopen, happend⟩ := bind_eq_ok.mp happend
  have hvalid := rejectIf_eq_ok.mp hvalid
  rw [Bool.or_eq_false_iff, Bool.or_eq_false_iff, decide_eq_false_iff_not,
    decide_eq_false_iff_not] at hvalid
  have hdigest := bne_eq_false_iff_eq.mp (rejectIf_eq_ok.mp hdigest)
  have hopen := bne_eq_false_iff_eq.mp (rejectIf_eq_ok.mp hopen)
  obtain ⟨hrow, hid⟩ := mem_of_log (orReject_eq_ok.mp hcurrent)
  have hdata : data ≠ [] := by
    intro hnil
    rw [hnil] at hvalid
    exact Bool.noConfusion hvalid.1.2
  refine ⟨hdata, by omega, hdigest.symm, current, hrow, hid, hopen, ?_⟩
  by_cases hoffset : offset = current.byteCount
  · right
    rw [if_neg (not_not.mpr hoffset)] at happend
    obtain ⟨chunks, hinsert, happend⟩ := bind_eq_ok.mp happend
    obtain ⟨-, rfl⟩ := insertRow_eq_some.mp (orReject_eq_ok.mp hinsert)
    cases pure_eq_ok.mp happend
    exact ⟨hoffset, rfl, rfl, rfl, rfl, rfl⟩
  · left
    rw [if_pos hoffset] at happend
    rcases ite_eq_ok.mp happend with ⟨hfound, hsame⟩ | ⟨-, hnone⟩
    · obtain ⟨chunk, hchunk, htest⟩ := List.any_eq_true.mp hfound
      simp only [Bool.and_eq_true, beq_iff_eq, decide_eq_true_eq] at htest
      exact ⟨hoffset, (pure_eq_ok.mp hsame).symm, chunk, hchunk, htest.1.1.1.1.1,
        htest.1.1.1.1.2, htest.1.2⟩
    · cases hnone

/-- An accepted append leaves the log as it was or adds a chunk at its end. -/
theorem Sound.append (h : Sound L s) {logId : Id} {offset : ℤ} {data : List UInt8}
    {transferSha256 : Digest} {now : Stamp}
    (happend : append L s logId offset data transferSha256 now = .ok s') :
    Sound L s' ∧ Extends s s' := by
  obtain ⟨hdata, hsize, hdigest, current, hcurrent, hid, hopen, ⟨-, hsame, -⟩ |
    ⟨-, hlogs, hadded, hcontents, hcalls, hreaders⟩⟩ := append_spec happend
  · rw [hsame]
    exact ⟨h, Extends.refl s⟩
  -- the rows after the append: the row of the log with more bytes, and the others as they were
  have hrows : ∀ row' ∈ s'.logs, row' ∈ s.logs ∧ row'.logId ≠ logId ∨
      row' = { current with byteCount := current.byteCount + data.length, updatedAt := now } := by
    intro row' hrow'
    rw [hlogs] at hrow'
    obtain ⟨row, hrow, rfl⟩ := mem_updateWhere.mp hrow'
    by_cases hrowid : row.logId = logId
    · right
      rw [h.eq_of_logId hrow hcurrent (hrowid.trans hid.symm), hid, hopen]
      simp
    · left
      rw [beq_eq_false_iff_ne.mpr hrowid, Bool.false_and]
      exact ⟨hrow, hrowid⟩
  have hkept : ∀ row ∈ s.logs, row.logId ≠ logId → row ∈ s'.logs := by
    intro row hrow hne
    rw [hlogs]
    refine mem_updateWhere.mpr ⟨row, hrow, ?_⟩
    rw [beq_eq_false_iff_ne.mpr hne, Bool.false_and]
    rfl
  have hothers : ∀ other, other ≠ logId →
      s'.chunks.filter (·.logId == other) = s.chunks.filter (·.logId == other) := by
    intro other hne
    rw [hadded, List.filter_append, List.filter_cons_of_neg (by simpa using Ne.symm hne),
      List.filter_nil, List.append_nil]
  have hchunks : s'.chunks.filter (·.logId == logId) = s.chunks.filter (·.logId == logId) ++
      [{ logId := logId, chunkOffset := current.byteCount, byteCount := data.length,
         transferSha256 := transferSha256, data := data, appendedAt := now }] := by
    simp [hadded, List.filter_append]
  have htiled := h.tiled current hcurrent
  rw [hid] at htiled
  have htiled' : Tiles LogChunk.chunkOffset LogChunk.data 0
      (s'.chunks.filter (·.logId == logId)) (current.byteCount + data.length) := by
    rw [hchunks]
    exact htiled.concat rfl hdata
  have hbytes : s'.bytesOf logId = s.bytesOf logId ++ data := by
    rw [LogStore.bytesOf, LogStore.bytesOf, chunksOf_of_tiled htiled', chunksOf_of_tiled htiled,
      hchunks, List.flatMap_append, List.flatMap_singleton]
  have hsame : ∀ other, other ≠ logId → s'.bytesOf other = s.bytesOf other := by
    intro other hne
    rw [LogStore.bytesOf, LogStore.bytesOf, LogStore.chunksOf, LogStore.chunksOf, hothers other hne]
  have hclosed : ∀ row ∈ s.logs, row.state ≠ .opened → row.logId ≠ logId := by
    intro row hrow hstate heq
    rw [h.eq_of_logId hrow hcurrent (heq.trans hid.symm)] at hstate
    exact hstate hopen
  have hext : Extends s s' := by
    refine ⟨fun other => ?_, fun row hrow hstate => ?_, fun row hrow hstate => ?_, ?_⟩
    · by_cases hother : other = logId
      · rw [hother, hbytes]
        exact List.prefix_append _ _
      · exact (hsame other hother).symm ▸ List.prefix_refl _
    · have hne := hclosed row hrow hstate
      exact ⟨hsame row.logId hne, row, hkept row hrow hne, rfl, hstate, rfl⟩
    · have hne := hclosed row hrow (by rw [hstate]; exact LogState.noConfusion)
      exact ⟨row, hkept row hrow hne, rfl, hstate, rfl⟩
    · rw [hcontents]
      exact Registry.Grows.refl _
  refine ⟨⟨?_, fun row hrow => ?_, fun chunk hchunk => ?_, fun chunk hchunk => ?_, ?_,
    fun row hrow hstate => ?_, fun call hcall => ?_, fun reader hreader => ?_⟩, hext⟩
  · have hids : s'.logs.map (·.logId) = s.logs.map (·.logId) := by
      rw [hlogs]
      refine map_updateWhere ?_ _
      intro row
      rfl
    rw [hids]
    exact h.ids
  · rcases hrows row hrow with ⟨hold, hne⟩ | rfl
    · rw [hothers row.logId hne]
      exact h.tiled row hold
    · rw [hid]
      exact htiled'
  · rw [hadded] at hchunk
    rcases List.mem_append.mp hchunk with hold | hlast
    · exact h.recorded chunk hold
    · rw [List.mem_singleton.mp hlast]
      exact ⟨rfl, hsize, hdigest⟩
  · have howner : ∀ log ∈ s.logs, ∃ log' ∈ s'.logs, log'.logId = log.logId := by
      intro log hlog
      rw [hlogs]
      refine ⟨_, mem_updateWhere.mpr ⟨log, hlog, rfl⟩, ?_⟩
      split <;> rfl
    rw [hadded] at hchunk
    rcases List.mem_append.mp hchunk with hold | hlast
    · obtain ⟨log, hlog, hlogid⟩ := h.owned chunk hold
      obtain ⟨log', hlog', hid'⟩ := howner log hlog
      exact ⟨log', hlog', hid'.trans hlogid⟩
    · obtain ⟨log', hlog', hid'⟩ := howner current hcurrent
      rw [List.mem_singleton.mp hlast]
      exact ⟨log', hlog', hid'.trans hid⟩
  · rw [hcontents]
    exact h.genuine
  · rcases hrows row hrow with ⟨hold, hne⟩ | rfl
    · exact (h.sealed row hold hstate).extends (hsame row.logId hne) hext.contents
    · have hstate : current.state = .sealed := hstate
      rw [hopen] at hstate
      cases hstate
  · rw [hcalls] at hcall
    exact (h.calls call hcall).extends hext
  · rw [hreaders] at hreader
    exact (h.readers reader hreader).extends hext

/-- A change of the state of logs: an open log may be closed, and a sealed log has its artifact. -/
theorem Sound.relabel (h : Sound L s) {test : PublicLog → Bool} {change : PublicLog → PublicLog}
    (hid : ∀ row, (change row).logId = row.logId)
    (hcount : ∀ row, (change row).byteCount = row.byteCount)
    (hstate : ∀ row, (change row).state ≠ .opened)
    (hunsealed : ∀ row, test row = true → row.state ≠ .sealed)
    (hbound : ∀ row ∈ s.logs, test row = true → (change row).state = .sealed →
      Bound L s (change row)) :
    Sound L (s.updateLogs test change) ∧ Extends s (s.updateLogs test change) := by
  have hrows : ∀ row' ∈ (s.updateLogs test change).logs, ∃ row ∈ s.logs,
      row'.logId = row.logId ∧ row'.byteCount = row.byteCount ∧
        (row' = row ∨ test row = true ∧ row' = change row) := by
    intro row' hrow'
    obtain ⟨row, hrow, rfl⟩ := mem_updateWhere.mp hrow'
    by_cases htest : test row = true
    · rw [if_pos htest]
      exact ⟨row, hrow, hid row, hcount row, Or.inr ⟨htest, rfl⟩⟩
    · rw [if_neg htest]
      exact ⟨row, hrow, rfl, rfl, Or.inl rfl⟩
  have hext : Extends s (s.updateLogs test change) := by
    refine ⟨fun _ => List.prefix_refl _, fun row hrow hclosed => ⟨rfl, _,
      mem_updateWhere.mpr ⟨row, hrow, rfl⟩, ?_⟩, fun row hrow hsealed => ⟨row,
      mem_updateWhere.mpr ⟨row, hrow, ?_⟩, rfl, hsealed, rfl⟩, Registry.Grows.refl _⟩
    · by_cases htest : test row = true
      · rw [if_pos htest]
        exact ⟨hid row, hstate row, hcount row⟩
      · rw [if_neg htest]
        exact ⟨rfl, hclosed, rfl⟩
    · exact if_neg fun htest => hunsealed row htest hsealed
  refine ⟨⟨?_, fun row' hrow' => ?_, h.recorded, fun chunk hchunk => ?_, h.genuine,
    fun row' hrow' hsealed => ?_, fun call hcall => (h.calls call hcall).extends hext, h.readers⟩,
    hext⟩
  · have hids : (s.updateLogs test change).logs.map (·.logId) = s.logs.map (·.logId) :=
      map_updateWhere hid s.logs
    rw [hids]
    exact h.ids
  · obtain ⟨row, hrow, hrowid, hrowcount, -⟩ := hrows row' hrow'
    rw [hrowid, hrowcount]
    exact h.tiled row hrow
  · obtain ⟨log, hlog, howner⟩ := h.owned chunk hchunk
    refine ⟨_, mem_updateWhere.mpr ⟨log, hlog, rfl⟩, ?_⟩
    split
    · exact (hid log).trans howner
    · exact howner
  · obtain ⟨row, hrow, -, -, rfl | ⟨htest, rfl⟩⟩ := hrows row' hrow'
    · exact (h.sealed row' hrow hsealed).extends rfl (Registry.Grows.refl _)
    · exact (hbound row hrow htest hsealed).extends rfl (Registry.Grows.refl _)

/-- A log takes no more bytes when a sealing call has begun. -/
theorem Sound.close (h : Sound L s) (logId : Id) (now : Stamp) :
    Sound L (s.updateLogs (fun row => row.logId == logId && row.state == .opened) fun row =>
        { row with state := .sealing, updatedAt := now }) ∧
      Extends s (s.updateLogs (fun row => row.logId == logId && row.state == .opened) fun row =>
        { row with state := .sealing, updatedAt := now }) := by
  refine h.relabel (fun _ => rfl) (fun _ => rfl) (fun _ => LogState.noConfusion)
    (fun row htest hsealed => ?_) fun _ _ _ hsealed => LogState.noConfusion hsealed
  rw [hsealed, Bool.and_eq_true] at htest
  exact absurd htest.2 (by decide)

/-- A sealing call closes the log. -/
theorem Sound.beginSeal (h : Sound L s) (hseal : beginSeal s logId now = .ok s') :
    Sound L s' ∧ Extends s s' := by
  obtain ⟨log, hlog, hseal⟩ := bind_eq_ok.mp hseal
  obtain ⟨hmem, hid⟩ := mem_of_log (orReject_eq_ok.mp hlog)
  cases pure_eq_ok.mp hseal
  let closing := s.updateLogs (fun row => row.logId == logId && row.state == .opened) fun row =>
    { row with state := .sealing, updatedAt := now }
  obtain ⟨hsound, hext⟩ : Sound L closing ∧ Extends s closing := h.close logId now
  have hreread : SealCall.Sound L closing (.reread logId) := by
    refine ⟨_, mem_updateWhere.mpr ⟨log, hmem, rfl⟩, ?_⟩
    by_cases hopen : log.state = .opened
    · simp [hid, hopen]
    · simp [hid, hopen]
  obtain ⟨hsound', hext'⟩ := hsound.later hreread
  exact ⟨hsound', hext.trans hext'⟩

/-- What the loop of `_materialize` writes are the chunks, one after the other. -/
theorem materializeFrom_eq_ok {rows : List LogChunk} {written bytes : List UInt8}
    (hbytes : materializeFrom written rows = .ok bytes) :
    bytes = written ++ rows.flatMap LogChunk.data := by
  induction rows generalizing written with
  | nil =>
    cases hbytes
    rw [List.flatMap_nil, List.append_nil]
  | cons chunk rows ih =>
    obtain ⟨_, -, hbytes⟩ := bind_eq_ok.mp hbytes
    rw [ih hbytes, List.flatMap_cons, List.append_assoc]

/-- An artifact that passes the checks is the one to bind. -/
theorem checkArtifact_sound {bytes : List UInt8} {artifact : Artifact} {call : SealCall}
    (hclosed : Closed s log) (hbytes : bytes = s.bytesOf log.logId)
    (hartifact : artifact ∈ s.contents.db.artifacts)
    (hcheck : checkArtifact L log bytes artifact = .ok call) : call.Sound L s := by
  obtain ⟨_, hmatch, hcheck⟩ := bind_eq_ok.mp hcheck
  have hmatch := rejectIf_eq_ok.mp hmatch
  rw [Bool.or_eq_false_iff, Bool.or_eq_false_iff, bne_eq_false_iff_eq] at hmatch
  cases pure_eq_ok.mp hcheck
  exact ⟨hclosed, artifact, hartifact, rfl, by rw [← hbytes]; exact hmatch.1.1⟩

theorem Sound.setContents (h : Sound L s) {contents : ContentStore}
    (hgrows : Registry.Grows s.contents contents) (hgenuine : Registry.Genuine L.content contents) :
    Sound L { s with contents := contents } ∧ Extends s { s with contents := contents } :=
  ⟨h.of_contents rfl rfl hgrows hgenuine (fun _ hcall => Or.inl hcall)
    fun _ hreader => Or.inl hreader, Extends.of_contents rfl rfl hgrows⟩

/-- The log is bound to an artifact with its bytes. -/
theorem Sound.bindSealed (h : Sound L s) {artifact : ArtifactRef}
    (hcall : SealCall.Sound L s (.bind log artifact))
    (hbind : bindSealed s log artifact now = .ok s') : Sound L s' ∧ Extends s s' := by
  obtain ⟨-, row, hrow, href, hdigest⟩ := hcall
  obtain ⟨current, hcurrent, hbind⟩ := bind_eq_ok.mp hbind
  obtain ⟨hmem, hid⟩ := mem_of_log (orReject_eq_ok.mp hcurrent)
  rcases ite_eq_ok.mp hbind with ⟨-, hbind⟩ | ⟨-, hbind⟩
  · obtain ⟨_, -, hbind⟩ := bind_eq_ok.mp hbind
    cases pure_eq_ok.mp hbind
    exact ⟨h, Extends.refl s⟩
  · obtain ⟨_, -, hbind⟩ := bind_eq_ok.mp hbind
    cases pure_eq_ok.mp hbind
    refine h.relabel (fun _ => rfl) (fun _ => rfl) (fun _ => LogState.noConfusion)
      (fun other htest hsealed => ?_) fun other hother htest _ => ?_
    · rw [hsealed, Bool.and_eq_true] at htest
      exact absurd htest.2 (by decide)
    · rw [Bool.and_eq_true, beq_iff_eq] at htest
      refine ⟨row, hrow, ?_, ?_⟩
      · rw [href]
        rfl
      · rw [hdigest]
        exact congrArg (fun id => L.content.sha256 (s.bytesOf id)) htest.1.symm

/-- A step of a sealing call. -/
theorem Sound.carryOn (h : Sound L s) {call : SealCall} {now : Stamp} {generated : Id}
    (hcall : call.Sound L s) (hstep : carryOn L s call now generated = .ok s') :
    Sound L s' ∧ Extends s s' := by
  cases call with
  | reread logId =>
    obtain ⟨current, hcurrent, hstep⟩ := bind_eq_ok.mp hstep
    obtain ⟨hmem, hid⟩ := mem_of_log (orReject_eq_ok.mp hcurrent)
    rcases ite_eq_ok.mp hstep with ⟨-, hstep⟩ | ⟨-, hstep⟩
    · obtain ⟨artifactId, -, hstep⟩ := bind_eq_ok.mp hstep
      cases pure_eq_ok.mp hstep
      exact h.later trivial
    · cases pure_eq_ok.mp hstep
      obtain ⟨row, hrow, hrowid, hstate⟩ := hcall
      rw [h.eq_of_logId hrow hmem (hrowid.trans hid.symm)] at hstate
      have hnext : SealCall.Sound L s (.materialize current) := ⟨current, hmem, rfl, hstate, rfl⟩
      exact h.later hnext
  | confirm artifactId =>
    obtain ⟨artifact, -, hstep⟩ := bind_eq_ok.mp hstep
    cases pure_eq_ok.mp hstep
    exact ⟨h, Extends.refl s⟩
  | materialize log =>
    obtain ⟨bytes, hbytes, hstep⟩ := bind_eq_ok.mp hstep
    cases pure_eq_ok.mp hstep
    obtain ⟨written, hwritten, hbytes⟩ := bind_eq_ok.mp hbytes
    obtain ⟨_, -, hbytes⟩ := bind_eq_ok.mp hbytes
    cases pure_eq_ok.mp hbytes
    exact h.later ⟨hcall, materializeFrom_eq_ok hwritten⟩
  | lookup log bytes =>
    cases hfound : s.contents.findBySha256 (L.content.sha256 bytes) with
    | none =>
      simp only [Logs.carryOn, hfound] at hstep
      cases hstep
      exact h.later hcall
    | some artifact =>
      simp only [Logs.carryOn, hfound] at hstep
      obtain ⟨next, hcheck, hstep⟩ := bind_eq_ok.mp hstep
      cases pure_eq_ok.mp hstep
      exact h.later (checkArtifact_sound hcall.1 hcall.2 (mem_of_findBySha256 hfound).1 hcheck)
  | stage log bytes =>
    simp only [Logs.carryOn] at hstep
    split at hstep
    · cases hstep
    · rename_i staged hstaged
      cases hstep
      have hsource := (stageInput_spec hstaged).1
      exact h.later ⟨hcall.1, hcall.2, (Option.some.inj hsource).symm⟩
  | commit log bytes staged =>
    simp only [Logs.carryOn] at hstep
    have hgrows : Registry.Grows s.contents (s.contents.commit L.content staged).1 := grows_place staged
    obtain ⟨hsound, hext⟩ := h.setContents hgrows (h.genuine.place staged)
    split at hstep
    · rename_i contents error hcommit
      cases hstep
      rw [show contents = (s.contents.commit L.content staged).1 by rw [hcommit]]
      exact ⟨hsound, hext⟩
    · rename_i contents file hcommit
      cases hstep
      rw [show contents = (s.contents.commit L.content staged).1 by rw [hcommit]]
      obtain ⟨rfl, hholds⟩ := commit_spec (show (s.contents.commit L.content staged).2 = .ok file by
        rw [hcommit])
      obtain ⟨hclosed, hbytes⟩ := hcall.1.extends hext
      have hdigest : (staged.committed L.content).sha256 = L.content.sha256 bytes := by
        rw [← hcall.2.2]
        rfl
      have hnext : SealCall.Sound L { s with contents := (s.contents.commit L.content staged).1 }
          (.register log bytes (staged.committed L.content)) :=
        ⟨hclosed, hcall.2.1.trans hbytes.symm, hdigest, hholds⟩
      obtain ⟨hsound', hext'⟩ := hsound.later hnext
      exact ⟨hsound', hext.trans hext'⟩
  | register log bytes file =>
    simp only [Logs.carryOn] at hstep
    split at hstep
    · cases hstep
    · rename_i contents artifact hregister
      obtain ⟨hsound, hext⟩ := h.setContents (grows_register hregister)
        (h.genuine.register hcall.2.2.2 hregister)
      split at hstep
      · cases hstep
        exact ⟨hsound, hext⟩
      · rename_i next hcheck
        cases hstep
        obtain ⟨hclosed, hbytes⟩ := hcall.1.extends hext
        obtain ⟨-, hartifact, -⟩ := register_spec hregister
        obtain ⟨hsound', hext'⟩ := hsound.later
          (checkArtifact_sound hclosed (hcall.2.1.trans hbytes.symm) hartifact hcheck)
        exact ⟨hsound', hext.trans hext'⟩
  | bind log artifact => exact h.bindSealed hcall hstep

/-! ### Reading -/

def requested (L : LogRuntime) (limit : Option ℤ) : ℤ := limit.getD L.maxTailBytes

/-- What a client gets: the bytes from the cursor on, at most as many as it asks for. -/
def tailPage (L : LogRuntime) (s : LogStore) (log : PublicLog) (cursor : ℕ) (limit : Option ℤ) :
    LogTail where
  logId := log.logId
  stream := log.stream
  cursor := cursor
  nextCursor := min (cursor + (requested L limit).toNat) log.byteCount
  durableByteCount := log.byteCount
  data := ((s.bytesOf log.logId).drop cursor).take (requested L limit).toNat
  caughtUp := min (cursor + (requested L limit).toNat) log.byteCount == log.byteCount
  endOfLog := log.state == .sealed &&
    min (cursor + (requested L limit).toNat) log.byteCount == log.byteCount
  artifactId := log.artifactId

theorem Sound.length_tailPage (h : Sound L s) {log : PublicLog} (hlog : log ∈ s.logs) {cursor : ℕ}
    {limit : Option ℤ} (hcursor : cursor ≤ log.byteCount) :
    cursor + (tailPage L s log cursor limit).data.length =
      (tailPage L s log cursor limit).nextCursor := by
  have hlength := h.length_bytesOf hlog
  simp only [tailPage, List.length_take, List.length_drop, hlength]
  omega

variable {limit : Option ℤ}

/-- A request within the log and the limits gives its page. -/
theorem Sound.tail_eq (h : Sound L s) (hlog : s.log logId = some log) {cursor : ℕ}
    (hcursor : cursor ≤ log.byteCount) (hpositive : 0 < requested L limit)
    (hlimit : requested L limit ≤ L.maxTailBytes) :
    tail L s logId cursor limit = .ok (tailPage L s log cursor limit) := by
  obtain ⟨hmem, rfl⟩ := mem_of_log hlog
  have hlength := @Sound.length_tailPage L s h log hmem _ limit hcursor
  have hcounts : ∀ chunk ∈ s.chunksOf log.logId, chunk.byteCount = chunk.data.length := by
    intro chunk hchunk
    rw [h.chunksOf_eq hmem] at hchunk
    exact (h.recorded chunk (List.mem_filter.mp hchunk).1).1
  have hslice : sliceChunks ((s.chunksOf log.logId).filter fun chunk =>
      decide (chunk.chunkOffset < min (cursor + (requested L limit).toNat) log.byteCount) &&
        decide (cursor < chunk.chunkOffset + chunk.byteCount)) cursor
      (min (cursor + (requested L limit).toNat) log.byteCount) =
        .ok (tailPage L s log cursor limit).data := by
    have hbytes := h.length_bytesOf hmem
    rw [sliceChunks, sliceFrom_filter (Nat.le_refl cursor) hcounts,
      sliceFrom_tiled (h.tiled_chunksOf hmem) (Nat.zero_le cursor) (Nat.min_le_right _ _),
      List.nil_append, Nat.sub_zero]
    congr 1
    rw [tailPage, ← LogStore.bytesOf]
    by_cases hall : cursor + (requested L limit).toNat ≤ log.byteCount
    · have hmin : min (cursor + (requested L limit).toNat) log.byteCount - cursor =
          (requested L limit).toNat := by omega
      rw [hmin]
    · rw [List.take_of_length_le (by rw [List.length_drop]; omega),
        List.take_of_length_le (by rw [List.length_drop]; omega)]
  have hrequested : limit.getD (L.maxTailBytes : ℤ) = requested L limit := rfl
  unfold tail
  rw [rejectIf_bind_of_passes (by simp)]
  simp only [hrequested, Int.toNat_natCast]
  rw [rejectIf_bind_of_passes (by simp; omega), orReject_bind_of_some hlog,
    rejectIf_bind_of_passes (by simp; omega), hslice]
  change (rejectIf (cursor + (tailPage L s log cursor limit).data.length != _) _ >>= _) = _
  rw [rejectIf_bind_of_passes (by rw [hlength, tailPage]; exact bne_self_eq_false _)]
  simp only [hlength]
  rfl

/-- A request that is answered lies within the log and the limits, and gets its page. -/
theorem Sound.tail_spec (h : Sound L s) {cursor : ℕ} {page : LogTail}
    (htail : tail L s logId cursor limit = .ok page) :
    ∃ log, s.log logId = some log ∧ cursor ≤ log.byteCount ∧ page = tailPage L s log cursor limit := by
  have hresult := htail
  obtain ⟨_, -, htail⟩ := bind_eq_ok.mp htail
  obtain ⟨_, hlimit, htail⟩ := bind_eq_ok.mp htail
  obtain ⟨log, hlog, htail⟩ := bind_eq_ok.mp htail
  obtain ⟨_, hahead, -⟩ := bind_eq_ok.mp htail
  have hlog := orReject_eq_ok.mp hlog
  have hahead := rejectIf_eq_ok.mp hahead
  have hlimit := rejectIf_eq_ok.mp hlimit
  rw [decide_eq_false_iff_not] at hahead
  rw [Bool.or_eq_false_iff, decide_eq_false_iff_not, decide_eq_false_iff_not] at hlimit
  have hpositive : 0 < requested L limit := not_le.mp hlimit.1
  have hbound : requested L limit ≤ L.maxTailBytes := not_lt.mp hlimit.2
  have hcursor : cursor ≤ log.byteCount := by omega
  rw [h.tail_eq hlog hcursor hpositive hbound] at hresult
  exact ⟨log, hlog, hcursor, (Except.ok.inj hresult).symm⟩

/-- A client that reads on has received the bytes before its new cursor. -/
theorem Sound.read (h : Sound L s) {index : ℕ} (hread : read L s index limit = .ok s') :
    Sound L s' ∧ Extends s s' := by
  obtain ⟨reader, hreader, hread⟩ := bind_eq_ok.mp hread
  obtain ⟨page, hpage, hread⟩ := bind_eq_ok.mp hread
  cases pure_eq_ok.mp hread
  have hold := h.readers reader (List.mem_of_getElem? (orReject_eq_ok.mp hreader))
  obtain ⟨log, hlog, hcursor, rfl⟩ := h.tail_spec hpage
  obtain ⟨hmem, hid⟩ := mem_of_log hlog
  have hlength := @Sound.length_tailPage L s h log hmem _ limit hcursor
  have hbytes := h.length_bytesOf hmem
  refine ⟨h.of_contents rfl rfl (Registry.Grows.refl _) h.genuine (fun _ hcall => Or.inl hcall)
    fun other hother => ?_, Extends.of_contents rfl rfl (Registry.Grows.refl _)⟩
  rcases List.mem_or_eq_of_mem_set hother with hold | rfl
  · exact Or.inl hold
  · right
    have hnext : (tailPage L s log reader.cursor limit).nextCursor ≤ log.byteCount :=
      Nat.min_le_right _ _
    have hdata : (tailPage L s log reader.cursor limit).data =
        ((s.bytesOf reader.logId).drop reader.cursor).take
          (tailPage L s log reader.cursor limit).data.length := by
      rw [tailPage, ← hid, List.length_take]
      exact List.take_eq_take_min
    constructor
    · change _ ≤ (s.bytesOf reader.logId).length
      rw [← hid, hbytes]
      exact hnext
    · change reader.received ++ _ = (s.bytesOf reader.logId).take _
      rw [← hlength, List.take_add, ← hold.2, ← hdata]

theorem keeps_getD {result : Except LogError LogStore} (h : Sound L s)
    (hok : ∀ after, result = .ok after → Sound L after ∧ Extends s after) :
    Sound L (result.toOption.getD s) ∧ Extends s (result.toOption.getD s) := by
  cases result with
  | error error => exact ⟨h, Extends.refl s⟩
  | ok after => exact hok after rfl

/-- A sealing call is no longer under way. -/
theorem Sound.eraseCall (h : Sound L s) (index : ℕ) :
    Sound L { s with calls := s.calls.eraseIdx index } ∧
      Extends s { s with calls := s.calls.eraseIdx index } :=
  ⟨h.of_contents rfl rfl (Registry.Grows.refl _) h.genuine
    (fun _ hother => Or.inl (List.mem_of_mem_eraseIdx hother))
    fun _ hreader => Or.inl hreader, Extends.of_contents rfl rfl (Registry.Grows.refl _)⟩

/-- A step of a sealing call that is under way. -/
theorem Sound.carryOnAt (h : Sound L s) (index : ℕ) (now : Stamp) (generated : Id) :
    Sound L (carryOnAt L s index now generated) ∧
      Extends s (carryOnAt L s index now generated) := by
  unfold Logs.carryOnAt
  cases hcall : s.calls[index]? with
  | none => exact ⟨h, Extends.refl s⟩
  | some call =>
    obtain ⟨hrest, hext⟩ := h.eraseCall index
    have hsound := (h.calls call (List.mem_of_getElem? hcall)).extends hext
    obtain ⟨hafter, hext'⟩ := keeps_getD hrest fun _ => hrest.carryOn hsound
    exact ⟨hafter, hext.trans hext'⟩

/-- A client begins at the first byte. -/
theorem Sound.follow (h : Sound L s) (logId : Id) :
    Sound L (Logs.step L s (.follow logId)) ∧ Extends s (Logs.step L s (.follow logId)) := by
  refine ⟨h.of_contents rfl rfl (Registry.Grows.refl _) h.genuine (fun _ hcall => Or.inl hcall)
    fun reader hreader => ?_, Extends.of_contents rfl rfl (Registry.Grows.refl _)⟩
  rcases List.mem_append.mp hreader with hold | hlast
  · exact Or.inl hold
  · right
    rw [List.mem_singleton.mp hlast]
    exact ⟨Nat.zero_le _, List.take_zero.symm⟩

/-- An operation keeps the invariant, and what was written stays. -/
theorem sound_step (h : Sound L s) (op : LogOp) : Sound L (step L s op) ∧ Extends s (step L s op) := by
  cases op with
  | create scopeKind scopeId producerRunId stream logicalName logId now =>
    exact keeps_getD h fun _ => h.create
  | append logId offset data transferSha256 now => exact keeps_getD h fun _ => h.append
  | follow logId => exact h.follow logId
  | read index limit => exact keeps_getD h fun _ => h.read
  | beginSeal logId now => exact keeps_getD h fun _ => h.beginSeal
  | carryOn index now generated =>
    exact h.carryOnAt index now generated
  | drop index => exact h.eraseCall index
  | elsewhere op => exact h.setContents (Registry.grows_step s.contents op) (h.genuine.step op)

theorem sound_empty : Sound L {} where
  ids := List.nodup_nil
  tiled _ h := nomatch h
  recorded _ h := nomatch h
  owned _ h := nomatch h
  genuine := genuine_empty
  sealed _ h := nomatch h
  calls _ h := nomatch h
  readers _ h := nomatch h

end Lemmas

/-- Every reachable store is sound. -/
theorem sound_reached (L : LogRuntime) (history : List LogOp) : Sound L (reached L history) :=
  runFrom_invariant sound_empty (fun _ op h => (sound_step h op).1) history

/-- A later store has what an earlier one has. -/
theorem extends_reached (L : LogRuntime) (history more : List LogOp) :
    Extends (reached L history) (reached L (history ++ more)) :=
  runFrom_stays (I := Extends _) (Extends.refl _)
    (fun earlier op ih => ih.trans (sound_step (sound_reached L earlier) op).2) more

/-! ## The law of the logs -/

/-- What a public log promises after a history. -/
structure PublicLogLaws (L : LogRuntime) (history : List LogOp) : Prop where
  /-- A client that follows the cursors from 0 has the bytes before its cursor. -/
  reads : ∀ reader ∈ (reached L history).readers,
    reader.cursor ≤ ((reached L history).bytesOf reader.logId).length ∧
      reader.received = ((reached L history).bytesOf reader.logId).take reader.cursor
  /-- Every request within the log and the limits is answered with the bytes from its cursor on,
  as many as it asks for or as there are. -/
  tails : ∀ logId log, (reached L history).log logId = some log → ∀ cursor ≤ log.byteCount,
    ∀ limit, 0 < requested L limit → requested L limit ≤ L.maxTailBytes → ∃ page,
      tail L (reached L history) logId cursor limit = .ok page ∧
        page.data = (((reached L history).bytesOf logId).drop cursor).take
          (requested L limit).toNat ∧
        page.nextCursor = cursor + page.data.length
  /-- The bytes of a log are those of the accepted chunks: a later store has them all. -/
  grows : ∀ more logId,
    (reached L history).bytesOf logId <+: (reached L (history ++ more)).bytesOf logId
  /-- The end is reported with the last byte there will ever be. -/
  ends : ∀ logId cursor limit page, 0 ≤ cursor →
    tail L (reached L history) logId cursor limit = .ok page → page.endOfLog = true →
      ∀ more, ((reached L (history ++ more)).bytesOf logId).length = page.nextCursor
  /-- To append an accepted chunk again changes nothing, and an open log accepts it. -/
  retries : ∀ chunk ∈ (reached L history).chunks, ∀ now,
    step L (reached L history) (.append chunk.logId chunk.chunkOffset chunk.data
        (L.content.sha256 chunk.data) now) = reached L history ∧
      ∀ log, (reached L history).log chunk.logId = some log → log.state = .opened →
        append L (reached L history) chunk.logId chunk.chunkOffset chunk.data
          (L.content.sha256 chunk.data) now = .ok (reached L history)
  /-- Nothing else is accepted in a range that is written. -/
  refuses : ∀ logId log, (reached L history).log logId = some log → ∀ offset : ℤ,
    offset < log.byteCount → ∀ data transferSha256 now after,
      append L (reached L history) logId offset data transferSha256 now = .ok after →
        after = reached L history ∧ ∃ chunk ∈ (reached L history).chunks,
          chunk.logId = logId ∧ (chunk.chunkOffset : ℤ) = offset ∧ chunk.data = data
  /-- The artifact of a sealed log consists of its bytes, and it stays. -/
  seals : ∀ log ∈ (reached L history).logs, log.state = .sealed → ∃ artifact,
    log.artifactId = some artifact.artifactId ∧
      (reached L history).contents.findById artifact.artifactId = some artifact ∧
      Stored (reached L history).contents artifact ((reached L history).bytesOf log.logId) ∧
      ∀ more, (reached L (history ++ more)).bytesOf log.logId =
          (reached L history).bytesOf log.logId ∧
        ∃ row ∈ (reached L (history ++ more)).logs, row.logId = log.logId ∧
          row.state = .sealed ∧ row.artifactId = log.artifactId

section Laws

variable {L : LogRuntime} {s : LogStore}

/-- What an append that finds written bytes at its offset accepts. -/
theorem Sound.append_written (h : Sound L s) {logId : Id} {log : PublicLog}
    (hlog : s.log logId = some log) {offset : ℤ} (hoffset : offset < log.byteCount)
    {data : List UInt8} {transferSha256 : Digest} {now : Stamp} {after : LogStore}
    (happend : Logs.append L s logId offset data transferSha256 now = .ok after) :
    after = s ∧ ∃ chunk ∈ s.chunks, chunk.logId = logId ∧ (chunk.chunkOffset : ℤ) = offset ∧
      chunk.data = data := by
  obtain ⟨hmem, hid⟩ := mem_of_log hlog
  obtain ⟨-, -, -, current, hcurrent, hcurrentid, -, ⟨-, hsame, hchunk⟩ | ⟨hend, -⟩⟩ :=
    append_spec happend
  · exact ⟨hsame, hchunk⟩
  · rw [h.eq_of_logId hcurrent hmem (hcurrentid.trans hid.symm)] at hend
    omega

/-- A chunk lies before the end of its log. -/
theorem Sound.chunk_within (h : Sound L s) {chunk : LogChunk} (hchunk : chunk ∈ s.chunks) :
    ∃ log, s.log chunk.logId = some log ∧ 0 < chunk.data.length ∧
      chunk.chunkOffset + chunk.data.length ≤ log.byteCount := by
  obtain ⟨log, hmem, hid⟩ := h.owned chunk hchunk
  have hlog : s.log chunk.logId = some log := by
    rw [LogStore.log, ← hid]
    exact find?_of_nodup h.ids hmem
  obtain ⟨-, hpositive, hend⟩ := (h.tiled log hmem).within
    (List.mem_filter.mpr ⟨hchunk, beq_iff_eq.mpr hid.symm⟩)
  exact ⟨log, hlog, hpositive, hend⟩

/-- An open log accepts again what it has. -/
theorem Sound.append_again (h : Sound L s) {chunk : LogChunk} (hchunk : chunk ∈ s.chunks)
    {log : PublicLog} (hlog : s.log chunk.logId = some log) (hopen : log.state = .opened)
    (now : Stamp) :
    Logs.append L s chunk.logId chunk.chunkOffset chunk.data (L.content.sha256 chunk.data) now =
      .ok s := by
  obtain ⟨found, hfound, hpositive, hend⟩ := h.chunk_within hchunk
  rw [hlog] at hfound
  obtain rfl := Option.some.inj hfound
  obtain ⟨hcount, hsize, hdigest⟩ := h.recorded chunk hchunk
  have hempty : chunk.data.isEmpty = false := by
    rw [List.isEmpty_eq_false_iff]
    exact List.ne_nil_of_length_pos hpositive
  unfold Logs.append
  rw [rejectIf_bind_of_passes (by simp [hempty, hsize]), rejectIf_bind_of_passes (by simp),
    orReject_bind_of_some hlog, rejectIf_bind_of_passes (by rw [hopen]; rfl),
    if_pos (by omega), if_pos]
  · rfl
  · refine List.any_eq_true.mpr ⟨chunk, hchunk, ?_⟩
    simp only [hcount, hdigest, beq_self_eq_true, decide_true, Bool.true_and, Bool.and_true,
      decide_eq_true_eq]
    omega

end Laws

/-- Public logs are append-only streams of bytes: what clients read, what a retry and a conflict
do, when the end is reported and what is sealed. -/
theorem public_logs_append_only (L : LogRuntime) (history : List LogOp)
    (hfree : CollisionFree L (reached L history)) : PublicLogLaws L history := by
  have h := sound_reached L history
  refine ⟨h.readers, ?_, fun more => (extends_reached L history more).bytes, ?_, ?_, ?_, ?_⟩
  · intro logId log hlog cursor hcursor limit hpositive hlimit
    obtain ⟨hmem, hid⟩ := mem_of_log hlog
    refine ⟨_, h.tail_eq hlog hcursor hpositive hlimit, ?_,
      (h.length_tailPage hmem hcursor).symm⟩
    rw [← hid]
    rfl
  · intro logId cursor limit page hcursor htail hend more
    obtain ⟨cursor, rfl⟩ := Int.eq_ofNat_of_zero_le hcursor
    obtain ⟨log, hlog, hwithin, rfl⟩ := h.tail_spec htail
    obtain ⟨hmem, rfl⟩ := mem_of_log hlog
    obtain ⟨hsealed, hcaught⟩ := (Bool.and_eq_true ..).mp hend
    have hclosed : log.state ≠ .opened := by
      rw [beq_iff_eq.mp hsealed]
      exact LogState.noConfusion
    have hbytes := ((extends_reached L history more).closed log hmem hclosed).1
    have hlength := h.length_bytesOf hmem
    rw [hbytes, hlength]
    exact (beq_iff_eq.mp hcaught).symm
  · intro chunk hchunk now
    refine ⟨?_, fun log hlog hopen => h.append_again hchunk hlog hopen now⟩
    obtain ⟨log, hlog, hpositive, hend⟩ := h.chunk_within hchunk
    rw [step]
    cases happend : append L (reached L history) chunk.logId chunk.chunkOffset chunk.data
        (L.content.sha256 chunk.data) now with
    | error error => rfl
    | ok after => exact (h.append_written hlog (by omega) happend).1
  · intro logId log hlog offset hoffset data transferSha256 now after happend
    exact h.append_written hlog hoffset happend
  · intro log hmem hsealed
    obtain ⟨artifact, hartifact, hid, hdigest⟩ := h.sealed log hmem hsealed
    obtain ⟨content, hstored⟩ := h.genuine.stored artifact hartifact
    have haddress := h.genuine.addressed _ _ hstored.1
    have hcontent := hfree _ content hstored.1 log hmem (haddress.trans hdigest)
    rw [hcontent] at hstored
    refine ⟨artifact, hid, ?_, hstored, fun more => ?_⟩
    · exact h.genuine.findById_eq hartifact
    · have hext := extends_reached L history more
      have hclosed : log.state ≠ .opened := by
        rw [hsealed]
        exact LogState.noConfusion
      exact ⟨(hext.closed log hmem hclosed).1, hext.sealed log hmem hsealed⟩

/-- A digest that tells two bytes from all others. -/
def greeting : LogRuntime where
  content :=
    { sha256 := fun bytes => String.ofList (List.replicate 64 (if bytes = [104, 105] then 'a' else 'b'))
      maxBytes := 16 }
  maxChunkBytes := 4
  maxTailBytes := 4
  chunk_pos := by decide
  tail_pos := by decide

/-- A process writes two bytes, one at a time, and its log is sealed while a client reads it. -/
def sealedGreeting : List LogOp :=
  [.create "RUN" "r" "p" "STDOUT" "out" "l" "0",
   .append "l" 0 [104] (greeting.content.sha256 [104]) "1", .follow "l", .read 0 none,
   .append "l" 1 [105] (greeting.content.sha256 [105]) "2", .beginSeal "l" "3",
   .carryOn 0 "4" "i", .carryOn 0 "4" "i", .carryOn 0 "4" "i", .read 0 (some 1),
   .carryOn 0 "5" "a", .carryOn 0 "5" "i", .carryOn 0 "6" "i", .carryOn 0 "7" "i"]

/-- The sealed log of a process, read to its end. -/
theorem sealed_greeting_append_only : PublicLogLaws greeting sealedGreeting ∧
    (reached greeting sealedGreeting).readers = [⟨"l", 2, [104, 105]⟩] ∧
    (reached greeting sealedGreeting).logs.map (·.state) = [.sealed] := by
  refine ⟨public_logs_append_only greeting sealedGreeting ?_, by decide +kernel, by decide +kernel⟩
  intro digest content hfinal log hlog _
  have hfinals : (reached greeting sealedGreeting).contents.finals =
      Function.update (fun _ => none) (greeting.content.sha256 [104, 105]) (some [104, 105]) := rfl
  have hbytes : ∀ log ∈ (reached greeting sealedGreeting).logs,
      (reached greeting sealedGreeting).bytesOf log.logId = [104, 105] := by decide +kernel
  rw [hbytes log hlog]
  rw [hfinals] at hfinal
  by_cases heq : digest = greeting.content.sha256 [104, 105]
  · rw [heq, Function.update_self] at hfinal
    exact (Option.some.inj hfinal).symm
  · rw [Function.update_of_ne heq] at hfinal
    cases hfinal

end ResearchKernel.Product.Logs
