import ResearchKernel.Product.ActivityStream

/-!
# Activities are delivered without gap or duplicate

What a stream has delivered are the activities of its scope from its first cursor to the one it
has reached. A stream that is opened at the last delivered activity, or at the last scanned
cursor, goes on where the other one stopped.
-/

namespace ResearchKernel.Product.Delivery

open Foundation

variable {F : Type}

/-! ## What is due -/

/-- The activities of a scope. -/
def inScope (scope : ActivityScope) (feed : List (ActivityRecord F)) : List (ActivityRecord F) :=
  feed.filter scope.covers

/-- The activities of a scope that were ever appended, after one cursor and up to another. -/
def due (s : ActivityLedger F) (scope : ActivityScope) (start stop : ℕ) :
    List (ActivityRecord F) :=
  between ActivityRecord.cursor start stop (inScope scope s.appended)

/-- A stream has delivered the activities of its scope between its first cursor and the one it
has reached, once each and in the order of their cursors. -/
structure DeliveredExactly (s : ActivityLedger F) (stream : PersistedActivityStream F) : Prop where
  delivered : stream.delivered = (due s stream.scope stream.start stream.cursor).map activityFrame
  increasing : Increasing ActivityRecord.cursor (due s stream.scope stream.start stream.cursor)
  scanned : ∀ page ∈ stream.pages.getLast?, page.scannedThroughCursor = stream.cursor

/-- The arguments with which a client opens a stream to go on from another one: the identifier of
the last event that was delivered, or the cursor that was scanned last. -/
inductive Resumes (old : PersistedActivityStream F) : Option ℤ → Option String → Prop where
  | lastEvent (frame : StreamFrame F) (id : String) (hlast : old.delivered.getLast? = some frame)
      (hid : frame.eventId = some id) : Resumes old none (some id)
  | scanned : Resumes old (some old.cursor) none

/-! ## Cursors as texts -/

/-- A cursor is read back from its text. -/
theorem decimalCursor_toString (n : ℕ) : decimalCursor (toString n) = some n := by
  have htext : (toString n).toList = Nat.toDigits 10 n := Nat.toList_repr
  have hdigits : (Nat.toDigits 10 n).all Char.isDigit = true :=
    List.all_eq_true.mpr fun c hc => Nat.isDigit_of_mem_toDigits (by omega) (by omega) hc
  unfold decimalCursor
  rw [htext, if_pos ⟨Nat.toDigits_ne_nil, hdigits⟩, Nat.ofDigitChars_ten_toDigits]

/-- A stream that is opened at the identifier of an activity starts there. -/
theorem resolveAfterCursor_lastEvent (n : ℕ) :
    resolveAfterCursor none (some (toString n)) = .ok n := by
  have hheader : parsedHeader (some (toString n)) = .ok (some n) := by
    have hparsed := decimalCursor_toString n
    unfold parsedHeader
    simp only [hparsed]
    rfl
  unfold resolveAfterCursor
  rw [hheader]
  rfl

/-- A stream that is opened at a cursor starts there. -/
theorem resolveAfterCursor_cursor (n : ℕ) : resolveAfterCursor (some (n : ℤ)) none = .ok n := by
  have hsign : (some (n : ℤ)).any (fun cursor => decide (cursor < 0)) = false := by
    simp
  unfold resolveAfterCursor parsedHeader
  rw [hsign]
  rfl

/-! ## One step -/

/-- Reading the table gives what is due, when nothing of it was removed. -/
structure Fetched (s : ActivityLedger F) (stream : PersistedActivityStream F) (limit : ℤ)
    (snapshot : ActivitySnapshot F) : Prop where
  records : snapshot.records = due s stream.scope stream.cursor
    (max stream.cursor (scannedThrough limit snapshot))
  bounded : scannedThrough limit snapshot ≤ s.sequence

/-- What holds of a stream. -/
structure Keeps (s : ActivityLedger F) (stream : PersistedActivityStream F) : Prop where
  start_le : stream.start ≤ stream.cursor
  cursor_le : stream.cursor ≤ max stream.start s.sequence
  delivered : stream.delivered = (due s stream.scope stream.start stream.cursor).map activityFrame
  scanned : ∀ page ∈ stream.pages.getLast?, page.scannedThroughCursor = stream.cursor
  fetched : ∀ limit snapshot, stream.call = .fetched limit snapshot →
    s.firstAvailable ≤ stream.cursor + 1 → Fetched s stream limit snapshot

/-- What holds of the ledger. -/
structure Sound (s : ActivityLedger F) : Prop where
  ordered : Increasing ActivityRecord.cursor s.appended
  bounded : ∀ row ∈ s.appended, row.cursor ≤ s.sequence
  retained : List.Sublist s.events s.appended
  complete : ∀ row ∈ s.appended, s.firstAvailable ≤ row.cursor → row ∈ s.events
  streams : ∀ stream ∈ s.streams, Keeps s stream

/-- A ledger that comes later: activities were appended, with cursors above all earlier ones. -/
structure Later (s s' : ActivityLedger F) : Prop where
  sequence_le : s.sequence ≤ s'.sequence
  appended : ∃ more, s'.appended = s.appended ++ more ∧ ∀ row ∈ more, s.sequence < row.cursor

theorem Later.refl (s : ActivityLedger F) : Later s s :=
  ⟨Nat.le_refl _, [], (List.append_nil _).symm, fun _ hrow => nomatch hrow⟩

theorem Later.trans {s s' s'' : ActivityLedger F} (h : Later s s') (h' : Later s' s'') :
    Later s s'' := by
  obtain ⟨hle, more, hmore, hnew⟩ := h
  obtain ⟨hle', more', hmore', hnew'⟩ := h'
  refine ⟨hle.trans hle', more ++ more', by rw [hmore', hmore, List.append_assoc], ?_⟩
  intro row hrow
  rcases List.mem_append.mp hrow with hold | hlate
  · exact hnew row hold
  · have := hnew' row hlate
    omega

variable {s s' : ActivityLedger F}

/-- Later activities are not due below the cursors that were given before. -/
theorem Later.due_eq (h : Later s s') (scope : ActivityScope) {start stop : ℕ}
    (hstop : stop ≤ max start s.sequence) :
    due s' scope start stop = due s scope start stop := by
  obtain ⟨-, more, hmore, hnew⟩ := h
  unfold due inScope
  rw [hmore, List.filter_append]
  refine between_append fun row hrow hlow => ?_
  have hlate := hnew row (List.mem_of_mem_filter hrow)
  omega

theorem Sound.inScope_ordered (hs : Sound s) (scope : ActivityScope) :
    Increasing ActivityRecord.cursor (inScope scope s.appended) :=
  hs.ordered.filter _

/-- What is due may be cut at a cursor. -/
theorem Sound.due_split (hs : Sound s) (scope : ActivityScope) {start mid stop : ℕ}
    (hstart : start ≤ mid) (hstop : mid ≤ stop) :
    due s scope start stop = due s scope start mid ++ due s scope mid stop :=
  between_split (hs.inScope_ordered scope) hstart hstop

variable {stream : PersistedActivityStream F}

/-- What holds of a stream still holds of it in a later ledger that retains no more. -/
theorem Keeps.later (h : Keeps s stream) (hlater : Later s s')
    (hfirst : s.firstAvailable ≤ s'.firstAvailable) :
    Keeps s' stream := by
  have hle := hlater.sequence_le
  refine ⟨h.start_le, ?_, ?_, h.scanned, ?_⟩
  · have := h.cursor_le
    omega
  · rw [hlater.due_eq _ h.cursor_le]
    exact h.delivered
  · intro limit snapshot hcall havailable
    obtain ⟨hrecords, hbounded⟩ := h.fetched limit snapshot hcall (hfirst.trans havailable)
    refine ⟨?_, hbounded.trans hle⟩
    rw [hlater.due_eq _ (by omega)]
    exact hrecords

/-- A new activity comes last. -/
theorem Sound.append {ops : FloatJson.FloatOps F} {s s' : ActivityLedger F}
    {activity : ProductActivity F} {cursor : ℕ} (hs : Sound s)
    (h : append ops s activity = .ok (cursor, s')) : Sound s' ∧ Later s s' := by
  obtain ⟨_, -, h⟩ := bind_eq_ok.mp h
  rcases ite_eq_ok.mp h with ⟨-, h⟩ | ⟨-, h⟩
  · -- the activity was there before
    split at h
    · cases h
    · obtain ⟨_, -, h⟩ := bind_eq_ok.mp h
      cases pure_eq_ok.mp h
      exact ⟨hs, Later.refl s⟩
  · cases pure_eq_ok.mp h
    have hlater : Later s { s with
        events := s.events ++ [record activity (s.sequence + 1)]
        sequence := s.sequence + 1
        appended := s.appended ++ [record activity (s.sequence + 1)] } := by
      refine ⟨Nat.le_succ _, [record activity (s.sequence + 1)], rfl, fun row hrow => ?_⟩
      rw [List.mem_singleton.mp hrow]
      exact Nat.lt_succ_self _
    refine ⟨⟨?_, ?_, ?_, ?_, ?_⟩, hlater⟩
    · exact hs.ordered.concat fun old hold => Nat.lt_succ_of_le (hs.bounded old hold)
    · intro row hrow
      rcases List.mem_append.mp hrow with hold | hnew
      · exact (hs.bounded row hold).trans (Nat.le_succ _)
      · rw [List.mem_singleton.mp hnew]
        exact Nat.le_refl _
    · exact hs.retained.append (List.Sublist.refl _)
    · intro row hrow hfirst
      rcases List.mem_append.mp hrow with hold | hnew
      · exact List.mem_append_left _ (hs.complete row hold hfirst)
      · exact List.mem_append_right _ hnew
    · exact fun stream hstream => (hs.streams stream hstream).later hlater (Nat.le_refl _)

/-- What is removed was not retained. -/
theorem Sound.retain {s : ActivityLedger F} (hs : Sound s) (cursor : ℕ) :
    Sound (retain s cursor) ∧ Later s (retain s cursor) := by
  have hlater : Later s (Delivery.retain s cursor) :=
    ⟨Nat.le_refl _, [], (List.append_nil _).symm, fun _ hrow => nomatch hrow⟩
  refine ⟨⟨hs.ordered, hs.bounded, List.filter_sublist.trans hs.retained, ?_, ?_⟩, hlater⟩
  · intro row hrow hfirst
    have hle : max s.firstAvailable cursor ≤ row.cursor := hfirst
    refine List.mem_filter.mpr ⟨hs.complete row hrow (by omega), ?_⟩
    exact decide_eq_true (by omega)
  · exact fun stream hstream => (hs.streams stream hstream).later hlater (Nat.le_max_left _ _)

variable {afterCursor : Option ℤ} {lastEventId : Option String}

/-- A new stream has delivered nothing, and nothing was due. -/
theorem Sound.subscribe {scope : ActivityScope} (hs : Sound s)
    (h : subscribe s scope afterCursor lastEventId = .ok s') : Sound s' ∧ Later s s' := by
  obtain ⟨cursor, -, h⟩ := bind_eq_ok.mp h
  obtain ⟨_, -, h⟩ := bind_eq_ok.mp h
  cases pure_eq_ok.mp h
  have hlater : Later s { s with
      streams := s.streams ++ [{ scope := scope, cursor := cursor, start := cursor }] } :=
    ⟨Nat.le_refl _, [], (List.append_nil _).symm, fun _ hrow => nomatch hrow⟩
  refine ⟨⟨hs.ordered, hs.bounded, hs.retained, hs.complete, fun stream hstream => ?_⟩, hlater⟩
  rcases List.mem_append.mp hstream with hold | hnew
  · exact (hs.streams stream hold).later hlater (Nat.le_refl _)
  · rw [List.mem_singleton.mp hnew]
    refine ⟨Nat.le_refl _, Nat.le_max_left _ _, ?_, (fun _ hpage => nomatch hpage),
      (fun _ _ hcall => nomatch hcall)⟩
    have hnone : due s scope cursor cursor = [] := between_self _ _
    exact congrArg (List.map activityFrame) hnone.symm

/-! ## Reading a page -/

theorem cursor_le_lastCursor {row : ActivityRecord F} (h : row ∈ s.events) :
    row.cursor ≤ lastCursor s := by
  unfold lastCursor
  generalize s.events = events at h
  induction events with
  | nil => cases h
  | cons first events ih =>
    rw [List.map_cons, List.foldr_cons]
    rcases List.mem_cons.mp h with rfl | hrest
    · exact Nat.le_max_left _ _
    · exact (ih hrest).trans (Nat.le_max_right _ _)

theorem Sound.lastCursor_le (hs : Sound s) : lastCursor s ≤ s.sequence := by
  have hbounded : ∀ row ∈ s.events, row.cursor ≤ s.sequence := fun row hrow =>
    hs.bounded row (hs.retained.mem hrow)
  unfold lastCursor
  generalize s.events = events at hbounded
  induction events with
  | nil => exact Nat.zero_le _
  | cons first events ih =>
    rw [List.map_cons, List.foldr_cons]
    exact Nat.max_le.mpr ⟨hbounded first (List.mem_cons_self ..),
      ih fun row hrow => hbounded row (List.mem_cons_of_mem _ hrow)⟩

variable {cursor : ℕ}

/-- The rows that a read finds are those of the scope after the cursor, in their order. -/
theorem Sound.rows_eq (hs : Sound s) (scope : ActivityScope)
    (havailable : s.firstAvailable ≤ cursor + 1) :
    ((s.events.filter fun row => decide (cursor < row.cursor)).filter scope.covers).insertionSort
        (·.cursor ≤ ·.cursor) =
      (inScope scope s.appended).filter fun row => decide (cursor < row.cursor) := by
  have hall : s.events.filter (fun row => decide (cursor < row.cursor)) =
      s.appended.filter fun row => decide (cursor < row.cursor) := by
    refine filter_eq_of_sublist hs.ordered.nodup hs.retained fun row hrow hlow => ?_
    have := of_decide_eq_true hlow
    exact hs.complete row hrow (by omega)
  have hordered : Increasing ActivityRecord.cursor
      ((s.appended.filter fun row => decide (cursor < row.cursor)).filter scope.covers) :=
    (hs.ordered.filter _).filter _
  rw [hall, List.Pairwise.insertionSort_eq (List.Pairwise.imp Nat.le_of_lt hordered), inScope,
    List.filter_filter, List.filter_filter]
  refine List.filter_congr fun row _ => ?_
  rw [Bool.and_comm]

/-- A read gives what is due, when nothing of it was removed. -/
theorem Sound.fetched (hs : Sound s) {limit : ℤ} {page : ActivitySnapshot F}
    (h : snapshot s stream.scope stream.cursor limit = .ok page)
    (havailable : s.firstAvailable ≤ stream.cursor + 1) : Fetched s stream limit page := by
  obtain ⟨_, hlimit, h⟩ := bind_eq_ok.mp h
  have hpos : 1 ≤ limit.toNat := by
    have hrange := rejectIf_eq_ok.mp hlimit
    rw [Bool.not_eq_false', Bool.and_eq_true, decide_eq_true_iff, decide_eq_true_iff] at hrange
    omega
  have hpage := pure_eq_ok.mp h
  rw [hs.rows_eq stream.scope havailable] at hpage
  set rest := (inScope stream.scope s.appended).filter fun row =>
    decide (stream.cursor < row.cursor) with hrest
  have hrecords : page.records = rest.take limit.toNat := by rw [← hpage]
  have hlast : page.lastCursor = lastCursor s := by rw [← hpage]
  -- a page that is not full holds everything there is
  have hshort : rest.length ≤ limit.toNat →
      page.records = due s stream.scope stream.cursor (max stream.cursor (lastCursor s)) := by
    intro hlength
    rw [hrecords, List.take_of_length_le hlength, hrest]
    refine filter_eq_between fun row hrow hlow => ?_
    have hevent := hs.complete row (List.mem_of_mem_filter hrow) (by omega)
    exact (cursor_le_lastCursor hevent).trans (Nat.le_max_right _ _)
  -- one that is full holds everything up to its last record
  rcases hend : page.records.getLast? with _ | last
  · have hscan : scannedThrough limit page = lastCursor s := by
      unfold scannedThrough
      rw [hend]
      exact hlast
    have hnil : rest.take limit.toNat = [] := hrecords ▸ List.getLast?_eq_none_iff.mp hend
    have hlength : rest.length ≤ limit.toNat := by
      have hzero := congrArg List.length hnil
      rw [List.length_take, List.length_nil] at hzero
      omega
    exact ⟨hscan ▸ hshort hlength, hscan ▸ hs.lastCursor_le⟩
  · have hmem : last ∈ rest := List.mem_of_mem_take (hrecords ▸ List.mem_of_getLast? hend)
    obtain ⟨hscope, hlow⟩ := List.mem_filter.mp hmem
    have hlt := of_decide_eq_true hlow
    by_cases hfull : (page.records.length : ℤ) = limit
    · have hscan : scannedThrough limit page = last.cursor := by
        unfold scannedThrough
        simp only [hend, if_pos hfull]
      refine ⟨?_, hscan ▸ hs.bounded last (List.mem_of_mem_filter hscope)⟩
      rw [hscan, Nat.max_eq_right hlt.le, hrecords]
      rw [hrecords] at hend
      exact take_eq_between (hs.inScope_ordered stream.scope) hend
    · have hscan : scannedThrough limit page = lastCursor s := by
        unfold scannedThrough
        simp only [hend, if_neg hfull]
        exact hlast
      have hlength : rest.length ≤ limit.toNat := by
        rw [hrecords, List.length_take] at hfull
        omega
      exact ⟨hscan ▸ hshort hlength, hscan ▸ hs.lastCursor_le⟩

/-! ## A call of a stream -/

/-- A cursor that is available misses nothing that was removed. -/
theorem ensureAvailable_eq_ok {u : Unit} :
    ensureAvailable s cursor = .ok u ↔ s.firstAvailable ≤ cursor + 1 := by
  unfold ensureAvailable
  rw [rejectIf_eq_ok, decide_eq_false_iff_not]
  omega

/-- What holds of a stream does not depend on its call while no page is read. -/
theorem Keeps.setCall (h : Keeps s stream) {call : DrainCall F}
    (hcall : ∀ limit page, call = .fetched limit page → s.firstAvailable ≤ stream.cursor + 1 →
      Fetched s stream limit page) : Keeps s { stream with call := call } where
  start_le := h.start_le
  cursor_le := h.cursor_le
  delivered := h.delivered
  scanned := h.scanned
  fetched limit page heq havailable :=
    ⟨(hcall limit page heq havailable).records, (hcall limit page heq havailable).bounded⟩

/-- Each transaction of a call keeps what holds of a stream. -/
theorem Sound.advance {s : ActivityLedger F} (hs : Sound s)
    {stream stream' : PersistedActivityStream F} {limit : ℤ} (hkeeps : Keeps s stream)
    (h : advance s stream limit = .ok stream') : Keeps s stream' := by
  unfold Delivery.advance at h
  split at h
  · obtain ⟨_, -, h⟩ := bind_eq_ok.mp h
    obtain ⟨_, -, h⟩ := bind_eq_ok.mp h
    cases pure_eq_ok.mp h
    exact hkeeps.setCall fun _ _ hcall => nomatch hcall
  · obtain ⟨page, hpage, h⟩ := bind_eq_ok.mp h
    cases pure_eq_ok.mp h
    refine hkeeps.setCall fun limit' page' hcall havailable => ?_
    cases hcall
    exact hs.fetched hpage havailable
  next limit page hcall =>
    obtain ⟨_, -, h⟩ := bind_eq_ok.mp h
    obtain ⟨_, -, h⟩ := bind_eq_ok.mp h
    obtain ⟨_, havailable, h⟩ := bind_eq_ok.mp h
    cases pure_eq_ok.mp h
    obtain ⟨hrecords, hbounded⟩ :=
      hkeeps.fetched limit page hcall (ensureAvailable_eq_ok.mp havailable)
    have hle : stream.cursor ≤ max stream.cursor (scannedThrough limit page) :=
      Nat.le_max_left _ _
    refine ⟨hkeeps.start_le.trans hle, ?_, ?_, ?_, (fun _ _ hnone => nomatch hnone)⟩
    · have hcursor := hkeeps.cursor_le
      show max stream.cursor (scannedThrough limit page) ≤ max stream.start s.sequence
      omega
    · show (stream.pages ++ [_]).flatMap BacklogPage.frames = _
      rw [List.flatMap_append, List.flatMap_singleton, hs.due_split _ hkeeps.start_le hle,
        List.map_append, ← hkeeps.delivered, ← hrecords]
      rfl
    · intro last hlast
      rw [List.getLast?_concat] at hlast
      cases hlast
      rfl

theorem Sound.setStream {s : ActivityLedger F} (hs : Sound s) (index : ℕ)
    {stream : PersistedActivityStream F} (h : Keeps s stream) :
    Sound (setStream s index stream) ∧ Later s (setStream s index stream) := by
  have hlater : Later s (Delivery.setStream s index stream) :=
    ⟨Nat.le_refl _, [], (List.append_nil _).symm, fun _ hrow => nomatch hrow⟩
  refine ⟨⟨hs.ordered, hs.bounded, hs.retained, hs.complete, fun other hother => ?_⟩, hlater⟩
  rcases List.mem_or_eq_of_mem_set hother with hold | rfl
  · exact (hs.streams other hold).later hlater (Nat.le_refl _)
  · exact h.later hlater (Nat.le_refl _)

variable {attempt : Except ActivityError (ActivityLedger F)}

/-- A call that raises leaves the ledger as it is. -/
theorem sound_getD (hs : Sound s) (h : ∀ s', attempt = .ok s' → Sound s' ∧ Later s s') :
    Sound (attempt.toOption.getD s) ∧ Later s (attempt.toOption.getD s) := by
  cases attempt with
  | error error => exact ⟨hs, Later.refl s⟩
  | ok s' => exact h s' rfl

/-- Every operation keeps the ledger sound and leads to a later one. -/
theorem sound_step (ops : FloatJson.FloatOps F) (hs : Sound s) (op : ActivityOp F) :
    Sound (step ops s op) ∧ Later s (step ops s op) := by
  cases op with
  | append activity =>
    refine sound_getD hs fun s' h => ?_
    obtain ⟨cursor, happend⟩ := map_snd_eq_ok.mp h
    exact hs.append happend
  | retain cursor => exact hs.retain cursor
  | subscribe scope afterCursor lastEventId =>
    exact sound_getD hs fun s' h => hs.subscribe h
  | drain index limit =>
    rcases hstream : s.streams[index]? with _ | stream <;> simp only [step, hstream]
    · exact ⟨hs, Later.refl s⟩
    · have hkeeps := hs.streams stream (List.mem_of_getElem? hstream)
      refine hs.setStream index ?_
      cases h : Delivery.advance s stream limit with
      | error error => exact hkeeps.setCall fun _ _ hcall => nomatch hcall
      | ok stream' => exact hs.advance hkeeps h
  | close index =>
    rcases hstream : s.streams[index]? with _ | stream <;> simp only [step, hstream]
    · exact ⟨hs, Later.refl s⟩
    · have hkeeps := hs.streams stream (List.mem_of_getElem? hstream)
      exact hs.setStream index ⟨hkeeps.start_le, hkeeps.cursor_le, hkeeps.delivered,
        hkeeps.scanned, fun limit page hcall havailable =>
          ⟨(hkeeps.fetched limit page hcall havailable).records,
            (hkeeps.fetched limit page hcall havailable).bounded⟩⟩

theorem sound_empty : Sound ({} : ActivityLedger F) where
  ordered := List.Pairwise.nil
  bounded _ hrow := nomatch hrow
  retained := List.Sublist.refl _
  complete _ hrow := nomatch hrow
  streams _ hstream := nomatch hstream

/-- A run keeps the ledger sound and leads to a later one. -/
theorem sound_run (ops : FloatJson.FloatOps F) (hs : Sound s) (history : List (ActivityOp F)) :
    Sound (runFrom (step ops) s history) ∧ Later s (runFrom (step ops) s history) := by
  induction history generalizing s with
  | nil => exact ⟨hs, Later.refl s⟩
  | cons op history ih =>
    obtain ⟨hsound, hlater⟩ := sound_step ops hs op
    obtain ⟨hsound', hlater'⟩ := ih hsound
    exact ⟨hsound', hlater.trans hlater'⟩

/-! ## Streams that go on -/

/-- A stream keeps its scope and its first cursor. -/
structure SameStream (stream stream' : PersistedActivityStream F) : Prop where
  scope : stream'.scope = stream.scope
  start : stream'.start = stream.start

/-- The streams of a ledger keep their places, their scopes and their first cursors. -/
def StreamsStay (s s' : ActivityLedger F) : Prop :=
  ∀ (index : ℕ) (stream : PersistedActivityStream F), s.streams[index]? = some stream →
    ∃ stream', s'.streams[index]? = some stream' ∧ SameStream stream stream'

theorem StreamsStay.refl (s : ActivityLedger F) : StreamsStay s s :=
  fun _ stream h => ⟨stream, h, rfl, rfl⟩

theorem StreamsStay.trans {s s' s'' : ActivityLedger F} (h : StreamsStay s s')
    (h' : StreamsStay s' s'') : StreamsStay s s'' := by
  intro index stream hstream
  obtain ⟨stream', hstream', hsame⟩ := h index stream hstream
  obtain ⟨stream'', hstream'', hsame'⟩ := h' index stream' hstream'
  exact ⟨stream'', hstream'', hsame'.scope.trans hsame.scope, hsame'.start.trans hsame.start⟩

variable {stream' : PersistedActivityStream F}

/-- Each transaction of a call keeps the scope and the first cursor. -/
theorem advance_same {limit : ℤ} (h : advance s stream limit = .ok stream') :
    SameStream stream stream' := by
  unfold advance at h
  split at h
  · obtain ⟨_, -, h⟩ := bind_eq_ok.mp h
    obtain ⟨_, -, h⟩ := bind_eq_ok.mp h
    cases pure_eq_ok.mp h
    exact ⟨rfl, rfl⟩
  · obtain ⟨_, -, h⟩ := bind_eq_ok.mp h
    cases pure_eq_ok.mp h
    exact ⟨rfl, rfl⟩
  · obtain ⟨_, -, h⟩ := bind_eq_ok.mp h
    obtain ⟨_, -, h⟩ := bind_eq_ok.mp h
    obtain ⟨_, -, h⟩ := bind_eq_ok.mp h
    cases pure_eq_ok.mp h
    exact ⟨rfl, rfl⟩

/-- Changing a stream to the same one keeps the streams. -/
theorem streamsStay_setStream {index : ℕ} (hstream : s.streams[index]? = some stream)
    (hsame : SameStream stream stream') : StreamsStay s (setStream s index stream') := by
  intro other old hold
  by_cases heq : index = other
  · subst heq
    rw [hstream] at hold
    cases hold
    have hlt : index < s.streams.length := (List.getElem?_eq_some_iff.mp hstream).1
    refine ⟨stream', ?_, hsame⟩
    show (s.streams.set index stream')[index]? = some stream'
    rw [List.getElem?_set_self hlt]
  · refine ⟨old, ?_, rfl, rfl⟩
    show (s.streams.set index stream')[other]? = some old
    rw [List.getElem?_set_ne heq, hold]

/-- A call that leaves the streams, or adds one, keeps the streams. -/
theorem streamsStay_getD (h : ∀ s', attempt = .ok s' → ∃ more, s'.streams = s.streams ++ more) :
    StreamsStay s (attempt.toOption.getD s) := by
  cases attempt with
  | error error => exact StreamsStay.refl s
  | ok s' =>
    obtain ⟨more, hmore⟩ := h s' rfl
    intro index stream hstream
    refine ⟨stream, ?_, rfl, rfl⟩
    show s'.streams[index]? = some stream
    rw [hmore, List.getElem?_append_left (List.getElem?_eq_some_iff.mp hstream).1, hstream]

theorem append_streams {ops : FloatJson.FloatOps F} {activity : ProductActivity F}
    (h : append ops s activity = .ok (cursor, s')) :
    s'.streams = s.streams := by
  obtain ⟨_, -, h⟩ := bind_eq_ok.mp h
  rcases ite_eq_ok.mp h with ⟨-, h⟩ | ⟨-, h⟩
  · split at h
    · cases h
    · obtain ⟨_, -, h⟩ := bind_eq_ok.mp h
      cases pure_eq_ok.mp h
      rfl
  · cases pure_eq_ok.mp h
    rfl

/-- A new stream comes last, and starts at the cursor that its arguments name. -/
theorem subscribe_eq_ok {scope : ActivityScope}
    (h : subscribe s scope afterCursor lastEventId = .ok s') :
    ∃ cursor, resolveAfterCursor afterCursor lastEventId = .ok cursor ∧
      s'.streams = s.streams ++ [{ scope := scope, cursor := cursor, start := cursor }] := by
  obtain ⟨cursor, hcursor, h⟩ := bind_eq_ok.mp h
  obtain ⟨_, -, h⟩ := bind_eq_ok.mp h
  cases pure_eq_ok.mp h
  exact ⟨cursor, hcursor, rfl⟩

/-- Every operation keeps the streams. -/
theorem streamsStay_step (ops : FloatJson.FloatOps F) (s : ActivityLedger F) (op : ActivityOp F) :
    StreamsStay s (step ops s op) := by
  cases op with
  | append activity =>
    refine streamsStay_getD fun s' h => ?_
    obtain ⟨cursor, happend⟩ := map_snd_eq_ok.mp h
    exact ⟨[], by rw [append_streams happend, List.append_nil]⟩
  | retain cursor => exact StreamsStay.refl s
  | subscribe scope afterCursor lastEventId =>
    refine streamsStay_getD fun s' h => ?_
    obtain ⟨cursor, -, hstreams⟩ := subscribe_eq_ok h
    exact ⟨_, hstreams⟩
  | drain index limit =>
    rcases hstream : s.streams[index]? with _ | stream <;> simp only [step, hstream]
    · exact StreamsStay.refl s
    · refine streamsStay_setStream hstream ?_
      cases h : advance s stream limit with
      | error error => exact ⟨rfl, rfl⟩
      | ok stream' => exact advance_same h
  | close index =>
    rcases hstream : s.streams[index]? with _ | stream <;> simp only [step, hstream]
    · exact StreamsStay.refl s
    · exact streamsStay_setStream hstream ⟨rfl, rfl⟩

theorem streamsStay_run (ops : FloatJson.FloatOps F) (s : ActivityLedger F)
    (history : List (ActivityOp F)) : StreamsStay s (runFrom (step ops) s history) := by
  induction history generalizing s with
  | nil => exact StreamsStay.refl s
  | cons op history ih => exact (streamsStay_step ops s op).trans (ih _)

/-- A stream that goes on from another one starts where nothing is due in between. -/
theorem Sound.resumes (hs : Sound s) {old : PersistedActivityStream F} (hold : Keeps s old)
    (hresumes : Resumes old afterCursor lastEventId)
    (hcursor : resolveAfterCursor afterCursor lastEventId = .ok cursor) :
    old.start ≤ cursor ∧ cursor ≤ max old.start s.sequence ∧
      old.delivered = (due s old.scope old.start cursor).map activityFrame := by
  cases hresumes with
  | lastEvent frame id hlast hid =>
    rw [hold.delivered, List.getLast?_map] at hlast
    obtain ⟨last, hrecord, rfl⟩ := Option.map_eq_some_iff.mp hlast
    cases Option.some.inj hid
    rw [resolveAfterCursor_lastEvent] at hcursor
    cases hcursor
    obtain ⟨-, hlow, hhigh⟩ := mem_between.mp (List.mem_of_getLast? hrecord)
    refine ⟨hlow.le, hhigh.trans hold.cursor_le, ?_⟩
    have hdue : due s old.scope old.start last.cursor = due s old.scope old.start old.cursor :=
      between_getLast (hs.inScope_ordered old.scope) hrecord
    rw [hdue]
    exact hold.delivered
  | scanned =>
    rw [resolveAfterCursor_cursor] at hcursor
    cases hcursor
    exact ⟨hold.start_le, hold.cursor_le, hold.delivered⟩

/-- In every ledger that is reached, every stream has delivered exactly what was due. -/
def DeliversExactly (ops : FloatJson.FloatOps F) : Prop :=
  ∀ history, ∀ stream ∈ (reached ops history).streams,
    DeliveredExactly (reached ops history) stream

/-- Whatever happens after a stream was left, and whatever happens after another one was opened to
go on from it: what both have delivered are the activities of the scope between the first cursor
of the one and the cursor that the other one has reached. -/
def ResumesExactly (ops : FloatJson.FloatOps F) : Prop :=
  ∀ history gap rest : List (ActivityOp F), ∀ old ∈ (reached ops history).streams,
    ∀ afterCursor lastEventId, Resumes old afterCursor lastEventId →
    ∀ opened, subscribe (reached ops (history ++ gap)) old.scope afterCursor lastEventId =
      .ok opened →
    ∃ stream, (runFrom (step ops) opened rest).streams[opened.streams.length - 1]? = some stream ∧
      stream.scope = old.scope ∧
      old.delivered ++ stream.delivered =
        (due (runFrom (step ops) opened rest) old.scope old.start stream.cursor).map
          activityFrame ∧
      Increasing ActivityRecord.cursor
        (due (runFrom (step ops) opened rest) old.scope old.start stream.cursor)

/-- Activities are delivered without gap or duplicate, also when another stream goes on. -/
theorem activities_delivered_exactly (ops : FloatJson.FloatOps F) :
    DeliversExactly ops ∧ ResumesExactly ops := by
  constructor
  · intro history stream hstream
    have hsound : Sound (reached ops history) := (sound_run ops sound_empty history).1
    have hkeeps := hsound.streams stream hstream
    exact ⟨hkeeps.delivered, (hsound.inScope_ordered _).filter _, hkeeps.scanned⟩
  · intro history gap rest old hold afterCursor lastEventId hresumes opened hopened
    have hsound : Sound (reached ops history) := (sound_run ops sound_empty history).1
    have hgap := sound_run ops hsound gap
    rw [show runFrom (step ops) (reached ops history) gap = reached ops (history ++ gap) from
      (runFrom_append _ _ _ _).symm] at hgap
    obtain ⟨hsound₁, hlater₁⟩ := hgap.1.subscribe hopened
    obtain ⟨hsound₂, hlater₂⟩ := sound_run ops hsound₁ rest
    obtain ⟨cursor, hcursor, hstreams⟩ := subscribe_eq_ok hopened
    obtain ⟨hlow, hhigh, hdelivered⟩ :=
      hsound.resumes (hsound.streams old hold) hresumes hcursor
    have hplace : opened.streams[opened.streams.length - 1]? =
        some { scope := old.scope, cursor := cursor, start := cursor } := by
      rw [hstreams, List.length_append, List.length_singleton, Nat.add_sub_cancel,
        List.getElem?_concat_length]
    obtain ⟨stream, hstream, hsame⟩ := streamsStay_run ops opened rest _ _ hplace
    have hkeeps := hsound₂.streams stream (List.mem_of_getElem? hstream)
    have hlater := (hgap.2.trans hlater₁).trans hlater₂
    have hstart : stream.start = cursor := hsame.start
    refine ⟨stream, hstream, hsame.scope, ?_, (hsound₂.inScope_ordered _).filter _⟩
    rw [hsound₂.due_split old.scope hlow (hstart ▸ hkeeps.start_le), hlater.due_eq old.scope hhigh,
      List.map_append, ← hdelivered, hkeeps.delivered, hsame.scope, hstart]

/-- An activity of a run, for the run below. -/
def runActivity (eventId runId : Id) : ProductActivity Unit where
  eventId := eventId
  scopeKind := "RUN"
  source := "WORKER"
  recordedAt := "2026-08-13T00:00:00Z"
  payload := []
  runId := some runId

/-- A full page ends with its last record, a short one with the last activity of any run. -/
example :
    let history : List (ActivityOp Unit) :=
      [.append (runActivity "event-1" "run-1"), .append (runActivity "event-2" "run-2"),
        .append (runActivity "event-3" "run-1"), .subscribe (.run "run-1") (some 0) none,
        .drain 0 1, .drain 0 1, .append (runActivity "event-4" "run-2"), .drain 0 1,
        .drain 0 2, .drain 0 2, .drain 0 2]
    (reached ⟨fun _ _ => true, fun _ _ => false⟩ history).streams.map
      (fun stream => (stream.cursor, stream.delivered.map StreamFrame.eventId)) =
      [(4, [some "1", some "3"])] := by
  decide +kernel

end ResearchKernel.Product.Delivery
