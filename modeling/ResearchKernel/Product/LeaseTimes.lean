import ResearchKernel.Foundation.Calendar
import ResearchKernel.Foundation.FixedWidth
import ResearchKernel.Foundation.Replacing
import ResearchKernel.Product.Jobs

/-!
# Times of leases

A clock reading is written with milliseconds, always. The expiry of a lease is computed from such
a text and written as Python writes a time: without a fraction when there is none, and with six
digits otherwise. Texts of the first kind compare as instants, and so do texts of both kinds,
unless the expiry has no fraction and the other time lies in the same second. Then the lease
counts as held until the second is over.
-/

namespace ResearchKernel.Product.LeaseTimes

open Foundation
open Foundation.Calendar (Date maxOrdinal)
open Foundation.FixedWidth (Layout Fits decimal decimalValue render mem_render
  isDigit_of_mem_decimal append_lt_append_iff decimal_lt_iff decimalValue_decimal length_decimal
  render_append_lt_iff read_render)

/-! ## Times -/

/-- A time in UTC. -/
structure Datetime where
  date : Date
  hour : ℕ
  minute : ℕ
  second : ℕ
  microsecond : ℕ
  hour_lt : hour < 24
  minute_lt : minute < 60
  second_lt : second < 60
  microsecond_lt : microsecond < 1000000

namespace Datetime

/-- The seconds before a time. -/
def wholeSecond (d : Datetime) : ℕ :=
  d.date.toOrdinal * 86400 + d.hour * 3600 + d.minute * 60 + d.second

/-- The microseconds before a time. -/
def instant (d : Datetime) : ℕ := d.wholeSecond * 1000000 + d.microsecond

/-- The time at an instant, if the calendar has one. -/
def ofInstant (instant : ℕ) : Option Datetime :=
  if h : 1 ≤ instant / 86400000000 ∧ instant / 86400000000 ≤ maxOrdinal then
    some
      { date := Date.ofOrdinal (instant / 86400000000) h.1 h.2
        hour := instant / 3600000000 % 24
        minute := instant / 60000000 % 60
        second := instant / 1000000 % 60
        microsecond := instant % 1000000
        hour_lt := Nat.mod_lt _ (by decide)
        minute_lt := Nat.mod_lt _ (by decide)
        second_lt := Nat.mod_lt _ (by decide)
        microsecond_lt := Nat.mod_lt _ (by decide) }
  else none

/-- Add some microseconds. The sum has to lie in the calendar. -/
def add (d : Datetime) (delta : ℤ) : Option Datetime := ofInstant ((d.instant : ℤ) + delta).toNat

/-- The numbers of a time, but for the fraction. -/
def numbers (d : Datetime) : List ℕ :=
  [d.date.year, d.date.month, d.date.day, d.hour, d.minute, d.second]

/-- The time with some numbers, if there is one. -/
def ofNumbers : List ℕ → ℕ → Option Datetime
  | [year, month, day, hour, minute, second], microsecond => do
    let date ← Date.ofNumbers year month day
    if h : (hour < 24 ∧ minute < 60) ∧ second < 60 ∧ microsecond < 1000000 then
      some ⟨date, hour, minute, second, microsecond, h.1.1, h.1.2, h.2.1, h.2.2⟩
    else none
  | _, _ => none

end Datetime

/-! ## Texts -/

/-- How a time is written, but for the fraction. -/
def layout : Layout := [(4, ['-']), (2, ['-']), (2, ['T']), (2, [':']), (2, [':']), (2, [])]

/-- What `isoformat` is asked for. -/
inductive TimeSpec where
  | auto | milliseconds

/-- The fraction of a second. -/
def fractionText (microsecond : ℕ) : TimeSpec → List Char
  | .milliseconds => '.' :: decimal 3 (microsecond / 1000)
  | .auto => if microsecond = 0 then [] else '.' :: decimal 6 microsecond

/-- The offset of UTC. -/
def zero : List Char := "+00:00".toList

/-- Write a time. -/
def Datetime.isoformat (d : Datetime) (timespec : TimeSpec) : List Char :=
  render layout d.numbers ++ fractionText d.microsecond timespec ++ zero

/-- Read a fraction. Digits behind the sixth are ignored. -/
def readFraction : List Char → ℕ × List Char
  | '.' :: rest =>
    let digits := (rest.takeWhile Char.isDigit).take 6
    (decimalValue digits * 10 ^ (6 - digits.length), rest.dropWhile Char.isDigit)
  | rest => (0, rest)

/-- Read a time as `isoformat` writes it. -/
def fromIsoformat (text : List Char) : Option Datetime := do
  let (numbers, rest) ← FixedWidth.read layout text
  let (microsecond, zone) := readFraction rest
  if zone = zero then Datetime.ofNumbers numbers microsecond else none

/-- What a clock shows: a local time and, if it is known, how many microseconds it is ahead. -/
structure Reading where
  wall : Datetime
  utcOffset : Option ℤ

def Reading.instant (t : Reading) : ℤ := t.wall.instant - t.utcOffset.getD 0

/-- Write a reading. -/
def formatUtc (value : Reading) : Option Stamp := do
  let offset ← value.utcOffset
  let normalized ← value.wall.add (-offset)
  return String.ofList (replaceFrom zero ['Z'] 0 (normalized.isoformat .milliseconds))

/-- Read a text. -/
def parseUtc (value : Stamp) : Option Datetime :=
  fromIsoformat (replaceFrom ['Z'] zero 0 value.toList)

/-- Write the time some seconds later. -/
def plusSeconds (value : Stamp) (seconds : ℕ) : Option Stamp := do
  let parsed ← parseUtc value
  let instant ← parsed.add (seconds * 1000000 : ℕ)
  return String.ofList (replaceFrom zero ['Z'] 0 (instant.isoformat .auto))

/-! ## Times and instants -/

section Times

variable {d e : Datetime}

theorem fits_numbers (d : Datetime) : Fits layout d.numbers := by
  have hyear := d.date.year_le
  have hmonth := d.date.month_le
  have hday := d.date.day_le
  have hlong := Calendar.daysInMonth_le d.date.year d.date.month
  have hhour := d.hour_lt
  have hminute := d.minute_lt
  have hsecond := d.second_lt
  refine .cons ?_ (.cons ?_ (.cons ?_ (.cons ?_ (.cons ?_ (.cons ?_ .nil)))))
  all_goals
    dsimp only [Nat.reducePow]
    omega

theorem Datetime.instant_ofInstant {instant : ℕ} (h : Datetime.ofInstant instant = some d) :
    d.instant = instant := by
  unfold Datetime.ofInstant at h
  split at h
  · rename_i hrange
    cases h
    rw [Datetime.instant, Datetime.wholeSecond, Calendar.Date.toOrdinal_ofOrdinal hrange.1 hrange.2]
    dsimp only
    omega
  · cases h

theorem Datetime.instant_pos (d : Datetime) : 0 < d.instant := by
  have hday := d.date.toOrdinal_pos
  rw [Datetime.instant, Datetime.wholeSecond]
  omega

theorem Datetime.instant_add {delta : ℤ} (h : d.add delta = some e) :
    (e.instant : ℤ) = d.instant + delta := by
  have hsum := Datetime.instant_ofInstant h
  have hpos := e.instant_pos
  omega

/-- A time with smaller numbers comes before. -/
theorem Datetime.wholeSecond_lt (h : d.numbers < e.numbers) : d.wholeSecond < e.wholeSecond := by
  have hhour := d.hour_lt
  have hminute := d.minute_lt
  have hsecond := d.second_lt
  have hnil : ¬([] : List ℕ) < [] := List.not_lt_nil []
  simp only [numbers, List.cons_lt_cons_iff, hnil, and_false, or_false] at h
  rw [wholeSecond, wholeSecond]
  by_cases hdate : d.date.toOrdinal < e.date.toOrdinal
  · omega
  · have hsame : d.date.year = e.date.year ∧ d.date.month = e.date.month ∧
        d.date.day = e.date.day := by
      have hlater := mt Calendar.Date.toOrdinal_lt hdate
      tauto
    have hordinal : d.date.toOrdinal = e.date.toOrdinal := by
      rw [Calendar.Date.toOrdinal, Calendar.Date.toOrdinal, hsame.1, hsame.2.1, hsame.2.2]
    omega

theorem Datetime.wholeSecond_eq (h : d.numbers = e.numbers) : d.wholeSecond = e.wholeSecond := by
  simp only [numbers, List.cons.injEq] at h
  obtain ⟨hyear, hmonth, hday, hhour, hminute, hsecond, -⟩ := h
  rw [wholeSecond, wholeSecond, Calendar.Date.toOrdinal, Calendar.Date.toOrdinal, hyear, hmonth,
    hday, hhour, hminute, hsecond]

/-- The numbers of times are in the order of the seconds. -/
theorem Datetime.numbers_lt_iff :
    (d.numbers < e.numbers ↔ d.wholeSecond < e.wholeSecond) ∧
      (d.numbers = e.numbers ↔ d.wholeSecond = e.wholeSecond) := by
  have hcases : d.numbers < e.numbers ∨ e.numbers < d.numbers ∨ d.numbers = e.numbers := by
    by_cases hlt : d.numbers < e.numbers
    · exact Or.inl hlt
    · rcases List.le_iff_lt_or_eq.mp (List.not_lt.mp hlt) with hgt | heq
      · exact Or.inr (Or.inl hgt)
      · exact Or.inr (Or.inr heq.symm)
  rcases hcases with hlt | hgt | heq
  · have hsecond := wholeSecond_lt hlt
    have hne : d.numbers ≠ e.numbers := fun heq => List.lt_irrefl _ (heq ▸ hlt)
    exact ⟨iff_of_true hlt hsecond, iff_of_false hne (Nat.ne_of_lt hsecond)⟩
  · have hsecond := wholeSecond_lt hgt
    have hne : d.numbers ≠ e.numbers := fun heq => List.lt_irrefl _ (heq ▸ hgt)
    exact ⟨iff_of_false (List.lt_asymm hgt) (Nat.lt_asymm hsecond),
      iff_of_false hne (Nat.ne_of_gt hsecond)⟩
  · have hsecond := wholeSecond_eq heq
    have hnot : ¬d.numbers < e.numbers := fun hlt => List.lt_irrefl _ (heq ▸ hlt)
    exact ⟨iff_of_false hnot (by omega), iff_of_true heq hsecond⟩

end Times

/-! ## Writing and reading -/

section Texts

variable {d e : Datetime} {timespec : TimeSpec}

/-- A time without the offset. -/
def Datetime.body (d : Datetime) (timespec : TimeSpec) : List Char :=
  render layout d.numbers ++ fractionText d.microsecond timespec

/-- A time as the product writes it. -/
def Datetime.stamp (d : Datetime) (timespec : TimeSpec) : Stamp :=
  String.ofList (d.body timespec ++ ['Z'])

variable {microsecond : ℕ}

theorem mem_fractionText {c : Char} (h : c ∈ fractionText microsecond timespec) :
    c.isDigit = true ∨ c = '.' := by
  have hdecimal : ∀ {width n}, c ∈ '.' :: decimal width n → c.isDigit = true ∨ c = '.' := by
    intro width n hmem
    rcases List.mem_cons.mp hmem with hdot | hdigit
    · exact Or.inr hdot
    · exact Or.inl (isDigit_of_mem_decimal hdigit)
  cases timespec with
  | milliseconds => exact hdecimal h
  | auto =>
    rw [fractionText] at h
    split_ifs at h
    · cases h
    · exact hdecimal h

/-- A time has neither the character that begins the offset nor the one that replaces it. -/
theorem Datetime.notMem_body (d : Datetime) (timespec : TimeSpec) :
    '+' ∉ d.body timespec ∧ 'Z' ∉ d.body timespec := by
  have hmem : ∀ c ∈ d.body timespec, c.isDigit = true ∨ c ∈ ['-', 'T', ':', '.'] := by
    intro c hc
    rcases List.mem_append.mp hc with hc | hc
    · rcases mem_render hc with hdigit | ⟨field, hfield, hc⟩
      · exact Or.inl hdigit
      · have hseparators : ∀ field ∈ layout, ∀ c ∈ field.2, c ∈ ['-', 'T', ':', '.'] :=
          List.forall_iff_forall_mem.mp (by simp [layout])
        exact Or.inr (hseparators field hfield c hc)
    · rcases mem_fractionText hc with hdigit | rfl
      · exact Or.inl hdigit
      · exact Or.inr (by decide)
  exact ⟨fun h => absurd (hmem _ h) (by decide), fun h => absurd (hmem _ h) (by decide)⟩

theorem Datetime.replace_isoformat (d : Datetime) (timespec : TimeSpec) :
    String.ofList (replaceFrom zero ['Z'] 0 (d.isoformat timespec)) = d.stamp timespec :=
  congrArg String.ofList (replaceFrom_last (d.notMem_body timespec).1)

/-- What is written for a reading. -/
theorem formatUtc_eq_some {t : Reading} {stamp : Stamp} (h : formatUtc t = some stamp) :
    ∃ d : Datetime, (d.instant : ℤ) = t.instant ∧ stamp = d.stamp .milliseconds := by
  simp only [formatUtc, Option.bind_eq_bind, Option.bind_eq_some_iff, Option.pure_def,
    Option.some.injEq, Datetime.replace_isoformat] at h
  obtain ⟨offset, hoffset, d, hadd, rfl⟩ := h
  refine ⟨d, ?_, rfl⟩
  rw [Datetime.instant_add hadd, Reading.instant, hoffset, Option.getD_some, Int.sub_eq_add_neg]

theorem readFraction_decimal {width n : ℕ} (hwidth : width ≤ 6) (hn : n < 10 ^ width) :
    readFraction ('.' :: decimal width n ++ zero) = (n * 10 ^ (6 - width), zero) := by
  have hdigits : ∀ c ∈ decimal width n, c.isDigit = true := fun c hc => isDigit_of_mem_decimal hc
  have hzero : zero.takeWhile Char.isDigit = [] ∧ zero.dropWhile Char.isDigit = zero := by decide
  have hlength := length_decimal width n
  rw [List.cons_append, readFraction, List.takeWhile_append_of_pos hdigits,
    List.dropWhile_append_of_pos hdigits, hzero.1, hzero.2, List.append_nil,
    List.take_of_length_le (by omega), decimalValue_decimal hn, hlength]

def TimeSpec.written (microsecond : ℕ) : TimeSpec → ℕ
  | .milliseconds => microsecond / 1000 * 1000
  | .auto => microsecond

theorem readFraction_fractionText (h : microsecond < 1000000) (timespec : TimeSpec) :
    readFraction (fractionText microsecond timespec ++ zero) =
      (timespec.written microsecond, zero) := by
  cases timespec with
  | milliseconds =>
    rw [fractionText, TimeSpec.written, readFraction_decimal (by decide) (by omega),
      show 10 ^ (6 - 3) = 1000 from rfl]
  | auto =>
    rw [fractionText, TimeSpec.written]
    split_ifs with hnone
    · rw [hnone]
      rfl
    · rw [readFraction_decimal (by decide) (by omega), Nat.sub_self, Nat.pow_zero, Nat.mul_one]

/-- What is written is read, but for what was not written. -/
theorem parseUtc_stamp (d : Datetime) (timespec : TimeSpec) :
    ∃ read : Datetime, parseUtc (d.stamp timespec) = some read ∧
      read.wholeSecond = d.wholeSecond ∧ read.microsecond = timespec.written d.microsecond := by
  have hlt : timespec.written d.microsecond < 1000000 := by
    have hmicrosecond := d.microsecond_lt
    cases timespec <;> rw [TimeSpec.written] <;> omega
  have hnumbers : Datetime.ofNumbers d.numbers (timespec.written d.microsecond) =
      some { d with microsecond := timespec.written d.microsecond, microsecond_lt := hlt } := by
    rw [Datetime.numbers, Datetime.ofNumbers, Calendar.Date.ofNumbers_self, Option.bind_eq_bind,
      Option.bind_some]
    exact dif_pos ⟨⟨d.hour_lt, d.minute_lt⟩, d.second_lt, hlt⟩
  have hreplace : replaceFrom ['Z'] zero 0 (d.stamp timespec).toList = d.isoformat timespec := by
    rw [Datetime.stamp, String.toList_ofList]
    exact replaceFrom_last (d.notMem_body timespec).2
  refine ⟨{ d with microsecond := timespec.written d.microsecond, microsecond_lt := hlt }, ?_, rfl,
    rfl⟩
  rw [parseUtc, hreplace, fromIsoformat, Datetime.isoformat, List.append_assoc,
    read_render (fits_numbers d)]
  simp only [Option.bind_eq_bind, Option.bind_some, readFraction_fractionText d.microsecond_lt,
    if_true, hnumbers]

/-- What is written some seconds after a reading. -/
theorem plusSeconds_eq_some {seconds : ℕ} {stamp : Stamp}
    (h : plusSeconds (d.stamp .milliseconds) seconds = some stamp) :
    ∃ e : Datetime, stamp = e.stamp .auto ∧ e.wholeSecond = d.wholeSecond + seconds ∧
      e.microsecond = d.microsecond / 1000 * 1000 := by
  obtain ⟨read, hread, hsecond, hmicrosecond⟩ := parseUtc_stamp d .milliseconds
  rw [plusSeconds, hread, Option.bind_eq_bind, Option.bind_some] at h
  obtain ⟨e, hadd, hstamp⟩ := Option.bind_eq_some_iff.mp h
  rw [Datetime.replace_isoformat] at hstamp
  obtain rfl := Option.some.inj hstamp
  have hinstant := Int.ofNat_inj.mp ((Datetime.instant_add hadd).trans (Int.natCast_add _ _).symm)
  have hlt := e.microsecond_lt
  have hlt' := d.microsecond_lt
  rw [TimeSpec.written] at hmicrosecond
  rw [Datetime.instant, Datetime.instant] at hinstant
  refine ⟨e, rfl, ?_, ?_⟩ <;> omega

/-- Texts of times compare by the seconds first, and then by what is written behind them. -/
theorem stamp_lt_iff {timespec' : TimeSpec} : d.stamp timespec < e.stamp timespec' ↔
    d.wholeSecond < e.wholeSecond ∨ d.wholeSecond = e.wholeSecond ∧
      fractionText d.microsecond timespec ++ ['Z'] <
        fractionText e.microsecond timespec' ++ ['Z'] := by
  rw [String.lt_iff, Datetime.stamp, Datetime.stamp, String.toList_ofList, String.toList_ofList,
    Datetime.body, Datetime.body, List.append_assoc, List.append_assoc,
    render_append_lt_iff (fits_numbers d) (fits_numbers e), Datetime.numbers_lt_iff.1,
    Datetime.numbers_lt_iff.2]

end Texts

/-! ## Comparisons -/

section Comparisons

variable {d e : Datetime} {seconds : ℕ}

variable {microsecond : ℕ}

/-- With a whole number of seconds a text is above those of the whole second. -/
theorem fraction_lt_of_none :
    fractionText microsecond .milliseconds ++ ['Z'] < fractionText 0 .auto ++ ['Z'] :=
  List.cons_lt_cons_iff.mpr (Or.inl (by decide))

/-- Six digits that end with three zeros compare with three digits as the numbers do. -/
theorem fraction_lt_iff {milliseconds : ℕ} (h : microsecond < 1000000) (hpos : milliseconds ≠ 0)
    (hlt : milliseconds < 1000) :
    fractionText microsecond .milliseconds ++ ['Z'] <
        fractionText (milliseconds * 1000) .auto ++ ['Z'] ↔ microsecond / 1000 < milliseconds := by
  have hsix : decimal 6 (milliseconds * 1000) = decimal 3 milliseconds ++ ['0', '0', '0'] := by
    have h1 : milliseconds * 1000 / 10 = milliseconds * 100 := by omega
    have h2 : milliseconds * 100 / 10 = milliseconds * 10 := by omega
    have h3 : milliseconds * 10 / 10 = milliseconds := by omega
    have hzeros : milliseconds * 1000 % 10 = 0 ∧ milliseconds * 100 % 10 = 0 ∧
        milliseconds * 10 % 10 = 0 := by omega
    rw [decimal, h1, decimal, h2, decimal, h3, hzeros.1, hzeros.2.1, hzeros.2.2, List.append_assoc,
      List.append_assoc]
    rfl
  have hlength : (decimal 3 (microsecond / 1000)).length = (decimal 3 milliseconds).length := by
    simp
  have hback : ¬(['Z'] : List Char) < ['0', '0', '0'] ++ ['Z'] := by decide
  rw [fractionText, fractionText, if_neg (by omega), List.cons_append, List.cons_append,
    List.cons_lt_cons_iff, hsix, List.append_assoc, append_lt_append_iff hlength,
    (decimal_lt_iff (by omega) (by omega)).1]
  have hdot : ¬ '.' < '.' := by decide
  simp only [hdot, hback, and_false, or_false, false_or, true_and]

/-- The text of a lease's expiry is above that of the reading that it was computed from. -/
theorem lt_stamp_of_plus (hseconds : 1 ≤ seconds)
    (hsecond : e.wholeSecond = d.wholeSecond + seconds) :
    d.stamp .milliseconds < e.stamp .auto :=
  stamp_lt_iff.mpr (Or.inl (by omega))

/-- A time is below an expiry as a text, if it is earlier, or if the expiry is a whole second and
the time lies in it. -/
theorem stamp_lt_expiry_iff (hwhole : e.microsecond = e.microsecond / 1000 * 1000) :
    d.stamp .milliseconds < e.stamp .auto ↔
      d.instant < e.instant ∨ e.microsecond = 0 ∧ d.wholeSecond = e.wholeSecond := by
  have hlt := d.microsecond_lt
  have hlt' := e.microsecond_lt
  rw [stamp_lt_iff, Datetime.instant, Datetime.instant]
  by_cases hnone : e.microsecond = 0
  · rw [hnone]
    simp only [fraction_lt_of_none, and_true, true_and]
    omega
  · rw [hwhole, fraction_lt_iff hlt (by omega) (by omega)]
    omega

end Comparisons

/-! ## Leases -/

section Leases

variable {store : Store} {now : Stamp} {row : LeaseRow}

/-- A lease after some leases have been recovered. -/
def recoveredRow (now : Stamp) (expired : List (LeaseRow × Job)) (row : LeaseRow) : LeaseRow :=
  if row.state = .active ∧ row.leaseId ∈ expired.map (·.1.leaseId) then
    { row with state := .expired, releasedAt := some now }
  else row

theorem leases_foldl_recoverLease (expired : List (LeaseRow × Job)) (store : Store) :
    (expired.foldl (Store.recoverLease now) store).leases =
      store.leases.map (recoveredRow now expired) := by
  induction expired generalizing store with
  | nil =>
    have hnone : recoveredRow now [] = id := by
      funext row
      exact if_neg fun hboth => List.not_mem_nil hboth.2
    rw [hnone, List.map_id]
    rfl
  | cons first rest ih =>
    have hfirst : (Store.recoverLease now store first).leases = store.leases.map fun row =>
        if row.leaseId == first.1.leaseId && row.state == .active then
          { row with state := .expired, releasedAt := some now }
        else row := rfl
    rw [List.foldl_cons, ih, hfirst, List.map_map]
    refine List.map_congr_left fun row _ => ?_
    simp only [Function.comp_apply, recoveredRow, List.map_cons, List.mem_cons, Bool.and_eq_true,
      beq_iff_eq]
    by_cases hthis : row.leaseId = first.1.leaseId ∧ row.state = .active
    · have hdone : ¬(JobLeaseState.expired = .active ∧ row.leaseId ∈ rest.map (·.1.leaseId)) := by
        rintro ⟨hstate, -⟩
        cases hstate
      rw [if_pos hthis]
      exact (if_neg hdone).trans (if_pos ⟨hthis.2, Or.inl hthis.1⟩).symm
    · rw [if_neg hthis]
      refine if_congr (and_congr_right fun hstate => ?_) rfl rfl
      exact (or_iff_right fun hid => hthis ⟨hid, hstate⟩).symm

theorem mem_expiredIds_iff (hids : (store.leases.map (·.leaseId)).Nodup) (hrow : row ∈ store.leases)
    (hactive : row.state = .active) (hjob : ∃ job ∈ store.jobs, job.jobId = row.jobId) :
    row.leaseId ∈ (store.expiredLeases now).map (·.1.leaseId) ↔ row.expiresAt ≤ now := by
  have hmem : ∀ expired, expired ∈ store.expiredLeases now ↔
      (expired.1 ∈ store.leases ∧ expired.1.state = .active ∧ expired.1.expiresAt ≤ now) ∧
        store.jobs.find? (·.jobId == expired.1.jobId) = some expired.2 := by
    intro expired
    rw [Store.expiredLeases, List.mem_insertionSort, List.mem_filterMap]
    constructor
    · rintro ⟨other, hother, hjoin⟩
      obtain ⟨job, hjob, rfl⟩ := Option.map_eq_some_iff.mp hjoin
      rw [List.mem_filter, Bool.and_eq_true, beq_iff_eq, decide_eq_true_iff] at hother
      exact ⟨hother, hjob⟩
    · rintro ⟨hother, hjob⟩
      refine ⟨expired.1, ?_, Option.map_eq_some_iff.mpr ⟨expired.2, hjob, rfl⟩⟩
      rw [List.mem_filter, Bool.and_eq_true, beq_iff_eq, decide_eq_true_iff]
      exact hother
  rw [List.mem_map]
  constructor
  · rintro ⟨expired, hexpired, hid⟩
    obtain ⟨⟨hother, -, hle⟩, -⟩ := (hmem expired).mp hexpired
    rw [List.inj_on_of_nodup_map hids hrow hother hid.symm]
    exact hle
  · intro hle
    obtain ⟨job, hjob, hid⟩ := hjob
    have hfound : (store.jobs.find? (·.jobId == row.jobId)).isSome :=
      List.find?_isSome.mpr ⟨job, hjob, beq_iff_eq.mpr hid⟩
    obtain ⟨found, hfound⟩ := Option.isSome_iff_exists.mp hfound
    exact ⟨(row, found), (hmem _).mpr ⟨⟨hrow, hactive, hle⟩, hfound⟩, rfl⟩

/-- A lease is recovered when its expiry is not above the time, as texts. -/
theorem recovered_iff (hids : (store.leases.map (·.leaseId)).Nodup) (hrow : row ∈ store.leases)
    (hactive : row.state = .active) (hjob : ∃ job ∈ store.jobs, job.jobId = row.jobId) :
    { row with state := .expired, releasedAt := some now } ∈ (store.recoverExpired now).leases ↔
      row.expiresAt ≤ now := by
  have hdue : row.leaseId ∈ (store.expiredLeases now).map (·.1.leaseId) ↔ row.expiresAt ≤ now :=
    mem_expiredIds_iff hids hrow hactive hjob
  rw [Store.recoverExpired, leases_foldl_recoverLease, ← hdue, List.mem_map]
  constructor
  · rintro ⟨other, hother, heq⟩
    by_contra hkept
    have hid : other.leaseId = row.leaseId := by
      have hsame := congrArg LeaseRow.leaseId heq
      rw [recoveredRow] at hsame
      split_ifs at hsame <;> exact hsame
    obtain rfl := List.inj_on_of_nodup_map hids hother hrow hid
    rw [recoveredRow, if_neg fun hboth => hkept hboth.2] at heq
    have hstate := congrArg LeaseRow.state heq
    rw [hactive] at hstate
    cases hstate
  · intro hexpired
    exact ⟨row, hrow, if_pos ⟨hactive, hexpired⟩⟩

/-- A heartbeat is refused when the expiry of its lease is not above the time, as texts. -/
theorem heartbeat_refused_iff {lease : JobLease} {expiresAt : Stamp}
    (hrow : store.leases.filter (fun row => lease.names row && row.state == .active) = [row])
    (hlater : now < expiresAt) :
    store.heartbeat lease now expiresAt =
      .error (.leaseLost "heartbeat lease is expired or superseded") ↔ row.expiresAt ≤ now := by
  have hcount : store.leases.countP (fun row => lease.names row && row.state == .active &&
      decide (now < row.expiresAt)) = if now < row.expiresAt then 1 else 0 := by
    have hsplit : ∀ row : LeaseRow, (lease.names row && row.state == .active &&
        decide (now < row.expiresAt)) =
          (decide (now < row.expiresAt) && (lease.names row && row.state == .active)) :=
      fun row => Bool.and_comm _ _
    simp only [hsplit]
    rw [← List.countP_filter, hrow, List.countP_singleton]
    simp only [decide_eq_true_eq]
  have hchecked : decide (expiresAt ≤ now) = false :=
    decide_eq_false (String.not_le.mpr hlater)
  rw [Store.heartbeat, hchecked]
  dsimp only
  rw [hcount]
  by_cases hheld : now < row.expiresAt
  · rw [if_pos hheld]
    refine iff_of_false ?_ (String.not_le.mpr hheld)
    intro herror
    cases herror
  · rw [if_neg hheld]
    exact iff_of_true rfl (String.not_lt.mp hheld)

end Leases

/-! ## Texts and instants -/

/-- Whether the comparisons of a lease go by instants: that of the clock reading `t` with which it
was claimed, of its expiry, and of a later reading `u`. -/
structure ComparesAsInstants (t u : Reading) (now expires later : Stamp) (expiry : ℤ) : Prop where
  /-- The check of `claim_next` and `heartbeat`. -/
  claimed : expires ≤ now ↔ expiry ≤ t.instant
  /-- The lease is held for a heartbeat. -/
  held : later < expires ↔ u.instant < expiry
  /-- The lease is found by `recover_expired`. -/
  expired : expires ≤ later ↔ expiry ≤ u.instant
  /-- A lease is recovered exactly when the instant of its expiry has been reached. -/
  recovered : ∀ (store : Store) (row : LeaseRow), (store.leases.map (·.leaseId)).Nodup →
    row ∈ store.leases → row.state = .active → row.expiresAt = expires →
    (∃ job ∈ store.jobs, job.jobId = row.jobId) →
    ({ row with state := .expired, releasedAt := some later } ∈
      (store.recoverExpired later).leases ↔ expiry ≤ u.instant)
  /-- A heartbeat is refused exactly then. -/
  refused : ∀ (store : Store) (lease : JobLease) (row : LeaseRow) (expiresAt : Stamp),
    store.leases.filter (fun row => lease.names row && row.state == .active) = [row] →
    row.expiresAt = expires → later < expiresAt →
    (store.heartbeat lease later expiresAt =
      .error (.leaseLost "heartbeat lease is expired or superseded") ↔ expiry ≤ u.instant)

/-- The lease expires with a second of the clock, and the later reading lies within the second
that begins there. -/
def WithinExpirySecond (t u : Reading) (seconds : ℕ) : Prop :=
  t.instant / 1000 % 1000 = 0 ∧ u.instant / 1000000 = t.instant / 1000000 + seconds

/-- The comparisons of a lease go by instants, unless it expires with a second of the clock and the
later reading lies within the next second. -/
theorem lease_times_compare_iff (t u : Reading) (seconds : ℕ) (hseconds : 1 ≤ seconds)
    {now expires later : Stamp} (hnow : formatUtc t = some now)
    (hexpires : plusSeconds now seconds = some expires) (hlater : formatUtc u = some later) :
    ∃ expiry : Datetime, parseUtc expires = some expiry ∧
      (expiry.instant : ℤ) = t.instant / 1000 * 1000 + seconds * 1000000 ∧
      (ComparesAsInstants t u now expires later expiry.instant ↔
        ¬WithinExpirySecond t u seconds) := by
  obtain ⟨d, hd, rfl⟩ := formatUtc_eq_some hnow
  obtain ⟨e, rfl, hsecond, hmicrosecond⟩ := plusSeconds_eq_some hexpires
  obtain ⟨f, hf, rfl⟩ := formatUtc_eq_some hlater
  have hwhole : e.microsecond = e.microsecond / 1000 * 1000 := by
    rw [hmicrosecond]
    omega
  have hd_lt := d.microsecond_lt
  have hf_lt := f.microsecond_lt
  obtain ⟨expiry, hparse, hsame, hwritten⟩ := parseUtc_stamp e .auto
  have hexpiry : expiry.instant = e.instant := by
    rw [TimeSpec.written] at hwritten
    rw [Datetime.instant, Datetime.instant, hsame, hwritten]
  have hd_instant : d.instant = d.wholeSecond * 1000000 + d.microsecond := rfl
  have he_instant : e.instant = e.wholeSecond * 1000000 + e.microsecond := rfl
  have hf_instant : f.instant = f.wholeSecond * 1000000 + f.microsecond := rfl
  have hwithin : WithinExpirySecond t u seconds ↔
      e.microsecond = 0 ∧ f.wholeSecond = e.wholeSecond := by
    rw [WithinExpirySecond]
    omega
  have hclaim : d.stamp .milliseconds < e.stamp .auto := lt_stamp_of_plus hseconds hsecond
  have hlt : f.stamp .milliseconds < e.stamp .auto ↔
      f.instant < e.instant ∨ e.microsecond = 0 ∧ f.wholeSecond = e.wholeSecond :=
    stamp_lt_expiry_iff hwhole
  have hafter : (expiry.instant : ℤ) = t.instant / 1000 * 1000 + seconds * 1000000 := by
    have hfloor : d.instant / 1000 * 1000 + seconds * 1000000 = e.instant := by omega
    rw [hexpiry, ← hd, ← hfloor, Int.natCast_add, Int.natCast_mul, Int.natCast_mul, Int.natCast_ediv]
    rfl
  refine ⟨expiry, hparse, hafter, ?_⟩
  rw [hwithin, hexpiry]
  constructor
  · intro hcompares hboth
    have hheld := hcompares.held.mp (hlt.mpr (Or.inr hboth))
    omega
  · intro hoften
    have hheld : f.stamp .milliseconds < e.stamp .auto ↔ u.instant < e.instant := by
      rw [hlt]
      omega
    have hexpired : e.stamp .auto ≤ f.stamp .milliseconds ↔ (e.instant : ℤ) ≤ u.instant := by
      rw [← String.not_lt, hheld, Int.not_lt]
    refine ⟨iff_of_false (String.not_le.mpr hclaim) (by omega), hheld, hexpired, ?_, ?_⟩
    · intro store row hids hrow hactive hstamp hjob
      rw [recovered_iff hids hrow hactive hjob, hstamp, hexpired]
    · intro store lease row expiresAt hrow hstamp hafter
      rw [heartbeat_refused_iff hrow hafter, hstamp, hexpired]

/-! ## Two leases -/

namespace Sample

/-- A reading in the first hour of 2026. -/
def reading (minute second microsecond : ℕ) (hminute : minute < 60 := by decide)
    (hsecond : second < 60 := by decide) (hmicrosecond : microsecond < 1000000 := by decide) :
    Reading where
  wall :=
    { date := ⟨2026, 1, 1, by decide, by decide, by decide, by decide, by decide, by decide⟩
      hour := 0
      minute := minute
      second := second
      microsecond := microsecond
      hour_lt := by decide
      minute_lt := hminute
      second_lt := hsecond
      microsecond_lt := hmicrosecond }
  utcOffset := some 0

end Sample

/-- A lease that was claimed a quarter of a second after the hour is found when it expires. -/
theorem lease_times_compare_iff_of_quarter : ∃ expiry,
    ComparesAsInstants (Sample.reading 0 0 250000) (Sample.reading 1 0 250000)
      "2026-01-01T00:00:00.250Z" "2026-01-01T00:01:00.250000Z" "2026-01-01T00:01:00.250Z" expiry := by
  have hnow : formatUtc (Sample.reading 0 0 250000) = some "2026-01-01T00:00:00.250Z" := by
    decide +kernel
  have hexpires : plusSeconds "2026-01-01T00:00:00.250Z" 60 = some "2026-01-01T00:01:00.250000Z" := by
    decide +kernel
  have hlater : formatUtc (Sample.reading 1 0 250000) = some "2026-01-01T00:01:00.250Z" := by
    decide +kernel
  obtain ⟨expiry, -, -, hiff⟩ := lease_times_compare_iff (Sample.reading 0 0 250000)
    (Sample.reading 1 0 250000) 60 (by decide) hnow hexpires hlater
  refine ⟨_, hiff.mpr ?_⟩
  rintro ⟨hfraction, -⟩
  exact absurd hfraction (by decide +kernel)

/-- A lease that was claimed on the hour for a minute is not found half a second after it has
expired. -/
theorem expired_lease_not_found :
    formatUtc (Sample.reading 0 0 0) = some "2026-01-01T00:00:00.000Z" ∧
      plusSeconds "2026-01-01T00:00:00.000Z" 60 = some "2026-01-01T00:01:00Z" ∧
      formatUtc (Sample.reading 1 0 500000) = some "2026-01-01T00:01:00.500Z" ∧
      (parseUtc "2026-01-01T00:01:00Z").map (fun expiry =>
        decide ((expiry.instant : ℤ) ≤ (Sample.reading 1 0 500000).instant)) = some true ∧
      ¬"2026-01-01T00:01:00Z" ≤ "2026-01-01T00:01:00.500Z" :=
  ⟨by decide +kernel, by decide +kernel, by decide +kernel, by decide +kernel, by decide +kernel⟩

end ResearchKernel.Product.LeaseTimes
