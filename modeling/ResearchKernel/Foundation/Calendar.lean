import Mathlib.Algebra.GroupWithZero.Nat
import Mathlib.Algebra.Order.BigOperators.Group.List
import Mathlib.Algebra.Order.Group.Nat
import Mathlib.Data.List.GetD

/-!
# The calendar

Dates of the Gregorian calendar, extended to the years before it, from year 1 to year 9999. Day 1
is the first day of year 1. A date has an ordinal, later dates have greater ordinals, and every
ordinal up to that of the last day is the ordinal of a date.
-/

namespace Foundation.Calendar

/-! ## Segments -/

/-- The segment in which a position lies, and the position within the segment. -/
def locate : List ℕ → ℕ → ℕ × ℕ
  | [], position => (0, position)
  | length :: rest, position =>
    if position < length then (0, position)
    else ((locate rest (position - length)).1 + 1, (locate rest (position - length)).2)

/-- A position within the segments lies in one of them. -/
theorem locate_spec {lengths : List ℕ} {position : ℕ} (h : position < lengths.sum) :
    (locate lengths position).1 < lengths.length ∧
      (locate lengths position).2 < lengths.getD (locate lengths position).1 0 ∧
        (lengths.take (locate lengths position).1).sum + (locate lengths position).2 = position := by
  induction lengths generalizing position with
  | nil => cases h
  | cons length rest ih =>
    rw [List.sum_cons] at h
    by_cases hfirst : position < length
    · simp [locate, hfirst]
    · have hrest : position - length < rest.sum := by omega
      obtain ⟨hindex, hwithin, hsum⟩ := ih hrest
      rw [locate, if_neg hfirst]
      refine ⟨by simpa using hindex, by simpa using hwithin, ?_⟩
      rw [List.take_succ_cons, List.sum_cons]
      omega

/-! ## Years and months -/

/-- Whether a year has a day more than others. -/
def isLeap (year : ℕ) : Bool := year % 4 == 0 && (year % 100 != 0 || year % 400 == 0)

def monthLengths (year : ℕ) : List ℕ :=
  [31, if isLeap year then 29 else 28, 31, 30, 31, 30, 31, 31, 30, 31, 30, 31]

def daysInMonth (year month : ℕ) : ℕ := (monthLengths year).getD (month - 1) 0

def daysBeforeMonth (year month : ℕ) : ℕ := ((monthLengths year).take (month - 1)).sum

def daysBeforeYear (year : ℕ) : ℕ :=
  let past := year - 1
  past * 365 + past / 4 - past / 100 + past / 400

/-- The last day of year 9999. -/
def maxOrdinal : ℕ := 3652059

/-- The length of a year. -/
def daysInYear (year : ℕ) : ℕ := if isLeap year then 366 else 365

theorem sum_monthLengths (year : ℕ) : (monthLengths year).sum = daysInYear year := by
  rw [monthLengths, daysInYear]
  cases isLeap year <;> rfl

variable {year : ℕ}

theorem daysBeforeYear_succ (h : 1 ≤ year) :
    daysBeforeYear (year + 1) = daysBeforeYear year + daysInYear year := by
  obtain ⟨past, rfl⟩ : ∃ past, year = past + 1 := ⟨year - 1, by omega⟩
  have hleap : isLeap (past + 1) = true ↔
      (past + 1) % 4 = 0 ∧ ((past + 1) % 100 ≠ 0 ∨ (past + 1) % 400 = 0) := by
    simp [isLeap]
  have h4 : (past + 1) / 4 = past / 4 + if (past + 1) % 4 = 0 then 1 else 0 := by
    split_ifs <;> omega
  have h100 : (past + 1) / 100 = past / 100 + if (past + 1) % 100 = 0 then 1 else 0 := by
    split_ifs <;> omega
  have h400 : (past + 1) / 400 = past / 400 + if (past + 1) % 400 = 0 then 1 else 0 := by
    split_ifs <;> omega
  have hfourth : (past + 1) % 100 = 0 → (past + 1) % 4 = 0 := by omega
  have hcentury : (past + 1) % 400 = 0 → (past + 1) % 100 = 0 := by omega
  have hle : past / 100 ≤ past / 4 := by omega
  simp only [daysBeforeYear, daysInYear, hleap, Nat.add_sub_cancel, h4, h100, h400]
  generalize past / 4 = q4 at *
  generalize past / 100 = q100 at *
  split_ifs <;> omega

theorem daysBeforeYear_mono {later : ℕ} (h : year ≤ later) :
    daysBeforeYear year ≤ daysBeforeYear later := by
  refine monotone_nat_of_le_succ (fun past => ?_) h
  rcases Nat.eq_zero_or_pos past with rfl | hpast
  · exact Nat.le_refl 0
  · rw [daysBeforeYear_succ hpast]
    exact Nat.le_add_right _ _

theorem daysInMonth_le (year month : ℕ) : daysInMonth year month ≤ 31 := by
  rw [daysInMonth, List.getD_eq_getElem?_getD]
  cases hlength : (monthLengths year)[month - 1]? with
  | none => exact Nat.zero_le 31
  | some length =>
    have hmem := List.mem_of_getElem? hlength
    have hall : ∀ length ∈ monthLengths year, length ≤ 31 := by
      rw [monthLengths]
      cases isLeap year <;> decide
    exact hall length hmem

theorem daysBeforeMonth_succ {month : ℕ} (h : 1 ≤ month) (hle : month ≤ 12) :
    daysBeforeMonth year (month + 1) = daysBeforeMonth year month + daysInMonth year month := by
  have hlength : month - 1 < (monthLengths year).length := by
    rw [show (monthLengths year).length = 12 from rfl]
    omega
  rw [daysBeforeMonth, daysBeforeMonth, daysInMonth, Nat.add_sub_cancel, List.getD_eq_getElem _ _
    hlength, ← List.sum_take_succ _ _ hlength, Nat.sub_add_cancel h]

theorem daysBeforeMonth_mono {month later : ℕ} (h : month ≤ later) :
    daysBeforeMonth year month ≤ daysBeforeMonth year later :=
  (List.take_sublist_take_left (by omega)).sum_le_sum fun _ _ => Nat.zero_le _

theorem daysBeforeMonth_le (year : ℕ) (month : ℕ) :
    daysBeforeMonth year month ≤ daysInYear year :=
  sum_monthLengths year ▸ (List.take_sublist _ _).sum_le_sum fun _ _ => Nat.zero_le _

/-! ## Dates -/

/-- A date. -/
structure Date where
  year : ℕ
  month : ℕ
  day : ℕ
  one_le_year : 1 ≤ year
  year_le : year ≤ 9999
  one_le_month : 1 ≤ month
  month_le : month ≤ 12
  one_le_day : 1 ≤ day
  day_le : day ≤ daysInMonth year month

/-- The number of a day. -/
def Date.toOrdinal (d : Date) : ℕ :=
  daysBeforeYear d.year + daysBeforeMonth d.year d.month + d.day

def Date.ofNumbers (year month day : ℕ) : Option Date :=
  if h : (1 ≤ year ∧ year ≤ 9999) ∧ (1 ≤ month ∧ month ≤ 12) ∧ 1 ≤ day ∧
      day ≤ daysInMonth year month then
    some ⟨year, month, day, h.1.1, h.1.2, h.2.1.1, h.2.1.2, h.2.2.1, h.2.2.2⟩
  else none

theorem Date.ofNumbers_self (d : Date) : Date.ofNumbers d.year d.month d.day = some d :=
  dif_pos ⟨⟨d.one_le_year, d.year_le⟩, ⟨d.one_le_month, d.month_le⟩, d.one_le_day, d.day_le⟩

theorem Date.day_within (d : Date) :
    daysBeforeMonth d.year d.month + d.day ≤ daysBeforeMonth d.year (d.month + 1) := by
  rw [daysBeforeMonth_succ d.one_le_month d.month_le]
  exact Nat.add_le_add_left d.day_le _

/-- A date lies within its year. -/
theorem Date.toOrdinal_le (d : Date) : d.toOrdinal ≤ daysBeforeYear (d.year + 1) := by
  have hmonth := d.day_within.trans (daysBeforeMonth_le d.year (d.month + 1))
  rw [daysBeforeYear_succ d.one_le_year, Date.toOrdinal, Nat.add_assoc]
  exact Nat.add_le_add_left hmonth _

theorem Date.lt_toOrdinal (d : Date) : daysBeforeYear d.year < d.toOrdinal := by
  have hday := d.one_le_day
  rw [Date.toOrdinal]
  omega

theorem Date.toOrdinal_lt {d e : Date} (h : d.year < e.year ∨ d.year = e.year ∧
    (d.month < e.month ∨ d.month = e.month ∧ d.day < e.day)) : d.toOrdinal < e.toOrdinal := by
  rcases h with hyear | ⟨hyear, hmonth | ⟨hmonth, hday⟩⟩
  · exact (d.toOrdinal_le.trans (daysBeforeYear_mono hyear)).trans_lt e.lt_toOrdinal
  · have hbefore := d.day_within.trans (daysBeforeMonth_mono hmonth)
    have hday := e.one_le_day
    rw [Date.toOrdinal, Date.toOrdinal, ← hyear]
    omega
  · rw [Date.toOrdinal, Date.toOrdinal, ← hyear, ← hmonth]
    omega

/-- The year of a day, the days being counted from 0. -/
def yearOf (day : ℕ) : ℕ :=
  let n400 := day / 146097
  let n100 := min 3 (day % 146097 / 36524)
  let within := day % 146097 - n100 * 36524
  let n4 := within / 1461
  n400 * 400 + n100 * 100 + n4 * 4 + min 3 (within % 1461 / 365) + 1

theorem daysBeforeYear_cycles {a b c d : ℕ} (hb : b ≤ 3) (hc : c ≤ 24) (hd : d ≤ 3) :
    daysBeforeYear (a * 400 + b * 100 + c * 4 + d + 1) =
      a * 146097 + b * 36524 + c * 1461 + d * 365 := by
  have h4 : (a * 400 + b * 100 + c * 4 + d) / 4 = a * 100 + b * 25 + c := by omega
  have h100 : (a * 400 + b * 100 + c * 4 + d) / 100 = a * 4 + b := by omega
  have h400 : (a * 400 + b * 100 + c * 4 + d) / 400 = a := by omega
  rw [daysBeforeYear, Nat.add_sub_cancel, h4, h100, h400]
  omega

theorem yearOf_spec (day : ℕ) :
    1 ≤ yearOf day ∧ daysBeforeYear (yearOf day) ≤ day ∧
      day < daysBeforeYear (yearOf day + 1) := by
  obtain ⟨a, ha⟩ : ∃ a, a = day / 146097 := ⟨_, rfl⟩
  obtain ⟨b, hb⟩ : ∃ b, b = min 3 (day % 146097 / 36524) := ⟨_, rfl⟩
  obtain ⟨w, hw⟩ : ∃ w, w = day % 146097 - b * 36524 := ⟨_, rfl⟩
  obtain ⟨c, hc⟩ : ∃ c, c = w / 1461 := ⟨_, rfl⟩
  obtain ⟨d, hd⟩ : ∃ d, d = min 3 (w % 1461 / 365) := ⟨_, rfl⟩
  have hyear : yearOf day = a * 400 + b * 100 + c * 4 + d + 1 := by
    rw [yearOf, ← ha, ← hb, ← hw, ← hc, ← hd]
  have hb3 : b ≤ 3 := by omega
  have hday : a * 146097 + b * 36524 + w = day ∧ w ≤ 36524 ∧ (b < 3 → w < 36524) := by omega
  have hc24 : c ≤ 24 := by omega
  have hd3 : d ≤ 3 := by omega
  have hrest : c * 1461 + d * 365 ≤ w ∧ (d < 3 → w < c * 1461 + d * 365 + 365) ∧
      w < c * 1461 + 1461 := by omega
  refine ⟨by omega, by rw [hyear, daysBeforeYear_cycles hb3 hc24 hd3]; omega, ?_⟩
  -- The next year begins with the first digit that can still grow.
  rcases Nat.lt_or_ge d 3 with hlt | hge
  · have hnext := daysBeforeYear_cycles (a := a) hb3 hc24 (d := d + 1) hlt
    rw [hyear, Nat.add_assoc _ d 1, hnext]
    omega
  obtain rfl : d = 3 := Nat.le_antisymm hd3 hge
  rcases Nat.lt_or_ge c 24 with hlt | hge
  · have hnext := daysBeforeYear_cycles (a := a) hb3 (c := c + 1) hlt (Nat.zero_le 3)
    rw [hyear, show a * 400 + b * 100 + c * 4 + 3 + 1 + 1 =
      a * 400 + b * 100 + (c + 1) * 4 + 0 + 1 by omega, hnext]
    omega
  obtain rfl : c = 24 := Nat.le_antisymm hc24 hge
  rcases Nat.lt_or_ge b 3 with hlt | hge
  · have hnext := daysBeforeYear_cycles (a := a) (b := b + 1) hlt (Nat.zero_le 24) (Nat.zero_le 3)
    rw [hyear, show a * 400 + b * 100 + 24 * 4 + 3 + 1 + 1 =
      a * 400 + (b + 1) * 100 + 0 * 4 + 0 + 1 by omega, hnext]
    omega
  · have hnext := daysBeforeYear_cycles (a := a + 1) (Nat.zero_le 3) (Nat.zero_le 24) (Nat.zero_le 3)
    rw [hyear, show a * 400 + b * 100 + 24 * 4 + 3 + 1 + 1 =
      (a + 1) * 400 + 0 * 100 + 0 * 4 + 0 + 1 by omega, hnext]
    omega

theorem day_within_year (day : ℕ) :
    day - daysBeforeYear (yearOf day) < (monthLengths (yearOf day)).sum := by
  obtain ⟨hpos, hstart, hnext⟩ := yearOf_spec day
  rw [daysBeforeYear_succ hpos] at hnext
  rw [sum_monthLengths]
  omega

theorem yearOf_le {day : ℕ} (h : day < maxOrdinal) : yearOf day ≤ 9999 := by
  by_contra hlate
  have hlast : daysBeforeYear 10000 = maxOrdinal := by decide
  have hbefore : daysBeforeYear 10000 ≤ daysBeforeYear (yearOf day) :=
    daysBeforeYear_mono (by omega)
  have hstart := (yearOf_spec day).2.1
  omega

/-- The month of a day and the day of the month, both counted from 0. -/
def monthDay (day : ℕ) : ℕ × ℕ :=
  locate (monthLengths (yearOf day)) (day - daysBeforeYear (yearOf day))

theorem monthDay_spec (day : ℕ) :
    (monthDay day).1 < 12 ∧ (monthDay day).2 < daysInMonth (yearOf day) ((monthDay day).1 + 1) ∧
      daysBeforeMonth (yearOf day) ((monthDay day).1 + 1) + (monthDay day).2 =
        day - daysBeforeYear (yearOf day) := by
  rw [daysInMonth, daysBeforeMonth, Nat.add_sub_cancel]
  exact locate_spec (day_within_year day)

def Date.ofOrdinal (n : ℕ) (hpos : 1 ≤ n) (hle : n ≤ maxOrdinal) : Date where
  year := yearOf (n - 1)
  month := (monthDay (n - 1)).1 + 1
  day := (monthDay (n - 1)).2 + 1
  one_le_year := (yearOf_spec (n - 1)).1
  year_le := yearOf_le (by omega)
  one_le_month := Nat.le_add_left 1 _
  month_le := (monthDay_spec (n - 1)).1
  one_le_day := Nat.le_add_left 1 _
  day_le := (monthDay_spec (n - 1)).2.1

theorem Date.toOrdinal_ofOrdinal {n : ℕ} (hpos : 1 ≤ n) (hle : n ≤ maxOrdinal) :
    (Date.ofOrdinal n hpos hle).toOrdinal = n := by
  have hstart := (yearOf_spec (n - 1)).2.1
  have hsum := (monthDay_spec (n - 1)).2.2
  rw [Date.toOrdinal, Date.ofOrdinal]
  dsimp only
  omega

theorem Date.toOrdinal_pos (d : Date) : 1 ≤ d.toOrdinal :=
  Nat.succ_le_of_lt ((Nat.zero_le _).trans_lt d.lt_toOrdinal)

end Foundation.Calendar
