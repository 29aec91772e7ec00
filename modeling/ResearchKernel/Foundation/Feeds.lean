import Mathlib.Data.List.Nodup
import Mathlib.Data.List.Infix
import Mathlib.Data.List.Perm.Subperm

/-!
# Feeds that are read by a cursor

A feed is a list whose entries have increasing keys. A reader with a cursor reads the entries
after it. What lies between two cursors is read once, in order, however it is cut.
-/

namespace Foundation

variable {α : Type} {key : α → ℕ}

/-- The keys of a feed increase. -/
def Increasing (key : α → ℕ) (feed : List α) : Prop := feed.Pairwise fun a b => key a < key b

/-- The entries after one cursor and up to another. -/
def between (key : α → ℕ) (lo hi : ℕ) (feed : List α) : List α :=
  feed.filter fun entry => decide (lo < key entry) && decide (key entry ≤ hi)

variable {lo hi : ℕ} {feed : List α}

theorem mem_between {entry : α} :
    entry ∈ between key lo hi feed ↔ entry ∈ feed ∧ lo < key entry ∧ key entry ≤ hi := by
  rw [between, List.mem_filter, Bool.and_eq_true, decide_eq_true_iff, decide_eq_true_iff]

theorem Increasing.filter {feed : List α} (h : Increasing key feed) (test : α → Bool) :
    Increasing key (feed.filter test) :=
  List.Pairwise.filter test h

/-- A feed has no entry twice. -/
theorem Increasing.nodup (h : Increasing key feed) : feed.Nodup := by
  refine List.Pairwise.imp (fun {a b} hlt heq => ?_) h
  rw [heq] at hlt
  exact Nat.lt_irrefl _ hlt

/-- An entry with a larger key than all others comes last. -/
theorem Increasing.concat {feed : List α} (h : Increasing key feed) {entry : α}
    (hlast : ∀ old ∈ feed, key old < key entry) : Increasing key (feed ++ [entry]) := by
  rw [Increasing, List.pairwise_append]
  refine ⟨h, List.pairwise_singleton _ _, fun old hold other hother => ?_⟩
  rw [List.mem_singleton.mp hother]
  exact hlast old hold

/-- Nothing lies between a cursor and itself. -/
@[simp] theorem between_self (lo : ℕ) (feed : List α) : between key lo lo feed = [] := by
  rw [between, List.filter_eq_nil_iff]
  intro entry _
  rw [Bool.and_eq_true, decide_eq_true_iff, decide_eq_true_iff]
  omega

/-- What lies between two cursors may be cut at a cursor between them. -/
theorem between_split (h : Increasing key feed) {mid : ℕ} (hlo : lo ≤ mid) (hhi : mid ≤ hi) :
    between key lo hi feed = between key lo mid feed ++ between key mid hi feed := by
  induction feed with
  | nil => rfl
  | cons entry feed ih =>
    obtain ⟨hfirst, hrest⟩ := List.pairwise_cons.mp h
    have hih := ih hrest
    unfold between at hih ⊢
    by_cases hmid : key entry ≤ mid
    · by_cases hlow : lo < key entry
      · rw [List.filter_cons_of_pos (by simp; omega), List.filter_cons_of_pos (by simp; omega),
          List.filter_cons_of_neg (by simp; omega), hih, List.cons_append]
      · rw [List.filter_cons_of_neg (by simp; omega), List.filter_cons_of_neg (by simp; omega),
          List.filter_cons_of_neg (by simp; omega), hih]
    · -- from here on everything lies after the cut
      have hnone : feed.filter (fun entry => decide (lo < key entry) && decide (key entry ≤ mid)) =
          [] := by
        rw [List.filter_eq_nil_iff]
        intro other hother
        have hlt := hfirst other hother
        simp only [Bool.and_eq_true, decide_eq_true_eq]
        omega
      rw [hnone, List.nil_append] at hih
      by_cases hhigh : key entry ≤ hi
      · rw [List.filter_cons_of_pos (by simp; omega), List.filter_cons_of_neg (by simp; omega),
          List.filter_cons_of_pos (by simp; omega), hnone, hih, List.nil_append]
      · rw [List.filter_cons_of_neg (by simp; omega), List.filter_cons_of_neg (by simp; omega),
          List.filter_cons_of_neg (by simp; omega), hnone, hih, List.nil_append]

/-- Entries that do not lie between the cursors do not count. -/
theorem between_append {more : List α} (h : ∀ entry ∈ more, lo < key entry → hi < key entry) :
    between key lo hi (feed ++ more) = between key lo hi feed := by
  have hnone : between key lo hi more = [] := by
    rw [between, List.filter_eq_nil_iff]
    intro entry hentry
    have hlt := h entry hentry
    simp only [Bool.and_eq_true, decide_eq_true_eq]
    omega
  unfold between at hnone ⊢
  rw [List.filter_append, hnone, List.append_nil]

variable {last : α}

theorem Increasing.le_getLast (h : Increasing key feed) (hlast : feed.getLast? = some last)
    {entry : α} (hentry : entry ∈ feed) :
    key entry ≤ key last := by
  obtain ⟨init, hinit⟩ := List.getLast?_eq_some_iff.mp hlast
  rw [hinit] at h hentry
  obtain ⟨-, -, hbefore⟩ := List.pairwise_append.mp h
  rcases List.mem_append.mp hentry with hold | hsame
  · exact (hbefore entry hold last (List.mem_singleton_self _)).le
  · rw [List.mem_singleton.mp hsame]

/-- What lies between two cursors reaches to the last entry that does. -/
theorem between_getLast (h : Increasing key feed)
    (hlast : (between key lo hi feed).getLast? = some last) :
    between key lo (key last) feed = between key lo hi feed := by
  have hle := (mem_between.mp (List.mem_of_getLast? hlast)).2.2
  refine List.filter_congr fun entry hentry => ?_
  by_cases hin : lo < key entry ∧ key entry ≤ hi
  · have hmax := (h.filter _).le_getLast hlast (mem_between.mpr ⟨hentry, hin⟩)
    simp [hin.1, hin.2, hmax]
  · have hnot : ¬ (lo < key entry ∧ key entry ≤ key last) := fun hboth =>
      hin ⟨hboth.1, hboth.2.trans hle⟩
    rw [Bool.eq_iff_iff, Bool.and_eq_true, Bool.and_eq_true, decide_eq_true_iff,
      decide_eq_true_iff, decide_eq_true_iff]
    exact ⟨fun hboth => (hnot hboth).elim, fun hboth => (hin hboth).elim⟩

/-- When no entry lies after a cursor, it bounds nothing. -/
theorem filter_eq_between (h : ∀ entry ∈ feed, lo < key entry → key entry ≤ hi) :
    feed.filter (fun entry => decide (lo < key entry)) = between key lo hi feed := by
  refine List.filter_congr fun entry hentry => ?_
  by_cases hlow : lo < key entry
  · simp [hlow, h entry hentry hlow]
  · simp [hlow]

/-- The first entries after a cursor are those up to the last of them. -/
theorem take_eq_between (h : Increasing key feed) {n : ℕ}
    (hlast : ((feed.filter fun entry => decide (lo < key entry)).take n).getLast? = some last) :
    (feed.filter fun entry => decide (lo < key entry)).take n = between key lo (key last) feed := by
  set rest := feed.filter fun entry => decide (lo < key entry) with hrest
  have hordered : Increasing key rest := h.filter _
  obtain ⟨init, hinit⟩ := List.getLast?_eq_some_iff.mp hlast
  have hsplit : rest = (init ++ [last]) ++ rest.drop n := by
    rw [← hinit, List.take_append_drop]
  have hpair : Increasing key ((init ++ [last]) ++ rest.drop n) := hsplit ▸ hordered
  obtain ⟨hfirst, -, hcross⟩ := List.pairwise_append.mp hpair
  have hend : (init ++ [last]).getLast? = some last := List.getLast?_concat
  have hbetween : between key lo (key last) feed =
      rest.filter fun entry => decide (key entry ≤ key last) := by
    rw [hrest, List.filter_filter, between]
    refine List.filter_congr fun entry _ => ?_
    rw [Bool.and_comm]
  have hkept : (init ++ [last]).filter (fun entry => decide (key entry ≤ key last)) =
      init ++ [last] := by
    rw [List.filter_eq_self]
    intro entry hentry
    exact decide_eq_true (Increasing.le_getLast hfirst hend hentry)
  have hdropped : (rest.drop n).filter (fun entry => decide (key entry ≤ key last)) = [] := by
    rw [List.filter_eq_nil_iff]
    intro entry hentry
    have hlt := hcross last (List.mem_append_right _ (List.mem_singleton_self _)) entry hentry
    rw [decide_eq_true_iff]
    omega
  rw [hbetween, hinit]
  conv_rhs => rw [hsplit]
  rw [List.filter_append, hkept, hdropped, List.append_nil]

theorem filter_eq_of_sublist {part : List α} {test : α → Bool} (hnodup : feed.Nodup)
    (hpart : List.Sublist part feed) (hall : ∀ entry ∈ feed, test entry = true → entry ∈ part) :
    part.filter test = feed.filter test := by
  have hsub : List.Sublist (part.filter test) (feed.filter test) := hpart.filter test
  refine hsub.eq_of_length_le (List.Nodup.subperm (hnodup.filter test) ?_).length_le
  intro entry hentry
  obtain ⟨hmem, htest⟩ := List.mem_filter.mp hentry
  exact List.mem_filter.mpr ⟨hall entry hmem htest, htest⟩

end Foundation
