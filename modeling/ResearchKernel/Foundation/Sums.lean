import Mathlib.Algebra.Ring.Int.Defs
import Mathlib.Algebra.Order.BigOperators.Group.List

/-!
# Sums over the rows of a table

An account is the sum of the weights of some rows. Rows fall into groups by a key. When
no group is overdrawn, no collection of groups is. The largest number of a column, with zero
for an empty one, is bounded by its rows.
-/

namespace Foundation

variable {ρ σ κ : Type}

/-- The sum of the weights of the rows that satisfy the test. -/
def sumWhere (test : ρ → Bool) (weight : ρ → ℤ) (table : List ρ) : ℤ :=
  ((table.filter test).map weight).sum

@[simp] theorem sumWhere_nil (test : ρ → Bool) (weight : ρ → ℤ) : sumWhere test weight [] = 0 :=
  rfl

@[simp] theorem sumWhere_cons (test : ρ → Bool) (weight : ρ → ℤ) (row : ρ) (table : List ρ) :
    sumWhere test weight (row :: table) =
      (if test row then weight row else 0) + sumWhere test weight table := by
  unfold sumWhere
  by_cases htest : test row <;> simp [htest]

@[simp] theorem sumWhere_append (test : ρ → Bool) (weight : ρ → ℤ) (table rows : List ρ) :
    sumWhere test weight (table ++ rows) =
      sumWhere test weight table + sumWhere test weight rows := by
  simp [sumWhere]

variable {test : ρ → Bool} {weight : ρ → ℤ} {table : List ρ}

theorem sumWhere_congr {test' : ρ → Bool} {weight' : ρ → ℤ}
    (h : ∀ row ∈ table, (if test row then weight row else 0) =
      if test' row then weight' row else 0) :
    sumWhere test weight table = sumWhere test' weight' table := by
  induction table with
  | nil => rfl
  | cons row table ih =>
    rw [sumWhere_cons, sumWhere_cons, h row List.mem_cons_self,
      ih fun row' hrow' => h row' (List.mem_cons_of_mem _ hrow')]

theorem sumWhere_map (f : σ → ρ) (test : ρ → Bool) (weight : ρ → ℤ) (table : List σ) :
    sumWhere test weight (table.map f) =
      sumWhere (fun row => test (f row)) (fun row => weight (f row)) table := by
  induction table with
  | nil => rfl
  | cons row table ih => rw [List.map_cons, sumWhere_cons, sumWhere_cons, ih]

theorem sumWhere_filter (keep test : ρ → Bool) (weight : ρ → ℤ) (table : List ρ) :
    sumWhere test weight (table.filter keep) =
      sumWhere (fun row => keep row && test row) weight table := by
  unfold sumWhere
  rw [List.filter_filter]
  simp only [Bool.and_comm]

/-- Sums do not depend on the order of the rows. -/
theorem sumWhere_perm {table' : List ρ} (h : table.Perm table') :
    sumWhere test weight table = sumWhere test weight table' :=
  ((h.filter test).map weight).sum_eq

/-- Rows of which none counts sum to nothing. -/
theorem sumWhere_eq_zero (h : ∀ row ∈ table, test row = true → weight row = 0) :
    sumWhere test weight table = 0 := by
  induction table with
  | nil => rfl
  | cons row table ih =>
    rw [sumWhere_cons, ih fun row' hrow' => h row' (List.mem_cons_of_mem _ hrow')]
    by_cases htest : test row
    · simp [htest, h row List.mem_cons_self htest]
    · simp [htest]

theorem sumWhere_nonneg (h : ∀ row ∈ table, 0 ≤ weight row) : 0 ≤ sumWhere test weight table := by
  induction table with
  | nil => exact le_refl 0
  | cons row table ih =>
    have hrow := h row List.mem_cons_self
    have hrest := ih fun row' hrow' => h row' (List.mem_cons_of_mem _ hrow')
    rw [sumWhere_cons]
    split <;> omega

/-- More rows of no negative weight sum to no less. -/
theorem sumWhere_mono {test' : ρ → Bool} (hweight : ∀ row ∈ table, 0 ≤ weight row)
    (h : ∀ row ∈ table, test row = true → test' row = true) :
    sumWhere test weight table ≤ sumWhere test' weight table := by
  induction table with
  | nil => exact le_refl 0
  | cons row table ih =>
    have hrow := hweight row List.mem_cons_self
    have hrest := ih (fun row' hrow' => hweight row' (List.mem_cons_of_mem _ hrow'))
      (fun row' hrow' => h row' (List.mem_cons_of_mem _ hrow'))
    rw [sumWhere_cons, sumWhere_cons]
    by_cases htest : test row = true
    · rw [if_pos htest, if_pos (h row List.mem_cons_self htest)]
      omega
    · rw [if_neg htest]
      split <;> omega

/-- The rows of one key and the rows of all others make up the whole. -/
theorem sumWhere_split [BEq κ] [LawfulBEq κ] (key : ρ → κ) (chosen : κ → Bool) (k : κ)
    (weight : ρ → ℤ) (table : List ρ) :
    sumWhere (fun row => chosen (key row)) weight table =
      (if chosen k then sumWhere (fun row => key row == k) weight table else 0) +
        sumWhere (fun row => chosen (key row)) weight (table.filter fun row => key row != k) := by
  induction table with
  | nil => simp
  | cons row table ih =>
    by_cases hkey : key row = k
    · by_cases hchosen : chosen k <;> simp_all [add_assoc]
    · by_cases hchosen : chosen k <;> by_cases hrow : chosen (key row) <;>
        simp_all [add_left_comm]

/-- When the rows of every key sum to no debt, so do the rows of any keys together. -/
theorem sumWhere_nonneg_of_keys [BEq κ] [LawfulBEq κ] {key : ρ → κ}
    (h : ∀ k, 0 ≤ sumWhere (fun row => key row == k) weight table) (chosen : κ → Bool) :
    0 ≤ sumWhere (fun row => chosen (key row)) weight table := by
  -- Remove the rows of the first key; the other keys keep their sums.
  induction hlength : table.length using Nat.strong_induction_on generalizing table with
  | _ length ih =>
    cases table with
    | nil => exact le_refl 0
    | cons row table =>
      rw [sumWhere_split key chosen (key row)]
      have hshorter : ((row :: table).filter fun r => key r != key row).length < length := by
        have hle := List.length_filter_le (fun r => key r != key row) table
        simp only [List.length_cons] at hlength
        simp only [bne_self_eq_false, Bool.false_eq_true, not_false_eq_true,
          List.filter_cons_of_neg]
        omega
      have hothers := ih _ hshorter (fun k => ?_) rfl
      · have hfirst := h (key row)
        split <;> omega
      · by_cases hk : k = key row
        · rw [sumWhere_eq_zero]
          intro r hr hkr
          simp_all
        · have hsame : sumWhere (fun r => key r == k) weight
              ((row :: table).filter fun r => key r != key row) =
              sumWhere (fun r => key r == k) weight (row :: table) := by
            unfold sumWhere
            rw [List.filter_filter]
            congr 2
            apply List.filter_congr
            intro r _
            by_cases hr : key r = k
            · simp [hr, hk]
            · simp [hr]
          rw [hsame]
          exact h k

/-- A number is at most the largest of a start and of others if it is at most one of them. -/
theorem le_foldl_max {n start : ℕ} {numbers : List ℕ} :
    n ≤ numbers.foldl max start ↔ n ≤ start ∨ ∃ number ∈ numbers, n ≤ number := by
  induction numbers generalizing start with
  | nil => simp
  | cons first rest ih =>
    rw [List.foldl_cons, ih, le_max_iff, List.exists_mem_cons_iff, or_assoc]

/-- A number is below the largest of some if it is below one of them. -/
theorem lt_foldl_max {n : ℕ} {numbers : List ℕ} :
    n < numbers.foldl max 0 ↔ ∃ number ∈ numbers, n < number := by
  rw [← Nat.succ_le_iff, le_foldl_max]
  constructor
  · rintro (hzero | hnumber)
    · omega
    · exact hnumber
  · exact Or.inr

end Foundation
