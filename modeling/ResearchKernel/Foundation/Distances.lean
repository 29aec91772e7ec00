import Mathlib.Data.Nat.Find

/-!
# Distances from seeds

What is reachable from a set of seeds in a bounded number of steps, and how far away it is. Every
distance but that of the seeds is one more than that of something it is reached from.
-/

namespace Foundation

variable {α : Type} {R : α → α → Prop} {seeds : α → Prop}

/-- What is reachable from the seeds in at most so many steps. -/
inductive Near (R : α → α → Prop) (seeds : α → Prop) : ℕ → α → Prop
  | seed {a : α} (n : ℕ) (h : seeds a) : Near R seeds n a
  | step {n : ℕ} {a b : α} (h : Near R seeds n a) (hab : R a b) : Near R seeds (n + 1) b

/-- What is reachable in so many steps and in no fewer. -/
def AtDistance (R : α → α → Prop) (seeds : α → Prop) (n : ℕ) (a : α) : Prop :=
  Near R seeds n a ∧ ∀ m < n, ¬ Near R seeds m a

variable {n : ℕ} {a : α}

theorem Near.succ (h : Near R seeds n a) : Near R seeds (n + 1) a := by
  induction h with
  | seed n h => exact .seed (n + 1) h
  | step _ hab ih => exact .step ih hab

theorem Near.mono {m : ℕ} (hmn : m ≤ n) (h : Near R seeds m a) : Near R seeds n a := by
  induction hmn with
  | refl => exact h
  | step _ ih => exact ih.succ

theorem AtDistance.near (h : AtDistance R seeds n a) : Near R seeds n a := h.1

/-- A distance is a bound that cannot be lowered. -/
theorem AtDistance.le {m : ℕ} (h : AtDistance R seeds m a) (hnear : Near R seeds n a) :
    m ≤ n := by
  by_contra hlt
  exact h.2 n (Nat.lt_of_not_le hlt) hnear

theorem AtDistance.unique {m : ℕ} (h : AtDistance R seeds m a) (h' : AtDistance R seeds n a) :
    m = n :=
  Nat.le_antisymm (h.le h'.near) (h'.le h.near)

/-- What is reachable within a bound has a distance within it. -/
theorem Near.exists_distance (h : Near R seeds n a) :
    ∃ m ≤ n, AtDistance R seeds m a := by
  classical
  have hsome : ∃ m, Near R seeds m a := ⟨n, h⟩
  exact ⟨Nat.find hsome, Nat.find_min' hsome h, Nat.find_spec hsome,
    fun m hm => Nat.find_min hsome hm⟩

theorem atDistance_zero_iff : AtDistance R seeds 0 a ↔ seeds a := by
  constructor
  · rintro ⟨h, -⟩
    cases h with
    | seed _ h => exact h
  · exact fun h => ⟨.seed 0 h, fun m hm => absurd hm (Nat.not_lt_zero m)⟩

/-- Within a bound are the seeds, and what is reached from something at a smaller distance. -/
theorem near_iff {b : α} :
    Near R seeds n b ↔ seeds b ∨ ∃ m < n, ∃ a, AtDistance R seeds m a ∧ R a b := by
  constructor
  · intro h
    cases h with
    | seed _ h => exact Or.inl h
    | @step n a _ h hab =>
      obtain ⟨m, hm, ha⟩ := h.exists_distance
      exact Or.inr ⟨m, Nat.lt_succ_of_le hm, a, ha, hab⟩
  · rintro (h | ⟨m, hm, a, ha, hab⟩)
    · exact .seed n h
    · exact (Near.step ha.near hab).mono hm

/-- New within the next bound is what is at this distance. -/
theorem atDistance_succ_iff :
    AtDistance R seeds (n + 1) a ↔ Near R seeds (n + 1) a ∧ ¬ Near R seeds n a := by
  constructor
  · exact fun h => ⟨h.1, h.2 n (Nat.lt_succ_self n)⟩
  · rintro ⟨h, hnot⟩
    exact ⟨h, fun m hm hnear => hnot (hnear.mono (Nat.le_of_lt_succ hm))⟩

/-- Where nothing is at a distance, nothing is further away. -/
theorem not_atDistance_succ (h : ∀ a, ¬ AtDistance R seeds n a) (a : α) :
    ¬ AtDistance R seeds (n + 1) a := by
  intro hsucc
  rcases near_iff.mp hsucc.near with hseed | ⟨m, hm, b, hb, hba⟩
  · exact hsucc.2 0 (Nat.succ_pos n) (.seed 0 hseed)
  · have hlt : m < n := by
      rcases Nat.lt_or_eq_of_le (Nat.le_of_lt_succ hm) with hlt | rfl
      · exact hlt
      · exact absurd hb (h b)
    exact hsucc.2 n (Nat.lt_succ_self n) ((Near.step hb.near hba).mono hlt)

end Foundation
