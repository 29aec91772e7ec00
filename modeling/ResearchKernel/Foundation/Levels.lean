import Mathlib.Data.Nat.Notation
import Mathlib.Logic.Relation

/-!
# Searches level by level

A search that proceeds level by level visits, after so many levels, what is reachable in
that many steps. The description of one level here does not fix how the search keeps what it
has visited.
-/

namespace Foundation

open Relation

variable {α : Type} {R : α → α → Prop} {start : α}

/-- What is reachable from `start` in at most so many steps. -/
inductive Within (R : α → α → Prop) (start : α) : ℕ → α → Prop
  | start (n : ℕ) : Within R start n start
  | step {n : ℕ} {a b : α} (h : Within R start n a) (hab : R a b) : Within R start (n + 1) b

variable {n : ℕ}

/-- One step more reaches at least as much. -/
theorem Within.succ {a : α} (h : Within R start n a) : Within R start (n + 1) a := by
  induction h with
  | start n => exact Within.start (n + 1)
  | step _ hab ih => exact Within.step ih hab

/-- In one step more, what was reachable and what one step leads to from it. -/
theorem within_succ_iff {b : α} :
    Within R start (n + 1) b ↔ Within R start n b ∨ ∃ a, Within R start n a ∧ R a b := by
  constructor
  · intro h
    cases h with
    | start => exact Or.inl (Within.start n)
    | step ha hab => exact Or.inr ⟨_, ha, hab⟩
  · rintro (h | ⟨a, ha, hab⟩)
    · exact h.succ
    · exact Within.step ha hab

/-- A bounded number of steps is a path. -/
theorem Within.path {a : α} (h : Within R start n a) : ReflTransGen R start a := by
  induction h with
  | start => exact ReflTransGen.refl
  | step _ hab ih => exact ih.tail hab

/-- A search has finished a level: it has visited what is reachable in so many steps, and
every step from what it has visited before the frontier stays within what it has visited. -/
structure Level (R : α → α → Prop) (start : α) (n : ℕ) (visited frontier : α → Prop) : Prop where
  visited_iff : ∀ a, visited a ↔ Within R start n a
  inside : ∀ a, visited a → ¬ frontier a → ∀ b, R a b → visited b

variable {visited frontier : α → Prop}

theorem Level.first (hvisited : ∀ a, visited a ↔ a = start)
    (hfrontier : ∀ a, visited a → frontier a) : Level R start 0 visited frontier := by
  refine ⟨?_, fun a ha hnot => absurd (hfrontier a ha) hnot⟩
  intro a
  rw [hvisited]
  constructor
  · rintro rfl
    exact Within.start 0
  · intro h
    cases h
    rfl

/-- The next level visits what one step leads to from the frontier; all that is new is on
the new frontier. -/
theorem Level.next {visited' frontier' : α → Prop} (h : Level R start n visited frontier)
    (hfrontier : ∀ a, frontier a → visited a)
    (hvisited' : ∀ b, visited' b ↔ visited b ∨ ∃ a, frontier a ∧ R a b)
    (hfrontier' : ∀ b, visited' b → ¬ visited b → frontier' b) :
    Level R start (n + 1) visited' frontier' := by
  constructor
  · intro b
    rw [hvisited', within_succ_iff, h.visited_iff]
    constructor
    · rintro (hb | ⟨a, ha, hab⟩)
      · exact Or.inl hb
      · exact Or.inr ⟨a, (h.visited_iff a).mp (hfrontier a ha), hab⟩
    · rintro (hb | ⟨a, ha, hab⟩)
      · exact Or.inl hb
      · by_cases hfront : frontier a
        · exact Or.inr ⟨a, hfront, hab⟩
        · exact Or.inl ((h.visited_iff b).mp
            (h.inside a ((h.visited_iff a).mpr ha) hfront b hab))
  · intro a ha hnot b hab
    by_cases hold : visited a
    · by_cases hfront : frontier a
      · exact (hvisited' b).mpr (Or.inr ⟨a, hfront, hab⟩)
      · exact (hvisited' b).mpr (Or.inl (h.inside a hold hfront b hab))
    · exact absurd (hfrontier' a ha hold) hnot

/-- A search with an empty frontier has visited everything reachable. -/
theorem Level.complete (h : Level R start n visited frontier) (hempty : ∀ a, ¬ frontier a) (m : ℕ) :
    Level R start (n + m) visited frontier := by
  induction m with
  | zero => exact h
  | succ m ih =>
    refine ih.next (fun a ha => absurd ha (hempty a)) ?_ ?_
    · intro b
      exact ⟨Or.inl, fun hb => hb.elim id fun ⟨a, ha, _⟩ => absurd ha (hempty a)⟩
    · intro b hb hnot
      exact absurd hb hnot

end Foundation
