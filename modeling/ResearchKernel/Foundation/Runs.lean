import Mathlib.Data.List.Induction

/-!
# Runs of a deterministic machine

A machine is a step function on an arbitrary state type. This file names the state
reached by a list of operations, the operations of a run together with the states in
which they are performed, and the two induction rules used for invariants: one for
every run, and one for runs all of whose steps satisfy a condition.
-/

namespace Foundation

variable {σ α : Type*}

/-- The state reached from `s` by performing `ops` in order. -/
def runFrom (step : σ → α → σ) (s : σ) (ops : List α) : σ :=
  ops.foldl step s

@[simp] theorem runFrom_nil (step : σ → α → σ) (s : σ) : runFrom step s [] = s := rfl

@[simp] theorem runFrom_cons (step : σ → α → σ) (s : σ) (op : α) (ops : List α) :
    runFrom step s (op :: ops) = runFrom step (step s op) ops := rfl

/-- Running a concatenation is running its second part from where the first one ends. -/
theorem runFrom_append (step : σ → α → σ) (s : σ) (first second : List α) :
    runFrom step s (first ++ second) = runFrom step (runFrom step s first) second := by
  simp [runFrom]

/-- The last operation of a run is one step from the state before it. -/
@[simp] theorem runFrom_concat (step : σ → α → σ) (s : σ) (ops : List α) (op : α) :
    runFrom step s (ops ++ [op]) = step (runFrom step s ops) op := by
  simp [runFrom]

/-- `op` is performed in the run `ops`, in the state that its preceding operations reach. -/
def Performs (step : σ → α → σ) (s : σ) (ops : List α) (at_ : σ → α → Prop) : Prop :=
  ∃ before op after, ops = before ++ op :: after ∧ at_ (runFrom step s before) op

/-- Every operation of the run satisfies `cond` in the state in which it is performed. -/
def StepsSatisfy (step : σ → α → σ) (cond : σ → α → Prop) (s : σ) (ops : List α) : Prop :=
  ∀ before op after, ops = before ++ op :: after → cond (runFrom step s before) op

variable {step : σ → α → σ} {cond : σ → α → Prop} {s : σ}

/-- A condition on every step holds on every initial part of the run. -/
theorem StepsSatisfy.left {first second : List α} (h : StepsSatisfy step cond s (first ++ second)) :
    StepsSatisfy step cond s first := by
  intro before op after hsplit
  exact h before op (after ++ second) (by simp [hsplit])

/-- A condition holds along a run when it holds before its last step and at that step. -/
theorem StepsSatisfy.concat {step : σ → α → σ} {cond : σ → α → Prop} {s : σ} {ops : List α}
    {op : α} (h : StepsSatisfy step cond s ops) (hlast : cond (runFrom step s ops) op) :
    StepsSatisfy step cond s (ops ++ [op]) := by
  intro before last after hsplit
  rcases List.eq_nil_or_concat after with rfl | ⟨init, final, rfl⟩
  · obtain ⟨rfl, hop⟩ := List.append_inj' hsplit rfl
    cases hop
    exact hlast
  · have hinit : ops ++ [op] = (before ++ last :: init) ++ [final] := by simp [hsplit]
    exact h before last init (List.append_inj' hinit rfl).1

variable {ops : List α}

theorem StepsSatisfy.last {op : α} (h : StepsSatisfy step cond s (ops ++ [op])) :
    cond (runFrom step s ops) op :=
  h ops op [] rfl

/-- A run without operations satisfies every condition. -/
theorem StepsSatisfy.nil :
    StepsSatisfy step cond s [] := by
  intro before op after hsplit
  simp at hsplit

/-- A condition on the first operation and on those after it. -/
theorem StepsSatisfy.cons {step : σ → α → σ} {cond : σ → α → Prop} {s : σ} {op : α}
    {ops : List α} (hop : cond s op) (h : StepsSatisfy step cond (step s op) ops) :
    StepsSatisfy step cond s (op :: ops) := by
  intro before other after hsplit
  cases before with
  | nil =>
    cases hsplit
    exact hop
  | cons first before =>
    cases hsplit
    exact h before other after rfl

/-- A condition on every operation in the state that the operations before it reach. -/
theorem StepsSatisfy.of_take
    (h : ∀ n op, ops[n]? = some op → cond (runFrom step s (ops.take n)) op) :
    StepsSatisfy step cond s ops := by
  rintro before op after rfl
  have hcond := h before.length op (by simp)
  rwa [List.take_left] at hcond

/-- A condition that every operation satisfies in every state holds along the run. -/
theorem StepsSatisfy.of_forall (h : ∀ op ∈ ops, ∀ s, cond s op) : StepsSatisfy step cond s ops := by
  intro before op after hsplit
  exact h op (by simp [hsplit]) _

variable {at_ : σ → α → Prop}

/-- What an earlier part of the run performs, the whole run performs. -/
theorem Performs.left {first second : List α} (h : Performs step s first at_) :
    Performs step s (first ++ second) at_ := by
  obtain ⟨before, op, after, rfl, hat⟩ := h
  exact ⟨before, op, after ++ second, by simp, hat⟩

theorem Performs.last {op : α} (h : at_ (runFrom step s ops) op) :
    Performs step s (ops ++ [op]) at_ :=
  ⟨ops, op, [], rfl, h⟩

/-- A run performs only what its initial part performs, or its last step. -/
theorem performs_concat {step : σ → α → σ} {s : σ} {at_ : σ → α → Prop}
    {ops : List α} {op : α} :
    Performs step s (ops ++ [op]) at_ ↔
      Performs step s ops at_ ∨ at_ (runFrom step s ops) op := by
  constructor
  · rintro ⟨before, last, after, hsplit, hat⟩
    rcases List.eq_nil_or_concat after with rfl | ⟨init, final, rfl⟩
    · obtain ⟨rfl, hlast⟩ := List.append_inj' hsplit rfl
      cases hlast
      exact Or.inr hat
    · refine Or.inl ⟨before, last, init, ?_, hat⟩
      have hinit : ops ++ [op] = (before ++ last :: init) ++ [final] := by simp [hsplit]
      exact (List.append_inj' hinit rfl).1
  · rintro (h | h)
    · exact h.left
    · exact Performs.last h

/-- The run begun with nothing performed performs nothing. -/
theorem not_performs_nil :
    ¬ Performs step s [] at_ := by
  rintro ⟨before, op, after, hsplit, -⟩
  simp at hsplit

/-- A run performs nothing that none of its operations does in any state. -/
theorem not_performs_of_forall (h : ∀ op ∈ ops, ∀ s, ¬ at_ s op) : ¬ Performs step s ops at_ := by
  rintro ⟨before, op, after, hsplit, hat⟩
  exact h op (by simp [hsplit]) _ hat

/-- What holds at the start and is preserved by every step holds after every run. -/
theorem runFrom_invariant {step : σ → α → σ} {Inv : σ → Prop} {s : σ} (hstart : Inv s)
    (hstep : ∀ s op, Inv s → Inv (step s op)) (ops : List α) : Inv (runFrom step s ops) := by
  induction ops using List.reverseRecOn with
  | nil => exact hstart
  | append_singleton ops op ih =>
    rw [runFrom_concat]
    exact hstep _ op ih

/-- What holds in a state of a run stays so when it is preserved by every step from a state that
is reached. -/
theorem runFrom_stays {step : σ → α → σ} {I : σ → Prop} {s : σ} {early : List α}
    (h : I (runFrom step s early))
    (hstep : ∀ ops op, I (runFrom step s ops) → I (step (runFrom step s ops) op))
    (late : List α) : I (runFrom step s (early ++ late)) := by
  induction late using List.reverseRecOn with
  | nil => rwa [List.append_nil]
  | append_singleton late op ih =>
    rw [← List.append_assoc, runFrom_concat]
    exact hstep _ op ih

/-- What holds at the start and is preserved by every step that satisfies `cond` holds
after every run whose steps all satisfy `cond`. -/
theorem runFrom_invariant_of {step : σ → α → σ} {Inv : σ → Prop} {cond : σ → α → Prop} {s : σ}
    (hstart : Inv s) (hstep : ∀ s op, Inv s → cond s op → Inv (step s op)) {ops : List α}
    (hcond : StepsSatisfy step cond s ops) : Inv (runFrom step s ops) := by
  induction ops using List.reverseRecOn with
  | nil => exact hstart
  | append_singleton ops op ih =>
    rw [runFrom_concat]
    exact hstep _ op (ih hcond.left) hcond.last

/-- A property of a history and of the state it reaches holds of every run when it holds
of the empty history and every operation preserves it. -/
theorem runFrom_history {step : σ → α → σ} {P : List α → σ → Prop} {s : σ} (hstart : P [] s)
    (hstep : ∀ ops op, P ops (runFrom step s ops) →
      P (ops ++ [op]) (step (runFrom step s ops) op)) (ops : List α) :
    P ops (runFrom step s ops) := by
  induction ops using List.reverseRecOn with
  | nil => exact hstart
  | append_singleton ops op ih =>
    rw [runFrom_concat]
    exact hstep ops op ih

end Foundation
