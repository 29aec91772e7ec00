import Mathlib.Data.Option.Basic
import Mathlib.Data.List.Forall2

/-!
# Sequences of checks

Fallible code is written as a sequence of checks followed by a result. This file gives
the two primitive checks, one that reports an error and one that only fails, and the
rules that read a successful sequence back as the conjunction of its checks.
-/

namespace Foundation

variable {ε α β : Type}

/-- Stop with `error` when the test holds. -/
def rejectIf (test : Bool) (error : ε) : Except ε Unit :=
  if test then .error error else .ok ()

/-- Take the value of an option, stopping with `error` when there is none. -/
def orReject (value : Option α) (error : ε) : Except ε α :=
  match value with
  | some a => .ok a
  | none => .error error

/-- Continue only when the test holds. -/
def require (test : Bool) : Option Unit :=
  if test then some () else none

@[simp] theorem rejectIf_eq_ok {test : Bool} {error : ε} {u : Unit} :
    rejectIf test error = .ok u ↔ test = false := by
  cases test <;> simp [rejectIf]

@[simp] theorem orReject_eq_ok {value : Option α} {error : ε} {a : α} :
    orReject value error = .ok a ↔ value = some a := by
  cases value <;> simp [orReject]

@[simp] theorem require_eq_some {test : Bool} {u : Unit} :
    require test = some u ↔ test = true := by
  cases test <;> simp [require]

/-- A successful sequence is a success of its first part and of what follows. -/
theorem bind_eq_ok {x : Except ε α} {f : α → Except ε β} {b : β} :
    x >>= f = .ok b ↔ ∃ a, x = .ok a ∧ f a = .ok b := by
  cases x with
  | error | ok => simp [bind, Except.bind]

/-- A sequence fails where one of its parts does. -/
theorem bind_eq_error {x : Except ε α} {f : α → Except ε β} {e : ε} :
    x >>= f = .error e ↔ x = .error e ∨ ∃ a, x = .ok a ∧ f a = .error e := by
  cases x with
  | error | ok => simp [bind, Except.bind]

theorem pure_eq_ok {a b : α} : (pure a : Except ε α) = .ok b ↔ a = b := by
  simp [pure, Except.pure]

/-- A check that fails ends the sequence. -/
theorem rejectIf_bind {test : Bool} {error : ε} {rest : Unit → Except ε α} (h : test = true) :
    (rejectIf test error >>= rest) = .error error := by
  rw [h]
  rfl

/-- A check that passes is skipped. -/
theorem rejectIf_bind_of_passes {test : Bool} {error : ε} {rest : Unit → Except ε α}
    (h : test = false) : (rejectIf test error >>= rest) = rest () := by
  rw [h]
  rfl

/-- A value that is missing ends the sequence. -/
theorem orReject_bind_of_none {value : Option α} {error : ε} {rest : α → Except ε β}
    (h : value = none) : (orReject value error >>= rest) = .error error := by
  rw [h]
  rfl

/-- A value that is there is passed on. -/
theorem orReject_bind_of_some {value : Option α} {a : α} {error : ε} {rest : α → Except ε β}
    (h : value = some a) : (orReject value error >>= rest) = rest a := by
  rw [h]
  rfl

/-- A map over a result is a value when the result is one that is mapped to it. -/
theorem map_eq_ok {x : Except ε α} {f : α → β} {b : β} :
    f <$> x = .ok b ↔ ∃ a, x = .ok a ∧ f a = b := by
  cases x with
  | error | ok => simp [Functor.map, Except.map]

/-- The first part of a result. -/
theorem map_fst_eq_ok {x : Except ε (α × β)} {a : α} :
    x.map Prod.fst = .ok a ↔ ∃ b, x = .ok (a, b) := by
  cases x with
  | error e => simp [Except.map]
  | ok pair =>
    obtain ⟨first, second⟩ := pair
    simp [Except.map]

/-- The second part of a result. -/
theorem map_snd_eq_ok {x : Except ε (α × β)} {b : β} :
    x.map Prod.snd = .ok b ↔ ∃ a, x = .ok (a, b) := by
  cases x with
  | error e => simp [Except.map]
  | ok pair =>
    obtain ⟨first, second⟩ := pair
    simp [Except.map]

/-- A branch of a sequence succeeds exactly when the branch taken does. -/
theorem ite_eq_ok {c : Prop} [Decidable c] {x y : Except ε α} {a : α} :
    (if c then x else y) = .ok a ↔ c ∧ x = .ok a ∨ ¬ c ∧ y = .ok a := by
  split <;> simp_all

/-- Check every element in order, stopping at the first one that fails. -/
def checkAll (check : α → Except ε Unit) : List α → Except ε Unit
  | [] => .ok ()
  | x :: xs => do
    check x
    checkAll check xs

/-- A completed pass over a list means that every element passed. -/
@[simp] theorem checkAll_eq_ok {check : α → Except ε Unit} {xs : List α} {u : Unit} :
    checkAll check xs = .ok u ↔ ∀ x ∈ xs, check x = .ok () := by
  induction xs with
  | nil => simp [checkAll]
  | cons x xs ih =>
    simp only [checkAll, bind_eq_ok, ih, List.mem_cons, forall_eq_or_imp]
    exact ⟨fun ⟨_, hx, hxs⟩ => ⟨hx, hxs⟩, fun ⟨hx, hxs⟩ => ⟨(), hx, hxs⟩⟩

/-- A computation that is told to succeed has a result. -/
theorem exists_ok_of_toBool {x : Except ε α} (h : x.toBool = true) : ∃ a, x = .ok a := by
  cases x with
  | ok a => exact ⟨a, rfl⟩
  | error e => cases h

/-- The result of a computation, read without its error. -/
theorem eq_ok_of_toOption {x : Except ε α} {a : α} (h : x.toOption = some a) : x = .ok a := by
  cases x with
  | ok b => exact congrArg Except.ok (Option.some.inj h)
  | error e => cases h

/-- A completed map over a list gives the results of its elements, in order. -/
theorem mapM_eq_some {f : α → Option β} {xs : List α} {ys : List β} :
    xs.mapM f = some ys ↔ List.Forall₂ (fun x y => f x = some y) xs ys := by
  induction xs generalizing ys with
  | nil =>
    rw [List.mapM_nil, List.forall₂_nil_left_iff]
    exact ⟨fun h => (Option.some.inj h).symm, fun h => by rw [h]; rfl⟩
  | cons x xs ih =>
    rw [List.mapM_cons, List.forall₂_cons_left_iff]
    constructor
    · intro h
      obtain ⟨y, hy, h⟩ := Option.bind_eq_some_iff.mp h
      obtain ⟨rest, hrest, h⟩ := Option.bind_eq_some_iff.mp h
      exact ⟨y, rest, hy, ih.mp hrest, (Option.some.inj h).symm⟩
    · rintro ⟨y, rest, hy, hrest, rfl⟩
      simp [hy, ih.mpr hrest]

/-- A completed map that may report errors gives the results of its elements, in order. -/
theorem mapM_eq_ok {f : α → Except ε β} {xs : List α} {ys : List β} :
    xs.mapM f = .ok ys ↔ List.Forall₂ (fun x y => f x = .ok y) xs ys := by
  induction xs generalizing ys with
  | nil =>
    rw [List.mapM_nil, List.forall₂_nil_left_iff, pure_eq_ok, eq_comm]
  | cons x xs ih =>
    rw [List.mapM_cons, List.forall₂_cons_left_iff]
    constructor
    · intro h
      obtain ⟨y, hy, h⟩ := bind_eq_ok.mp h
      obtain ⟨rest, hrest, h⟩ := bind_eq_ok.mp h
      exact ⟨y, rest, hy, ih.mp hrest, (pure_eq_ok.mp h).symm⟩
    · rintro ⟨y, rest, hy, hrest, rfl⟩
      exact bind_eq_ok.mpr ⟨y, hy, bind_eq_ok.mpr ⟨rest, ih.mpr hrest, pure_eq_ok.mpr rfl⟩⟩

/-- Every element of the second list is related to one of the first. -/
theorem exists_left_of_forall₂ {R : α → β → Prop} {xs : List α} {ys : List β}
    (h : List.Forall₂ R xs ys) : ∀ y ∈ ys, ∃ x ∈ xs, R x y := by
  induction h with
  | nil => simp
  | @cons x y xs ys hhead _ ih =>
    intro y' hy'
    rcases List.mem_cons.mp hy' with rfl | hy'
    · exact ⟨x, by simp, hhead⟩
    · obtain ⟨x', hx', hR⟩ := ih y' hy'
      exact ⟨x', by simp [hx'], hR⟩

/-- What a relation says about its second side holds of every element of the second list. -/
theorem forall_of_forall₂ {R : α → β → Prop} {Q : β → Prop} {xs : List α} {ys : List β}
    (h : List.Forall₂ R xs ys) (hR : ∀ x y, R x y → Q y) : ∀ y ∈ ys, Q y := by
  induction h with
  | nil => simp
  | cons hhead _ ih =>
    intro y hy
    rcases List.mem_cons.mp hy with rfl | hy
    · exact hR _ _ hhead
    · exact ih y hy

/-- A relation may be weakened by what is known of the elements of the first list. -/
theorem forall₂_imp_of_mem {R S : α → β → Prop} {xs : List α} {ys : List β}
    (h : List.Forall₂ R xs ys) (hS : ∀ x ∈ xs, ∀ y, R x y → S x y) : List.Forall₂ S xs ys := by
  induction h with
  | nil => exact .nil
  | @cons x y xs ys hhead _ ih =>
    exact .cons (hS x (by simp) y hhead) (ih fun x hx => hS x (by simp [hx]))

/-- Every element of the first list is related to one of the second. -/
theorem exists_of_forall₂ {R : α → β → Prop} {xs : List α} {ys : List β}
    (h : List.Forall₂ R xs ys) : ∀ x ∈ xs, ∃ y ∈ ys, R x y := by
  induction h with
  | nil => simp
  | @cons x y xs ys hhead _ ih =>
    intro x' hx'
    rcases List.mem_cons.mp hx' with rfl | hx'
    · exact ⟨y, by simp, hhead⟩
    · obtain ⟨y', hy', hR⟩ := ih x' hx'
      exact ⟨y', by simp [hy'], hR⟩

/-! ## Postconditions -/

/-- Every success of the computation satisfies `P`. -/
def Yields (P : α → Prop) (x : Except ε α) : Prop := ∀ a, x = .ok a → P a

theorem Yields.pure {P : α → Prop} {a : α} (h : P a) : Yields P (pure a : Except ε α) := by
  rintro b hb
  exact pure_eq_ok.mp hb ▸ h

theorem Yields.error {P : α → Prop} {e : ε} : Yields P (.error e : Except ε α) := by
  rintro b hb
  cases hb

/-- Every result that the option may hold satisfies `P`. -/
def Gives (P : α → Prop) (x : Option α) : Prop := ∀ a, x = some a → P a

theorem Gives.pure {P : α → Prop} {a : α} (h : P a) : Gives P (some a) := by
  rintro b hb
  exact Option.some.inj hb ▸ h

theorem Gives.bind {P : β → Prop} {x : Option α} {f : α → Option β}
    (h : ∀ a, x = some a → Gives P (f a)) : Gives P (x >>= f) := by
  intro b hb
  obtain ⟨a, hx, hf⟩ := Option.bind_eq_some_iff.mp hb
  exact h a hx b hf

/-- What holds after every continuation holds after the sequence. -/
theorem Yields.bind {P : β → Prop} {x : Except ε α} {f : α → Except ε β}
    (h : ∀ a, x = .ok a → Yields P (f a)) : Yields P (x >>= f) := by
  intro b hb
  obtain ⟨a, hx, hf⟩ := bind_eq_ok.mp hb
  exact h a hx b hf

theorem Yields.ite {P : α → Prop} {c : Prop} [Decidable c] {x y : Except ε α}
    (hx : c → Yields P x) (hy : ¬ c → Yields P y) : Yields P (if c then x else y) := by
  split
  · exact hx ‹_›
  · exact hy ‹_›

end Foundation
