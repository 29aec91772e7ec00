import Mathlib.Algebra.GroupWithZero.Nat
import Mathlib.Data.List.Basic
import Mathlib.Order.Basic

/-!
# Numbers of fixed width

A record of numbers is written as decimal numbers of fixed widths with separators between them.
Such texts compare as the numbers do, one after the other, and can be read back.
-/

namespace Foundation.FixedWidth

/-! ## Texts of equal length -/

/-- Texts that begin with parts of one length compare by the parts first. -/
theorem append_lt_append_iff {front front' : List Char} (hlength : front.length = front'.length)
    (back back' : List Char) :
    front ++ back < front' ++ back' ↔ front < front' ∨ front = front' ∧ back < back' := by
  induction front generalizing front' with
  | nil =>
    obtain rfl := List.length_eq_zero_iff.mp hlength.symm
    simp
  | cons c front ih =>
    obtain ⟨d, front', rfl⟩ := List.exists_cons_of_length_eq_add_one hlength.symm
    rw [List.length_cons, List.length_cons, Nat.add_right_cancel_iff] at hlength
    rw [List.cons_append, List.cons_append, List.cons_lt_cons_iff, List.cons_lt_cons_iff,
      ih hlength, List.cons.injEq]
    tauto

/-! ## Numbers -/

/-- A number in decimal digits. -/
def decimal : ℕ → ℕ → List Char
  | 0, _ => []
  | width + 1, n => decimal width (n / 10) ++ [Nat.digitChar (n % 10)]

/-- The number that decimal digits stand for. -/
def decimalValue (text : List Char) : ℕ :=
  text.foldl (fun value c => value * 10 + (c.toNat - 48)) 0

/-- Read a number and what follows. -/
def readDecimal (width : ℕ) (text : List Char) : Option (ℕ × List Char) :=
  if width ≤ text.length ∧ (text.take width).all Char.isDigit then
    some (decimalValue (text.take width), text.drop width)
  else none

variable {width n m : ℕ}

@[simp] theorem length_decimal (width n : ℕ) : (decimal width n).length = width := by
  induction width generalizing n with
  | zero => rfl
  | succ width ih => rw [decimal, List.length_append, ih, List.length_singleton]

theorem isDigit_digitChar : ∀ k < 10, (Nat.digitChar k).isDigit = true := by decide

theorem digitChar_lt_iff : ∀ j < 10, ∀ k < 10, (Nat.digitChar j < Nat.digitChar k ↔ j < k) := by
  decide

theorem toNat_digitChar : ∀ k < 10, (Nat.digitChar k).toNat - 48 = k := by decide

theorem isDigit_of_mem_decimal {c : Char} (h : c ∈ decimal width n) : c.isDigit = true := by
  induction width generalizing n with
  | zero => cases h
  | succ width ih =>
    rcases List.mem_append.mp h with h | h
    · exact ih h
    · obtain rfl := List.mem_singleton.mp h
      exact isDigit_digitChar _ (Nat.mod_lt _ (by decide))

/-- Numbers of one width compare as their digits do. -/
theorem decimal_lt_iff (hn : n < 10 ^ width) (hm : m < 10 ^ width) :
    (decimal width n < decimal width m ↔ n < m) ∧ (decimal width n = decimal width m ↔ n = m) := by
  induction width generalizing n m with
  | zero =>
    rw [Nat.pow_zero] at hn hm
    exact ⟨⟨fun h => absurd h (List.not_lt_nil []), by omega⟩, ⟨fun _ => by omega, fun _ => rfl⟩⟩
  | succ width ih =>
    rw [Nat.pow_succ] at hn hm
    obtain ⟨hlt, heq⟩ := ih (n := n / 10) (m := m / 10) (by omega) (by omega)
    have hdigit := digitChar_lt_iff (n % 10) (Nat.mod_lt _ (by decide)) (m % 10)
      (Nat.mod_lt _ (by decide))
    have hlength : (decimal width (n / 10)).length = (decimal width (m / 10)).length := by simp
    have hsame : Nat.digitChar (n % 10) = Nat.digitChar (m % 10) ↔ n % 10 = m % 10 := by
      refine ⟨fun h => ?_, fun h => by rw [h]⟩
      rw [← toNat_digitChar (n % 10) (Nat.mod_lt _ (by decide)), h,
        toNat_digitChar (m % 10) (Nat.mod_lt _ (by decide))]
    constructor
    · rw [decimal, decimal, append_lt_append_iff hlength, hlt, heq, List.cons_lt_cons_iff, hdigit]
      have hnil : ¬([] : List Char) < [] := List.not_lt_nil []
      simp only [hnil, and_false, or_false]
      omega
    · constructor
      · intro h
        obtain ⟨hfront, hlast⟩ := List.append_inj h hlength
        have hquot := heq.mp hfront
        have hrem := hsame.mp (List.head_eq_of_cons_eq hlast)
        omega
      · intro h
        rw [h]

theorem decimalValue_decimal (hn : n < 10 ^ width) : decimalValue (decimal width n) = n := by
  induction width generalizing n with
  | zero =>
    rw [Nat.pow_zero] at hn
    obtain rfl : n = 0 := by omega
    rfl
  | succ width ih =>
    rw [Nat.pow_succ] at hn
    have hfront : decimalValue (decimal width (n / 10)) = n / 10 := ih (by omega)
    rw [decimal, decimalValue, List.foldl_append, ← decimalValue, hfront, List.foldl_cons,
      List.foldl_nil, toNat_digitChar _ (Nat.mod_lt _ (by decide))]
    omega

theorem readDecimal_decimal (hn : n < 10 ^ width) (rest : List Char) :
    readDecimal width (decimal width n ++ rest) = some (n, rest) := by
  have hlength := length_decimal width n
  have hdigits : (decimal width n).all Char.isDigit = true :=
    List.all_eq_true.mpr fun c hc => isDigit_of_mem_decimal hc
  rw [readDecimal, List.take_left' hlength, List.drop_left' hlength, hdigits,
    decimalValue_decimal hn, if_pos ⟨by rw [List.length_append, hlength]; omega, rfl⟩]

/-! ## Records -/

/-- The widths of some numbers, and what stands behind each. -/
abbrev Layout := List (ℕ × List Char)

/-- Write numbers. -/
def render : Layout → List ℕ → List Char
  | (width, separator) :: layout, n :: ns =>
    decimal width n ++ (separator ++ render layout ns)
  | _, _ => []

/-- Read numbers and what follows. -/
def read : Layout → List Char → Option (List ℕ × List Char)
  | [], text => some ([], text)
  | (width, separator) :: layout, text => do
    let (n, rest) ← readDecimal width text
    if separator.isPrefixOf rest then
      let (ns, rest) ← read layout (rest.drop separator.length)
      return (n :: ns, rest)
    else none

/-- There is a number for each width, and it fits. -/
def Fits (layout : Layout) (ns : List ℕ) : Prop :=
  List.Forall₂ (fun field n => n < 10 ^ field.1) layout ns

section Records

variable {layout : Layout} {ns ms : List ℕ}

/-- Records compare as their numbers do, one after the other, and then by what follows. -/
theorem render_append_lt_iff (hns : Fits layout ns) (hms : Fits layout ms) (back back' : List Char) :
    render layout ns ++ back < render layout ms ++ back' ↔
      ns < ms ∨ ns = ms ∧ back < back' := by
  induction hns generalizing ms with
  | nil =>
    cases hms
    simp [render]
  | @cons field n layout ns hn hns ih =>
    obtain _ | @⟨_, m, _, ms, hm, hms⟩ := hms
    obtain ⟨hlt, heq⟩ := decimal_lt_iff hn hm
    have hlength : (decimal field.1 n).length = (decimal field.1 m).length := by simp
    rw [render, render, List.append_assoc, List.append_assoc, List.append_assoc, List.append_assoc,
      append_lt_append_iff hlength, append_lt_append_iff rfl, hlt, heq, ih hms,
      List.cons_lt_cons_iff, List.cons.injEq]
    have hirrefl : ¬field.2 < field.2 := List.lt_irrefl _
    tauto

/-- What is written is read. -/
theorem read_render (hns : Fits layout ns) (rest : List Char) :
    read layout (render layout ns ++ rest) = some (ns, rest) := by
  induction hns with
  | nil => rfl
  | @cons field n layout ns hn hns ih =>
    have hprefix : field.2.isPrefixOf (field.2 ++ (render layout ns ++ rest)) = true :=
      List.isPrefixOf_iff_prefix.mpr (List.prefix_append _ _)
    rw [render, List.append_assoc, List.append_assoc, read, readDecimal_decimal hn]
    simp only [Option.bind_eq_bind, Option.bind_some, hprefix, if_true, List.drop_left, ih]
    rfl

/-- The characters of a record are digits and those of the separators. -/
theorem mem_render {c : Char} (h : c ∈ render layout ns) :
    c.isDigit = true ∨ ∃ field ∈ layout, c ∈ field.2 := by
  induction layout generalizing ns with
  | nil => cases h
  | cons field layout ih =>
    cases ns with
    | nil => cases h
    | cons n ns =>
      rw [render, List.mem_append, List.mem_append] at h
      rcases h with h | h | h
      · exact Or.inl (isDigit_of_mem_decimal h)
      · exact Or.inr ⟨field, List.mem_cons_self, h⟩
      · rcases ih h with h | ⟨other, hother, h⟩
        · exact Or.inl h
        · exact Or.inr ⟨other, List.mem_cons_of_mem field hother, h⟩

end Records

end Foundation.FixedWidth
