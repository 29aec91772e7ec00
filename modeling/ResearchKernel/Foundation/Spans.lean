import Mathlib.Data.List.Basic

/-!
# Spans of a text

A span is a part of a text by the positions where it starts and stops. A scanner finds spans one
behind the other: it takes the first position where something matches, passes over what has
matched, and goes on.
-/

namespace Foundation.Spans

variable {α β : Type}

/-- The part of a text between two positions. -/
def slice (text : List α) (start stop : ℕ) : List α := (text.drop start).take (stop - start)

theorem slice_middle (front middle back : List α) :
    slice (front ++ (middle ++ back)) front.length (front.length + middle.length) = middle := by
  rw [slice, List.drop_left, Nat.add_sub_cancel_left, List.take_left]

/-! ## Neighbours -/

/-- How many characters stand behind a character to which they are related. -/
def countAfter (related : α → α → Bool) : Option α → List α → ℕ
  | _, [] => 0
  | before, c :: rest =>
    (if before.any (related · c) then 1 else 0) + countAfter related (some c) rest

theorem getLast?_cons_or (c : α) (front : List α) (before : Option α) :
    (c :: front).getLast?.or before = front.getLast?.or (some c) := by
  cases front with
  | nil => rfl
  | cons d front => simp [List.getLast?_cons]

theorem countAfter_append (related : α → α → Bool) (before : Option α) (front back : List α) :
    countAfter related before (front ++ back) =
      countAfter related before front + countAfter related (front.getLast?.or before) back := by
  induction front generalizing before with
  | nil => simp [countAfter]
  | cons c front ih =>
    rw [List.cons_append, countAfter, countAfter, ih, getLast?_cons_or, Nat.add_assoc]

variable {text : List α}

theorem countAfter_eq_zero {related : α → α → Bool}
    (h : ∀ c ∈ text, ∀ before, related before c = false) (before : Option α) :
    countAfter related before text = 0 := by
  induction text generalizing before with
  | nil => rfl
  | cons c rest ih =>
    have hnone : before.any (related · c) = false := by
      cases before with
      | none => rfl
      | some b => exact h c List.mem_cons_self b
    rw [countAfter, hnone, ih fun d hd => h d (List.mem_cons_of_mem c hd)]
    rfl

/-! ## Scanning -/

/-- A span, and what was found there. -/
structure Span (β : Type) where
  start : ℕ
  stop : ℕ
  found : β

/-- The spans where something matches: at a position, with the character before it, after so many
characters that have matched already. What has matched has a length, of one or more. -/
def findSpans (matchAt : Option α → List α → Option (ℕ × β)) :
    ℕ → Option α → ℕ → List α → List (Span β)
  | _, _, _, [] => []
  | position, _, skip + 1, c :: rest => findSpans matchAt (position + 1) (some c) skip rest
  | position, before, 0, c :: rest =>
    match matchAt before (c :: rest) with
    | some (length, found) =>
      ⟨position, position + length, found⟩ ::
        findSpans matchAt (position + 1) (some c) (length - 1) rest
    | none => findSpans matchAt (position + 1) (some c) 0 rest

/-- Where a span is found something has matched. -/
theorem mem_findSpans {matchAt : Option α → List α → Option (ℕ × β)} {position skip : ℕ}
    {before : Option α} {span : Span β} (h : span ∈ findSpans matchAt position before skip text) :
    ∃ front back, text = front ++ back ∧ span.start = position + front.length ∧
      ∃ length, span.stop = span.start + length ∧
        matchAt (front.getLast?.or before) back = some (length, span.found) := by
  induction text generalizing position before skip with
  | nil => cases skip <;> cases h
  | cons c rest ih =>
    have hlater : ∀ {skip}, span ∈ findSpans matchAt (position + 1) (some c) skip rest →
        ∃ front back, c :: rest = front ++ back ∧ span.start = position + front.length ∧
          ∃ length, span.stop = span.start + length ∧
            matchAt (front.getLast?.or before) back = some (length, span.found) := by
      intro skip hspan
      obtain ⟨front, back, hrest, hstart, length, hstop, hmatch⟩ := ih hspan
      rw [← getLast?_cons_or c front before] at hmatch
      refine ⟨c :: front, back, by rw [hrest]; rfl, ?_, length, hstop, hmatch⟩
      rw [hstart, List.length_cons]
      omega
    cases skip with
    | succ skip => exact hlater h
    | zero =>
      rw [findSpans] at h
      cases hmatch : matchAt before (c :: rest) with
      | none =>
        rw [hmatch] at h
        exact hlater h
      | some found =>
        rw [hmatch] at h
        rcases List.mem_cons.mp h with rfl | h
        · exact ⟨[], c :: rest, rfl, rfl, found.1, rfl, hmatch⟩
        · exact hlater h

/-- What stands before the first of some closing parts, and that part. -/
def findClosing [DecidableEq α] (closings : List (List α)) : List α → Option (List α × List α)
  | [] => none
  | c :: rest =>
    match closings.find? (·.isPrefixOf (c :: rest)) with
    | some closing => some ([], closing)
    | none => (findClosing closings rest).map fun found => (c :: found.1, found.2)

theorem findClosing_eq_some [DecidableEq α] {closings : List (List α)} {body closing : List α}
    (h : findClosing closings text = some (body, closing)) :
    closing ∈ closings ∧ ∃ back, text = body ++ (closing ++ back) := by
  induction text generalizing body with
  | nil => cases h
  | cons c rest ih =>
    rw [findClosing] at h
    cases hfound : closings.find? (·.isPrefixOf (c :: rest)) with
    | some first =>
      rw [hfound] at h
      cases h
      have hprefix := List.find?_some hfound
      obtain ⟨back, hback⟩ := List.isPrefixOf_iff_prefix.mp hprefix
      exact ⟨List.mem_of_find?_eq_some hfound, back, hback.symm⟩
    | none =>
      rw [hfound] at h
      obtain ⟨⟨body', closing'⟩, hlater, heq⟩ := Option.map_eq_some_iff.mp h
      cases heq
      obtain ⟨hmem, back, hback⟩ := ih hlater
      exact ⟨hmem, back, by rw [hback]; rfl⟩

end Foundation.Spans
