import Mathlib.Data.List.Basic

/-!
# Replacing parts of a text

An encoder replaces some characters by escape sequences, which are a mark and the character. What
it writes can be decoded as long as the mark itself is not escaped, even when the text contains
the mark. A part of a text that occurs once is replaced where it stands.
-/

namespace Foundation

/-! ## Characters -/

/-- Replace characters by what a table gives for them. -/
def replaceChars (table : List (Char × List Char)) (text : List Char) : List Char :=
  text.flatMap fun c => (table.lookup c).getD [c]

/-- The table escapes some characters with a mark, and not the mark. -/
structure EscapesWith (mark : Char) (keys : List Char) (table : List (Char × List Char)) : Prop where
  escaped : ∀ c ∈ keys, table.lookup c = some [mark, c]
  kept : ∀ c ∉ keys, table.lookup c = none
  mark_kept : mark ∉ keys

/-- Take the marks away that stand before escaped characters. -/
def unescape (mark : Char) (keys : List Char) : List Char → List Char
  | [] => []
  | [c] => [c]
  | m :: c :: rest =>
    if m = mark ∧ c ∈ keys then unescape mark keys (c :: rest)
    else m :: unescape mark keys (c :: rest)

section Escapes

variable {mark : Char} {keys : List Char} {table : List (Char × List Char)} {c : Char}
  {text : List Char}

@[simp] theorem replaceChars_nil (table : List (Char × List Char)) : replaceChars table [] = [] :=
  rfl

theorem replaceChars_append (table : List (Char × List Char)) (front back : List Char) :
    replaceChars table (front ++ back) = replaceChars table front ++ replaceChars table back := by
  rw [replaceChars, List.flatMap_append]
  rfl

/-- An escaped character. -/
theorem EscapesWith.cons_mem (h : EscapesWith mark keys table) (hc : c ∈ keys) :
    replaceChars table (c :: text) = mark :: c :: replaceChars table text := by
  rw [replaceChars, List.flatMap_cons, h.escaped c hc]
  rfl

/-- A character that is kept. -/
theorem EscapesWith.cons_notMem (h : EscapesWith mark keys table) (hc : c ∉ keys) :
    replaceChars table (c :: text) = c :: replaceChars table text := by
  rw [replaceChars, List.flatMap_cons, h.kept c hc]
  rfl

/-- No encoded text begins with an escaped character. -/
theorem EscapesWith.head_notMem (h : EscapesWith mark keys table) {rest : List Char}
    (hhead : replaceChars table text = c :: rest) : c ∉ keys := by
  cases text with
  | nil => cases hhead
  | cons d text =>
    by_cases hd : d ∈ keys
    · rw [h.cons_mem hd] at hhead
      obtain ⟨rfl, -⟩ := List.cons.inj hhead
      exact h.mark_kept
    · rw [h.cons_notMem hd] at hhead
      obtain ⟨rfl, -⟩ := List.cons.inj hhead
      exact hd

/-- An encoded text ends with the last character of the text. -/
theorem EscapesWith.exists_last (h : EscapesWith mark keys table) {front : List Char} {last : Char}
    (hlast : replaceChars table text = front ++ [last]) : ∃ before, text = before ++ [last] := by
  rcases List.eq_nil_or_concat text with rfl | ⟨before, d, rfl⟩
  · cases front <;> cases hlast
  · have hend : ∃ front', replaceChars table (before.concat d) = front' ++ [d] := by
      rw [List.concat_eq_append, replaceChars_append]
      by_cases hd : d ∈ keys
      · exact ⟨replaceChars table before ++ [mark], by rw [h.cons_mem hd]; simp⟩
      · exact ⟨replaceChars table before, by rw [h.cons_notMem hd]; simp⟩
    obtain ⟨front', heq⟩ := hend
    rw [heq] at hlast
    obtain ⟨-, hsame⟩ := List.append_inj' hlast rfl
    obtain rfl := List.head_eq_of_cons_eq hsame
    exact ⟨before, List.concat_eq_append ..⟩

/-- What is encoded can be decoded. -/
theorem EscapesWith.unescape_replaceChars (h : EscapesWith mark keys table) (text : List Char) :
    unescape mark keys (replaceChars table text) = text := by
  induction text with
  | nil => rfl
  | cons c text ih =>
    -- A mark of the text stands before no escaped character, for that one has a mark of its own.
    have hkept : ∀ d, unescape mark keys (d :: replaceChars table text) = d :: text := by
      intro d
      cases hrest : replaceChars table text with
      | nil =>
        rw [hrest] at ih
        rw [unescape, ← ih, unescape]
      | cons e rest =>
        have he := h.head_notMem hrest
        rw [unescape, if_neg fun hboth => he hboth.2, ← hrest, ih]
    by_cases hc : c ∈ keys
    · rw [h.cons_mem hc, unescape, if_pos ⟨rfl, hc⟩, hkept]
    · rw [h.cons_notMem hc, hkept]

end Escapes

/-! ## Parts -/

section Parts

variable {α : Type} [DecidableEq α]

/-- How often a part occurs in a text, after so many characters that are passed over. -/
def countFrom (part : List α) : ℕ → List α → ℕ
  | _, [] => 0
  | skip + 1, _ :: rest => countFrom part skip rest
  | 0, c :: rest =>
    if part.isPrefixOf (c :: rest) then countFrom part (part.length - 1) rest + 1
    else countFrom part 0 rest

/-- Replace the occurrences of a part, after so many characters that are taken away. -/
def replaceFrom (part new : List α) : ℕ → List α → List α
  | _, [] => []
  | skip + 1, _ :: rest => replaceFrom part new skip rest
  | 0, c :: rest =>
    if part.isPrefixOf (c :: rest) then new ++ replaceFrom part new (part.length - 1) rest
    else c :: replaceFrom part new 0 rest

variable {part new text : List α} {skip : ℕ}

/-- Where nothing occurs nothing is replaced. -/
theorem replaceFrom_of_count (h : countFrom part skip text = 0) :
    replaceFrom part new skip text = text.drop skip := by
  induction text generalizing skip with
  | nil => cases skip <;> rfl
  | cons c rest ih =>
    cases skip with
    | succ skip =>
      rw [countFrom] at h
      rw [replaceFrom, ih h, List.drop_succ_cons]
    | zero =>
      rw [countFrom] at h
      by_cases hpart : part.isPrefixOf (c :: rest) = true
      · rw [if_pos hpart] at h
        omega
      · rw [if_neg hpart] at h
        rw [replaceFrom, if_neg hpart, ih h]
        rfl

theorem replaceFrom_of_length (h : text.length ≤ skip) : replaceFrom part new skip text = [] := by
  induction text generalizing skip with
  | nil => cases skip <;> rfl
  | cons c rest ih =>
    obtain ⟨skip, rfl⟩ : ∃ before, skip = before + 1 := ⟨skip - 1, by rw [List.length_cons] at h; omega⟩
    rw [replaceFrom]
    exact ih (Nat.le_of_succ_le_succ h)

/-- A part at the end is replaced, if what stands before has no character that begins the part. -/
theorem replaceFrom_last {first : α} {tail front : List α} (h : first ∉ front) :
    replaceFrom (first :: tail) new 0 (front ++ first :: tail) = front ++ new := by
  induction front with
  | nil =>
    have hself : (first :: tail).isPrefixOf (first :: tail) = true :=
      List.isPrefixOf_iff_prefix.mpr (List.prefix_refl _)
    rw [List.nil_append, replaceFrom, if_pos hself, replaceFrom_of_length (by simp),
      List.append_nil, List.nil_append]
  | cons c front ih =>
    rw [List.mem_cons, not_or] at h
    have hother : ¬(first :: tail).isPrefixOf (c :: (front ++ first :: tail)) = true := by
      rw [List.isPrefixOf_iff_prefix, List.cons_prefix_cons]
      exact fun hboth => h.1 hboth.1
    rw [List.cons_append, replaceFrom, if_neg hother, ih h.2, List.cons_append]

/-- What occurs once is replaced where it stands. -/
theorem replaceFrom_of_once (hpart : part ≠ []) (h : countFrom part 0 text = 1) :
    ∃ before after, text = before ++ part ++ after ∧
      replaceFrom part new 0 text = before ++ new ++ after := by
  induction text with
  | nil => cases h
  | cons c rest ih =>
    rw [countFrom] at h
    by_cases hfound : part.isPrefixOf (c :: rest) = true
    · rw [if_pos hfound] at h
      obtain ⟨after, hafter⟩ := List.isPrefixOf_iff_prefix.mp hfound
      obtain ⟨first, tail, rfl⟩ := List.exists_cons_of_ne_nil hpart
      rw [List.cons_append] at hafter
      obtain ⟨rfl, rfl⟩ := List.cons.inj hafter
      refine ⟨[], after, rfl, ?_⟩
      rw [replaceFrom, if_pos hfound, replaceFrom_of_count (by omega), List.length_cons,
        Nat.add_sub_cancel, List.drop_left]
      rfl
    · rw [if_neg hfound] at h
      obtain ⟨before, after, hrest, hreplaced⟩ := ih h
      refine ⟨c :: before, after, by rw [hrest]; rfl, ?_⟩
      rw [replaceFrom, if_neg hfound, hreplaced]
      rfl

end Parts

end Foundation
