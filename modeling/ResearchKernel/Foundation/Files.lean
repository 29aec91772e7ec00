import Mathlib.Data.List.Basic

/-!
# Files that are written in pieces

A file is a list of entries. It can be cut or filled up to a size, and a piece can be written at
an offset. A file that is written piece by piece is tiled by its pieces.
-/

namespace Foundation

variable {α π : Type}

/-- Cut a file to a size, or fill it up to the size. -/
def resize (filler : α) (file : List α) (size : ℕ) : List α :=
  file.take size ++ List.replicate (size - file.length) filler

/-- Write a piece at an offset. A gap before it is filled up. -/
def overwrite (filler : α) (file : List α) (offset : ℕ) (piece : List α) : List α :=
  resize filler file offset ++ piece ++ file.drop (offset + piece.length)

@[simp] theorem length_resize (filler : α) (file : List α) (size : ℕ) :
    (resize filler file size).length = size := by
  rw [resize, List.length_append, List.length_take, List.length_replicate]
  omega

variable {file : List α}

/-- What is before the size of a file is left by a cut. -/
theorem take_resize {filler : α} {size n : ℕ} (hsize : n ≤ size) (hlength : n ≤ file.length) :
    (resize filler file size).take n = file.take n := by
  rw [resize, List.take_append_of_le_length (by rw [List.length_take]; omega), List.take_take,
    Nat.min_eq_left hsize]

theorem length_overwrite_ge (filler : α) (file : List α) (offset : ℕ) (piece : List α) :
    offset + piece.length ≤ (overwrite filler file offset piece).length := by
  rw [overwrite, List.length_append, List.length_append, length_resize]
  omega

/-- What is before the offset is left by a write. -/
theorem take_overwrite {filler : α} {offset : ℕ} (piece : List α) (h : offset ≤ file.length) :
    (overwrite filler file offset piece).take offset = file.take offset := by
  have hlength := length_resize filler file offset
  rw [overwrite, List.append_assoc, List.take_append_of_le_length (by omega),
    take_resize (Nat.le_refl offset) h]

/-- What is written is at the offset. -/
theorem take_drop_overwrite (filler : α) (file : List α) (offset : ℕ) (piece : List α) :
    ((overwrite filler file offset piece).drop offset).take piece.length = piece := by
  have hlength := length_resize filler file offset
  rw [overwrite, List.append_assoc, List.drop_append_of_le_length (by omega),
    List.drop_eq_nil_of_le (by omega), List.nil_append, List.take_left]

/-- The start of a file and the piece that follows it. -/
theorem take_add_eq {piece : List α} {offset : ℕ}
    (h : (file.drop offset).take piece.length = piece) :
    file.take (offset + piece.length) = file.take offset ++ piece := by
  rw [List.take_add, h]

/-- The pieces tile a range: none is empty, and each begins where the one before it ends. -/
def Tiles (offset : π → ℕ) (content : π → List α) : ℕ → List π → ℕ → Prop
  | start, [], stop => start = stop
  | start, piece :: pieces, stop =>
    offset piece = start ∧ content piece ≠ [] ∧
      Tiles offset content (start + (content piece).length) pieces stop

/-- One more piece at the end of the range. -/
theorem Tiles.concat {offset : π → ℕ} {content : π → List α} {start stop : ℕ} {pieces : List π}
    (h : Tiles offset content start pieces stop) {piece : π} (hoffset : offset piece = stop)
    (hcontent : content piece ≠ []) :
    Tiles offset content start (pieces ++ [piece]) (stop + (content piece).length) := by
  induction pieces generalizing start with
  | nil =>
    have hstart : start = stop := h
    subst hstart
    exact ⟨hoffset, hcontent, rfl⟩
  | cons first pieces ih => exact ⟨h.1, h.2.1, ih h.2.2⟩

variable {offset : π → ℕ} {content : π → List α} {start stop : ℕ} {pieces : List π}

/-- The pieces that tile a range are as long as the range. -/
theorem Tiles.length_flatMap (h : Tiles offset content start pieces stop) :
    start + (pieces.flatMap content).length = stop := by
  induction pieces generalizing start with
  | nil => exact h
  | cons first pieces ih =>
    have hrest := ih h.2.2
    rw [List.flatMap_cons, List.length_append]
    omega

/-- Every piece lies within the range. -/
theorem Tiles.within (h : Tiles offset content start pieces stop) {piece : π}
    (hpiece : piece ∈ pieces) :
    start ≤ offset piece ∧ 0 < (content piece).length ∧
      offset piece + (content piece).length ≤ stop := by
  induction pieces generalizing start with
  | nil => cases hpiece
  | cons first pieces ih =>
    have hpos := List.length_pos_of_ne_nil h.2.1
    rcases List.mem_cons.mp hpiece with rfl | hrest
    · have hlength := h.2.2.length_flatMap
      have hoffset := h.1
      exact ⟨by omega, hpos, by omega⟩
    · obtain ⟨hstart, hlength, hstop⟩ := ih h.2.2 hrest
      exact ⟨by omega, hlength, hstop⟩

theorem Tiles.pairwise (h : Tiles offset content start pieces stop) :
    pieces.Pairwise fun a b => offset a ≤ offset b := by
  induction pieces generalizing start with
  | nil => exact List.Pairwise.nil
  | cons first pieces ih =>
    refine List.Pairwise.cons (fun piece hpiece => ?_) (ih h.2.2)
    have hwithin := (h.2.2.within hpiece).1
    have hoffset := h.1
    omega

end Foundation
