import ResearchKernel.Snapshot

/-!
# Refusals

A check either passes, rejects the command with a code and the conditions it misses, or
raises: an exception of the Python runtime that ends the request without a decision.
Raising is possible where free-form JSON is used as if it had a known shape.
-/

namespace ResearchKernel

open Foundation

/-- How a check can fail. -/
inductive Refusal where
  /-- The command is rejected. -/
  | reject (code : RejectionCode) (conditions : List MissingCondition)
  /-- The request ends in an exception. -/
  | raised

/-- A rejection that names one missing condition. -/
def refuse (code : RejectionCode) (condition path : String) (params : JsonObject := []) :
    Refusal :=
  .reject code [{ code := condition, path := path, params := params }]

/-- The result of a check that computes a value. -/
abbrev Checked := Except Refusal

/-- A value for which Python computes no hash. -/
def Json.unhashable : Json → Bool
  | .arr _ => true
  | .obj _ => true
  | _ => false

/-- The test `value in texts` for a set of texts. -/
def isOneOf (value : Json) (texts : List String) : Checked Bool := do
  rejectIf value.unhashable .raised
  return texts.any fun text => value.isText text

/-- The elements of an iterable value. -/
def iterate (value : Json) : Checked (List Json) :=
  orReject value.elements .raised

/-- Whether one element passes, looking no further than the first that does. -/
def anyPasses {α : Type} (test : α → Checked Bool) : List α → Checked Bool
  | [] => return false
  | x :: xs => do
    if ← test x then return true else anyPasses test xs

/-- Whether every element passes, looking no further than the first that does not. -/
def allPass {α : Type} (test : α → Checked Bool) : List α → Checked Bool
  | [] => return true
  | x :: xs => do
    if ← test x then allPass test xs else return false

/-- What the elements give, one after the other. -/
def collect {α β : Type} (give : α → Checked (List β)) : List α → Checked (List β)
  | [] => return []
  | x :: xs => do
    let first ← give x
    let rest ← collect give xs
    return first ++ rest

/-- The elements that do not pass. -/
def failing {α : Type} (test : α → Checked Bool) : List α → Checked (List α)
  | [] => return []
  | x :: xs => do
    let passed ← test x
    let rest ← failing test xs
    return if passed then rest else x :: rest

/-- Equality of lists that stand for sets. -/
def sameSet (xs ys : List String) : Bool :=
  xs.all ys.contains && ys.all xs.contains

/-- One check of a signed review, as the signed artifact holds it. -/
def signedHumanCheck (P : Platform) (value : Json) : Bool :=
  match value.mapping? with
  | some fields =>
    fields.hasExactly ["passed", "status", "conclusion", "evidence_refs"] &&
      (fields.get "passed").isTrue && (fields.get "status").isText "HUMAN_ATTESTED" &&
      !isBlank ((fields.getOr "conclusion" (.str "")).toText P) &&
      match (fields.get "evidence_refs").sequence? with
      | some refs => refs.all fun ref => hasReference ref
      | none => false
  | none => false
where
  /-- A reference is a text that is not empty. -/
  hasReference : Json → Bool
    | .str text => text != ""
    | _ => false

section Lemmas

variable {α : Type}

@[simp] theorem sameSet_iff {xs ys : List String} :
    sameSet xs ys = true ↔ ∀ x, x ∈ xs ↔ x ∈ ys := by
  simp only [sameSet, Bool.and_eq_true, List.all_eq_true, List.contains_iff_mem]
  exact ⟨fun h x => ⟨h.1 x, h.2 x⟩, fun h => ⟨fun x => (h x).mp, fun x => (h x).mpr⟩⟩

variable {xs : List α}

theorem exists_of_anyPasses {test : α → Checked Bool} (h : anyPasses test xs = .ok true) :
    ∃ x ∈ xs, test x = .ok true := by
  induction xs with
  | nil => simp [anyPasses, pure_eq_ok] at h
  | cons x xs ih =>
    simp only [anyPasses, bind_eq_ok] at h
    obtain ⟨passed, htest, hrest⟩ := h
    cases passed with
    | true => exact ⟨x, List.mem_cons_self .., htest⟩
    | false =>
      obtain ⟨y, hy, hpass⟩ := ih hrest
      exact ⟨y, List.mem_cons_of_mem _ hy, hpass⟩

/-- What one element gives is among what all give. -/
theorem exists_of_collect {β : Type} {give : α → Checked (List β)} {all : List β}
    (h : collect give xs = .ok all) {x : α} (hx : x ∈ xs) :
    ∃ part, give x = .ok part ∧ part ⊆ all := by
  induction xs generalizing all with
  | nil => simp at hx
  | cons y ys ih =>
    simp only [collect, bind_eq_ok, pure_eq_ok] at h
    obtain ⟨first, hfirst, rest, hrest, rfl⟩ := h
    rcases List.mem_cons.mp hx with rfl | hx
    · exact ⟨first, hfirst, fun b hb => List.mem_append_left _ hb⟩
    · obtain ⟨part, hpart, hsub⟩ := ih hrest hx
      exact ⟨part, hpart, fun b hb => List.mem_append_right _ (hsub hb)⟩

theorem passes_of_failing_eq_nil {test : α → Checked Bool} (h : failing test xs = .ok []) :
    ∀ x ∈ xs, test x = .ok true := by
  induction xs with
  | nil => simp
  | cons x xs ih =>
    simp only [failing, bind_eq_ok, pure_eq_ok] at h
    obtain ⟨passed, htest, rest, hrest, hnil⟩ := h
    cases passed with
    | false => simp at hnil
    | true =>
      simp only [↓reduceIte] at hnil
      subst hnil
      intro y hy
      rcases List.mem_cons.mp hy with rfl | hy
      · exact htest
      · exact ih hrest y hy

end Lemmas

end ResearchKernel
