import Mathlib.Data.List.Nodup
import Mathlib.Data.List.Induction

/-!
# Dictionaries

A dictionary is a list of keys with their values. A key that is set again keeps its
place and takes the new value. Rows are often collected in a dictionary under their
identifiers, which is what `records` does.
-/

namespace Foundation

variable {κ α : Type} [BEq κ]

/-- Set a key, in its place when it is there and at the end when it is not. -/
def setKey (key : κ) (value : α) : List (κ × α) → List (κ × α)
  | [] => [(key, value)]
  | entry :: entries =>
    if entry.1 == key then (key, value) :: entries else entry :: setKey key value entries

/-- The dictionary of a list of pairs; a later pair replaces an earlier one of the same key. -/
def dictOf (pairs : List (κ × α)) : List (κ × α) :=
  pairs.foldl (fun entries pair => setKey pair.1 pair.2 entries) []

/-- The dictionary of rows under their identifiers. -/
def records (id : α → κ) (rows : List α) : List (κ × α) :=
  dictOf (rows.map fun row => (id row, row))

/-- The rows of the dictionary of rows. -/
def distinctRows (id : α → κ) (rows : List α) : List α := (records id rows).map Prod.snd

theorem dictOf_concat (pairs : List (κ × α)) (pair : κ × α) :
    dictOf (pairs ++ [pair]) = setKey pair.1 pair.2 (dictOf pairs) := by
  simp [dictOf]

variable {k : κ}

theorem keys_setKey_subset (key : κ) (value : α) (entries : List (κ × α))
    (h : k ∈ (setKey key value entries).map Prod.fst) : k = key ∨ k ∈ entries.map Prod.fst := by
  induction entries with
  | nil =>
    left
    simpa [setKey] using h
  | cons entry entries ih =>
    simp only [setKey] at h
    split at h
    · rcases List.mem_cons.mp h with rfl | h
      · exact Or.inl rfl
      · exact Or.inr (List.mem_cons_of_mem _ h)
    · rcases List.mem_cons.mp h with rfl | h
      · exact Or.inr (List.mem_cons_self ..)
      · rcases ih h with rfl | h
        · exact Or.inl rfl
        · exact Or.inr (List.mem_cons_of_mem _ h)

variable [LawfulBEq κ]

theorem lookup_setKey (key k : κ) (value : α) (entries : List (κ × α)) :
    (setKey key value entries).lookup k = if k == key then some value else entries.lookup k := by
  induction entries with
  | nil =>
    simp only [setKey, List.lookup_cons, List.lookup_nil]
    cases k == key <;> rfl
  | cons entry entries ih =>
    obtain ⟨k', v'⟩ := entry
    by_cases hk' : k' = key
    · subst hk'
      simp only [setKey, beq_self_eq_true, ↓reduceIte, List.lookup_cons]
      split <;> simp_all
    · have hne : (k' == key) = false := by simpa using hk'
      simp only [setKey, hne, Bool.false_eq_true, ↓reduceIte, List.lookup_cons, ih]
      by_cases hk : k = k'
      · subst hk
        simp [hne]
      · have hkk : (k == k') = false := by simpa using hk
        simp [hkk]

/-- The value of a key is the one it was given last. -/
theorem lookup_dictOf (pairs : List (κ × α)) (k : κ) :
    (dictOf pairs).lookup k = pairs.reverse.lookup k := by
  induction pairs using List.reverseRecOn with
  | nil => rfl
  | append_singleton pairs pair ih =>
    rw [dictOf_concat, lookup_setKey, ih, List.reverse_append, List.reverse_singleton,
      List.singleton_append, List.lookup_cons]
    cases k == pair.1 <;> rfl

variable {entries : List (κ × α)}

theorem nodup_keys_setKey (key : κ) (value : α) (h : (entries.map Prod.fst).Nodup) :
    ((setKey key value entries).map Prod.fst).Nodup := by
  induction entries with
  | nil => simp [setKey]
  | cons entry entries ih =>
    obtain ⟨hfresh, hrest⟩ := List.nodup_cons.mp h
    simp only [setKey]
    split
    · have heq : entry.1 = key := by simpa using ‹(entry.1 == key) = true›
      rw [List.map_cons, List.nodup_cons]
      exact ⟨heq ▸ hfresh, hrest⟩
    · have hne : entry.1 ≠ key := by simpa using ‹¬(entry.1 == key) = true›
      rw [List.map_cons, List.nodup_cons]
      refine ⟨fun hmem => ?_, ih hrest⟩
      rcases keys_setKey_subset key value entries hmem with heq | hold
      · exact hne heq
      · exact hfresh hold

/-- The keys of a dictionary are distinct. -/
theorem nodup_keys_dictOf (pairs : List (κ × α)) : ((dictOf pairs).map Prod.fst).Nodup := by
  induction pairs using List.reverseRecOn with
  | nil => simp [dictOf]
  | append_singleton pairs pair ih =>
    rw [dictOf_concat]
    exact nodup_keys_setKey pair.1 pair.2 ih

theorem setKey_of_fresh {key : κ} (value : α) (h : key ∉ entries.map Prod.fst) :
    setKey key value entries = entries ++ [(key, value)] := by
  induction entries with
  | nil => rfl
  | cons entry entries ih =>
    obtain ⟨hne, hrest⟩ := not_or.mp (List.mem_cons.not.mp h)
    have hkey : (entry.1 == key) = false := beq_eq_false_iff_ne.mpr fun heq => hne heq.symm
    rw [setKey, hkey, if_neg Bool.false_ne_true, ih hrest, List.cons_append]

variable {pairs : List (κ × α)}

/-- Pairs with distinct keys are their own dictionary. -/
theorem dictOf_of_nodup (h : (pairs.map Prod.fst).Nodup) :
    dictOf pairs = pairs := by
  induction pairs using List.reverseRecOn with
  | nil => rfl
  | append_singleton pairs pair ih =>
    rw [List.map_append, List.nodup_append] at h
    obtain ⟨hpairs, -, hdisjoint⟩ := h
    rw [dictOf_concat, ih hpairs]
    exact setKey_of_fresh pair.2 fun hmem => hdisjoint pair.1 hmem pair.1 (by simp) rfl

/-- In a list with distinct keys, to stand in it is to be found under one's key. -/
theorem mem_iff_lookup (h : (entries.map Prod.fst).Nodup) {v : α} :
    (k, v) ∈ entries ↔ entries.lookup k = some v := by
  induction entries with
  | nil => simp
  | cons entry entries ih =>
    obtain ⟨k', v'⟩ := entry
    obtain ⟨hfresh, hrest⟩ := List.nodup_cons.mp h
    rw [List.mem_cons, List.lookup_cons, ih hrest]
    by_cases hk : k = k'
    · subst hk
      have hnone : entries.lookup k = none := by
        rw [List.lookup_eq_none_iff]
        intro p hp
        have hne : k ≠ p.1 := fun heq => hfresh (List.mem_map.mpr ⟨p, hp, heq.symm⟩)
        simpa using hne
      simp [hnone, eq_comm]
    · have hkk : (k == k') = false := by simpa using hk
      simp [hkk, hk]

/-- In the rearranged entries the image of what a key has is found. -/
theorem lookup_of_perm_map {β : Type} {f : α → β} {rearranged : List (κ × β)}
    (h : (entries.map Prod.fst).Nodup)
    (hperm : rearranged.Perm (entries.map fun entry => (entry.1, f entry.2))) (k : κ) :
    rearranged.lookup k = (entries.lookup k).map f := by
  have hkeys : (rearranged.map Prod.fst).Nodup := by
    rw [(hperm.map Prod.fst).nodup_iff, List.map_map]
    exact h
  refine Option.ext fun value => ?_
  rw [← mem_iff_lookup hkeys, hperm.mem_iff, Option.map_eq_some_iff]
  constructor
  · intro hmem
    obtain ⟨⟨k, v⟩, hentry, heq⟩ := List.mem_map.mp hmem
    obtain ⟨rfl, rfl⟩ := Prod.mk.inj heq
    exact ⟨v, (mem_iff_lookup h).mp hentry, rfl⟩
  · rintro ⟨v, hfound, rfl⟩
    exact List.mem_map.mpr ⟨(k, v), (mem_iff_lookup h).mpr hfound, rfl⟩

/-- The entries of a dictionary are what is found in it. -/
theorem mem_dictOf {v : α} :
    (k, v) ∈ dictOf pairs ↔ (dictOf pairs).lookup k = some v :=
  mem_iff_lookup (nodup_keys_dictOf pairs)

theorem mem_of_mem_dictOf {v : α} (h : (k, v) ∈ dictOf pairs) :
    (k, v) ∈ pairs := by
  rw [mem_dictOf, lookup_dictOf, List.lookup_eq_some_iff] at h
  obtain ⟨before, after, hsplit, -⟩ := h
  rw [← List.mem_reverse, hsplit]
  simp

variable {id : α → κ} {rows : List α} {row : α}

/-- A row found under a key is one of the rows and has that key. -/
theorem mem_of_lookup_records (h : (records id rows).lookup k = some row) :
    row ∈ rows ∧ id row = k := by
  have hmem := mem_of_mem_dictOf (mem_dictOf.mpr h)
  obtain ⟨row', hrow', heq⟩ := List.mem_map.mp hmem
  cases heq
  exact ⟨hrow', rfl⟩

/-- Entries of a dictionary of rows are rows under their identifiers. -/
theorem mem_of_mem_records (h : (k, row) ∈ records id rows) : row ∈ rows ∧ id row = k :=
  mem_of_lookup_records (mem_dictOf.mp h)

theorem mem_of_mem_distinctRows (h : row ∈ distinctRows id rows) : row ∈ rows := by
  obtain ⟨⟨k, row'⟩, hentry, rfl⟩ := List.mem_map.mp h
  exact (mem_of_mem_records hentry).1

/-- Where identifiers are distinct, every row is found under its own. -/
theorem lookup_records (hunique : ∀ a ∈ rows, ∀ b ∈ rows, id a = id b → a = b) (hrow : row ∈ rows) :
    (records id rows).lookup (id row) = some row := by
  have hfound : ((records id rows).lookup (id row)).isSome := by
    rw [records, lookup_dictOf, List.lookup_isSome_iff]
    exact ⟨(id row, row), by simpa using hrow, by simp⟩
  obtain ⟨row', hrow'⟩ := Option.isSome_iff_exists.mp hfound
  obtain ⟨hmem, hid⟩ := mem_of_lookup_records hrow'
  rw [hrow', hunique row' hmem row hrow hid]

theorem mem_distinctRows (hunique : ∀ a ∈ rows, ∀ b ∈ rows, id a = id b → a = b) :
    row ∈ distinctRows id rows ↔ row ∈ rows := by
  constructor
  · exact mem_of_mem_distinctRows
  · intro hrow
    exact List.mem_map.mpr ⟨(id row, row), mem_dictOf.mpr (lookup_records hunique hrow), rfl⟩

end Foundation
