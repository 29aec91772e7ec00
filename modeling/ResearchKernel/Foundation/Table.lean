import Mathlib.Data.List.Nodup
import ResearchKernel.Foundation.Checks

/-!
# Tables of rows

A table is a list of rows. Writers change it in two ways: they update the rows that
satisfy a test, or they append a row unless it clashes with one that is there. Two
relations compare a table with a later version of itself: `Kept` says that every old
row is still there up to a relation, `Stems` that every later row either comes from an
old one or is new.
-/

namespace Foundation

variable {ρ κ : Type}

/-- Rewrite the rows that satisfy the test, in place. -/
def updateWhere (test : ρ → Bool) (change : ρ → ρ) (table : List ρ) : List ρ :=
  table.map fun row => if test row then change row else row

/-- Append a row unless it clashes with a row of the table. -/
def insertRow (clash : ρ → ρ → Bool) (row : ρ) (table : List ρ) : Option (List ρ) :=
  if table.any (clash row) then none else some (table ++ [row])

/-- Append several rows, one after the other. -/
def insertRows (clash : ρ → ρ → Bool) : List ρ → List ρ → Option (List ρ)
  | [], table => some table
  | row :: rows, table => do
    let table ← insertRow clash row table
    insertRows clash rows table

variable {clash : ρ → ρ → Bool} {row : ρ} {table table' : List ρ}

@[simp] theorem insertRow_eq_some :
    insertRow clash row table = some table' ↔
      (∀ old ∈ table, clash row old = false) ∧ table' = table ++ [row] := by
  unfold insertRow
  cases hclash : table.any (clash row) with
  | true =>
    obtain ⟨old, hold, hrow⟩ := List.any_eq_true.mp hclash
    simp only [↓reduceIte, reduceCtorEq, false_iff, not_and]
    intro hnone
    simp [hnone old hold] at hrow
  | false =>
    simp only [List.any_eq_false, Bool.not_eq_true] at hclash
    simp only [Bool.false_eq_true, ↓reduceIte, Option.some.injEq]
    exact ⟨fun h => ⟨hclash, h.symm⟩, fun h => h.2.symm⟩

variable {test : ρ → Bool} {change : ρ → ρ} {row' : ρ}

@[simp] theorem mem_updateWhere :
    row' ∈ updateWhere test change table ↔
      ∃ row ∈ table, (if test row then change row else row) = row' := by
  simp [updateWhere]

theorem updateWhere_of_miss (hmiss : ∀ row ∈ table, test row = false) :
    updateWhere test change table = table := by
  unfold updateWhere
  have hsame : table.map (fun row => if test row = true then change row else row) =
      table.map id := by
    apply List.map_congr_left
    intro row hrow
    rw [hmiss row hrow]
    rfl
  rw [hsame, List.map_id]

theorem updateWhere_updateWhere {first second : ρ → Bool} (h : ∀ row, second (change row) = false)
    (table : List ρ) :
    updateWhere second change (updateWhere first change table) =
      updateWhere (fun row => first row || second row) change table := by
  unfold updateWhere
  rw [List.map_map]
  apply List.map_congr_left
  intro row _
  by_cases hfirst : first row = true
  · simp [hfirst, h]
  · simp [hfirst]

/-- An update that leaves a column alone leaves the list of its values alone. -/
theorem map_updateWhere {test : ρ → Bool} {change : ρ → ρ} {column : ρ → κ}
    (h : ∀ row, column (change row) = column row) (table : List ρ) :
    (updateWhere test change table).map column = table.map column := by
  unfold updateWhere
  rw [List.map_map]
  apply List.map_congr_left
  intro row _
  by_cases htest : test row
  · simp [htest, h]
  · simp [htest]

/-- An update and a map that do not interfere may be done in either order. -/
theorem map_updateWhere_comm {test : ρ → Bool} {change f : ρ → ρ}
    (htest : ∀ row, test (f row) = test row) (hchange : ∀ row, f (change row) = change (f row))
    (table : List ρ) :
    (updateWhere test change table).map f = updateWhere test change (table.map f) := by
  unfold updateWhere
  rw [List.map_map, List.map_map]
  apply List.map_congr_left
  intro row _
  by_cases h : test row
  · simp [h, htest, hchange]
  · simp [h, htest]

variable {rows : List ρ}

/-- Appended rows stand after the old ones, in order. -/
theorem eq_append_of_insertRows (h : insertRows clash rows table = some table') :
    table' = table ++ rows := by
  induction rows generalizing table with
  | nil => simpa [insertRows, eq_comm] using h
  | cons row rows ih =>
    simp only [insertRows, Option.bind_eq_bind, Option.bind_eq_some_iff, insertRow_eq_some] at h
    obtain ⟨mid, ⟨-, rfl⟩, hrest⟩ := h
    simp [ih hrest]

/-- Rows that clash neither with the table nor with each other are inserted. -/
theorem exists_insertRows (hpairs : rows.Pairwise fun a b => clash b a = false)
    (hfresh : ∀ row ∈ rows, ∀ old ∈ table, clash row old = false) :
    ∃ table', insertRows clash rows table = some table' := by
  induction rows generalizing table with
  | nil => exact ⟨table, rfl⟩
  | cons row rows ih =>
    obtain ⟨hrow, hrest⟩ := List.pairwise_cons.mp hpairs
    have hhead : insertRow clash row table = some (table ++ [row]) :=
      insertRow_eq_some.mpr ⟨hfresh row (by simp), rfl⟩
    have htail : ∀ other ∈ rows, ∀ old ∈ table ++ [row], clash other old = false := by
      intro other hother old hold
      rcases List.mem_append.mp hold with hold | hold
      · exact hfresh other (by simp [hother]) old hold
      · rw [List.mem_singleton.mp hold]
        exact hrow other hother
    obtain ⟨table', hinserted⟩ := ih hrest htail
    refine ⟨table', ?_⟩
    simp only [insertRows, Option.bind_eq_bind, hhead, Option.bind_some]
    exact hinserted

/-- Rows are inserted exactly when they clash neither with each other nor with the table. -/
theorem insertRows_eq_some :
    insertRows clash rows table = some table' ↔
      table' = table ++ rows ∧ rows.Pairwise (fun a b => clash b a = false) ∧
        ∀ row ∈ rows, ∀ old ∈ table, clash row old = false := by
  constructor
  · intro h
    refine ⟨eq_append_of_insertRows h, ?_⟩
    induction rows generalizing table with
    | nil => exact ⟨List.Pairwise.nil, fun _ hrow => absurd hrow List.not_mem_nil⟩
    | cons row rows ih =>
      simp only [insertRows, Option.bind_eq_bind, Option.bind_eq_some_iff, insertRow_eq_some] at h
      obtain ⟨mid, ⟨hfresh, rfl⟩, hrest⟩ := h
      obtain ⟨hpairs, hall⟩ := ih hrest
      refine ⟨List.pairwise_cons.mpr ⟨fun other hother => ?_, hpairs⟩,
        fun other hother old hold => ?_⟩
      · exact hall other hother row (by simp)
      · rcases List.mem_cons.mp hother with rfl | hother
        · exact hfresh old hold
        · exact hall other hother old (by simp [hold])
  · rintro ⟨rfl, hpairs, hfresh⟩
    obtain ⟨inserted, h⟩ := exists_insertRows hpairs hfresh
    rw [h, eq_append_of_insertRows h]

variable {column : ρ → κ}

/-- Rows that are inserted keep a column distinct on which equal rows clash. -/
theorem nodup_of_insertRows (hclash : ∀ a b, column b = column a → clash a b = true)
    (h : insertRows clash rows table = some table') (hnodup : (table.map column).Nodup) :
    (table'.map column).Nodup := by
  induction rows generalizing table with
  | nil =>
    cases h
    exact hnodup
  | cons row rows ih =>
    simp only [insertRows, Option.bind_eq_bind, Option.bind_eq_some_iff, insertRow_eq_some] at h
    obtain ⟨mid, ⟨hfresh, rfl⟩, hrest⟩ := h
    refine ih hrest ?_
    rw [List.map_append, List.nodup_append]
    refine ⟨hnodup, List.nodup_singleton _, ?_⟩
    intro value hvalue other hother heq
    obtain ⟨old, hold, rfl⟩ := List.mem_map.mp hvalue
    have hother : other = column row := List.mem_singleton.mp hother
    have htrue := hclash row old (heq.trans hother)
    rw [hfresh old hold] at htrue
    cases htrue

/-- An update changes the one row that it picks, and leaves those on both sides. -/
theorem updateWhere_of_one {before after : List ρ} (hbefore : ∀ other ∈ before, test other = false)
    (hafter : ∀ other ∈ after, test other = false) (htest : test row = true) :
    updateWhere test change (before ++ row :: after) = before ++ change row :: after := by
  have hsides : updateWhere test change (before ++ row :: after) =
      updateWhere test change before ++ updateWhere test change [row] ++
        updateWhere test change after := by
    simp [updateWhere]
  rw [hsides, updateWhere_of_miss hbefore, updateWhere_of_miss hafter]
  simp [updateWhere, htest]

theorem countP_updateWhere_of_one {q : ρ → Bool} {before after : List ρ}
    (hbefore : ∀ other ∈ before, test other = false) (hafter : ∀ other ∈ after, test other = false)
    (htest : test row = true) (hq : q row = false) (hq' : q (change row) = true) :
    (updateWhere test change (before ++ row :: after)).countP q =
      (before ++ row :: after).countP q + 1 := by
  rw [updateWhere_of_one hbefore hafter htest, List.countP_append, List.countP_append,
    List.countP_cons_of_pos hq', List.countP_cons_of_neg (by simp [hq])]
  omega

/-! ## Rows with a key -/

/-- Write a row over the row with its key, or append it. -/
def upsertRow [DecidableEq κ] (key : ρ → κ) (row : ρ) (table : List ρ) : List ρ :=
  if table.any (fun old => key old = key row) then
    updateWhere (fun old => key old = key row) (fun _ => row) table
  else table ++ [row]

variable {key : ρ → κ}

/-- The rows after an upsert: the row itself, and the rows with other keys. -/
@[simp] theorem mem_upsertRow [DecidableEq κ] :
    row' ∈ upsertRow key row table ↔ row' = row ∨ row' ∈ table ∧ key row' ≠ key row := by
  unfold upsertRow
  split
  next hany =>
    obtain ⟨old, hold, hkey⟩ := List.any_eq_true.mp hany
    rw [mem_updateWhere]
    constructor
    · rintro ⟨other, hother, rfl⟩
      by_cases h : key other = key row
      · exact Or.inl (by simp [h])
      · exact Or.inr (by simp [h, hother])
    · rintro (rfl | ⟨hmem, hne⟩)
      · exact ⟨old, hold, by simp [of_decide_eq_true hkey]⟩
      · exact ⟨row', hmem, by simp [hne]⟩
  next hany =>
    have hfresh : ∀ old ∈ table, key old ≠ key row := by simpa using hany
    rw [List.mem_append, List.mem_singleton, or_comm]
    exact or_congr_right ⟨fun h => ⟨h, hfresh row' h⟩, fun h => h.1⟩

/-- Keys stay distinct under an upsert. -/
theorem nodup_upsertRow [DecidableEq κ] (h : (table.map key).Nodup) (row : ρ) :
    ((upsertRow key row table).map key).Nodup := by
  unfold upsertRow
  split
  next hany =>
    have hsame : (updateWhere (fun old => key old = key row) (fun _ => row) table).map key =
        table.map key := by
      rw [updateWhere, List.map_map]
      apply List.map_congr_left
      intro old _
      by_cases hkey : key old = key row
      · simp [hkey]
      · simp [hkey]
    exact hsame ▸ h
  next hany =>
    have hfresh : ∀ old ∈ table, key old ≠ key row := by simpa using hany
    rw [List.map_append, List.map_singleton]
    refine List.nodup_append.mpr ⟨h, List.nodup_singleton _, ?_⟩
    rintro _ hkey _ hrow rfl
    obtain ⟨old, hold, heq⟩ := List.mem_map.mp hkey
    exact hfresh old hold (heq.trans (List.mem_singleton.mp hrow))

variable {p : ρ → Bool}

/-- The row that was written is found by its key. -/
theorem find?_upsertRow [DecidableEq κ] (hp : ∀ old, p old = true ↔ key old = key row)
    (table : List ρ) :
    (upsertRow key row table).find? p = some row := by
  have hmem : row ∈ upsertRow key row table := mem_upsertRow.mpr (Or.inl rfl)
  cases hfound : (upsertRow key row table).find? p with
  | none =>
    have hmiss := List.find?_eq_none.mp hfound row hmem
    exact absurd ((hp row).mpr rfl) hmiss
  | some found =>
    rcases mem_upsertRow.mp (List.mem_of_find?_eq_some hfound) with rfl | ⟨-, hne⟩
    · rfl
    · exact absurd ((hp found).mp (List.find?_some hfound)) hne

/-- A test on keys picks the upserted row out of the rows that it picks, or does not see it. -/
theorem filter_upsertRow [DecidableEq κ] (hp : ∀ a b, key a = key b → p a = p b) (row : ρ)
    (table : List ρ) :
    (upsertRow key row table).filter p =
      if p row then upsertRow key row (table.filter p) else table.filter p := by
  unfold upsertRow updateWhere
  cases hrow : p row with
  | true =>
    have hany : (table.filter p).any (fun old => key old = key row) =
        table.any fun old => key old = key row := by
      rw [List.any_filter]
      congr 1
      funext old
      by_cases h : key old = key row
      · simp [h, hp old row h, hrow]
      · simp [h]
    rw [hany]
    split
    · rw [if_pos rfl, List.filter_map]
      congr 1
      apply List.filter_congr
      intro old _
      by_cases h : key old = key row
      · simp [h, hp old row h]
      · simp [h]
    · simp [hrow]
  | false =>
    rw [if_neg Bool.false_ne_true]
    split
    · rw [List.filter_map]
      have hsame : table.filter (p ∘ fun old => if decide (key old = key row) = true then row
          else old) = table.filter p := by
        apply List.filter_congr
        intro old _
        by_cases h : key old = key row
        · simp [h, hp old row h, hrow]
        · simp [h]
      rw [hsame]
      conv_rhs => rw [← List.map_id (table.filter p)]
      apply List.map_congr_left
      intro old hold
      have hpold := (List.mem_filter.mp hold).2
      have hne : key old ≠ key row := by
        intro h
        rw [hp old row h, hrow] at hpold
        cases hpold
      simp [hne]
    · simp [hrow]

theorem find?_upsertRow_of_ne [DecidableEq κ] (hp : ∀ a b, key a = key b → p a = p b)
    (hrow : p row = false) (table : List ρ) :
    (upsertRow key row table).find? p = table.find? p := by
  rw [← List.head?_filter, ← List.head?_filter, filter_upsertRow hp, hrow,
    if_neg Bool.false_ne_true]

/-- An update that leaves a column alone keeps its values distinct. -/
theorem nodup_map_updateWhere {test : ρ → Bool} {change : ρ → ρ} {column : ρ → κ}
    (h : ∀ row, column (change row) = column row) {table : List ρ}
    (hnodup : (table.map column).Nodup) : ((updateWhere test change table).map column).Nodup := by
  rw [map_updateWhere h]
  exact hnodup

theorem fresh_of_updateWhere {value : κ} (h : ∀ row, column (change row) = column row)
    (hfresh : ∀ row ∈ updateWhere test change table, column row ≠ value) :
    ∀ row ∈ table, column row ≠ value := by
  intro row hrow heq
  have hvalue : value ∈ (updateWhere test change table).map column := by
    rw [map_updateWhere h, ← heq]
    exact List.mem_map_of_mem hrow
  obtain ⟨row', hrow', heq'⟩ := List.mem_map.mp hvalue
  exact hfresh row' hrow' heq'

variable {keep : ρ → Bool}

/-- An update after which no changed row is kept drops the changed rows. -/
theorem filter_updateWhere_of_drop (h : ∀ row, test row = true → keep (change row) = false)
    (table : List ρ) :
    (updateWhere test change table).filter keep =
      table.filter fun row => keep row && !test row := by
  unfold updateWhere
  induction table with
  | nil => rfl
  | cons row table ih =>
    rw [List.map_cons]
    by_cases htest : test row
    · simp [htest, h row htest, ih]
    · by_cases hkeep : keep row
      · simp [htest, hkeep, ih]
      · simp [htest, hkeep, ih]

/-- An update that leaves a column and what is kept alone leaves the kept values alone. -/
theorem map_filter_updateWhere (hkeep : ∀ row, keep (change row) = keep row)
    (hcolumn : ∀ row, column (change row) = column row) (table : List ρ) :
    ((updateWhere test change table).filter keep).map column = (table.filter keep).map column := by
  unfold updateWhere
  induction table with
  | nil => rfl
  | cons row table ih =>
    rw [List.map_cons]
    by_cases htest : test row
    · by_cases hrow : keep row
      · simp [htest, hkeep, hcolumn, hrow, ih]
      · simp [htest, hkeep, hrow, ih]
    · by_cases hrow : keep row
      · simp [htest, hrow, ih]
      · simp [htest, hrow, ih]

/-- Looking up a row by columns that an update leaves finds the updated row. -/
theorem find?_updateWhere (hkeep : ∀ row, test row = true → keep (change row) = keep row)
    (table : List ρ) :
    (updateWhere test change table).find? keep =
      (table.find? keep).map fun row => if test row then change row else row := by
  unfold updateWhere
  rw [List.find?_map]
  have hsame : (keep ∘ fun row => if test row = true then change row else row) = keep := by
    funext row
    by_cases h : test row = true
    · simp [h, hkeep row h]
    · simp [h]
  rw [hsame]

/-- An update of rows that are not looked up. -/
theorem find?_updateWhere_of_miss (hmiss : ∀ row, test row = true → keep row = false)
    (hchange : ∀ row, test row = true → keep (change row) = false) (table : List ρ) :
    (updateWhere test change table).find? keep = table.find? keep := by
  rw [find?_updateWhere fun row h => (hchange row h).trans (hmiss row h).symm]
  cases hfind : table.find? keep with
  | none => rfl
  | some row =>
    have htest : ¬ test row = true := fun h => by
      simpa [hmiss row h] using List.find?_some hfind
    rw [Option.map_some, if_neg htest]

/-- An update that changes no row. -/
@[simp] theorem updateWhere_false (change : ρ → ρ) (table : List ρ) :
    updateWhere (fun _ => false) change table = table := by
  simp [updateWhere]

/-- Where a column is a key, a search for a row's key finds the row. -/
theorem find?_of_nodup [DecidableEq κ] (hnodup : (table.map column).Nodup) (hrow : row ∈ table) :
    table.find? (column · == column row) = some row := by
  have hsome : (table.find? (column · == column row)).isSome = true :=
    List.find?_isSome.mpr ⟨row, hrow, by simp⟩
  obtain ⟨found, hfound⟩ := Option.isSome_iff_exists.mp hsome
  have hkey : column found = column row := by simpa using List.find?_some hfound
  rw [hfound, List.inj_on_of_nodup_map hnodup (List.mem_of_find?_eq_some hfound) hrow hkey]

/-- A stricter test that fails on a row that satisfies the weaker one counts less. -/
theorem countP_lt_countP {q : ρ → Bool} (himp : ∀ row ∈ table, p row = true → q row = true)
    (hrow : row ∈ table) (hp : p row = false) (hq : q row = true) :
    table.countP p < table.countP q := by
  obtain ⟨before, after, rfl⟩ := List.append_of_mem hrow
  have hbefore : before.countP p ≤ before.countP q :=
    List.countP_mono_left fun other hother => himp other (List.mem_append_left _ hother)
  have hafter : after.countP p ≤ after.countP q :=
    List.countP_mono_left fun other hother =>
      himp other (List.mem_append_right _ (List.mem_cons_of_mem _ hother))
  rw [List.countP_append, List.countP_append, List.countP_cons_of_pos hq,
    List.countP_cons_of_neg (by simp [hp])]
  omega

/-- Values stay distinct when a new one is appended. -/
theorem nodup_concat_of_fresh {values : List κ} {value : κ} (h : values.Nodup)
    (hfresh : ∀ old ∈ values, old ≠ value) : (values ++ [value]).Nodup := by
  rw [List.nodup_append]
  refine ⟨h, List.nodup_singleton value, ?_⟩
  intro old hold other hother
  rw [List.mem_singleton.mp hother]
  exact hfresh old hold

/-- Every row of the first table is in the second one, up to `R`. -/
def Kept (R : ρ → ρ → Prop) (table table' : List ρ) : Prop :=
  ∀ row ∈ table, ∃ row' ∈ table', R row row'

/-- Every row of the second table comes from a row of the first by `R`, or is `New`. -/
def Stems (R : ρ → ρ → Prop) (New : ρ → Prop) (table table' : List ρ) : Prop :=
  ∀ row' ∈ table', (∃ row ∈ table, R row row') ∨ New row'

section Kept

variable {R : ρ → ρ → Prop} {table table' table'' : List ρ}

theorem Kept.refl (hrefl : ∀ row, R row row) (table : List ρ) : Kept R table table :=
  fun row hrow => ⟨row, hrow, hrefl row⟩

theorem Kept.trans (htrans : ∀ a b c, R a b → R b c → R a c) (h : Kept R table table')
    (h' : Kept R table' table'') : Kept R table table'' := by
  intro row hrow
  obtain ⟨row', hrow', hR⟩ := h row hrow
  obtain ⟨row'', hrow'', hR'⟩ := h' row' hrow'
  exact ⟨row'', hrow'', htrans _ _ _ hR hR'⟩

/-- Appending rows keeps the old ones. -/
theorem Kept.append (hrefl : ∀ row, R row row) (table rows : List ρ) :
    Kept R table (table ++ rows) :=
  fun row hrow => ⟨row, List.mem_append_left _ hrow, hrefl row⟩

theorem Kept.updateWhere {test : ρ → Bool} {change : ρ → ρ} (hrefl : ∀ row, R row row)
    (hchange : ∀ row, test row = true → R row (change row)) (table : List ρ) :
    Kept R table (updateWhere test change table) := by
  intro row hrow
  refine ⟨if test row then change row else row, List.mem_map.mpr ⟨row, hrow, rfl⟩, ?_⟩
  split
  · exact hchange row ‹_›
  · exact hrefl row

end Kept

section Stems

variable {R : ρ → ρ → Prop} {New : ρ → Prop} {table table' table'' : List ρ}

theorem Stems.refl (hrefl : ∀ row, R row row) (table : List ρ) : Stems R New table table :=
  fun row hrow => Or.inl ⟨row, hrow, hrefl row⟩

theorem Stems.trans (htrans : ∀ a b c, R a b → R b c → R a c)
    (hnew : ∀ a b, New a → R a b → New b) (h : Stems R New table table')
    (h' : Stems R New table' table'') : Stems R New table table'' := by
  intro row'' hrow''
  rcases h' row'' hrow'' with ⟨row', hrow', hR'⟩ | hnew'
  · rcases h row' hrow' with ⟨row, hrow, hR⟩ | hn
    · exact Or.inl ⟨row, hrow, htrans _ _ _ hR hR'⟩
    · exact Or.inr (hnew _ _ hn hR')
  · exact Or.inr hnew'

theorem Stems.append (hrefl : ∀ row, R row row) {rows : List ρ} (hnew : ∀ row ∈ rows, New row)
    (table : List ρ) : Stems R New table (table ++ rows) := by
  intro row hrow
  rcases List.mem_append.mp hrow with h | h
  · exact Or.inl ⟨row, h, hrefl row⟩
  · exact Or.inr (hnew row h)

theorem Stems.updateWhere {test : ρ → Bool} {change : ρ → ρ} (hrefl : ∀ row, R row row)
    (hchange : ∀ row, test row = true → R row (change row)) (table : List ρ) :
    Stems R New table (updateWhere test change table) := by
  intro row' hrow'
  obtain ⟨row, hrow, rfl⟩ := List.mem_map.mp hrow'
  refine Or.inl ⟨row, hrow, ?_⟩
  split
  · exact hchange row ‹_›
  · exact hrefl row

end Stems

/-! ## Exact updates -/

/-- Row by row, the rows that satisfy the test are changed and all others are kept. -/
def Rewrites (test : ρ → Prop) (change : ρ → ρ) (table table' : List ρ) : Prop :=
  List.Forall₂ (fun row row' => test row ∧ row' = change row ∨ ¬ test row ∧ row' = row)
    table table'

variable {T : ρ → Prop}

theorem rewrites_updateWhere (h : ∀ row ∈ table, test row = true ↔ T row) :
    Rewrites T change table (updateWhere test change table) := by
  unfold Rewrites updateWhere
  rw [List.forall₂_map_right_iff]
  refine List.forall₂_same.mpr fun row hrow => ?_
  by_cases htest : test row = true
  · exact Or.inl ⟨(h row hrow).mp htest, by simp [htest]⟩
  · exact Or.inr ⟨fun hT => htest ((h row hrow).mpr hT), by simp [htest]⟩

/-- An update rewrites other rows than its own exactly when the change does nothing to the
rows in question. -/
theorem rewrites_updateWhere_iff : Rewrites T change table (updateWhere test change table) ↔
      ∀ row ∈ table, (test row = true ↔ T row) ∨ change row = row := by
  unfold Rewrites updateWhere
  rw [List.forall₂_map_right_iff, List.forall₂_same]
  refine forall₂_congr fun row _ => ?_
  by_cases htest : test row = true <;> by_cases hT : T row <;> simp [htest, hT, eq_comm]

/-- A row of a rewritten table is a changed row or a row that is kept. -/
theorem Rewrites.exists_row (h : Rewrites T change table table') (hrow' : row' ∈ table') :
    ∃ row ∈ table, T row ∧ row' = change row ∨ ¬ T row ∧ row' = row := by
  induction h with
  | nil => cases hrow'
  | cons hhead _ ih =>
    rcases List.mem_cons.mp hrow' with rfl | htail
    · exact ⟨_, List.mem_cons_self, hhead⟩
    · obtain ⟨row, hrow, hcases⟩ := ih htail
      exact ⟨row, List.mem_cons_of_mem _ hrow, hcases⟩

end Foundation
