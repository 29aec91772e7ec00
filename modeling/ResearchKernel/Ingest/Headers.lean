import Mathlib.Data.List.DropRight
import Mathlib.Data.List.Sort
import Mathlib.Data.String.Basic
import ResearchKernel.Json

/-!
# Headers of a text

A text names its status, scope and probe in lines `KEY: value`. Lines between fences are no
headers. The reader of the headers remembers the marker of the last fence, and a fence of the
other marker replaces it. So a fence that stands inside a block of the other marker moves the
end of the block, and sometimes everything after it. This file says for every text which of
its lines are read, and exactly when they are the headers outside the blocks.
-/

namespace ResearchKernel.Ingest

/-! ## Lines -/

/-- Whether a character ends a line. -/
def isLineBreak (c : Char) : Bool :=
  let n := c.toNat
  (10 ≤ n && n ≤ 13) || (28 ≤ n && n ≤ 30) || n == 0x85 || n == 0x2028 || n == 0x2029

/-- The lines of a text, where the characters of the current line are given backwards. -/
def splitLinesFrom : List Char → List Char → List (List Char)
  | current, [] => if current.isEmpty then [] else [current.reverse]
  | current, '\r' :: '\n' :: rest => current.reverse :: splitLinesFrom [] rest
  | current, c :: rest =>
    if isLineBreak c then current.reverse :: splitLinesFrom [] rest
    else splitLinesFrom (c :: current) rest

def splitLines (text : String) : List (List Char) := splitLinesFrom [] text.toList

/-- A line without the space around it. -/
def strip (line : List Char) : List Char := (line.dropWhile isSpace).rdropWhile isSpace

/-- The markers of fences. -/
inductive Fence where
  | backticks | tildes
deriving DecidableEq

/-- Text of a marker. -/
def Fence.wire : Fence → String
  | .backticks => "```"
  | .tildes => "~~~"

/-- The marker with which a stripped line starts. -/
def fenceOf (stripped : List Char) : Option Fence :=
  [.backticks, .tildes].find? fun fence : Fence => stripped.take 3 == fence.wire.toList

/-- Whether a character stands in a key. -/
def isKeyChar (c : Char) : Bool := c.isUpper || c.isDigit || c == '_'

/-- The key and the value of a stripped line that matches `([A-Z][A-Z0-9_]*)\s*:\s*(.*?)\s*`. -/
def headerOf (stripped : List Char) : Option (String × String) :=
  let key := stripped.takeWhile isKeyChar
  match (stripped.dropWhile isKeyChar).dropWhile isSpace with
  | ':' :: rest =>
    if key.head?.any Char.isUpper then some (String.ofList key, String.ofList (strip rest)) else none
  | _ => none

/-! ## The reader -/

/-- Append a value to those of its key. -/
def collectValue (key value : String) : List (String × List String) → List (String × List String)
  | [] => [(key, [value])]
  | (other, values) :: rest =>
    if other == key then (other, values ++ [value]) :: rest
    else (other, values) :: collectValue key value rest

/-- Where the reader is: the marker that it remembers, and what it has collected. -/
structure Scan where
  fence : Option Fence := none
  values : List (String × List String) := []

/-- The reader reads a line. -/
def Scan.read (s : Scan) (line : List Char) : Scan :=
  let stripped := strip line
  match fenceOf stripped with
  | some marker => { s with fence := if s.fence = some marker then none else some marker }
  | none =>
    if s.fence.isSome then s
    else match headerOf stripped with
      | some (key, value) => { s with values := collectValue key value s.values }
      | none => s

/-- Where the reader is after some lines. -/
def scan (lines : List (List Char)) : Scan := lines.foldl Scan.read {}

def headersOutsideFences (text : String) : List (String × List String) :=
  (scan (splitLines text)).values

def valuesOf (headers : List (String × List String)) (key : String) : List String :=
  (headers.lookup key).getD []

/-! ## Inspection of a text -/

/-- A finding. -/
structure IngestFinding where
  code : String
  path : String
  detail : JsonObject := []

/-- What the handler of a command expects of an artifact, as far as texts are concerned. -/
structure IngestExpectation where
  scope : Option String := none
  statusValues : List String := []

def optionalText (text : Option String) : Json := text.elim .null .str

def checkStatus (expected : IngestExpectation) (status : Option String) : List IngestFinding :=
  if expected.statusValues.isEmpty || status.any expected.statusValues.contains then []
  else [{ code := "STATUS_HEADER_MISMATCH"
          path := "artifact.content.status"
          detail := [("observed", optionalText status), ("allowed",
            .arr ((expected.statusValues.insertionSort (· ≤ ·)).map .str))] }]

def checkScope (expected : IngestExpectation) (scope : Option String) : List IngestFinding :=
  if expected.scope.isNone || scope == expected.scope then []
  else [{ code := "EVIDENCE_SCOPE_MISMATCH"
          path := "artifact.content.scope"
          detail := [("observed", optionalText scope), ("expected", optionalText expected.scope)] }]

/-- The inspection of a text after the given findings about its bytes. -/
def inspectText (expected : IngestExpectation) (findings : List IngestFinding) (text : String) :
    Option String × Option String × List IngestFinding :=
  let headers := headersOutsideFences text
  let statusValues := valuesOf headers "STATUS"
  let scopeValues := (headers.lookup "TARGET_SCOPE").getD (valuesOf headers "SCOPE")
  let probeValues := valuesOf headers "PROBE_ID"
  let mixed := decide (1 < statusValues.length) || decide (1 < scopeValues.dedup.length) ||
    decide (1 < probeValues.dedup.length)
  let status := if statusValues.length = 1 then statusValues.head? else none
  let scope := if scopeValues.dedup.length = 1 then scopeValues.head? else none
  (status, scope, findings ++
    (if mixed then [{ code := "MIXED_OUTPUT", path := "artifact.content" }] else []) ++
      checkStatus expected status ++ checkScope expected scope)

/-! ## Blocks -/

/-- The block in which one is after a line: a fence opens a block, and the next fence with the
same marker closes it. -/
def enclose (block : Option Fence) (line : List Char) : Option Fence :=
  match fenceOf (strip line) with
  | none => block
  | some marker =>
    match block with
    | none => some marker
    | some opened => if opened = marker then none else block

/-- The block in which one is after some lines. -/
def enclosing (lines : List (List Char)) : Option Fence := lines.foldl enclose none

/-- The headers outside the blocks. -/
def unfencedFrom : Option Fence → List (List Char) → List (String × String)
  | _, [] => []
  | block, line :: lines =>
    if block.isNone then (headerOf (strip line)).toList ++ unfencedFrom (enclose block line) lines
    else unfencedFrom (enclose block line) lines

/-- The headers of a text outside the blocks. -/
def unfencedHeaders (text : String) : List (String × String) := unfencedFrom none (splitLines text)

/-- Whether the reader collects something from a line that comes after some lines. -/
def Collects (before : List (List Char)) (line : List Char) : Prop :=
  (scan (before ++ [line])).values ≠ (scan before).values

/-- The reader sees exactly the headers outside the blocks of a text, and so two of them that
name a status are reported. -/
structure SeesUnfenced (text : String) : Prop where
  exact : ∀ before line after, splitLines text = before ++ line :: after →
    (Collects before line ↔ (headerOf (strip line)).isSome = true ∧ enclosing before = none)
  mixed : 1 < ((unfencedHeaders text).filter (·.1 == "STATUS")).length →
    ∀ expected findings, ∃ finding ∈ (inspectText expected findings text).2.2,
      finding.code = "MIXED_OUTPUT"

/-- The blocks of a text up to some line: the block in which one is, how many fences of the
other marker stand in it so far, and the marker that is stale. A marker is stale after a block
of it that contains a fence of the other marker, until a block of the other marker begins. -/
structure Blocks where
  block : Option Fence := none
  foreign : ℕ := 0
  stale : Option Fence := none

/-- The blocks after one more line. -/
def Blocks.next (b : Blocks) (line : List Char) : Blocks :=
  match fenceOf (strip line) with
  | none => b
  | some marker =>
    match b.block with
    | none => { block := some marker, stale := if b.stale = some marker then b.stale else none }
    | some opened =>
      if opened = marker then { stale := if 0 < b.foreign then some marker else b.stale }
      else { b with foreign := b.foreign + 1 }

/-- The blocks of some lines. -/
def blocks (lines : List (List Char)) : Blocks := lines.foldl Blocks.next {}

/-- Outside the blocks no marker is stale. Inside a block the number of fences of the other
marker so far is odd, or there was none and the marker of the block is not stale. -/
def Blocks.Clear (b : Blocks) : Prop :=
  match b.block with
  | none => b.stale = none
  | some _ => b.foreign % 2 = 1 ∨ b.foreign = 0 ∧ b.stale = none

section Reader

variable {before after lines : List (List Char)} {line : List Char} {text : String}

theorem scan_concat (before : List (List Char)) (line : List Char) :
    scan (before ++ [line]) = (scan before).read line := by
  unfold scan
  rw [List.foldl_append]
  rfl

theorem blocks_concat (before : List (List Char)) (line : List Char) :
    blocks (before ++ [line]) = (blocks before).next line := by
  unfold blocks
  rw [List.foldl_append]
  rfl

theorem enclosing_concat (before : List (List Char)) (line : List Char) :
    enclosing (before ++ [line]) = enclose (enclosing before) line := by
  unfold enclosing
  rw [List.foldl_append]
  rfl

/-- The other marker. -/
def Fence.other : Fence → Fence
  | .backticks => .tildes
  | .tildes => .backticks

theorem Fence.eq_other {a b : Fence} (h : a ≠ b) : b = a.other := by
  cases a <;> cases b <;> first | rfl | exact absurd rfl h

/-- The marker that the reader remembers. -/
def Blocks.remembered (b : Blocks) : Option Fence :=
  match b.block with
  | none => b.stale
  | some opened =>
    if b.foreign % 2 = 1 then some opened.other
    else if b.foreign = 0 ∧ b.stale = none then some opened
    else none

/-- Inside a block a stale marker is that of the block. -/
def Blocks.Sound (b : Blocks) : Prop :=
  ∀ opened ∈ b.block, b.stale = none ∨ b.stale = some opened

theorem Blocks.sound_next {b : Blocks} (h : b.Sound) (line : List Char) : (b.next line).Sound := by
  unfold Blocks.next
  split
  · exact h
  · split
    · intro opened hopened
      obtain rfl := Option.some.inj hopened
      dsimp only
      split
      · rename_i hstale
        exact Or.inr hstale
      · exact Or.inl rfl
    · rename_i opened hblock
      split
      · intro other hother
        cases hother
      · exact h

/-- The reader moves with the blocks. -/
theorem Blocks.remembered_next {b : Blocks} (h : b.Sound) (line : List Char) :
    (b.next line).remembered = match fenceOf (strip line) with
      | none => b.remembered
      | some marker => if b.remembered = some marker then none else some marker := by
  unfold Blocks.next
  cases hmarker : fenceOf (strip line) with
  | none => rfl
  | some marker =>
    obtain ⟨block, foreign, stale⟩ := b
    cases block with
    | none =>
      -- A fence opens a block; the reader takes it for the end of one if its marker is stale.
      by_cases hstale : stale = some marker
      · simp [Blocks.remembered, hstale]
      · simp [Blocks.remembered, hstale]
    | some opened =>
      by_cases hsame : opened = marker
      · subst hsame
        rcases h opened rfl with hstale | hstale
        · obtain rfl : stale = none := hstale
          by_cases hodd : foreign % 2 = 1
          · have hpos : 0 < foreign := by omega
            cases opened <;> simp [Blocks.remembered, hodd, hpos, Fence.other]
          · by_cases hzero : foreign = 0
            · simp [Blocks.remembered, hzero]
            · have hpos : 0 < foreign := by omega
              simp [Blocks.remembered, hodd, hpos, hzero]
        · obtain rfl : stale = some opened := hstale
          by_cases hodd : foreign % 2 = 1
          · cases opened <;> simp [Blocks.remembered, hodd, Fence.other]
          · simp [Blocks.remembered, hodd]
      · obtain rfl := Fence.eq_other hsame
        by_cases hodd : foreign % 2 = 1
        · have heven : (foreign + 1) % 2 ≠ 1 := by omega
          simp [Blocks.remembered, hodd, heven, hsame]
        · have hnext : (foreign + 1) % 2 = 1 := by omega
          by_cases hfresh : foreign = 0 ∧ stale = none
          · simp [Blocks.remembered, hfresh, hsame]
          · simp [Blocks.remembered, hodd, hnext, hfresh, hsame]

/-- The marker that the reader remembers after some lines. -/
theorem scan_fence (lines : List (List Char)) :
    (blocks lines).Sound ∧ (scan lines).fence = (blocks lines).remembered := by
  induction lines using List.reverseRecOn with
  | nil =>
    refine ⟨?_, rfl⟩
    intro opened hopened
    cases hopened
  | append_singleton before line ih =>
    rw [scan_concat, blocks_concat]
    refine ⟨Blocks.sound_next ih.1 line, ?_⟩
    rw [Blocks.remembered_next ih.1 line, ← ih.2]
    unfold Scan.read
    dsimp only
    cases fenceOf (strip line) with
    | some marker => rfl
    | none =>
      dsimp only
      split
      · rfl
      · split
        · rfl
        · rfl

/-- The blocks count from the block in which one is. -/
theorem blocks_block (lines : List (List Char)) : (blocks lines).block = enclosing lines := by
  induction lines using List.reverseRecOn with
  | nil => rfl
  | append_singleton before line ih =>
    rw [blocks_concat, enclosing_concat, ← ih]
    unfold Blocks.next enclose
    cases fenceOf (strip line) with
    | none => rfl
    | some marker =>
      dsimp only
      cases (blocks before).block with
      | none => rfl
      | some opened =>
        dsimp only
        split
        · rfl
        · rfl

/-- Where the blocks are clear, and only there, the reader remembers a marker exactly inside a
block. -/
theorem Blocks.clear_iff (b : Blocks) :
    b.Clear ↔ (b.remembered = none ↔ b.block = none) := by
  obtain ⟨block, foreign, stale⟩ := b
  unfold Blocks.Clear Blocks.remembered
  cases block with
  | none => simp
  | some opened =>
    dsimp only
    by_cases hodd : foreign % 2 = 1
    · simp [hodd]
    · by_cases hfresh : foreign = 0 ∧ stale = none
      · simp [hfresh]
      · simp [hodd, hfresh]

/-- A header starts with no fence. -/
theorem fenceOf_of_header {stripped : List Char} (h : (headerOf stripped).isSome = true) :
    fenceOf stripped = none := by
  unfold headerOf at h
  cases stripped with
  | nil => rfl
  | cons c rest =>
    have hupper : c.isUpper = true := by
      by_cases hkey : isKeyChar c = true
      · simp only [List.takeWhile_cons, hkey, ↓reduceIte, List.head?_cons, Option.any_some] at h
        split at h
        · split at h
          · assumption
          · cases h
        · cases h
      · simp only [List.takeWhile_cons, hkey, Bool.false_eq_true, ↓reduceIte, List.head?_nil,
          Option.any_none] at h
        split at h <;> cases h
    unfold fenceOf
    rw [List.find?_eq_none]
    intro fence _ htake
    rw [beq_iff_eq] at htake
    have hhead := congrArg List.head? htake
    cases fence with
    | backticks =>
      obtain rfl : c = Char.ofNat 96 := by simpa [Fence.wire] using hhead
      cases hupper
    | tildes =>
      obtain rfl : c = '~' := by simpa [Fence.wire] using hhead
      cases hupper

/-- What is appended is there. -/
theorem collectValue_ne (key value : String) (values : List (String × List String)) :
    collectValue key value values ≠ values := by
  induction values with
  | nil => simp [collectValue]
  | cons entry rest ih =>
    obtain ⟨other, old⟩ := entry
    unfold collectValue
    split
    · simp
    · simpa using ih

/-- The reader collects the headers at which it remembers no marker. -/
theorem collects_iff : Collects before line ↔
    (headerOf (strip line)).isSome = true ∧ (scan before).fence = none := by
  unfold Collects
  rw [scan_concat]
  unfold Scan.read
  dsimp only
  constructor
  · intro h
    split at h
    · exact absurd rfl h
    · split at h
      · exact absurd rfl h
      · rename_i hopen
        split at h
        · rename_i key value hheader
          exact ⟨by rw [hheader]; rfl, by simpa using hopen⟩
        · exact absurd rfl h
  · rintro ⟨hheader, hopen⟩
    obtain ⟨⟨key, value⟩, hfound⟩ := Option.isSome_iff_exists.mp hheader
    rw [fenceOf_of_header hheader, hopen, hfound]
    exact collectValue_ne key value _

theorem valuesOf_collectValue (headers : List (String × List String)) (key value other : String) :
    valuesOf (collectValue key value headers) other =
      valuesOf headers other ++ if key = other then [value] else [] := by
  unfold valuesOf
  induction headers with
  | nil =>
    by_cases hkey : key = other
    · simp [collectValue, hkey]
    · simp [collectValue, List.lookup_cons, hkey, beq_false_of_ne (Ne.symm hkey)]
  | cons entry rest ih =>
    obtain ⟨first, values⟩ := entry
    by_cases hfirst : first = key
    · subst hfirst
      by_cases hother : first = other
      · simp [collectValue, hother]
      · simp [collectValue, List.lookup_cons, hother, beq_false_of_ne (Ne.symm hother)]
    · by_cases hother : first = other
      · subst hother
        simp [collectValue, hfirst, Ne.symm hfirst]
      · simp only [collectValue, beq_false_of_ne hfirst, Bool.false_eq_true, ↓reduceIte,
          List.lookup_cons, beq_false_of_ne (Ne.symm hother)]
        exact ih

theorem unfencedFrom_concat (block : Option Fence) (before : List (List Char)) (line : List Char) :
    unfencedFrom block (before ++ [line]) = unfencedFrom block before ++
      if before.foldl enclose block = none then (headerOf (strip line)).toList else [] := by
  induction before generalizing block with
  | nil => cases block <;> simp [unfencedFrom]
  | cons first rest ih =>
    simp only [List.cons_append, unfencedFrom, ih, List.foldl_cons]
    split
    · rw [List.append_assoc]
      rfl
    · rfl

/-- Where the reader collects the headers outside the blocks, its values are theirs. -/
theorem valuesOf_scan (lines : List (List Char))
    (h : ∀ before line after, lines = before ++ line :: after →
      (Collects before line ↔ (headerOf (strip line)).isSome = true ∧ enclosing before = none))
    (key : String) : valuesOf (scan lines).values key =
      ((unfencedFrom none lines).filter (·.1 == key)).map (·.2) := by
  induction lines using List.reverseRecOn with
  | nil => rfl
  | append_singleton before line ih =>
    have hbefore := ih fun early middle late hsplit =>
      h early middle (late ++ [line]) (by rw [hsplit, List.append_assoc, List.cons_append])
    have hline := h before line [] rfl
    rw [collects_iff] at hline
    rw [scan_concat, unfencedFrom_concat, List.filter_append, List.map_append, ← hbefore]
    cases hheader : headerOf (strip line) with
    | none =>
      have hsame : ((scan before).read line).values = (scan before).values := by
        by_contra hne
        have hcollects : Collects before line := by
          unfold Collects
          rwa [scan_concat]
        have hsome := (collects_iff.mp hcollects).1
        rw [hheader] at hsome
        cases hsome
      rw [hsame]
      split <;> simp
    | some header =>
      obtain ⟨first, value⟩ := header
      have hsome : (headerOf (strip line)).isSome = true := by rw [hheader]; rfl
      have hfence : (scan before).fence = none ↔ enclosing before = none :=
        ⟨fun hopen => (hline.mp ⟨hsome, hopen⟩).2, fun hopen => (hline.mpr ⟨hsome, hopen⟩).2⟩
      change _ = _ ++ ((if enclosing before = none then _ else _ : List _).filter _).map _
      unfold Scan.read
      simp only [fenceOf_of_header hsome, hheader]
      by_cases hopen : enclosing before = none
      · rw [if_pos hopen, hfence.mpr hopen]
        simp only [Option.isSome_none, Bool.false_eq_true, ↓reduceIte, valuesOf_collectValue]
        by_cases hkey : first = key
        · simp [hkey]
        · simp [hkey]
      · have hclosed : (scan before).fence.isSome = true := by
          rw [Option.isSome_iff_ne_none]
          exact fun hnone => hopen (hfence.mp hnone)
        simp [hopen, hclosed]

/-- The reader sees exactly the headers outside the blocks if and only if the blocks are clear
at every header. -/
theorem seesUnfenced_iff (text : String) : SeesUnfenced text ↔
    ∀ before line after, splitLines text = before ++ line :: after →
      (headerOf (strip line)).isSome = true → (blocks before).Clear := by
  constructor
  · intro h before line after hsplit hheader
    have hexact := h.exact before line after hsplit
    rw [collects_iff] at hexact
    rw [Blocks.clear_iff, ← (scan_fence before).2, blocks_block]
    exact ⟨fun hopen => (hexact.mp ⟨hheader, hopen⟩).2, fun hopen => (hexact.mpr ⟨hheader, hopen⟩).2⟩
  · intro h
    have hexact : ∀ before line after, splitLines text = before ++ line :: after →
        (Collects before line ↔
          (headerOf (strip line)).isSome = true ∧ enclosing before = none) := by
      intro before line after hsplit
      rw [collects_iff]
      refine and_congr_right fun hheader => ?_
      have hclear := (Blocks.clear_iff _).mp (h before line after hsplit hheader)
      rwa [← (scan_fence before).2, blocks_block] at hclear
    refine ⟨hexact, fun htwo expected findings => ?_⟩
    have hvalues : 1 < (valuesOf (headersOutsideFences text) "STATUS").length := by
      unfold headersOutsideFences
      rw [valuesOf_scan _ hexact, List.length_map]
      exact htwo
    refine ⟨{ code := "MIXED_OUTPUT", path := "artifact.content" }, ?_, rfl⟩
    unfold inspectText
    simp [hvalues]

end Reader

/-- A block in which a fence of the other marker stands, and two headers after it. -/
def foreignFence : String := "```\n~~~\n```\nSTATUS: PASS\nSTATUS: FAIL"

theorem foreignFence_lines :
    splitLines foreignFence = ["```".toList, "~~~".toList, "```".toList] ++
      "STATUS: PASS".toList :: ["STATUS: FAIL".toList] ∧
    (headerOf (strip "STATUS: PASS".toList)).isSome = true ∧
    enclosing ["```".toList, "~~~".toList, "```".toList] = none ∧
    (scan ["```".toList, "~~~".toList, "```".toList]).fence = some .backticks := by
  decide +kernel

/-- The headers after such a block are not seen. -/
theorem headers_hidden_by_foreignFence : ¬ SeesUnfenced foreignFence := by
  obtain ⟨hlines, hheader, houtside, hfence⟩ := foreignFence_lines
  intro h
  have hcollects := (h.exact _ _ _ hlines).mpr ⟨hheader, houtside⟩
  have hopen := (collects_iff.mp hcollects).2
  rw [hfence] at hopen
  cases hopen

end ResearchKernel.Ingest
