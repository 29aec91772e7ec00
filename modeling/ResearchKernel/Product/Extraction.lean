import Mathlib.Data.Prod.Lex
import ResearchKernel.Foundation.Spans
import ResearchKernel.Ingest.Headers

/-!
# Layout and formulas of a text

An extractor lists the lines of a text that are not blank, page by page, and the formulas it sees
in them. In a TeX source it also lists the formulas that stand between delimiters. A page ends
with a form feed, a line with any separator. The place of a line is counted as if every line
ended with one character, so it is wrong behind a separator of two characters and behind a page
whose last line ends with the page.
-/

namespace ResearchKernel.Product.Extraction

open Foundation
open Foundation.Spans (slice slice_middle countAfter countAfter_append countAfter_eq_zero Span
  findSpans mem_findSpans findClosing findClosing_eq_some)
open Ingest (isLineBreak splitLinesFrom strip)

/-! ## What is extracted -/

/-- A line of the layout. -/
structure LayoutObject where
  page : ℕ
  line : ℕ
  start : ℕ
  stop : ℕ
  text : List Char
deriving DecidableEq

/-- A formula. -/
inductive Formula where
  /-- A line that looks mathematical. -/
  | candidate (page line : ℕ) (source : List Char) (origin : String)
  /-- What stands between delimiters, `TEX_EXACT`. -/
  | exact (ordinal start stop : ℕ) (source : List Char)
deriving DecidableEq

/-- What is extracted from a material. -/
structure ExtractedMaterial where
  text : List Char
  layout : List LayoutObject
  formulas : List Formula

/-! ## Lines -/

/-- What a mathematical line has one of. -/
def markers : List (List Char) :=
  ["=", "≤", "≥", "∑", "∫", "√", "^", "_", "\\frac", "→"].map String.toList

/-- Whether a line looks mathematical. -/
def looksMathematical (value : List Char) : Bool :=
  markers.any fun marker => value.tails.any fun rest => marker.isPrefixOf rest

/-- Where the reader of a text is, and what it has listed. -/
structure Projection where
  layout : List LayoutObject := []
  formulas : List Formula := []
  absolute : ℕ := 0

/-- Read a line of a page. -/
def Projection.readLine (origin : String) (page : ℕ) (p : Projection) (entry : List Char × ℕ) :
    Projection :=
  let stripped := strip entry.1
  { layout :=
      if stripped.isEmpty then p.layout
      else p.layout ++ [⟨page, entry.2, p.absolute, p.absolute + entry.1.length, stripped⟩]
    formulas :=
      if !stripped.isEmpty && looksMathematical stripped then
        p.formulas ++ [.candidate page entry.2 stripped origin]
      else p.formulas
    absolute := p.absolute + entry.1.length + 1 }

def Projection.readPage (origin : String) (p : Projection) (entry : List Char × ℕ) : Projection :=
  let read := ((splitLinesFrom [] entry.1).zipIdx 1).foldl (Projection.readLine origin entry.2) p
  { read with absolute := read.absolute + 1 }

/-- The layout of a text, and its lines that look mathematical. -/
def projectText (text : List Char) (origin : String) : ExtractedMaterial :=
  let read := ((text.splitOn '\x0c').zipIdx 1).foldl (Projection.readPage origin) {}
  ⟨text, read.layout, read.formulas⟩

/-! ## Formulas of a TeX source -/

/-- How displayed equations begin. -/
def openings : List (List Char) :=
  ["\\begin{equation}", "\\begin{equation*}", "\\begin{align}", "\\begin{align*}"].map String.toList

/-- How displayed equations end. -/
def closings : List (List Char) :=
  ["\\end{equation}", "\\end{equation*}", "\\end{align}", "\\end{align*}"].map String.toList

/-- A formula that is opened here, up to the first of the closing parts. -/
def delimited (opening : List Char) (closings : List (List Char)) (text : List Char) :
    Option (ℕ × List Char) :=
  if opening.isPrefixOf text then
    (findClosing closings (text.drop opening.length)).map fun found =>
      (opening.length + found.1.length + found.2.length, found.1)
  else none

/-- A formula between dollar signs on one line, of which the first has no other before it. -/
def dollars (before : Option Char) : List Char → Option (ℕ × List Char)
  | '$' :: rest =>
    let body := rest.takeWhile fun c => c != '$' && c != '\n'
    if before != some '$' && !body.isEmpty && (rest.drop body.length).head? == some '$' then
      some (body.length + 2, body)
    else none
  | _ => none

/-- The formula that begins here, with its length. -/
def formulaAt (before : Option Char) (text : List Char) : Option (ℕ × List Char) :=
  (delimited "\\[".toList ["\\]".toList] text).or
    ((openings.findSome? fun opening => delimited opening closings text).or (dollars before text))

/-- The layout and the formulas of a TeX source. -/
def projectTex (text : List Char) : ExtractedMaterial :=
  let projected := projectText text "TEX_LINE_CANDIDATE"
  { projected with
    formulas := projected.formulas ++ (findSpans formulaAt 0 none 0 text).mapIdx
      fun index span => .exact (index + 1) span.start span.stop (strip span.found) }

/-! ## Where lines stand -/

/-- The lines of a text that are not blank, each with what stands before it, where the characters
of the current line are given backwards. -/
def linesFrom : List Char → List Char → List Char → List (List Char × List Char)
  | before, current, [] => keep before current.reverse
  | before, current, '\r' :: '\n' :: rest =>
    keep before current.reverse ++ linesFrom (before ++ current.reverse ++ ['\r', '\n']) [] rest
  | before, current, c :: rest =>
    if isLineBreak c then
      keep before current.reverse ++ linesFrom (before ++ current.reverse ++ [c]) [] rest
    else linesFrom before (c :: current) rest
where
  keep (before line : List Char) : List (List Char × List Char) :=
    if (strip line).isEmpty then [] else [(before, line)]

/-- A page ends here without a separator of lines before its end. -/
def unterminated (before c : Char) : Bool := c == '\x0c' && !isLineBreak before

/-- A separator of two characters ends here. -/
def paired (before c : Char) : Bool := c == '\n' && before == '\r'

/-- How far the counted place of what stands behind a text is off. -/
def driftFrom (last : Option Char) (text : List Char) : ℤ :=
  (countAfter unterminated last text : ℤ) - countAfter paired last text

/-- How far the counted place of a line is off, by what stands before it: one more for each page
before that has a last line without a separator, one less for each separator of two characters. -/
def drift (before : List Char) : ℤ := driftFrom none before

/-- The place of a line as it is counted. -/
def counted (before : List Char) : ℕ := ((before.length : ℤ) + drift before).toNat

theorem drift_append (front back : List Char) :
    drift (front ++ back) = drift front + driftFrom front.getLast? back := by
  rw [drift, drift, driftFrom, driftFrom, driftFrom, countAfter_append, countAfter_append,
    Option.or_none]
  omega

section Drift

variable {before line : List Char}

/-- The characters of a line are no separators. -/
def Unbroken (line : List Char) : Prop := ∀ c ∈ line, isLineBreak c = false

/-- What stands before a line ends with a separator, if it is not empty. -/
def Broken (before : List Char) : Prop := ∀ c, before.getLast? = some c → isLineBreak c = true

theorem driftFrom_unbroken (h : Unbroken line) (last : Option Char) : driftFrom last line = 0 := by
  have hfeed : countAfter unterminated last line = 0 := by
    refine countAfter_eq_zero (fun c hc b => ?_) last
    have hne : (c == '\x0c') = false :=
      beq_false_of_ne fun heq => absurd (h c hc) (by rw [heq]; decide)
    rw [unterminated, hne, Bool.false_and]
  have hpair : countAfter paired last line = 0 := by
    refine countAfter_eq_zero (fun c hc b => ?_) last
    have hne : (c == '\n') = false :=
      beq_false_of_ne fun heq => absurd (h c hc) (by rw [heq]; decide)
    rw [paired, hne, Bool.false_and]
  rw [driftFrom, hfeed, hpair]
  rfl

theorem drift_line (h : Unbroken line) (separator : List Char) :
    drift (before ++ line ++ separator) =
      drift before + driftFrom (before ++ line).getLast? separator := by
  rw [drift_append, drift_append, driftFrom_unbroken h, Int.add_zero]

theorem driftFrom_pair (last : Option Char) : driftFrom last ['\r', '\n'] = -1 := by
  cases last with
  | none => rfl
  | some b =>
    have hreturn : unterminated b '\r' = false ∧ paired b '\r' = false := by
      rw [unterminated, paired]
      exact ⟨rfl, rfl⟩
    simp only [driftFrom, countAfter, Option.any_some, hreturn]
    rfl

/-- A separator that is not the second half of one leaves the drift as it is. -/
theorem driftFrom_single {c : Char} {last : Option Char} (hfeed : c ≠ '\x0c')
    (hlast : c = '\n' → last ≠ some '\r') : driftFrom last [c] = 0 := by
  cases last with
  | none => rfl
  | some b =>
    have hnone : unterminated b c = false ∧ paired b c = false := by
      rw [unterminated, paired, beq_false_of_ne hfeed, Bool.false_and, Bool.and_eq_false_iff]
      refine ⟨rfl, ?_⟩
      by_cases hc : c = '\n'
      · exact Or.inr (beq_false_of_ne fun hb => hlast hc (by rw [hb]))
      · exact Or.inl (beq_false_of_ne hc)
    simp only [driftFrom, countAfter, Option.any_some, hnone]
    rfl

theorem driftFrom_feed (last : Option Char) :
    driftFrom last ['\x0c'] = if last.any (!isLineBreak ·) then 1 else 0 := by
  cases last with
  | none => rfl
  | some b =>
    have hfeed : unterminated b '\x0c' = !isLineBreak b ∧ paired b '\x0c' = false := by
      rw [unterminated, paired]
      exact ⟨rfl, rfl⟩
    by_cases hb : isLineBreak b = true
    · simp only [driftFrom, countAfter, Option.any_some, hfeed, hb]
      rfl
    · rw [Bool.not_eq_true] at hb
      simp only [driftFrom, countAfter, Option.any_some, hfeed, hb]
      rfl

end Drift

/-! ## What the reader lists -/

/-- What a line of the layout says of its place. -/
def LayoutObject.place (o : LayoutObject) : ℕ × ℕ × List Char := (o.start, o.stop, o.text)

/-- What is said of a line with what stands before it. -/
def located (line : List Char × List Char) : ℕ × ℕ × List Char :=
  (counted line.1, counted line.1 + line.2.length, strip line.2)

section Reader

variable {origin : String} {page : ℕ} {before current rest line : List Char} {p : Projection}

/-- The counted place of what stands behind a text. -/
def Counts (place : ℕ) (before : List Char) : Prop := (place : ℤ) = before.length + drift before

theorem Counts.counted (h : Counts p.absolute before) : counted before = p.absolute := by
  rw [Extraction.counted, ← h, Int.toNat_natCast]

/-- A line is listed if it is not blank. -/
theorem Counts.layout_readLine (h : Counts p.absolute before) (line : List Char) (n : ℕ) :
    (p.readLine origin page (line, n)).layout.map LayoutObject.place =
      p.layout.map LayoutObject.place ++ (linesFrom.keep before line).map located := by
  rw [Projection.readLine, linesFrom.keep]
  dsimp only
  split_ifs
  · rw [List.map_nil, List.append_nil]
  · rw [List.map_append, List.map_singleton, List.map_singleton, LayoutObject.place, located,
      h.counted]

theorem Counts.behind_iff {place : ℕ} (h : Counts place before) (hline : Unbroken line)
    (separator : List Char) :
    Counts (place + line.length + 1) (before ++ line ++ separator) ↔
      1 = separator.length + driftFrom (before ++ line).getLast? separator := by
  rw [Counts] at h
  rw [Counts, drift_line hline, List.length_append, List.length_append]
  omega

/-- What the reader of a page has to be given: the separators are not cut in half. -/
structure Opens (before current rest : List Char) : Prop where
  unbroken : Unbroken current.reverse
  broken : Broken before
  whole : current = [] → before.getLast? = some '\r' → rest.head? ≠ some '\n'
  feed : '\x0c' ∉ rest

variable {c : Char}

theorem broken_append (hc : isLineBreak c = true) (front : List Char) :
    Broken (front ++ [c]) := by
  intro d hd
  rw [List.getLast?_append, List.getLast?_singleton, Option.some_or, Option.some.injEq] at hd
  rw [← hd]
  exact hc

/-- The last character of what has been read is no separator, if the line has begun. -/
theorem Opens.any_last (h : Opens before current rest) :
    (before ++ current.reverse).getLast?.any (!isLineBreak ·) = !current.isEmpty := by
  cases current with
  | nil =>
    rw [List.reverse_nil, List.append_nil]
    cases hlast : before.getLast? with
    | none => rfl
    | some b =>
      rw [Option.any_some, h.broken b hlast]
      rfl
  | cons c current =>
    have hc : isLineBreak c = false := h.unbroken c (by simp)
    rw [List.reverse_cons, ← List.append_assoc, List.getLast?_append, List.getLast?_singleton,
      Option.some_or, Option.any_some, hc]
    rfl

/-- The end of a page, behind a line that no separator ends. -/
theorem Counts.feed (h : Counts p.absolute before) (hopens : Opens before current []) (n : ℕ) :
    let read := ((splitLinesFrom current []).zipIdx n).foldl (Projection.readLine origin page) p
    read.layout.map LayoutObject.place =
        p.layout.map LayoutObject.place ++ (linesFrom before current []).map located ∧
      Counts (read.absolute + 1) (before ++ current.reverse ++ ['\x0c']) := by
  have hdrift := driftFrom_feed (before ++ current.reverse).getLast?
  rw [hopens.any_last] at hdrift
  have hcounts := h
  rw [Counts] at h
  cases current with
  | nil =>
    refine ⟨(List.append_nil _).symm, ?_⟩
    show Counts (p.absolute + 1) _
    rw [Counts, drift_line hopens.unbroken, hdrift]
    simp
    omega
  | cons c current =>
    refine ⟨hcounts.layout_readLine _ n, ?_⟩
    show Counts (p.absolute + (c :: current).reverse.length + 1 + 1) _
    rw [Counts, drift_line hopens.unbroken, hdrift]
    simp
    omega

theorem opens_next (separator : List Char) {rest' : List Char} (hc : isLineBreak c = true)
    (hwhole : c = '\r' → rest'.head? ≠ some '\n') (hfeed : '\x0c' ∉ rest') :
    Opens (before ++ current.reverse ++ (separator ++ [c])) [] rest' := by
  refine ⟨fun d hd => absurd hd List.not_mem_nil, ?_, ?_, hfeed⟩
  · rw [← List.append_assoc]
    exact broken_append hc _
  · intro _ hlast
    rw [← List.append_assoc, List.getLast?_append, List.getLast?_singleton, Option.some_or,
      Option.some.injEq] at hlast
    exact hwhole hlast

theorem Opens.last_ne (h : Opens before current ('\n' :: rest)) :
    (before ++ current.reverse).getLast? ≠ some '\r' := by
  intro hlast
  cases current with
  | nil =>
    rw [List.reverse_nil, List.append_nil] at hlast
    exact h.whole rfl hlast rfl
  | cons c current =>
    have hany := h.any_last
    rw [hlast] at hany
    cases hany

theorem splitLinesFrom_cons (hno : ∀ rest', c = '\r' → rest = '\n' :: rest' → False) :
    splitLinesFrom current (c :: rest) =
      if isLineBreak c then current.reverse :: splitLinesFrom [] rest
      else splitLinesFrom (c :: current) rest := by
  rw [splitLinesFrom]
  exact hno

/-- The lines of a page are listed, each with its counted place. Behind the form feed at the end of
the page the place is counted as well. -/
theorem Counts.readPage (origin : String) (page : ℕ) (h : Counts p.absolute before)
    (hopens : Opens before current rest) (n : ℕ) :
    let read := ((splitLinesFrom current rest).zipIdx n).foldl (Projection.readLine origin page) p
    read.layout.map LayoutObject.place =
        p.layout.map LayoutObject.place ++ (linesFrom before current rest).map located ∧
      Counts (read.absolute + 1) (before ++ current.reverse ++ rest ++ ['\x0c']) := by
  fun_induction linesFrom before current rest generalizing p n with
  | case1 before current =>
    rw [List.append_nil]
    exact h.feed hopens n
  | case2 before current rest ih =>
    have hcounts : Counts (p.readLine origin page (current.reverse, n)).absolute
        (before ++ current.reverse ++ ['\r', '\n']) := by
      refine (h.behind_iff hopens.unbroken ['\r', '\n']).mpr ?_
      rw [driftFrom_pair]
      rfl
    have hnext : Opens (before ++ current.reverse ++ ['\r', '\n']) [] rest := by
      refine opens_next ['\r'] (by decide) (fun heq => absurd heq (by decide)) ?_
      exact fun hmem => hopens.feed (List.mem_cons_of_mem _ (List.mem_cons_of_mem _ hmem))
    obtain ⟨hlayout, hend⟩ := ih hcounts hnext (n + 1)
    rw [splitLinesFrom, List.zipIdx_cons, List.foldl_cons]
    refine ⟨?_, ?_⟩
    · rw [hlayout, h.layout_readLine, List.map_append, List.append_assoc]
    · simpa using hend
  | case3 before current c rest hno hbreak ih =>
    have hfeed : c ≠ '\x0c' ∧ '\x0c' ∉ rest := by
      have hnone := hopens.feed
      rw [List.mem_cons, not_or] at hnone
      exact ⟨Ne.symm hnone.1, hnone.2⟩
    have hcounts : Counts (p.readLine origin page (current.reverse, n)).absolute
        (before ++ current.reverse ++ [c]) := by
      refine (h.behind_iff hopens.unbroken [c]).mpr ?_
      rw [driftFrom_single hfeed.1 fun heq => (heq ▸ hopens).last_ne]
      rfl
    have hnext : Opens (before ++ current.reverse ++ [c]) [] rest := by
      refine opens_next [] hbreak (fun heq hhead => ?_) hfeed.2
      obtain ⟨rest', hrest⟩ := List.head?_eq_some_iff.mp hhead
      exact hno rest' heq hrest
    obtain ⟨hlayout, hend⟩ := ih hcounts hnext (n + 1)
    rw [splitLinesFrom_cons hno, if_pos hbreak, List.zipIdx_cons, List.foldl_cons]
    refine ⟨?_, ?_⟩
    · rw [hlayout, h.layout_readLine, List.map_append, List.append_assoc]
    · simpa using hend
  | case4 before current c rest hno hbreak ih =>
    have hnext : Opens before (c :: current) rest := by
      refine ⟨fun d hd => ?_, hopens.broken, fun hnil => absurd hnil (List.cons_ne_nil _ _),
        fun hmem => hopens.feed (List.mem_cons_of_mem c hmem)⟩
      rw [List.reverse_cons, List.mem_append, List.mem_singleton] at hd
      rcases hd with hd | rfl
      · exact hopens.unbroken d hd
      · exact Bool.not_eq_true _ ▸ hbreak
    obtain ⟨hlayout, hend⟩ := ih h hnext n
    rw [splitLinesFrom_cons hno, if_neg hbreak]
    exact ⟨hlayout, by simpa using hend⟩

theorem linesFrom_cons (hno : ∀ rest', c = '\r' → rest = '\n' :: rest' → False) :
    linesFrom before current (c :: rest) =
      if isLineBreak c then
        linesFrom.keep before current.reverse ++ linesFrom (before ++ current.reverse ++ [c]) [] rest
      else linesFrom before (c :: current) rest := by
  rw [linesFrom]
  exact hno

/-- A separator of two characters does not begin with the last character of a page. -/
theorem not_paired_feed {page : List Char} (hno : ∀ rest', c = '\r' → page = '\n' :: rest' → False)
    (rest' : List Char) (hc : c = '\r') (heq : page ++ '\x0c' :: rest = '\n' :: rest') : False := by
  cases page with
  | nil => exact absurd (List.cons.inj heq).1 (by decide)
  | cons d page => exact hno page hc (by rw [(List.cons.inj heq).1])

/-- What stands behind a form feed is read as a page of its own. -/
theorem linesFrom_feed {page : List Char} (hpage : '\x0c' ∉ page) :
    linesFrom before current (page ++ '\x0c' :: rest) =
      linesFrom before current page ++
        linesFrom (before ++ current.reverse ++ page ++ ['\x0c']) [] rest := by
  fun_induction linesFrom before current page with
  | case1 before current =>
    rw [List.nil_append, List.append_nil, linesFrom, if_pos (by decide)]
    exact fun _ heq => absurd heq (by decide)
  | case2 before current page ih =>
    have hlater := ih fun hmem => hpage (by simp [hmem])
    rw [List.cons_append, List.cons_append, linesFrom, hlater, List.append_assoc]
    simp
  | case3 before current c page hno hbreak ih =>
    have hlater := ih fun hmem => hpage (List.mem_cons_of_mem c hmem)
    rw [List.cons_append, linesFrom_cons (not_paired_feed hno), if_pos hbreak, hlater,
      List.append_assoc]
    simp
  | case4 before current c page hno hbreak ih =>
    have hlater := ih fun hmem => hpage (List.mem_cons_of_mem c hmem)
    rw [List.cons_append, linesFrom_cons (not_paired_feed hno), if_neg hbreak, hlater]
    simp

/-- The pages are read one behind the other. -/
theorem Counts.readPages (origin : String) {pages : List (List Char)}
    (h : Counts p.absolute before) (hbroken : Broken before)
    (hwhole : before.getLast? ≠ some '\r') (hpages : pages ≠ [])
    (hfeed : ∀ page ∈ pages, '\x0c' ∉ page) (n : ℕ) :
    ((pages.zipIdx n).foldl (Projection.readPage origin) p).layout.map LayoutObject.place =
      p.layout.map LayoutObject.place ++
        (linesFrom before [] (['\x0c'].intercalate pages)).map located := by
  induction pages generalizing p before n with
  | nil => exact absurd rfl hpages
  | cons page pages ih =>
    have hopens : Opens before [] page :=
      ⟨fun c hc => absurd hc List.not_mem_nil, hbroken, fun _ hlast => absurd hlast hwhole,
        hfeed page List.mem_cons_self⟩
    obtain ⟨hlayout, hend⟩ := h.readPage origin n hopens 1
    rw [List.zipIdx_cons, List.foldl_cons]
    cases pages with
    | nil =>
      rw [List.intercalate_singleton]
      exact hlayout
    | cons next pages =>
      have hlast : (before ++ [].reverse ++ page ++ ['\x0c']).getLast? = some '\x0c' := by
        rw [List.getLast?_append, List.getLast?_singleton, Option.some_or]
      have hlater := ih (p := p.readPage origin (page, n)) hend (broken_append (by decide) _)
        (fun heq => absurd (hlast.symm.trans heq) (by decide)) (List.cons_ne_nil _ _)
        (fun q hq => hfeed q (List.mem_cons_of_mem page hq)) (n + 1)
      have hsplit : linesFrom before [] (['\x0c'].intercalate (page :: next :: pages)) =
          linesFrom before [] page ++ linesFrom (before ++ [].reverse ++ page ++ ['\x0c']) []
            (['\x0c'].intercalate (next :: pages)) := by
        rw [List.intercalate_cons_cons, List.append_assoc, List.singleton_append,
          linesFrom_feed (hfeed page List.mem_cons_self)]
      rw [hlater, hsplit, List.map_append, ← List.append_assoc]
      exact congrArg (· ++ _) hlayout

theorem not_mem_splitOn {text page : List Char} (h : page ∈ text.splitOn c) :
    c ∉ page := by
  induction text generalizing page with
  | nil => simp_all
  | cons d text ih =>
    rw [List.splitOn_cons_eq_if_modifyHead] at h
    split_ifs at h with hd
    · rcases List.mem_cons.mp h with rfl | h
      · exact List.not_mem_nil
      · exact ih h
    · cases hpages : text.splitOn c with
      | nil => exact absurd hpages (List.splitOn_ne_nil c text)
      | cons first pages =>
        rw [hpages, List.modifyHead_cons] at h
        rw [hpages] at ih
        rcases List.mem_cons.mp h with rfl | h
        · rw [List.mem_cons, not_or]
          exact ⟨fun heq => hd (by simp [heq]), ih List.mem_cons_self⟩
        · exact ih (List.mem_cons_of_mem first h)

/-- The layout of a text is the list of its lines that are not blank, at their counted places. -/
theorem place_layout (text : List Char) (origin : String) :
    (projectText text origin).layout.map LayoutObject.place = (linesFrom [] [] text).map located := by
  have hstart : Counts ({} : Projection).absolute [] := rfl
  have hread := hstart.readPages origin (fun c hc => absurd hc (by simp)) (by simp)
    (List.splitOn_ne_nil '\x0c' text)
    (fun page hpage => not_mem_splitOn hpage) 1
  rw [List.intercalate_splitOn] at hread
  exact hread

end Reader

/-! ## Places that are in order -/

/-- The lines listed so far are in order, and end before the reader. -/
structure Projection.Ordered (p : Projection) : Prop where
  behind : ∀ o ∈ p.layout, o.start < o.stop ∧ o.stop ≤ p.absolute
  increasing : p.layout.Pairwise fun a b => a.stop ≤ b.start

section Ordered

variable {p : Projection}

theorem Projection.Ordered.readLine (h : p.Ordered) (origin : String) (page : ℕ)
    (entry : List Char × ℕ) : (p.readLine origin page entry).Ordered := by
  have hbehind : ∀ o ∈ p.layout, o.start < o.stop ∧ o.stop ≤ p.absolute + entry.1.length + 1 := by
    intro o ho
    obtain ⟨hpos, hstop⟩ := h.behind o ho
    exact ⟨hpos, by omega⟩
  rw [Projection.readLine]
  by_cases hblank : (strip entry.1).isEmpty = true
  · exact ⟨by rwa [if_pos hblank], by rw [if_pos hblank]; exact h.increasing⟩
  · have hline : 0 < entry.1.length := by
      refine List.length_pos_of_ne_nil fun hnil => hblank ?_
      rw [hnil]
      rfl
    refine ⟨?_, ?_⟩
    · rw [if_neg hblank]
      intro o ho
      rcases List.mem_append.mp ho with ho | ho
      · exact hbehind o ho
      · rw [List.mem_singleton.mp ho]
        exact ⟨Nat.lt_add_of_pos_right hline, Nat.le_succ _⟩
    · rw [if_neg hblank, List.pairwise_append]
      refine ⟨h.increasing, List.pairwise_singleton _ _, fun a ha b hb => ?_⟩
      rw [List.mem_singleton.mp hb]
      exact (h.behind a ha).2

theorem Projection.Ordered.readPage (h : p.Ordered) (origin : String) (entry : List Char × ℕ) :
    (p.readPage origin entry).Ordered := by
  have hread : (((splitLinesFrom [] entry.1).zipIdx 1).foldl
      (Projection.readLine origin entry.2) p).Ordered :=
    List.foldlRecOn _ _ h fun p hp line _ => hp.readLine origin entry.2 line
  refine ⟨fun o ho => ?_, hread.increasing⟩
  obtain ⟨hpos, hstop⟩ := hread.behind o ho
  exact ⟨hpos, Nat.le_succ_of_le hstop⟩

theorem layout_ordered (text : List Char) (origin : String) :
    (∀ o ∈ (projectText text origin).layout, o.start < o.stop) ∧
      (projectText text origin).layout.Pairwise fun a b => a.stop ≤ b.start := by
  have hstart : ({} : Projection).Ordered := ⟨fun _ ho => absurd ho List.not_mem_nil, List.Pairwise.nil⟩
  have hread : (((text.splitOn '\x0c').zipIdx 1).foldl (Projection.readPage origin) {}).Ordered :=
    List.foldlRecOn _ _ hstart fun p hp page _ => hp.readPage origin page
  exact ⟨fun o ho => (hread.behind o ho).1, hread.increasing⟩

end Ordered

/-! ## Numbers of lines -/

def LayoutObject.number (o : LayoutObject) : ℕ ×ₗ ℕ := toLex (o.page, o.line)

def LayoutObject.candidate (origin : String) (o : LayoutObject) : Formula :=
  .candidate o.page o.line o.text origin

/-- What is read next has a greater number than all that was read. -/
def Ascending {α : Type} [LT α] (read : List α) (next : α) : Prop :=
  (read ++ [next]).Pairwise (· < ·)

section Numbers

variable {p : Projection} {origin : String}

theorem Ascending.push {α : Type} [Preorder α] {read : List α} {next later : α}
    (h : Ascending read next) (hlt : next < later) : Ascending (read ++ [next]) later := by
  refine List.pairwise_append.mpr ⟨h, List.pairwise_singleton _ _, fun a ha b hb => ?_⟩
  rw [List.mem_singleton.mp hb]
  rcases List.mem_append.mp ha with ha | ha
  · exact ((List.pairwise_append.mp h).2.2 a ha next List.mem_cons_self).trans hlt
  · rwa [List.mem_singleton.mp ha]

theorem Ascending.pass {α : Type} [Preorder α] {read : List α} {next later : α}
    (h : Ascending read next) (hlt : next < later) : Ascending read later :=
  List.Pairwise.sublist ((List.sublist_append_left _ _).append_right _) (h.push hlt)

/-- The reader of a line lists it under its number, and as a formula if it looks like one. -/
theorem ascending_readLine (origin : String) {page n : ℕ} {later : ℕ ×ₗ ℕ}
    (h : Ascending (p.layout.map LayoutObject.number) (toLex (page, n)))
    (hlt : toLex (page, n) < later) (line : List Char) :
    Ascending ((p.readLine origin page (line, n)).layout.map LayoutObject.number) later := by
  rw [Projection.readLine]
  dsimp only
  split_ifs
  · exact h.pass hlt
  · rw [List.map_append, List.map_singleton]
    exact h.push hlt

theorem ascending_readLines (origin : String) {page : ℕ} (lines : List (List Char)) (n : ℕ)
    (h : Ascending (p.layout.map LayoutObject.number) (toLex (page, n))) :
    Ascending (((lines.zipIdx n).foldl (Projection.readLine origin page) p).layout.map
      LayoutObject.number) (toLex (page, n + lines.length)) := by
  induction lines generalizing p n with
  | nil => exact h
  | cons line lines ih =>
    have hlt : toLex (page, n) < toLex (page, n + 1) :=
      Prod.Lex.toLex_lt_toLex.mpr (Or.inr ⟨rfl, Nat.lt_succ_self n⟩)
    have hlater := ih (n + 1) (ascending_readLine origin h hlt line)
    rw [List.zipIdx_cons, List.foldl_cons, List.length_cons, Nat.add_comm lines.length,
      ← Nat.add_assoc]
    exact hlater

theorem ascending_readPages (origin : String) (pages : List (List Char)) (n : ℕ)
    (h : Ascending (p.layout.map LayoutObject.number) (toLex (n, 1))) :
    Ascending (((pages.zipIdx n).foldl (Projection.readPage origin) p).layout.map
      LayoutObject.number) (toLex (n + pages.length, 1)) := by
  induction pages generalizing p n with
  | nil => exact h
  | cons page pages ih =>
    have hlt : toLex (n, 1 + (splitLinesFrom [] page).length) < toLex (n + 1, 1) :=
      Prod.Lex.toLex_lt_toLex.mpr (Or.inl (Nat.lt_succ_self n))
    have hread := (ascending_readLines origin (splitLinesFrom [] page) 1 h).pass hlt
    have hlater := ih (p := p.readPage origin (page, n)) (n + 1) hread
    rw [List.zipIdx_cons, List.foldl_cons, List.length_cons, Nat.add_comm pages.length,
      ← Nat.add_assoc]
    exact hlater

/-- No two lines of the layout have the same number. -/
theorem nodup_number (text : List Char) (origin : String) :
    ((projectText text origin).layout.map LayoutObject.number).Nodup := by
  have hstart : Ascending (({} : Projection).layout.map LayoutObject.number) (toLex (1, 1)) :=
    List.pairwise_singleton _ _
  have hread := ascending_readPages origin (text.splitOn '\x0c') 1 hstart
  exact (List.pairwise_append.mp hread).1.imp ne_of_lt

/-- The formulas of a reader are the lines of its layout that look mathematical. -/
def Projection.Looks (origin : String) (p : Projection) : Prop :=
  p.formulas = (p.layout.filter fun o => looksMathematical o.text).map (LayoutObject.candidate origin)

theorem Projection.Looks.readLine (h : p.Looks origin) (page : ℕ) (entry : List Char × ℕ) :
    (p.readLine origin page entry).Looks origin := by
  rw [Looks] at h
  rw [Looks, Projection.readLine]
  dsimp only
  by_cases hblank : (strip entry.1).isEmpty = true
  · rw [hblank, if_pos rfl]
    exact h
  · rw [Bool.not_eq_true] at hblank
    by_cases hlooks : looksMathematical (strip entry.1) = true
    · simp [hblank, hlooks, h, LayoutObject.candidate]
    · simp [hblank, hlooks, h]

theorem formulas_projectText (text : List Char) (origin : String) :
    (projectText text origin).formulas = ((projectText text origin).layout.filter fun o =>
      looksMathematical o.text).map (LayoutObject.candidate origin) := by
  have hstart : ({} : Projection).Looks origin := rfl
  have hpage : ∀ p : Projection, p.Looks origin → ∀ entry, (p.readPage origin entry).Looks origin :=
    fun p hp entry => List.foldlRecOn (motive := Projection.Looks origin) _
      (Projection.readLine origin entry.2) hp fun p hp line _ => hp.readLine entry.2 line
  exact List.foldlRecOn (motive := Projection.Looks origin) ((text.splitOn '\x0c').zipIdx 1) _ hstart
    fun p hp entry _ => hpage p hp entry

end Numbers

/-! ## What delimiters enclose -/

/-- A formula with the delimiters around it. -/
inductive Delimited (body : List Char) : List Char → Prop where
  | bracket : Delimited body ("\\[".toList ++ (body ++ "\\]".toList))
  | environment {opening closing : List Char} (hopening : opening ∈ openings)
    (hclosing : closing ∈ closings) : Delimited body (opening ++ (body ++ closing))
  | dollar (hbody : body ≠ []) (hinner : ∀ c ∈ body, c ≠ '$' ∧ c ≠ '\n') :
    Delimited body ('$' :: (body ++ ['$']))

section Delimited

variable {text body : List Char} {length : ℕ}

theorem delimited_eq_some {opening : List Char} {closings : List (List Char)}
    (h : delimited opening closings text = some (length, body)) :
    ∃ closing ∈ closings, length = (opening ++ (body ++ closing)).length ∧
      opening ++ (body ++ closing) <+: text := by
  rw [delimited] at h
  split_ifs at h with hopening
  obtain ⟨⟨body', closing⟩, hfound, heq⟩ := Option.map_eq_some_iff.mp h
  cases heq
  obtain ⟨hclosing, back, hback⟩ := findClosing_eq_some hfound
  obtain ⟨rest, hrest⟩ := List.isPrefixOf_iff_prefix.mp hopening
  rw [← hrest, List.drop_left] at hback
  refine ⟨closing, hclosing, ?_, back, ?_⟩
  · rw [List.length_append, List.length_append, Nat.add_assoc]
  · rw [← hrest, hback, List.append_assoc, List.append_assoc]

theorem dollars_eq_some {before : Option Char} (h : dollars before text = some (length, body)) :
    body ≠ [] ∧ (∀ c ∈ body, c ≠ '$' ∧ c ≠ '\n') ∧ length = ('$' :: (body ++ ['$'])).length ∧
      '$' :: (body ++ ['$']) <+: text := by
  unfold dollars at h
  split at h
  case h_2 => cases h
  case h_1 rest =>
    dsimp only at h
    split_ifs at h with hmatch
    cases h
    rw [Bool.and_eq_true, Bool.and_eq_true, Bool.not_eq_true', beq_iff_eq] at hmatch
    obtain ⟨⟨_, hnonempty⟩, hhead⟩ := hmatch
    obtain ⟨back, hback⟩ := List.head?_eq_some_iff.mp hhead
    refine ⟨fun hnil => ?_, fun c hc => ?_, by simp, back, ?_⟩
    · rw [hnil] at hnonempty
      cases hnonempty
    · simpa using List.mem_takeWhile_imp hc
    · have htake := List.prefix_iff_eq_take.mp (List.takeWhile_prefix (l := rest)
        fun c => c != '$' && c != '\n')
      have hsplit := List.take_append_drop
        (rest.takeWhile fun c => c != '$' && c != '\n').length rest
      rw [← htake, hback] at hsplit
      rw [List.cons_append, List.append_assoc, List.singleton_append, hsplit]

/-- A formula that is found begins here, with its delimiters. -/
theorem formulaAt_eq_some {before : Option Char} (h : formulaAt before text = some (length, body)) :
    ∃ span, Delimited body span ∧ length = span.length ∧ span <+: text := by
  rw [formulaAt, Option.or_eq_some_iff, Option.or_eq_some_iff] at h
  rcases h with h | ⟨_, h | ⟨_, h⟩⟩
  · obtain ⟨closing, hclosing, hlength, hprefix⟩ := delimited_eq_some h
    rw [List.mem_singleton.mp hclosing] at hlength hprefix
    exact ⟨_, .bracket, hlength, hprefix⟩
  · obtain ⟨opening, hopening, hfound⟩ := List.exists_of_findSome?_eq_some h
    obtain ⟨closing, hclosing, hlength, hprefix⟩ := delimited_eq_some hfound
    exact ⟨_, .environment hopening hclosing, hlength, hprefix⟩
  · obtain ⟨hbody, hinner, hlength, hprefix⟩ := dollars_eq_some h
    exact ⟨_, .dollar hbody hinner, hlength, hprefix⟩

/-- What stands between the delimiters of an exact formula. -/
def Encloses (span source : List Char) : Prop := ∃ body, strip body = source ∧ Delimited body span

theorem exact_not_mem_projectText (text : List Char) (origin : String) {ordinal start stop : ℕ}
    {source : List Char} :
    .exact ordinal start stop source ∉ (projectText text origin).formulas := by
  rw [formulas_projectText]
  intro hmem
  obtain ⟨o, -, heq⟩ := List.mem_map.mp hmem
  cases heq

theorem encloses_of_exact {source : List Char} {ordinal start stop : ℕ}
    (h : .exact ordinal start stop source ∈ (projectTex text).formulas) :
    Encloses (slice text start stop) source := by
  rcases List.mem_append.mp h with h | h
  · exact absurd h (exact_not_mem_projectText _ _)
  · obtain ⟨index, hindex, heq⟩ := List.mem_mapIdx.mp h
    have hmem := List.getElem_mem hindex
    generalize (findSpans formulaAt 0 none 0 text)[index] = found at heq hmem
    cases heq
    obtain ⟨front, back, htext, hstart, length, hstop, hmatch⟩ := mem_findSpans hmem
    obtain ⟨span, hdelimited, hlength, rest, hrest⟩ := formulaAt_eq_some hmatch
    refine ⟨found.found, rfl, ?_⟩
    rw [hstop, hstart, hlength, Nat.zero_add, htext, ← hrest, slice_middle]
    exact hdelimited

end Delimited

/-! ## Anchors -/

/-- The places that are extracted from a text point at what was extracted there. -/
structure Anchored (text : List Char) (extracted : ExtractedMaterial) : Prop where
  reads : ∀ o ∈ extracted.layout, strip (slice text o.start o.stop) = o.text
  positive : ∀ o ∈ extracted.layout, o.start < o.stop
  increasing : extracted.layout.Pairwise fun a b => a.stop ≤ b.start
  encloses : ∀ ordinal start stop source,
    .exact ordinal start stop source ∈ extracted.formulas → Encloses (slice text start stop) source

/-- All that is extracted from a text points at it. -/
def PointsAtText (text : List Char) : Prop :=
  (∀ origin, Anchored text (projectText text origin)) ∧ Anchored text (projectTex text)

/-- The text reads the same as a line at its counted place. -/
def Coincides (text : List Char) (line : List Char × List Char) : Prop :=
  strip (slice text (counted line.1) (counted line.1 + line.2.length)) = strip line.2

/-- Every line is counted where it stands, or the text reads the same there. -/
def Aligned (text : List Char) : Prop :=
  ∀ line ∈ linesFrom [] [] text, drift line.1 = 0 ∨ Coincides text line

section Anchors

variable {text before current rest : List Char} {line : List Char × List Char}

/-- A line stands behind what stands before it. -/
theorem mem_linesFrom (h : line ∈ linesFrom before current rest) :
    ∃ back, before ++ current.reverse ++ rest = line.1 ++ (line.2 ++ back) := by
  have hkeep : ∀ {before line' : List Char} (back : List Char), line ∈ linesFrom.keep before line' →
      before ++ line' ++ back = line.1 ++ (line.2 ++ back) := by
    intro before line' back hmem
    rw [linesFrom.keep] at hmem
    split_ifs at hmem
    · cases hmem
    · rw [List.mem_singleton.mp hmem, List.append_assoc]
  fun_induction linesFrom before current rest with
  | case1 before current => exact ⟨[], hkeep [] h⟩
  | case2 before current rest ih =>
    rcases List.mem_append.mp h with h | h
    · exact ⟨_, hkeep _ h⟩
    · obtain ⟨back, hback⟩ := ih h
      exact ⟨back, by rw [← hback]; simp⟩
  | case3 before current c rest hno hbreak ih =>
    rcases List.mem_append.mp h with h | h
    · exact ⟨_, hkeep _ h⟩
    · obtain ⟨back, hback⟩ := ih h
      exact ⟨back, by rw [← hback]; simp⟩
  | case4 before current c rest hno hbreak ih =>
    obtain ⟨back, hback⟩ := ih h
    exact ⟨back, by rw [← hback]; simp⟩

/-- A line that is counted where it stands is read there. -/
theorem coincides_of_drift (h : line ∈ linesFrom [] [] text) (hdrift : drift line.1 = 0) :
    Coincides text line := by
  obtain ⟨back, hback⟩ := mem_linesFrom h
  have hcounted : counted line.1 = line.1.length := by
    rw [counted, hdrift, Int.add_zero, Int.toNat_natCast]
  rw [List.reverse_nil, List.append_nil, List.nil_append] at hback
  rw [Coincides, hcounted, hback, slice_middle]

theorem reads_iff (text : List Char) (origin : String) :
    (∀ o ∈ (projectText text origin).layout, strip (slice text o.start o.stop) = o.text) ↔
      ∀ line ∈ linesFrom [] [] text, Coincides text line := by
  have hplaces : (∀ o ∈ (projectText text origin).layout,
      strip (slice text o.start o.stop) = o.text) ↔
        ∀ place ∈ (projectText text origin).layout.map LayoutObject.place,
          strip (slice text place.1 place.2.1) = place.2.2 := by
    rw [List.forall_mem_map]
    rfl
  rw [hplaces, place_layout, List.forall_mem_map]
  rfl

theorem aligned_iff (text : List Char) :
    Aligned text ↔ ∀ line ∈ linesFrom [] [] text, Coincides text line := by
  refine forall₂_congr fun line hline => ⟨fun h => ?_, Or.inr⟩
  rcases h with hdrift | h
  · exact coincides_of_drift hline hdrift
  · exact h

/-- What is extracted from a text points at it exactly when every line is counted where it stands,
or the text reads the same where it is counted. -/
theorem points_at_text_iff (text : List Char) : PointsAtText text ↔ Aligned text := by
  rw [aligned_iff]
  refine ⟨fun h => (reads_iff text "").mp (h.1 "").reads, fun h => ⟨fun origin => ?_, ?_⟩⟩
  · obtain ⟨hpositive, hincreasing⟩ := layout_ordered text origin
    exact ⟨(reads_iff text origin).mpr h, hpositive, hincreasing,
      fun _ _ _ _ hmem => absurd hmem (exact_not_mem_projectText text origin)⟩
  · obtain ⟨hpositive, hincreasing⟩ := layout_ordered text "TEX_LINE_CANDIDATE"
    exact ⟨(reads_iff text "TEX_LINE_CANDIDATE").mpr h, hpositive, hincreasing,
      fun _ _ _ _ hmem => encloses_of_exact hmem⟩

/-- Behind a carriage return with a line feed the next line is read one character too early. -/
theorem second_line_not_read : ¬ PointsAtText "a\r\nb".toList := by
  intro h
  have hread := (h.1 "TEXT_FORMULA_CANDIDATE").reads ⟨1, 2, 2, 3, ['b']⟩ (by decide)
  exact absurd hread (by decide)

end Anchors

end ResearchKernel.Product.Extraction
