import ResearchKernel.Foundation.Replacing
import ResearchKernel.Foundation.TexTokens
import ResearchKernel.Product.Cursors
import ResearchKernel.Product.PublicationService

/-!
# Plain text in the paper

The paper is assembled from the facts below the root, and the publication service writes an
abstract into it. Titles, labels, citations and abstracts are plain text, and two encoders of the
same six characters bring them into TeX. A backslash, a dollar sign, a caret and a tilde are not
among the six, so that a text with one of them is read as TeX.
-/

namespace ResearchKernel.Paper

open Foundation
open Foundation.Tex (scan Token specials scan_append scan_middle read_plain)
open Product.Pages (utf8)
open Product.Publication (ServiceError)

/-! ## The encoders -/

/-- What `_tex` replaces. -/
def replacements : List (Char × List Char) :=
  [('&', ['\\', '&']), ('%', ['\\', '%']), ('#', ['\\', '#']), ('_', ['\\', '_']),
    ('{', ['\\', '{']), ('}', ['\\', '}'])]

/-- Encode a text. -/
def tex (text : List Char) : List Char := replaceChars replacements text

/-- What the encoder of abstracts replaces. -/
def abstractReplacements : List (Char × List Char) :=
  [('&', ['\\', '&']), ('%', ['\\', '%']), ('#', ['\\', '#']), ('_', ['\\', '_']),
    ('{', ['\\', '{']), ('}', ['\\', '}'])]

/-- Encode an abstract. -/
def escapeAbstract (abstract : List Char) : List Char := replaceChars abstractReplacements abstract

/-- The line before which no abstract stands. -/
def titleMarker : List UInt8 := utf8 "\\maketitle\n".toList

/-- The abstract in its environment. -/
def abstractBlock (abstract : List Char) : List Char :=
  "\\begin{abstract}\n".toList ++ escapeAbstract abstract ++ "\n\\end{abstract}\n".toList

/-- Write the abstract below the title. -/
def insertAbstract (tex : List UInt8) (abstract : List Char) : Except ServiceError (List UInt8) := do
  rejectIf (countFrom titleMarker 0 tex != 1)
    (.artifact "deterministic TeX has no unique title marker")
  return replaceFrom titleMarker (titleMarker ++ utf8 (abstractBlock abstract)) 0 tex

/-! ## The paper -/

/-- A fact of the paper. Its statement and its proof have been brought into TeX. -/
structure PaperFact where
  factId : Id
  stableLabel : List Char
  statementTex : List Char
  proofTex : List Char

/-- The environment of a fact. -/
def kindOf (finalFactId : Id) (fact : PaperFact) : String :=
  if fact.factId == finalFactId then "theorem" else "lemma"

/-- A fact and its proof, in their environments. -/
def factBlock (finalFactId : Id) (index : ℕ) (fact : PaperFact) : List Char :=
  ("\\begin\x7b" ++ kindOf finalFactId fact ++ "\x7d[").toList ++ tex fact.stableLabel ++
    ("]\\label\x7bfact:" ++ toString index ++ "\x7d\n").toList ++ fact.statementTex ++
    ("\n\\end\x7b" ++ kindOf finalFactId fact ++ "\x7d\n\\begin\x7bproof\x7d\n").toList ++
    fact.proofTex ++ "\n\\end{proof}".toList

def factBlocks (finalFactId : Id) (facts : List PaperFact) : List Char :=
  ['\n', '\n'].intercalate (facts.mapIdx fun index fact => factBlock finalFactId (index + 1) fact)

/-- A citation. -/
def bibItem (index : ℕ) (reference : List Char) : List Char :=
  ("\\bibitem\x7bref" ++ toString index ++ "\x7d ").toList ++ tex reference

/-- The citations of a paper. -/
def bibliography (citations : List (List Char)) : List Char :=
  ['\n'].intercalate (citations.mapIdx fun index reference => bibItem (index + 1) reference)

/-- The bibliography, if anything is cited. -/
def bibliographyBlock (citations : List (List Char)) : List Char :=
  if (bibliography citations).isEmpty then []
  else "\\begin{thebibliography}{99}\n".toList ++ bibliography citations ++
    "\n\\end{thebibliography}".toList

/-- What stands before the title. -/
def preamble : List Char :=
  ("\\documentclass[11pt]{article}\n" ++
    "\\usepackage{iftex}\n" ++
    "\\ifPDFTeX\\usepackage[T1]{fontenc}\\else" ++
    "\\usepackage{fontspec}\\setmainfont{Noto Sans CJK SC}\\fi\n" ++
    "\\usepackage{amsmath,amsthm,amssymb}\n" ++
    "\\newtheorem{theorem}{Theorem}\n\\newtheorem{lemma}{Lemma}\n" ++
    "\\title\x7b").toList

/-- What stands behind the title. The citations are in order. -/
def document (finalFactId : Id) (facts : List PaperFact) (citations : List (List Char)) :
    List Char :=
  "\x7d\n\\author{ResearchKernel}\n\\begin{document}\n\\maketitle\n\n".toList ++
    factBlocks finalFactId facts ++
    (if (bibliographyBlock citations).isEmpty then []
      else ['\n', '\n'] ++ bibliographyBlock citations) ++
    "\n\\end{document}\n".toList

/-- The title of a paper, which is the label of its last fact when none is given. -/
def paperTitle (title : Option (List Char)) (facts : List PaperFact) : Option (List Char) :=
  match title with
  | some (c :: rest) => some (c :: rest)
  | _ => facts.getLast?.map (·.stableLabel)

def assemble (finalFactId : Id) (facts : List PaperFact) (citations : List (List Char))
    (title : Option (List Char)) : Except ServiceError (List Char) := do
  let paperTitle ← orReject (paperTitle title facts) (.value "paper closure is empty")
  return preamble ++ tex paperTitle ++ document finalFactId facts citations

/-! ## Texts that stay plain -/

/-- The characters that the encoders escape. -/
def escapable : List Char := ['&', '%', '#', '_', '{', '}']

/-- The token of a character that stands for itself. -/
def tokenOf (c : Char) : Token := if c ∈ escapable then .symbol c else .plain c

/-- What an encoded text has to be, so that the text stands for itself. -/
structure StaysPlain (text encoded : List Char) : Prop where
  /-- Every backslash begins an escape sequence. -/
  escapes : ∀ front back, encoded = front ++ '\\' :: back → ∃ c ∈ escapable, ∃ rest, back = c :: rest
  /-- Every other character with a meaning of its own stands behind a backslash. -/
  escaped : ∀ front c back, encoded = front ++ c :: back → c ∈ specials → c ≠ '\\' →
    ∃ before, front = before ++ ['\\']
  /-- Wherever TeX reads text, the characters are read as themselves and what stands around them
  is read as if it stood alone. -/
  inert : ∀ before after, (scan .text before).1 = .text →
    scan .text (before ++ encoded ++ after) =
      ((scan .text after).1, (scan .text before).2 ++ text.map tokenOf ++ (scan .text after).2)
  /-- The text can be recovered. -/
  recovered : Foundation.unescape '\\' escapable encoded = text

/-- The characters with a meaning of their own that the encoders miss. -/
def missed : List Char := ['\\', '$', '^', '~']

/-- A text without the missed characters. -/
def Harmless (text : List Char) : Prop := ∀ c ∈ text, c ∉ missed

section Encoders

variable {table : List (Char × List Char)} {text : List Char}

theorem escapesWith_replacements : EscapesWith '\\' escapable replacements where
  escaped := List.forall_iff_forall_mem.mp (by decide)
  kept := by
    intro c hc
    have hkeys : ∀ entry ∈ replacements, entry.1 ∈ escapable := by decide
    refine List.lookup_eq_none_iff.mpr fun entry hentry => bne_iff_ne.mpr fun heq => hc ?_
    rw [heq]
    exact hkeys entry hentry
  mark_kept := by decide

/-- The two encoders agree. -/
theorem abstractReplacements_eq : abstractReplacements = replacements := rfl

theorem Harmless.tail {c : Char} (h : Harmless (c :: text)) : Harmless text :=
  fun d hd => h d (List.mem_cons_of_mem c hd)

/-- In a text without the missed characters only those that are escaped have another meaning. -/
theorem Harmless.head_notMem {c : Char} (h : Harmless (c :: text)) (hc : c ∉ escapable) :
    c ∉ specials := by
  have hspecials : ∀ c ∈ specials, c ∈ missed ∨ c ∈ escapable :=
    List.forall_iff_forall_mem.mp (by decide)
  exact fun hspecial => (hspecials c hspecial).elim (h c List.mem_cons_self) hc

/-- The escape sequence of a character is one token. -/
theorem read_escape : ∀ c ∈ escapable, Tex.read .escape c = (.text, [.symbol c]) :=
  List.forall_iff_forall_mem.mp (by decide)

/-- A text without the missed characters is read as its own characters. -/
theorem scan_replaceChars (htable : EscapesWith '\\' escapable table) (h : Harmless text) :
    scan .text (replaceChars table text) = (.text, text.map tokenOf) := by
  induction text with
  | nil => rfl
  | cons c text ih =>
    by_cases hc : c ∈ escapable
    · have hpair : scan .text ['\\', c] = (.text, [tokenOf c]) := by
        rw [scan, scan, show Tex.read .text '\\' = (.escape, []) from rfl, read_escape c hc, tokenOf,
          if_pos hc]
        rfl
      rw [htable.cons_mem hc]
      refine (scan_append .text ['\\', c] (replaceChars table text)).trans ?_
      rw [hpair, ih h.tail]
      rfl
    · rw [htable.cons_notMem hc, scan, read_plain (h.head_notMem hc), ih h.tail, List.map_cons,
        tokenOf, if_neg hc]
      rfl

/-- In the encoding of such a text backslashes stand before the escaped characters only, and these
stand behind backslashes only. -/
theorem split_replaceChars (htable : EscapesWith '\\' escapable table) (h : Harmless text)
    {front back : List Char} {c : Char} (hsplit : replaceChars table text = front ++ c :: back) :
    (c = '\\' → ∃ d ∈ escapable, ∃ rest, back = d :: rest) ∧
      (c ∈ specials → c ≠ '\\' → ∃ before, front = before ++ ['\\']) := by
  induction text generalizing front with
  | nil => cases front <;> cases hsplit
  | cons d text ih =>
    by_cases hd : d ∈ escapable
    · have hmark : d ≠ '\\' := fun heq => htable.mark_kept (heq ▸ hd)
      rw [htable.cons_mem hd] at hsplit
      rcases front with _ | ⟨m, _ | ⟨e, front⟩⟩
      · obtain ⟨rfl, rfl⟩ := List.cons.inj hsplit
        exact ⟨fun _ => ⟨d, hd, _, rfl⟩, fun _ hne => absurd rfl hne⟩
      · obtain ⟨rfl, hrest⟩ := List.cons.inj hsplit
        obtain ⟨rfl, -⟩ := List.cons.inj hrest
        exact ⟨fun heq => absurd heq hmark, fun _ _ => ⟨[], rfl⟩⟩
      · obtain ⟨rfl, hrest⟩ := List.cons.inj hsplit
        obtain ⟨rfl, hback⟩ := List.cons.inj hrest
        obtain ⟨hslash, hspecial⟩ := ih h.tail hback
        refine ⟨hslash, fun hc hne => ?_⟩
        obtain ⟨before, rfl⟩ := hspecial hc hne
        exact ⟨'\\' :: d :: before, rfl⟩
    · rw [htable.cons_notMem hd] at hsplit
      cases front with
      | nil =>
        obtain ⟨rfl, rfl⟩ := List.cons.inj hsplit
        have hplain := h.head_notMem hd
        exact ⟨fun heq => absurd (heq ▸ List.mem_cons_self) hplain, fun hc => absurd hc hplain⟩
      | cons e front =>
        obtain ⟨rfl, hrest⟩ := List.cons.inj hsplit
        obtain ⟨hslash, hspecial⟩ := ih h.tail hrest
        refine ⟨hslash, fun hc hne => ?_⟩
        obtain ⟨before, rfl⟩ := hspecial hc hne
        exact ⟨d :: before, rfl⟩

/-- Texts without the missed characters stay plain. -/
theorem staysPlain_of_harmless (htable : EscapesWith '\\' escapable table) (h : Harmless text) :
    StaysPlain text (replaceChars table text) where
  escapes := fun _ _ hsplit => (split_replaceChars htable h hsplit).1 rfl
  escaped := fun _ _ _ hsplit => (split_replaceChars htable h hsplit).2
  inert := fun _ _ hbefore => scan_middle hbefore (scan_replaceChars htable h)
  recovered := htable.unescape_replaceChars text

/-- A backslash of the text is no escape sequence. -/
theorem slash_notMem (htable : EscapesWith '\\' escapable table)
    (h : StaysPlain text (replaceChars table text)) : '\\' ∉ text := by
  intro hmem
  obtain ⟨front, back, rfl⟩ := List.append_of_mem hmem
  obtain ⟨c, hc, rest, hrest⟩ := h.escapes (replaceChars table front) (replaceChars table back)
    (by rw [replaceChars_append, htable.cons_notMem htable.mark_kept])
  exact htable.head_notMem hrest hc

/-- Texts that stay plain have none of the missed characters. -/
theorem harmless_of_staysPlain (htable : EscapesWith '\\' escapable table)
    (h : StaysPlain text (replaceChars table text)) : Harmless text := by
  intro c hc hmissed
  have hslash := slash_notMem htable h
  have hne : c ≠ '\\' := fun heq => hslash (heq ▸ hc)
  have hspecials : ∀ c ∈ missed, c ∈ specials ∧ c ∉ escapable :=
    List.forall_iff_forall_mem.mp (by decide)
  have hspecial := hspecials c hmissed
  obtain ⟨front, back, rfl⟩ := List.append_of_mem hc
  obtain ⟨before, hbefore⟩ := h.escaped (replaceChars table front) c (replaceChars table back)
    (by rw [replaceChars_append, htable.cons_notMem hspecial.2]) hspecial.1 hne
  obtain ⟨before', rfl⟩ := htable.exists_last hbefore
  exact hslash (by simp)

theorem staysPlain_iff (htable : EscapesWith '\\' escapable table) :
    StaysPlain text (replaceChars table text) ↔ Harmless text :=
  ⟨harmless_of_staysPlain htable, staysPlain_of_harmless htable⟩

end Encoders

/-! ## What the encoders write -/

def plainTexts (facts : List PaperFact) (citations : List (List Char)) (title : Option (List Char)) :
    List (List Char) :=
  (paperTitle title facts).toList ++ facts.map (·.stableLabel) ++ citations

section Infixes

variable {part : List Char}

theorem infix_middle {middle : List Char} (h : part <:+: middle) (front back : List Char) :
    part <:+: front ++ middle ++ back :=
  h.trans (List.infix_append front middle back)

/-- What is joined stands in the joined text. -/
theorem infix_intercalate (sep : List Char) {parts : List (List Char)} (h : part ∈ parts) :
    part <:+: sep.intercalate parts := by
  induction parts with
  | nil => cases h
  | cons first rest ih =>
    cases rest with
    | nil =>
      obtain rfl := List.mem_singleton.mp h
      exact ⟨[], [], by simp [List.intercalate_singleton]⟩
    | cons second rest =>
      rw [List.intercalate_cons_cons]
      rcases List.mem_cons.mp h with rfl | h
      · rw [List.append_assoc]
        exact (List.prefix_append _ _).isInfix
      · exact (ih h).trans (List.suffix_append _ _).isInfix

variable {facts : List PaperFact}

theorem infix_factBlocks (finalFactId : Id) {fact : PaperFact} (h : fact ∈ facts) :
    tex fact.stableLabel <:+: factBlocks finalFactId facts := by
  obtain ⟨index, hindex, rfl⟩ := List.mem_iff_getElem.mp h
  have hblock : factBlock finalFactId (index + 1) facts[index] ∈
      facts.mapIdx fun index fact => factBlock finalFactId (index + 1) fact :=
    List.mem_mapIdx.mpr ⟨index, hindex, rfl⟩
  refine List.IsInfix.trans ?_ (infix_intercalate _ hblock)
  rw [factBlock, List.append_assoc, List.append_assoc, List.append_assoc, List.append_assoc]
  exact infix_middle List.infix_rfl _ _

variable {citations : List (List Char)} {reference : List Char}

theorem infix_bibliography (h : reference ∈ citations) :
    ∃ label, label ++ tex reference <:+: bibliography citations ∧
      label ≠ [] := by
  obtain ⟨index, hindex, rfl⟩ := List.mem_iff_getElem.mp h
  have hitem : bibItem (index + 1) citations[index] ∈
      citations.mapIdx fun index reference => bibItem (index + 1) reference :=
    List.mem_mapIdx.mpr ⟨index, hindex, rfl⟩
  refine ⟨_, infix_intercalate _ hitem, ?_⟩
  simp

theorem infix_bibliographyBlock (h : reference ∈ citations) :
    tex reference <:+: bibliographyBlock citations ∧ bibliographyBlock citations ≠ [] := by
  obtain ⟨label, hitem, hlabel⟩ := infix_bibliography h
  have hsome : bibliography citations ≠ [] := by
    intro hempty
    rw [hempty, List.infix_nil, List.append_eq_nil_iff] at hitem
    exact hlabel hitem.1
  rw [bibliographyBlock, if_neg (mt List.isEmpty_iff.mp hsome)]
  exact ⟨infix_middle ((List.suffix_append _ _).isInfix.trans hitem) _ _, by simp⟩

variable {finalFactId : Id}

/-- The facts stand behind the title. -/
theorem infix_document_of_facts (h : part <:+: factBlocks finalFactId facts) :
    part <:+: document finalFactId facts citations := by
  unfold document
  rw [List.append_assoc]
  exact infix_middle h _ _

/-- So does the bibliography. -/
theorem infix_document_of_citations (h : part <:+: bibliographyBlock citations)
    (hsome : bibliographyBlock citations ≠ []) :
    part <:+: document finalFactId facts citations := by
  unfold document
  rw [if_neg (mt List.isEmpty_iff.mp hsome)]
  exact infix_middle (h.trans (List.suffix_append _ _).isInfix) _ _

/-- Every title, label and citation stands in the paper as the encoder writes it. -/
theorem infix_assemble {title : Option (List Char)} {out text : List Char}
    (h : assemble finalFactId facts citations title = .ok out)
    (htext : text ∈ plainTexts facts citations title) : tex text <:+: out := by
  simp only [assemble, bind_eq_ok, orReject_eq_ok, pure_eq_ok] at h
  obtain ⟨chosen, hchosen, rfl⟩ := h
  rw [plainTexts, hchosen, List.mem_append, List.mem_append, Option.mem_toList,
    Option.some.injEq] at htext
  have hrest : document finalFactId facts citations <:+:
      preamble ++ tex chosen ++ document finalFactId facts citations :=
    (List.suffix_append _ _).isInfix
  rcases htext with (rfl | hlabel) | hcited
  · exact infix_middle List.infix_rfl _ _
  · obtain ⟨fact, hfact, rfl⟩ := List.mem_map.mp hlabel
    exact (infix_document_of_facts (infix_factBlocks finalFactId hfact)).trans hrest
  · obtain ⟨hblock, hsome⟩ := infix_bibliographyBlock hcited
    exact (infix_document_of_citations hblock hsome).trans hrest

end Infixes

/-- Where the abstract stands. -/
theorem insertAbstract_eq_ok {bytes out : List UInt8} {abstract : List Char}
    (h : insertAbstract bytes abstract = .ok out) :
    ∃ before after, bytes = before ++ titleMarker ++ after ∧
      out = before ++ (titleMarker ++ utf8 (abstractBlock abstract)) ++ after := by
  simp only [insertAbstract, bind_eq_ok, rejectIf_eq_ok, pure_eq_ok, exists_const] at h
  obtain ⟨hcount, rfl⟩ := h
  have honce : countFrom titleMarker 0 bytes = 1 := by
    simpa using hcount
  exact replaceFrom_of_once (Product.Pages.utf8_ne_nil (by decide)) honce

/-- A title, a label, a citation or an abstract stays plain in the paper, if and only if there is
no backslash, dollar sign, caret or tilde in it. -/
theorem plain_text_stays_plain_iff (text : List Char) :
    (StaysPlain text (tex text) ↔ Harmless text) ∧
      (∀ finalFactId facts citations title out,
        assemble finalFactId facts citations title = .ok out →
          text ∈ plainTexts facts citations title → tex text <:+: out) ∧
      ∀ bytes out, insertAbstract bytes text = .ok out → ∃ before encoded after,
        bytes = before ++ titleMarker ++ after ∧
        out = before ++ (titleMarker ++ utf8 ("\\begin{abstract}\n".toList ++ encoded ++
          "\n\\end{abstract}\n".toList)) ++ after ∧
        (StaysPlain text encoded ↔ Harmless text) := by
  refine ⟨staysPlain_iff escapesWith_replacements, fun _ _ _ _ _ => infix_assemble,
    fun bytes out h => ?_⟩
  obtain ⟨before, after, hbytes, hout⟩ := insertAbstract_eq_ok h
  refine ⟨before, escapeAbstract text, after, hbytes, hout, ?_⟩
  rw [escapeAbstract, abstractReplacements_eq]
  exact staysPlain_iff escapesWith_replacements

/-- A label with the escaped characters, also as an abstract. -/
theorem plain_text_stays_plain_iff_of_label :
    StaysPlain "R&D_{50%}".toList (tex "R&D_{50%}".toList) ∧
      ∃ before encoded after,
        utf8 "\\title{R}\n\\maketitle\n\n".toList = before ++ titleMarker ++ after ∧
        StaysPlain "R&D_{50%}".toList encoded := by
  have hplain : Harmless "R&D_{50%}".toList := List.forall_iff_forall_mem.mp (by decide)
  obtain ⟨htex, -, habstract⟩ := plain_text_stays_plain_iff "R&D_{50%}".toList
  obtain ⟨before, encoded, after, hbytes, -, hiff⟩ :=
    habstract (utf8 "\\title{R}\n\\maketitle\n\n".toList) _ rfl
  exact ⟨htex.mpr hplain, before, encoded, after, hbytes, hiff.mpr hplain⟩

/-- A title that names a file is read as the command that reads the file. -/
theorem input_not_staysPlain :
    ¬StaysPlain "\\input rk".toList (tex "\\input rk".toList) ∧
      (scan .text (tex "\\input rk".toList)).2 =
        [.word "tupni".toList, .plain ' ', .plain 'r', .plain 'k'] := by
  refine ⟨fun hplain => ?_, by decide⟩
  exact slash_notMem escapesWith_replacements hplain (by decide)

end ResearchKernel.Paper
