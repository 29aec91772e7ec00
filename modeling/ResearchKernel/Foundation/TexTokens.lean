import Mathlib.Data.List.Basic

/-!
# Tokens of TeX

TeX reads its input character by character and makes tokens by the category of each: a backslash
begins a control sequence, a percent sign a comment, and some other characters open or close a
group, switch to mathematics, or stand for something else than themselves. Spaces that TeX skips
are kept here.
-/

namespace Foundation.Tex

/-- A token. -/
inductive Token where
  /-- A character that stands for itself. -/
  | plain (c : Char)
  /-- A character with a meaning of its own: a brace, a dollar sign and so on. -/
  | special (c : Char)
  /-- A control sequence that is one character. -/
  | symbol (c : Char)
  /-- A control sequence that is a word, the last letter first. -/
  | word (name : List Char)
deriving DecidableEq

/-- Where the reader is. -/
inductive Mode where
  | text
  /-- A backslash was read. -/
  | escape
  /-- Letters of a control word were read, the last one first. -/
  | word (name : List Char)
  | comment
deriving DecidableEq

/-- The characters that do not stand for themselves. -/
def specials : List Char := ['\\', '{', '}', '$', '&', '#', '^', '_', '~', '%']

/-- Read a character of a text. -/
def readText (c : Char) : Mode × List Token :=
  if c = '\\' then (.escape, [])
  else if c = '%' then (.comment, [])
  else if c ∈ specials then (.text, [.special c])
  else (.text, [.plain c])

/-- Read a character. -/
def read : Mode → Char → Mode × List Token
  | .text, c => readText c
  | .escape, c => if c.isAlpha then (.word [c], []) else (.text, [.symbol c])
  | .word name, c =>
    if c.isAlpha then (.word (c :: name), [])
    else ((readText c).1, .word name :: (readText c).2)
  | .comment, c => if c = '\n' then (.text, []) else (.comment, [])

/-- Read some characters. -/
def scan : Mode → List Char → Mode × List Token
  | mode, [] => (mode, [])
  | mode, c :: rest =>
    ((scan (read mode c).1 rest).1, (read mode c).2 ++ (scan (read mode c).1 rest).2)

@[simp] theorem scan_nil (mode : Mode) : scan mode [] = (mode, []) := rfl

theorem scan_append (mode : Mode) (front back : List Char) :
    scan mode (front ++ back) =
      ((scan (scan mode front).1 back).1,
        (scan mode front).2 ++ (scan (scan mode front).1 back).2) := by
  induction front generalizing mode with
  | nil => rfl
  | cons c front ih =>
    rw [List.cons_append, scan, scan, ih]
    simp only [List.append_assoc]

/-- In the middle of a text a part is read as it is read alone. -/
theorem scan_middle {before after part : List Char} {tokens : List Token}
    (hbefore : (scan .text before).1 = .text) (hpart : scan .text part = (.text, tokens)) :
    scan .text (before ++ part ++ after) =
      ((scan .text after).1, (scan .text before).2 ++ tokens ++ (scan .text after).2) := by
  rw [scan_append, scan_append, hbefore, hpart]

/-- A character that stands for itself. -/
theorem read_plain {c : Char} (h : c ∉ specials) : read .text c = (.text, [.plain c]) := by
  have hslash : c ≠ '\\' := fun heq => h (heq ▸ by decide)
  have hpercent : c ≠ '%' := fun heq => h (heq ▸ by decide)
  rw [read, readText, if_neg hslash, if_neg hpercent, if_neg h]

end Foundation.Tex
