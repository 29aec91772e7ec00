import ResearchKernel.Canonical

/-!
# Reading canonical texts

A canonical text determines the texts of its elements and members. This is read off a
scanner that takes one value from the front of a text: it counts the open brackets and
knows when it is inside a string.
-/

namespace ResearchKernel

/-! ## Strings -/

/-- The value of a hexadecimal digit. -/
def hexValue (c : Char) : ℕ :=
  if c.toNat < 58 then c.toNat - 48 else c.toNat - 87

/-- The character that a two-character escape stands for. -/
def unmark (c : Char) : Char :=
  if c = 'n' then '\n'
  else if c = 'r' then '\r'
  else if c = 't' then '\t'
  else if c = 'b' then Char.ofNat 8
  else if c = 'f' then Char.ofNat 12
  else c

/-- The first character of an escaped text, and what follows it. -/
def unescape : List Char → Option (Char × List Char)
  | [] => none
  | c :: rest =>
    if c = '\\' then
      match rest with
      | 'u' :: _ :: _ :: high :: low :: rest =>
        some (Char.ofNat (16 * hexValue high + hexValue low), rest)
      | mark :: rest => some (unmark mark, rest)
      | [] => none
    else some (c, rest)

/-- The code of a hexadecimal digit gives the digit back. -/
theorem hexValue_hexDigit {n : ℕ} (h : n < 16) : hexValue (hexDigit n) = n := by
  have hall : ∀ n < 16, hexValue (hexDigit n) = n := by decide
  exact hall n h

/-- A hexadecimal digit is neither a quote nor a backslash. -/
theorem hexDigit_ne {n : ℕ} (h : n < 16) : hexDigit n ≠ '"' ∧ hexDigit n ≠ '\\' := by
  have hall : ∀ n < 16, hexDigit n ≠ '"' ∧ hexDigit n ≠ '\\' := by decide
  exact hall n h

/-- A character is given back by its escape. -/
theorem unescape_escapeChar (c : Char) (rest : List Char) :
    unescape (escapeChar c ++ rest) = some (c, rest) := by
  unfold escapeChar
  split_ifs with hquote hslash hfeed hreturn htab hback hform hcontrol
  · subst hquote
    rfl
  · subst hslash
    rfl
  · subst hfeed
    rfl
  · subst hreturn
    rfl
  · subst htab
    rfl
  · have hc : c = Char.ofNat 8 := by rw [← hback, Char.ofNat_toNat]
    subst hc
    rfl
  · have hc : c = Char.ofNat 12 := by rw [← hform, Char.ofNat_toNat]
    subst hc
    rfl
  · have hhigh : hexValue (hexDigit (c.toNat / 16)) = c.toNat / 16 :=
      hexValue_hexDigit (by omega)
    have hlow : hexValue (hexDigit (c.toNat % 16)) = c.toNat % 16 :=
      hexValue_hexDigit (by omega)
    have hsum : 16 * (c.toNat / 16) + c.toNat % 16 = c.toNat := by omega
    simp [unescape, hhigh, hlow, hsum, Char.ofNat_toNat]
  · simp [unescape, hslash]

theorem escapeChar_append_ne_quote (c : Char) (rest rest' : List Char) :
    escapeChar c ++ rest ≠ '"' :: rest' := by
  intro h
  have hc := congrArg unescape h
  rw [unescape_escapeChar] at hc
  have hquote : unescape ('"' :: rest') = some ('"', rest') := rfl
  rw [hquote] at hc
  cases Option.some.inj hc
  simp [escapeChar] at h

variable {rest rest' : List Char}

/-- An escaped text that ends with a quote gives back the text and what follows it. -/
theorem escaped_inj {s t : List Char}
    (h : s.flatMap escapeChar ++ '"' :: rest = t.flatMap escapeChar ++ '"' :: rest') :
    s = t ∧ rest = rest' := by
  induction s generalizing t with
  | nil =>
    cases t with
    | nil => exact ⟨rfl, (List.cons.inj h).2⟩
    | cons d t =>
      rw [List.flatMap_cons, List.append_assoc] at h
      exact absurd h.symm (escapeChar_append_ne_quote d _ _)
  | cons c s ih =>
    cases t with
    | nil =>
      rw [List.flatMap_cons, List.append_assoc] at h
      exact absurd h (escapeChar_append_ne_quote c _ _)
    | cons d t =>
      rw [List.flatMap_cons, List.flatMap_cons, List.append_assoc, List.append_assoc] at h
      have hfirst := congrArg unescape h
      rw [unescape_escapeChar, unescape_escapeChar] at hfirst
      obtain ⟨hcd, hrest⟩ := Prod.mk.inj (Option.some.inj hfirst)
      obtain ⟨hst, hafter⟩ := ih hrest
      exact ⟨by rw [hcd, hst], hafter⟩

/-- A string literal gives back its text and what follows it. -/
theorem quoteText_append_inj {s t : String} (h : quoteText s ++ rest = quoteText t ++ rest') :
    s = t ∧ rest = rest' := by
  have hbody : s.toList.flatMap escapeChar ++ '"' :: rest =
      t.toList.flatMap escapeChar ++ '"' :: rest' := by simpa [quoteText] using h
  obtain ⟨hst, hrest⟩ := escaped_inj hbody
  exact ⟨String.toList_inj.mp hst, hrest⟩

/-- A string literal gives back its text. -/
theorem quoteText_inj {s t : String} (h : quoteText s = quoteText t) : s = t := by
  have happend : quoteText s ++ [] = quoteText t ++ [] := by simpa using h
  exact (quoteText_append_inj happend).1

/-! ## The scanner -/

/-- Where the scanner stands. -/
inductive ScanMode where
  | outside | inside | escaped

/-- Whether a character ends a value that is in no bracket. -/
def endsValue (c : Char) : Bool := c == ',' || c == ']' || c == '}'

/-- The number of open brackets after a character. -/
def bracketDepth (c : Char) (depth : ℕ) : ℕ :=
  if c = '[' ∨ c = '{' then depth + 1
  else if c = ']' ∨ c = '}' then depth - 1
  else depth

/-- The value at the front of a text, as far as `depth` open brackets do not end it. -/
def takeValue : ℕ → ScanMode → List Char → List Char
  | _, _, [] => []
  | depth, .inside, c :: rest =>
    c :: takeValue depth
      (if c = '"' then .outside else if c = '\\' then .escaped else .inside) rest
  | depth, .escaped, c :: rest => c :: takeValue depth .inside rest
  | depth, .outside, c :: rest =>
    if depth = 0 ∧ endsValue c = true then []
    else c :: takeValue (bracketDepth c depth) (if c = '"' then .inside else .outside) rest

/-- The scanner passes over the text when enough brackets are open. -/
def Skips (least : ℕ) (text : List Char) : Prop :=
  ∀ depth ≥ least, ∀ rest,
    takeValue depth .outside (text ++ rest) = text ++ takeValue depth .outside rest

/-- Whether a character means nothing to the scanner. -/
def isPlainChar (c : Char) : Bool :=
  !endsValue c && c != '"' && c != '[' && c != '{'

variable {text : List Char}

theorem Skips.mono {least least' : ℕ} (h : Skips least text) (hle : least ≤ least') :
    Skips least' text :=
  fun depth hdepth => h depth (hle.trans hdepth)

theorem Skips.append {least : ℕ} {first second : List Char} (hfirst : Skips least first)
    (hsecond : Skips least second) : Skips least (first ++ second) := by
  intro depth hdepth rest
  rw [List.append_assoc, hfirst depth hdepth, hsecond depth hdepth, List.append_assoc]

/-- A text without brackets, commas and quotes. -/
theorem skips_of_plain (h : ∀ c ∈ text, isPlainChar c = true) :
    Skips 0 text := by
  intro depth _ rest
  induction text with
  | nil => rfl
  | cons c text ih =>
    have hplain := h c (by simp)
    simp only [isPlainChar, endsValue, Bool.and_eq_true, Bool.not_eq_true', Bool.or_eq_false_iff,
      beq_eq_false_iff_ne, bne_iff_ne, ne_eq] at hplain
    obtain ⟨⟨⟨⟨⟨hcomma, hclose⟩, hbrace⟩, hquote⟩, hopen⟩, hopenBrace⟩ := hplain
    have hends : endsValue c = false := by simp [endsValue, hcomma, hclose, hbrace]
    have hdepth : bracketDepth c depth = depth := by
      simp [bracketDepth, hopen, hopenBrace, hclose, hbrace]
    have hrest := ih fun d hd => h d (by simp [hd])
    simp [takeValue, hends, hdepth, hquote, hrest]

/-- A fixed text without brackets, commas and quotes. -/
theorem skips_of_all (h : text.all isPlainChar = true) : Skips 0 text :=
  skips_of_plain (List.all_eq_true.mp h)

/-- A comma inside brackets. -/
theorem skips_comma : Skips 1 [','] := by
  intro depth hdepth rest
  have hne : depth ≠ 0 := by omega
  simp [takeValue, hne, bracketDepth]

/-- Inside a string the scanner passes over one escaped character. -/
theorem takeValue_escapeChar (depth : ℕ) (c : Char) (rest : List Char) :
    takeValue depth .inside (escapeChar c ++ rest) =
      escapeChar c ++ takeValue depth .inside rest := by
  unfold escapeChar
  split_ifs with hquote hslash hfeed hreturn htab hback hform hcontrol
  · rfl
  · rfl
  · rfl
  · rfl
  · rfl
  · rfl
  · rfl
  · obtain ⟨hhigh, hhigh'⟩ := @hexDigit_ne (c.toNat / 16) (by omega)
    obtain ⟨hlow, hlow'⟩ := @hexDigit_ne (c.toNat % 16) (by omega)
    simp [takeValue, hhigh, hhigh', hlow, hlow']
  · simp [takeValue, hquote, hslash]

/-- The scanner passes over a string literal. -/
theorem skips_quoteText (text : String) : Skips 0 (quoteText text) := by
  intro depth _ rest
  have hbody : ∀ s : List Char,
      takeValue depth .inside (s.flatMap escapeChar ++ '"' :: rest) =
        s.flatMap escapeChar ++ '"' :: takeValue depth .outside rest := by
    intro s
    induction s with
    | nil => simp [takeValue]
    | cons c s ih =>
      rw [List.flatMap_cons, List.append_assoc, takeValue_escapeChar, ih, List.append_assoc]
  have hquote : takeValue depth .outside ('"' :: (text.toList.flatMap escapeChar ++ '"' :: rest)) =
      '"' :: takeValue depth .inside (text.toList.flatMap escapeChar ++ '"' :: rest) := by
    simp [takeValue, endsValue, bracketDepth]
  simp only [quoteText, List.cons_append, List.append_assoc, List.nil_append]
  rw [hquote, hbody]

/-- Brackets around a text that the scanner passes over within brackets. -/
theorem Skips.bracket (h : Skips 1 text) : Skips 0 ('[' :: (text ++ [']'])) := by
  intro depth _ rest
  have hopen : takeValue depth .outside ('[' :: (text ++ ']' :: rest)) =
      '[' :: takeValue (depth + 1) .outside (text ++ ']' :: rest) := by
    simp [takeValue, endsValue, bracketDepth]
  have hclose : takeValue (depth + 1) .outside (']' :: rest) =
      ']' :: takeValue depth .outside rest := by
    simp [takeValue, bracketDepth]
  simp only [List.cons_append, List.append_assoc, List.nil_append]
  rw [hopen, h (depth + 1) (by omega), hclose]

/-- Braces around a text that the scanner passes over within brackets. -/
theorem Skips.brace (h : Skips 1 text) :
    Skips 0 ('{' :: (text ++ ['}'])) := by
  intro depth _ rest
  have hopen : takeValue depth .outside ('{' :: (text ++ '}' :: rest)) =
      '{' :: takeValue (depth + 1) .outside (text ++ '}' :: rest) := by
    simp [takeValue, endsValue, bracketDepth]
  have hclose : takeValue (depth + 1) .outside ('}' :: rest) =
      '}' :: takeValue depth .outside rest := by
    simp [takeValue, bracketDepth]
  simp only [List.cons_append, List.append_assoc, List.nil_append]
  rw [hopen, h (depth + 1) (by omega), hclose]

/-! ## Values -/

/-- The text of an integer has only digits and a sign. -/
theorem isPlainChar_of_mem_toString {value : ℤ} {c : Char} (h : c ∈ (toString value).toList) :
    isPlainChar c = true := by
  have hdigit : ∀ {n : ℕ} {c : Char}, c ∈ Nat.toDigits 10 n → isPlainChar c = true := by
    intro n c hc
    have hrange := Char.isDigit_iff_toNat.mp
      (Nat.isDigit_of_mem_toDigits (by decide) (by decide) hc)
    have hne : ∀ d : Char, ¬ ('0'.toNat ≤ d.toNat ∧ d.toNat ≤ '9'.toNat) → c ≠ d := by
      rintro d hd rfl
      exact hd hrange
    simp [isPlainChar, endsValue, hne ',' (by decide), hne ']' (by decide), hne '}' (by decide),
      hne '"' (by decide), hne '[' (by decide), hne '{' (by decide)]
  cases value with
  | ofNat n => exact hdigit (by simpa [toString, Int.repr] using h)
  | negSucc n =>
    have hmem : c = '-' ∨ c ∈ Nat.toDigits 10 (n + 1) := by
      simpa [toString, Int.repr] using h
    rcases hmem with rfl | hmem
    · decide
    · exact hdigit hmem

variable {texts : List (List Char)}

/-- The scanner passes over texts with commas between them. -/
theorem skips_joinCommas (h : ∀ text ∈ texts, Skips 0 text) :
    Skips 1 (joinCommas texts) := by
  induction texts with
  | nil => exact fun _ _ _ => rfl
  | cons text texts ih =>
    have htext : Skips 1 text := (h text (by simp)).mono (by omega)
    cases texts with
    | nil => exact htext
    | cons next texts =>
      have hrest : Skips 1 (joinCommas (next :: texts)) := ih fun t ht => h t (by simp [ht])
      exact htext.append (skips_comma.append hrest)

def memberText (member : String × List Char) : List Char := quoteText member.1 ++ ':' :: member.2

/-- The scanner passes over a member. -/
theorem skips_memberText {member : String × List Char} (h : Skips 0 member.2) :
    Skips 0 (memberText member) := by
  have hcolon : Skips 0 [':'] := skips_of_all (by decide)
  exact (skips_quoteText member.1).append (hcolon.append h)

mutual

/-- The scanner passes over the text of a value. -/
theorem skips_dumps : ∀ value : Json, Skips 0 (dumps value)
  | .null => skips_of_all (by decide)
  | .bool true => skips_of_all (by decide)
  | .bool false => skips_of_all (by decide)
  | .int value => by
    rw [dumps]
    exact skips_of_plain fun _ hc => isPlainChar_of_mem_toString hc
  | .str text => by
    rw [dumps]
    exact skips_quoteText text
  | .arr items => by
    rw [dumps]
    exact (skips_joinCommas (skips_dumpItems items)).bracket
  | .obj fields => by
    rw [dumps]
    refine (skips_joinCommas ?_).brace
    intro text htext
    obtain ⟨member, hmember, rfl⟩ := List.mem_map.mp htext
    exact skips_memberText (skips_dumpFields fields member ((List.mem_insertionSort _).mp hmember))

/-- The scanner passes over the texts of the elements of an array. -/
theorem skips_dumpItems : ∀ items : List Json, ∀ text ∈ dumpItems items, Skips 0 text
  | [] => by simp [dumpItems]
  | item :: items => by
    intro text htext
    rw [dumpItems, List.mem_cons] at htext
    rcases htext with rfl | htext
    · exact skips_dumps item
    · exact skips_dumpItems items text htext

/-- The scanner passes over the texts of the members of an object. -/
theorem skips_dumpFields : ∀ fields : List (String × Json), ∀ member ∈ dumpFields fields,
    Skips 0 member.2
  | [] => by simp [dumpFields]
  | (key, value) :: fields => by
    intro member hmember
    rw [dumpFields, List.mem_cons] at hmember
    rcases hmember with rfl | hmember
    · exact skips_dumps value
    · exact skips_dumpFields fields member hmember

end

/-! ## What a text determines -/

/-- Two texts that the scanner passes over are equal when they are followed by the end of
a value in equal texts. -/
theorem Skips.append_inj {first second : List Char} (hfirst : Skips 0 first)
    (hsecond : Skips 0 second) (hrest : takeValue 0 .outside rest = [])
    (hrest' : takeValue 0 .outside rest' = []) (h : first ++ rest = second ++ rest') :
    first = second ∧ rest = rest' := by
  have htaken := congrArg (takeValue 0 .outside) h
  rw [hfirst 0 (Nat.le_refl 0), hsecond 0 (Nat.le_refl 0), hrest, hrest', List.append_nil,
    List.append_nil] at htaken
  subst htaken
  exact ⟨rfl, List.append_cancel_left h⟩

def commaTail (texts : List (List Char)) : List Char := texts.flatMap (',' :: ·)

theorem joinCommas_cons (text : List Char) (texts : List (List Char)) :
    joinCommas (text :: texts) = text ++ commaTail texts := by
  induction texts generalizing text with
  | nil => simp [joinCommas, commaTail]
  | cons next texts ih =>
    rw [joinCommas, ih next]
    · simp [commaTail]
    · simp

/-- The scanner stops at a comma. -/
theorem takeValue_commaTail (texts : List (List Char)) :
    takeValue 0 .outside (commaTail texts) = [] := by
  cases texts with
  | nil => rfl
  | cons text texts => simp [commaTail, takeValue, endsValue]

variable {others : List (List Char)}

theorem commaTail_inj (htexts : ∀ text ∈ texts, Skips 0 text)
    (hothers : ∀ text ∈ others, Skips 0 text) (h : commaTail texts = commaTail others) :
    texts = others := by
  induction texts generalizing others with
  | nil =>
    cases others with
    | nil => rfl
    | cons other others => simp [commaTail] at h
  | cons text texts ih =>
    cases others with
    | nil => simp [commaTail] at h
    | cons other others =>
      have htail : text ++ commaTail texts = other ++ commaTail others := by
        simpa [commaTail] using h
      obtain ⟨htext, hrest⟩ := (htexts text (by simp)).append_inj (hothers other (by simp))
        (takeValue_commaTail texts) (takeValue_commaTail others) htail
      rw [htext, ih (fun t ht => htexts t (by simp [ht])) (fun t ht => hothers t (by simp [ht]))
        hrest]

/-- Texts with commas between them are given back, unless one is empty. -/
theorem joinCommas_inj (htexts : ∀ text ∈ texts, Skips 0 text ∧ text ≠ [])
    (hothers : ∀ text ∈ others, Skips 0 text ∧ text ≠ [])
    (h : joinCommas texts = joinCommas others) : texts = others := by
  cases texts with
  | nil =>
    cases others with
    | nil => rfl
    | cons other others =>
      rw [joinCommas_cons] at h
      have hempty : other = [] := (List.append_eq_nil_iff.mp h.symm).1
      exact absurd hempty (hothers other (by simp)).2
  | cons text texts =>
    cases others with
    | nil =>
      rw [joinCommas_cons] at h
      have hempty : text = [] := (List.append_eq_nil_iff.mp h).1
      exact absurd hempty (htexts text (by simp)).2
    | cons other others =>
      rw [joinCommas_cons, joinCommas_cons] at h
      obtain ⟨htext, hrest⟩ := (htexts text (by simp)).1.append_inj (hothers other (by simp)).1
        (takeValue_commaTail texts) (takeValue_commaTail others) h
      rw [htext, commaTail_inj (fun t ht => (htexts t (by simp [ht])).1)
        (fun t ht => (hothers t (by simp [ht])).1) hrest]

theorem dumpItems_eq_map (items : List Json) : dumpItems items = items.map dumps := by
  induction items with
  | nil => rfl
  | cons item items ih => rw [dumpItems, ih, List.map_cons]

theorem dumpFields_eq_map (fields : List (String × Json)) :
    dumpFields fields = fields.map fun field => (field.1, dumps field.2) := by
  induction fields with
  | nil => rfl
  | cons field fields ih =>
    obtain ⟨key, value⟩ := field
    rw [dumpFields, ih, dumpField, List.map_cons]

/-- No value has an empty text. -/
theorem dumps_ne_nil (value : Json) : dumps value ≠ [] := by
  cases value with
  | null => decide
  | bool value => cases value <;> decide
  | int value =>
    rw [dumps]
    cases value with
    | ofNat n => simp [toString, Int.repr, Nat.toDigits_ne_nil]
    | negSucc n => simp [toString, Int.repr]
  | str text => simp [dumps, quoteText]
  | arr | obj => simp [dumps]

/-- The text of an array determines the texts of its elements. -/
theorem dumps_arr_inj {items others : List Json} (h : dumps (.arr items) = dumps (.arr others)) :
    items.map dumps = others.map dumps := by
  rw [dumps, dumps] at h
  have hjoined := List.append_cancel_right (List.cons.inj h).2
  have hitems : ∀ items : List Json, ∀ text ∈ dumpItems items, Skips 0 text ∧ text ≠ [] := by
    intro items text htext
    refine ⟨skips_dumpItems items text htext, ?_⟩
    rw [dumpItems_eq_map] at htext
    obtain ⟨item, -, rfl⟩ := List.mem_map.mp htext
    exact dumps_ne_nil item
  have heq := joinCommas_inj (hitems items) (hitems others) hjoined
  rwa [dumpItems_eq_map, dumpItems_eq_map] at heq

/-- The text of an object determines the texts of its members, up to their order. -/
theorem dumps_obj_inj {fields others : JsonObject} (h : dumps (.obj fields) = dumps (.obj others)) :
    (dumpFields fields).Perm (dumpFields others) := by
  rw [dumps, dumps] at h
  have hjoined := List.append_cancel_right (List.cons.inj h).2
  have hfields : ∀ fields : JsonObject, ∀ text ∈
      ((dumpFields fields).insertionSort fun a b => a.1 ≤ b.1).map memberText,
      Skips 0 text ∧ text ≠ [] := by
    intro fields text htext
    obtain ⟨member, hmember, rfl⟩ := List.mem_map.mp htext
    exact ⟨skips_memberText (skips_dumpFields fields member ((List.mem_insertionSort _).mp hmember)),
      by simp [memberText, quoteText]⟩
  have heq := joinCommas_inj (hfields fields) (hfields others) hjoined
  have hinj : Function.Injective memberText := by
    rintro ⟨key, text⟩ ⟨key', text'⟩ hmember
    obtain ⟨hkey, hrest⟩ := quoteText_append_inj hmember
    exact Prod.ext hkey (List.cons.inj hrest).2
  have hsorted := hinj.list_map heq
  exact (List.perm_insertionSort _ _).symm.trans
    ((List.Perm.of_eq hsorted).trans (List.perm_insertionSort _ _))

theorem eq_str_of_dumps {value : Json} {text : String} (h : dumps value = quoteText text) :
    value = .str text := by
  cases value with
  | null | arr | obj => simp [dumps, quoteText] at h
  | bool value => cases value <;> simp [dumps, quoteText] at h
  | int value =>
    rw [dumps] at h
    have hmem : '"' ∈ (toString value).toList := by
      rw [h]
      simp [quoteText]
    have hplain := isPlainChar_of_mem_toString hmem
    exact absurd hplain (by decide)
  | str other =>
    rw [dumps] at h
    rw [quoteText_inj h]

end ResearchKernel
