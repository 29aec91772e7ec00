import ResearchKernel.Canonical.Texts
import ResearchKernel.Foundation.Dict

/-!
# Reading JSON texts

The reader of JSON texts. What it reads from the canonical text of a value is the value, with
the members of its objects in the order of their keys.
-/

namespace ResearchKernel

open Foundation

/-! ## The reader -/

/-- The white space of JSON. -/
def isJsonSpace (c : Char) : Bool := c == ' ' || c == '\t' || c == '\n' || c == '\r'

/-- What follows white space. -/
def skipSpace (text : List Char) : List Char := text.dropWhile isJsonSpace

/-- The value of a hexadecimal digit, in upper or lower case. -/
def hexDigit? (c : Char) : Option ℕ :=
  if c.isDigit then some (c.toNat - 48)
  else if decide ('a' ≤ c) && decide (c ≤ 'f') then some (c.toNat - 87)
  else if decide ('A' ≤ c) && decide (c ≤ 'F') then some (c.toNat - 55)
  else none

/-- The number of the four hexadecimal digits of an escape. -/
def readCode : List Char → Option (ℕ × List Char)
  | a :: b :: c :: d :: rest => do
    let a ← hexDigit? a
    let b ← hexDigit? b
    let c ← hexDigit? c
    let d ← hexDigit? d
    return (4096 * a + 256 * b + 16 * c + d, rest)
  | _ => none

/-- The escapes with one character. -/
def escapeMarks : List (Char × Char) :=
  [('"', '"'), ('\\', '\\'), ('/', '/'), ('n', '\n'), ('r', '\r'), ('t', '\t'),
    ('b', Char.ofNat 8), ('f', Char.ofNat 12)]

/-- The second half of a surrogate pair. A half that stands alone is no character. -/
def readLowHalf (high : ℕ) : List Char → Option (Char × List Char)
  | '\\' :: 'u' :: rest => do
    let (low, rest) ← readCode rest
    require (decide (0xDC00 ≤ low) && decide (low ≤ 0xDFFF))
    return (Char.ofNat (0x10000 + (high - 0xD800) * 0x400 + (low - 0xDC00)), rest)
  | _ => none

/-- The character of an escape, after the backslash. -/
def readEscape : List Char → Option (Char × List Char)
  | [] => none
  | mark :: rest =>
    if mark = 'u' then do
      let (code, rest) ← readCode rest
      if 0xD800 ≤ code ∧ code ≤ 0xDBFF then readLowHalf code rest
      else if 0xDC00 ≤ code ∧ code ≤ 0xDFFF then none
      else return (Char.ofNat code, rest)
    else (escapeMarks.lookup mark).map fun c => (c, rest)

/-- The characters of a string literal, after the opening quote, and what follows the closing
one. -/
def readText : ℕ → List Char → Option (List Char × List Char)
  | 0, _ => none
  | _ + 1, [] => none
  | fuel + 1, c :: rest =>
    if c = '"' then some ([], rest)
    else if c = '\\' then do
      let (c, rest) ← readEscape rest
      let (text, rest) ← readText fuel rest
      return (c :: text, rest)
    else if c.toNat < 32 then none
    else do
      let (text, rest) ← readText fuel rest
      return (c :: text, rest)

/-- A number of digits, none of which is a zero in front. A number with a fraction or an exponent
is no integer. -/
def readDigits (text : List Char) : Option (ℕ × List Char) :=
  let digits := text.takeWhile Char.isDigit
  let rest := text.dropWhile Char.isDigit
  let value := Nat.ofDigitChars 10 digits 0
  if digits = Nat.toDigits 10 value ∧ !rest.head?.any (fun c => c == '.' || c == 'e' || c == 'E') then
    some (value, rest)
  else none

/-- An integer. -/
def readNumber : List Char → Option (Json × List Char)
  | '-' :: rest => (readDigits rest).map fun read => (.int (-(read.1 : ℤ)), read.2)
  | text => (readDigits text).map fun read => (.int read.1, read.2)

mutual

/-- A value, and what follows it. -/
def readValue : ℕ → List Char → Option (Json × List Char)
  | 0, _ => none
  | fuel + 1, text =>
    match text with
    | '"' :: rest => do
      let (chars, rest) ← readText (rest.length + 1) rest
      return (.str (String.ofList chars), rest)
    | '[' :: rest =>
      match skipSpace rest with
      | ']' :: rest => some (.arr [], rest)
      | rest => do
        let (items, rest) ← readItems fuel rest
        return (.arr items, rest)
    | '{' :: rest =>
      match skipSpace rest with
      | '}' :: rest => some (.obj [], rest)
      | rest => do
        let (members, rest) ← readMembers fuel rest
        -- a later member replaces an earlier one with its key
        return (.obj (dictOf members), rest)
    | 'n' :: 'u' :: 'l' :: 'l' :: rest => some (.null, rest)
    | 't' :: 'r' :: 'u' :: 'e' :: rest => some (.bool true, rest)
    | 'f' :: 'a' :: 'l' :: 's' :: 'e' :: rest => some (.bool false, rest)
    | text => readNumber text
termination_by structural fuel => fuel

/-- The elements of an array, and what follows it. -/
def readItems : ℕ → List Char → Option (List Json × List Char)
  | 0, _ => none
  | fuel + 1, text => do
    let (item, rest) ← readValue fuel text
    match skipSpace rest with
    | ']' :: rest => return ([item], rest)
    | ',' :: rest => do
      let (items, rest) ← readItems fuel (skipSpace rest)
      return (item :: items, rest)
    | _ => none
termination_by structural fuel => fuel

/-- The members of an object, and what follows it. -/
def readMembers : ℕ → List Char → Option (List (String × Json) × List Char)
  | 0, _ => none
  | fuel + 1, text =>
    match text with
    | '"' :: rest => do
      let (key, rest) ← readText (rest.length + 1) rest
      match skipSpace rest with
      | ':' :: rest => do
        let (value, rest) ← readValue fuel (skipSpace rest)
        match skipSpace rest with
        | '}' :: rest => return ([(String.ofList key, value)], rest)
        | ',' :: rest => do
          let (members, rest) ← readMembers fuel (skipSpace rest)
          return ((String.ofList key, value) :: members, rest)
        | _ => none
      | _ => none
    | _ => none
termination_by structural fuel => fuel

end

def loads (text : List Char) : Option Json := do
  let (value, rest) ← readValue (text.length + 1) (skipSpace text)
  require (skipSpace rest).isEmpty
  return value

/-! ## What is read back -/

namespace Json

/-- Put the members of an object in the order of their keys. -/
def sortKeys (fields : JsonObject) : JsonObject := fields.insertionSort fun a b => a.1 ≤ b.1

mutual

/-- What is read back of a value that was written as a text. -/
def stored : Json → Json
  | .arr items => .arr (storedItems items)
  | .obj fields => .obj (sortKeys (storedFields fields))
  | .null => .null
  | .bool value => .bool value
  | .int value => .int value
  | .str text => .str text
termination_by structural value => value

/-- What is read back of the elements of an array. -/
def storedItems : List Json → List Json
  | [] => []
  | item :: items => stored item :: storedItems items
termination_by structural items => items

/-- What is read back of the members of an object, before they are sorted. -/
def storedFields : JsonObject → JsonObject
  | [] => []
  | field :: fields => storedField field :: storedFields fields
termination_by structural fields => fields

/-- What is read back of a member. -/
def storedField : String × Json → String × Json
  | (key, value) => (key, stored value)
termination_by structural field => field

end

mutual

/-- Whether the keys of all objects in a value are distinct. -/
def Keyed : Json → Prop
  | .arr items => KeyedItems items
  | .obj fields => (fields.map Prod.fst).Nodup ∧ KeyedFields fields
  | .null | .bool _ | .int _ | .str _ => True
termination_by structural value => value

/-- Whether the elements of an array have distinct keys. -/
def KeyedItems : List Json → Prop
  | [] => True
  | item :: items => Keyed item ∧ KeyedItems items
termination_by structural items => items

/-- Whether the values of the members have distinct keys. -/
def KeyedFields : JsonObject → Prop
  | [] => True
  | field :: fields => KeyedField field ∧ KeyedFields fields
termination_by structural fields => fields

/-- Whether the value of a member has distinct keys. -/
def KeyedField : String × Json → Prop
  | (_, value) => Keyed value
termination_by structural field => field

end

theorem storedItems_eq_map (items : List Json) : storedItems items = items.map stored := by
  induction items with
  | nil => rfl
  | cons item items ih => rw [storedItems, List.map_cons, ih]

theorem storedFields_eq_map (fields : JsonObject) :
    storedFields fields = fields.map fun field => (field.1, stored field.2) := by
  induction fields with
  | nil => rfl
  | cons field fields ih =>
    obtain ⟨key, value⟩ := field
    rw [storedFields, List.map_cons, ih, storedField]

end Json

/-- A member is found in an object that was read back as it was stored. -/
theorem Json.lookup_stored {fields : JsonObject} (h : (fields.map Prod.fst).Nodup) (key : String) :
    (Json.sortKeys (Json.storedFields fields)).lookup key =
      (fields.lookup key).map Json.stored :=
  lookup_of_perm_map h (Json.storedFields_eq_map fields ▸ List.perm_insertionSort _ _) key

/-! ## Strings -/

/-- A hexadecimal digit is read. -/
theorem hexDigit?_hexDigit {n : ℕ} (h : n < 16) : hexDigit? (hexDigit n) = some n := by
  have hall : ∀ n < 16, hexDigit? (hexDigit n) = some n := by decide
  exact hall n h

theorem readEscape_control {code : ℕ} (h : code < 32) (rest : List Char) :
    readEscape ('u' :: '0' :: '0' :: hexDigit (code / 16) :: hexDigit (code % 16) :: rest) =
      some (Char.ofNat code, rest) := by
  have hzero : hexDigit? '0' = some 0 := by decide
  have hhigh : hexDigit? (hexDigit (code / 16)) = some (code / 16) := hexDigit?_hexDigit (by omega)
  have hlow : hexDigit? (hexDigit (code % 16)) = some (code % 16) := hexDigit?_hexDigit (by omega)
  have hcode : readCode ('0' :: '0' :: hexDigit (code / 16) :: hexDigit (code % 16) :: rest) =
      some (code, rest) := by
    simp only [readCode, hzero, hhigh, hlow, Option.bind_eq_bind, Option.bind_some, Option.pure_def]
    congr 2
    omega
  rw [readEscape, if_pos rfl, hcode]
  simp only [Option.bind_eq_bind, Option.bind_some]
  rw [if_neg (by omega), if_neg (by omega)]
  rfl

/-- One escaped character is read. -/
theorem readText_escapeChar (c : Char) (rest : List Char) (fuel : ℕ) :
    readText (fuel + 1) (escapeChar c ++ rest) =
      (readText fuel rest).map fun read => (c :: read.1, read.2) := by
  have hmark : ∀ mark plain : Char, escapeMarks.lookup mark = some plain → mark ≠ 'u' →
      readText (fuel + 1) ('\\' :: mark :: rest) =
        (readText fuel rest).map fun read => (plain :: read.1, read.2) := by
    intro mark plain hlookup hmark
    have hescape : readEscape (mark :: rest) = some (plain, rest) := by
      rw [readEscape, if_neg hmark, hlookup]
      rfl
    rw [readText, if_neg (by decide), if_pos rfl, hescape]
    simp only [Option.bind_eq_bind, Option.bind_some]
    cases readText fuel rest <;> rfl
  unfold escapeChar
  split_ifs with hquote hslash hfeed hreturn htab hback hform hcontrol
  · exact hquote ▸ hmark '"' '"' (by decide) (by decide)
  · exact hslash ▸ hmark '\\' '\\' (by decide) (by decide)
  · exact hfeed ▸ hmark 'n' '\n' (by decide) (by decide)
  · exact hreturn ▸ hmark 'r' '\r' (by decide) (by decide)
  · exact htab ▸ hmark 't' '\t' (by decide) (by decide)
  · have hc : c = Char.ofNat 8 := by rw [← hback, Char.ofNat_toNat]
    exact hc ▸ hmark 'b' (Char.ofNat 8) (by decide) (by decide)
  · have hc : c = Char.ofNat 12 := by rw [← hform, Char.ofNat_toNat]
    exact hc ▸ hmark 'f' (Char.ofNat 12) (by decide) (by decide)
  · have hread := readEscape_control hcontrol rest
    rw [Char.ofNat_toNat] at hread
    rw [List.cons_append, readText, if_neg (by decide), if_pos rfl]
    change (do
      let (c, rest) ← readEscape ('u' :: '0' :: '0' :: hexDigit (c.toNat / 16) ::
        hexDigit (c.toNat % 16) :: rest)
      let (text, rest) ← readText fuel rest
      return (c :: text, rest)) = _
    rw [hread]
    simp only [Option.bind_eq_bind, Option.bind_some]
    cases readText fuel rest <;> rfl
  · rw [List.singleton_append, readText, if_neg hquote, if_neg hslash, if_neg hcontrol]
    cases readText fuel rest <;> rfl

variable {fuel : ℕ}

/-- The escaped characters of a text are read up to the closing quote. -/
theorem readText_quoted {text : List Char} (h : text.length < fuel) (rest : List Char) :
    readText fuel (text.flatMap escapeChar ++ '"' :: rest) = some (text, rest) := by
  induction text generalizing fuel with
  | nil =>
    obtain ⟨fuel, rfl⟩ := Nat.exists_eq_succ_of_ne_zero (Nat.ne_of_gt h)
    rfl
  | cons c text ih =>
    obtain ⟨fuel, rfl⟩ := Nat.exists_eq_succ_of_ne_zero (Nat.ne_of_gt (Nat.zero_lt_of_lt h))
    rw [List.flatMap_cons, List.append_assoc, readText_escapeChar,
      ih (by simpa using h)]
    rfl

theorem length_le_escaped (text : List Char) : text.length ≤ (text.flatMap escapeChar).length := by
  induction text with
  | nil => exact le_rfl
  | cons c text ih =>
    have hpos : 0 < (escapeChar c).length := by
      unfold escapeChar
      split_ifs <;> simp
    rw [List.flatMap_cons, List.length_append, List.length_cons]
    omega

theorem readText_quoteText (text : String) (rest : List Char) :
    ∃ body, quoteText text ++ rest = '"' :: body ∧
      readText (body.length + 1) body = some (text.toList, rest) := by
  refine ⟨text.toList.flatMap escapeChar ++ '"' :: rest, by simp [quoteText], ?_⟩
  refine readText_quoted ?_ rest
  have hle := length_le_escaped text.toList
  rw [List.length_append]
  omega

/-! ## Numbers -/

/-- The text does not go on with a number. -/
def EndsNumber (rest : List Char) : Prop :=
  ∀ c ∈ rest.head?, c.isDigit = false ∧ c ≠ '.' ∧ c ≠ 'e' ∧ c ≠ 'E'

/-- The digits of a number are read. -/
theorem readDigits_toDigits (n : ℕ) {rest : List Char} (h : EndsNumber rest) :
    readDigits (Nat.toDigits 10 n ++ rest) = some (n, rest) := by
  have hdigits : ∀ c ∈ Nat.toDigits 10 n, Char.isDigit c = true := fun c hc =>
    Nat.isDigit_of_mem_toDigits (by omega) (by omega) hc
  have hstop : rest.takeWhile Char.isDigit = [] ∧ rest.dropWhile Char.isDigit = rest := by
    cases rest with
    | nil => exact ⟨rfl, rfl⟩
    | cons c rest =>
      have hc := (h c rfl).1
      simp [hc]
  have htake : (Nat.toDigits 10 n ++ rest).takeWhile Char.isDigit = Nat.toDigits 10 n := by
    rw [List.takeWhile_append_of_pos hdigits, hstop.1, List.append_nil]
  have hdrop : (Nat.toDigits 10 n ++ rest).dropWhile Char.isDigit = rest := by
    rw [List.dropWhile_append_of_pos hdigits, hstop.2]
  have hhead : (!rest.head?.any fun c => c == '.' || c == 'e' || c == 'E') = true := by
    cases rest with
    | nil => rfl
    | cons c rest =>
      obtain ⟨-, hpoint, he, hE⟩ := h c rfl
      simp [hpoint, he, hE]
  unfold readDigits
  simp only [htake, hdrop, Nat.ofDigitChars_ten_toDigits, hhead, and_self, if_true]

/-- The text of an integer is read. -/
theorem readNumber_toString (value : ℤ) {rest : List Char} (h : EndsNumber rest) :
    readNumber ((toString value).toList ++ rest) = some (.int value, rest) := by
  cases value with
  | ofNat n =>
    have htext : (toString (Int.ofNat n)).toList = Nat.toDigits 10 n := Nat.toList_repr
    rw [htext]
    have hread := readDigits_toDigits n h
    cases hdigits : Nat.toDigits 10 n with
    | nil => exact absurd hdigits Nat.toDigits_ne_nil
    | cons c digits =>
      have hc : c.isDigit = true :=
        Nat.isDigit_of_mem_toDigits (by omega) (by omega) (hdigits ▸ List.mem_cons_self ..)
      have hminus : c ≠ '-' := by
        rintro rfl
        exact absurd hc (by decide)
      rw [hdigits] at hread
      unfold readNumber
      split
      next text heq => exact absurd (List.cons.inj heq).1 hminus
      next => rw [hread]; rfl
  | negSucc n =>
    have htext : (toString (Int.negSucc n)).toList = '-' :: Nat.toDigits 10 (n + 1) := by
      have hrepr : toString (Int.negSucc n) = "-" ++ (n + 1).repr := rfl
      rw [hrepr, String.toList_append, Nat.toList_repr]
      rfl
    rw [htext, List.cons_append, readNumber, readDigits_toDigits (n + 1) h]
    rfl

/-! ## Values -/

/-- The text of a value, followed by a text that does not go on with a number, is read. -/
def Reads (value : Json) : Prop :=
  ∀ rest fuel, EndsNumber rest → (dumps value).length ≤ fuel →
    readValue fuel (dumps value ++ rest) = some (value.stored, rest)

/-- The text of an integer begins with a digit or a sign. -/
theorem toString_head (value : ℤ) :
    ∃ c text, (toString value).toList = c :: text ∧ (c = '-' ∨ c.isDigit = true) := by
  cases value with
  | ofNat n =>
    have htext : (toString (Int.ofNat n)).toList = Nat.toDigits 10 n := Nat.toList_repr
    cases hdigits : Nat.toDigits 10 n with
    | nil => exact absurd hdigits Nat.toDigits_ne_nil
    | cons c digits =>
      refine ⟨c, digits, htext.trans hdigits, Or.inr ?_⟩
      exact Nat.isDigit_of_mem_toDigits (by omega) (by omega) (hdigits ▸ List.mem_cons_self ..)
  | negSucc n =>
    refine ⟨'-', Nat.toDigits 10 (n + 1), ?_, Or.inl rfl⟩
    have hrepr : toString (Int.negSucc n) = "-" ++ (n + 1).repr := rfl
    rw [hrepr, String.toList_append, Nat.toList_repr]
    rfl

/-- A value does not begin with white space or a closing bracket. -/
theorem dumps_head (value : Json) :
    ∃ c text, dumps value = c :: text ∧ isJsonSpace c = false ∧ c ≠ ']' ∧ c ≠ '}' := by
  cases value with
  | null => exact ⟨'n', _, rfl, by decide, by decide, by decide⟩
  | bool value =>
    cases value
    · exact ⟨'f', _, rfl, by decide, by decide, by decide⟩
    · exact ⟨'t', _, rfl, by decide, by decide, by decide⟩
  | int value =>
    obtain ⟨c, text, htext, hc⟩ := toString_head value
    rcases hc with rfl | hc
    · exact ⟨'-', text, htext, by decide, by decide, by decide⟩
    · have hne : ∀ other : Char, other.isDigit = false → c ≠ other := by
        rintro other hother rfl
        rw [hc] at hother
        cases hother
      refine ⟨c, text, htext, ?_, hne _ (by decide), hne _ (by decide)⟩
      simp [isJsonSpace, hne ' ' (by decide), hne '\t' (by decide), hne '\n' (by decide),
        hne '\r' (by decide)]
  | str text => exact ⟨'"', _, rfl, by decide, by decide, by decide⟩
  | arr items => exact ⟨'[', _, rfl, by decide, by decide, by decide⟩
  | obj fields => exact ⟨'{', _, rfl, by decide, by decide, by decide⟩

/-- White space before a value is skipped, and there is none. -/
theorem skipSpace_dumps (value : Json) (rest : List Char) :
    skipSpace (dumps value ++ rest) = dumps value ++ rest := by
  obtain ⟨c, text, hdumps, hspace, -⟩ := dumps_head value
  simp [skipSpace, hdumps, hspace]

/-- A character that is no white space is not skipped. -/
theorem skipSpace_cons {c : Char} (h : isJsonSpace c = false) (rest : List Char) :
    skipSpace (c :: rest) = c :: rest := by
  simp [skipSpace, h]

/-- The elements of an array are read. -/
theorem readItems_join {items : List Json} (hne : items ≠ []) (hreads : ∀ item ∈ items, Reads item)
    (hfuel : (joinCommas (items.map dumps)).length < fuel) (rest : List Char) :
    readItems fuel (joinCommas (items.map dumps) ++ ']' :: rest) =
      some (items.map Json.stored, rest) := by
  induction items generalizing fuel with
  | nil => exact absurd rfl hne
  | cons item items ih =>
    obtain ⟨fuel, rfl⟩ := Nat.exists_eq_succ_of_ne_zero (Nat.ne_of_gt (Nat.zero_lt_of_lt hfuel))
    have hitem := hreads item (List.mem_cons_self ..)
    cases items with
    | nil =>
      have hread := hitem (']' :: rest) fuel (by intro c hc; cases hc; decide)
        (by simpa [joinCommas, Nat.lt_succ_iff] using hfuel)
      simp only [List.map_cons, List.map_nil, joinCommas, readItems, hread, Option.bind_eq_bind,
        Option.bind_some, skipSpace_cons (c := ']') (by decide)]
      rfl
    | cons next items =>
      set joined := joinCommas ((next :: items).map dumps) with hjoined
      have htext : joinCommas ((item :: next :: items).map dumps) =
          dumps item ++ ',' :: joined := rfl
      rw [htext, List.length_append, List.length_cons] at hfuel
      have hread := hitem (',' :: (joined ++ ']' :: rest)) fuel
        (by intro c hc; cases hc; decide) (by omega)
      have hskip : skipSpace (joined ++ ']' :: rest) = joined ++ ']' :: rest := by
        rw [hjoined, List.map_cons, joinCommas_cons, List.append_assoc]
        exact skipSpace_dumps next _
      have hnext := ih (List.cons_ne_nil _ _)
        (fun other hother => hreads other (List.mem_cons_of_mem _ hother))
        (show joined.length < fuel by omega)
      rw [htext, List.append_assoc, List.cons_append, readItems, hread]
      simp only [Option.bind_eq_bind, Option.bind_some, skipSpace_cons (c := ',') (by decide),
        hskip, hnext]
      rfl

/-- The members of an object are read. -/
theorem readMembers_join {members : JsonObject} (hne : members ≠ [])
    (hreads : ∀ member ∈ members, Reads member.2)
    (hfuel : (joinCommas (members.map fun m => memberText (m.1, dumps m.2))).length < fuel)
    (rest : List Char) :
    readMembers fuel (joinCommas (members.map fun m => memberText (m.1, dumps m.2)) ++ '}' :: rest) =
      some (members.map fun m => (m.1, m.2.stored), rest) := by
  induction members generalizing fuel with
  | nil => exact absurd rfl hne
  | cons member members ih =>
    obtain ⟨fuel, rfl⟩ := Nat.exists_eq_succ_of_ne_zero (Nat.ne_of_gt (Nat.zero_lt_of_lt hfuel))
    obtain ⟨key, value⟩ := member
    have hvalue := hreads (key, value) (List.mem_cons_self ..)
    cases members with
    | nil =>
      have htext : joinCommas ([(key, value)].map fun m => memberText (m.1, dumps m.2)) =
          quoteText key ++ ':' :: dumps value := rfl
      rw [htext, List.length_append, List.length_cons] at hfuel
      obtain ⟨body, hbody, hkey⟩ := readText_quoteText key (':' :: (dumps value ++ '}' :: rest))
      have hread := hvalue ('}' :: rest) fuel (by intro c hc; cases hc; decide) (by dsimp only; omega)
      rw [htext, List.append_assoc, List.cons_append, hbody, readMembers, hkey]
      simp only [Option.bind_eq_bind, Option.bind_some, skipSpace_cons (c := ':') (by decide),
        skipSpace_dumps, hread, skipSpace_cons (c := '}') (by decide), String.ofList_toList]
      rfl
    | cons next members =>
      set joined := joinCommas ((next :: members).map fun m => memberText (m.1, dumps m.2))
        with hjoined
      have htext : joinCommas (((key, value) :: next :: members).map
          fun m => memberText (m.1, dumps m.2)) =
            quoteText key ++ ':' :: (dumps value ++ ',' :: joined) := by
        rw [hjoined]
        simp [joinCommas, memberText]
      rw [htext, List.length_append, List.length_cons, List.length_append, List.length_cons] at hfuel
      obtain ⟨body, hbody, hkey⟩ := readText_quoteText key
        (':' :: (dumps value ++ ',' :: (joined ++ '}' :: rest)))
      have hread := hvalue (',' :: (joined ++ '}' :: rest)) fuel
        (by intro c hc; cases hc; decide) (by dsimp only; omega)
      have hskip : skipSpace (joined ++ '}' :: rest) = joined ++ '}' :: rest := by
        rw [hjoined, List.map_cons, joinCommas_cons, memberText, quoteText]
        exact skipSpace_cons (by decide) _
      have hnext := ih (List.cons_ne_nil _ _)
        (fun other hother => hreads other (List.mem_cons_of_mem _ hother))
        (show joined.length < fuel by omega)
      have hwhole : quoteText key ++ ':' :: (dumps value ++ ',' :: joined) ++ '}' :: rest =
          quoteText key ++ ':' :: (dumps value ++ ',' :: (joined ++ '}' :: rest)) := by
        simp
      rw [htext, hwhole, hbody, readMembers, hkey]
      simp only [Option.bind_eq_bind, Option.bind_some, skipSpace_cons (c := ':') (by decide),
        skipSpace_dumps, hread, skipSpace_cons (c := ',') (by decide), hskip, hnext,
        String.ofList_toList]
      rfl

/-- The texts of the members of an object in the order of their keys. -/
theorem sorted_dumpFields (fields : JsonObject) :
    (dumpFields fields).insertionSort (fun a b => a.1 ≤ b.1) =
      (Json.sortKeys fields).map fun field => (field.1, dumps field.2) := by
  rw [dumpFields_eq_map, Json.sortKeys]
  exact (List.map_insertionSort (fun a b => a.1 ≤ b.1) (fun a b => a.1 ≤ b.1)
    (fun field => (field.1, dumps field.2)) fields fun _ _ _ _ => Iff.rfl).symm

/-- Values are read back before or after their members are put in order. -/
theorem sorted_storedFields (fields : JsonObject) :
    Json.sortKeys (Json.storedFields fields) =
      (Json.sortKeys fields).map fun field => (field.1, field.2.stored) := by
  rw [Json.storedFields_eq_map, Json.sortKeys, Json.sortKeys]
  exact (List.map_insertionSort (fun a b => a.1 ≤ b.1) (fun a b => a.1 ≤ b.1)
    (fun field => (field.1, field.2.stored)) fields fun _ _ _ _ => Iff.rfl).symm

/-- An array is read when its elements are. -/
theorem reads_arr {items : List Json} (h : ∀ item ∈ items, Reads item) : Reads (.arr items) := by
  intro rest fuel _ hfuel
  have htext : dumps (.arr items) = '[' :: (joinCommas (items.map dumps) ++ [']']) := by
    rw [dumps, dumpItems_eq_map]
  rw [htext, List.length_cons, List.length_append, List.length_singleton] at hfuel
  obtain ⟨fuel, rfl⟩ := Nat.exists_eq_succ_of_ne_zero (show fuel ≠ 0 by omega)
  have hwhole : dumps (.arr items) ++ rest =
      '[' :: (joinCommas (items.map dumps) ++ ']' :: rest) := by
    rw [htext]
    simp
  rw [hwhole, Json.stored, Json.storedItems_eq_map]
  cases items with
  | nil => rfl
  | cons item items =>
    have hread := readItems_join (List.cons_ne_nil item items) h
      (show (joinCommas ((item :: items).map dumps)).length < fuel by omega) rest
    have hskip : skipSpace (joinCommas ((item :: items).map dumps) ++ ']' :: rest) =
        joinCommas ((item :: items).map dumps) ++ ']' :: rest := by
      rw [List.map_cons, joinCommas_cons, List.append_assoc]
      exact skipSpace_dumps item _
    obtain ⟨c, tail, hhead, -, hbracket, -⟩ := dumps_head item
    rw [readValue, hskip]
    split
    next tail' heq =>
      rw [List.map_cons, joinCommas_cons, hhead] at heq
      exact absurd (List.cons.inj heq).1 hbracket
    next =>
      rw [hread]
      rfl

/-- An object is read when the values of its members are and its keys are distinct. -/
theorem reads_obj {fields : JsonObject} (hkeys : (fields.map Prod.fst).Nodup)
    (h : ∀ field ∈ fields, Reads field.2) : Reads (.obj fields) := by
  intro rest fuel _ hfuel
  set members := Json.sortKeys fields with hmembers
  have hperm : members.Perm fields := List.perm_insertionSort _ _
  have htext : dumps (.obj fields) =
      '{' :: (joinCommas (members.map fun m => memberText (m.1, dumps m.2)) ++ ['}']) := by
    rw [dumps, sorted_dumpFields, List.map_map]
    rfl
  rw [htext, List.length_cons, List.length_append, List.length_singleton] at hfuel
  obtain ⟨fuel, rfl⟩ := Nat.exists_eq_succ_of_ne_zero (show fuel ≠ 0 by omega)
  have hwhole : dumps (.obj fields) ++ rest =
      '{' :: (joinCommas (members.map fun m => memberText (m.1, dumps m.2)) ++ '}' :: rest) := by
    rw [htext]
    simp
  have hreads : ∀ member ∈ members, Reads member.2 := fun member hmember =>
    h member (hperm.mem_iff.mp hmember)
  have hnodup : ((members.map fun m => (m.1, m.2.stored)).map Prod.fst).Nodup := by
    rw [List.map_map]
    exact (hperm.map Prod.fst).nodup_iff.mpr hkeys
  rw [hwhole, Json.stored, sorted_storedFields, ← hmembers]
  cases hcases : members with
  | nil => rfl
  | cons member others =>
    have hread := readMembers_join (hcases ▸ List.cons_ne_nil member others) hreads
      (show (joinCommas (members.map fun m => memberText (m.1, dumps m.2))).length < fuel by omega)
      rest
    rw [← hcases]
    have hskip : skipSpace (joinCommas (members.map fun m => memberText (m.1, dumps m.2)) ++
        '}' :: rest) = joinCommas (members.map fun m => memberText (m.1, dumps m.2)) ++
          '}' :: rest := by
      rw [hcases, List.map_cons, joinCommas_cons, memberText, quoteText]
      exact skipSpace_cons (by decide) _
    rw [readValue, hskip]
    split
    next tail heq =>
      rw [hcases, List.map_cons, joinCommas_cons, memberText, quoteText] at heq
      exact absurd (List.cons.inj heq).1 (by decide)
    next =>
      rw [hread]
      simp only [Option.bind_eq_bind, Option.bind_some, dictOf_of_nodup hnodup]
      rfl

/-- An integer is read. -/
theorem reads_int (value : ℤ) : Reads (.int value) := by
  intro rest fuel hrest hfuel
  obtain ⟨c, text, htext, hc⟩ := toString_head value
  have hdumps : dumps (.int value) = (toString value).toList := rfl
  have hread := readNumber_toString value hrest
  rw [hdumps, htext] at hfuel ⊢
  rw [htext] at hread
  obtain ⟨fuel, rfl⟩ := Nat.exists_eq_succ_of_ne_zero (Nat.ne_of_gt (Nat.zero_lt_of_lt hfuel))
  have hne : ∀ other : Char, other ≠ '-' → other.isDigit = false → c ≠ other := by
    rintro other hminus hdigit rfl
    rcases hc with hc | hc
    · exact hminus hc
    · rw [hdigit] at hc
      cases hc
  rw [List.cons_append] at hread ⊢
  rw [readValue]
  · exact hread
  all_goals exact fun _ heq => hne _ (by decide) (by decide) (List.cons.inj heq).1

theorem reads_str (text : String) : Reads (.str text) := by
  intro rest fuel _ hfuel
  obtain ⟨body, hbody, hread⟩ := readText_quoteText text rest
  have hpos : 0 < (dumps (.str text)).length := by simp [dumps, quoteText]
  obtain ⟨fuel, rfl⟩ := Nat.exists_eq_succ_of_ne_zero (show fuel ≠ 0 by omega)
  rw [dumps, hbody, readValue, hread]
  simp only [Option.bind_eq_bind, Option.bind_some, String.ofList_toList]
  rfl

mutual

/-- Every value with distinct keys is read. -/
theorem reads_of_keyed : ∀ value : Json, value.Keyed → Reads value
  | .null, _ => by
    intro rest fuel _ hfuel
    obtain ⟨fuel, rfl⟩ := Nat.exists_eq_succ_of_ne_zero (Nat.ne_of_gt (Nat.zero_lt_of_lt hfuel))
    rfl
  | .bool value, _ => by
    intro rest fuel _ hfuel
    cases value <;>
      obtain ⟨fuel, rfl⟩ := Nat.exists_eq_succ_of_ne_zero (Nat.ne_of_gt (Nat.zero_lt_of_lt hfuel)) <;>
      rfl
  | .int value, _ => reads_int value
  | .str text, _ => reads_str text
  | .arr items, h => reads_arr (reads_items items (by simpa only [Json.Keyed] using h))
  | .obj fields, h => by
    simp only [Json.Keyed] at h
    exact reads_obj h.1 (reads_fields fields h.2)
termination_by structural value => value

/-- The elements of an array are read. -/
theorem reads_items : ∀ items : List Json, Json.KeyedItems items → ∀ item ∈ items, Reads item
  | [], _, _, hitem => nomatch hitem
  | first :: items, h, item, hitem => by
    simp only [Json.KeyedItems] at h
    rcases List.mem_cons.mp hitem with heq | hitem
    · exact heq ▸ reads_of_keyed first h.1
    · exact reads_items items h.2 item hitem
termination_by structural items => items

/-- The values of the members are read. -/
theorem reads_fields : ∀ fields : JsonObject, Json.KeyedFields fields →
    ∀ field ∈ fields, Reads field.2
  | [], _, _, hfield => nomatch hfield
  | first :: fields, h, field, hfield => by
    simp only [Json.KeyedFields] at h
    rcases List.mem_cons.mp hfield with heq | hfield
    · exact heq ▸ reads_field first h.1
    · exact reads_fields fields h.2 field hfield
termination_by structural fields => fields

theorem reads_field : ∀ field : String × Json, Json.KeyedField field → Reads field.2
  | (_, value), h => reads_of_keyed value (by simpa only [Json.KeyedField] using h)
termination_by structural field => field

end

/-- What is read from the canonical text of a value with distinct keys is the value, with the
members of its objects in the order of their keys. -/
theorem loads_dumps {value : Json} (h : value.Keyed) : loads (dumps value) = some value.stored := by
  have hread := reads_of_keyed value h [] ((dumps value).length + 1) (by intro c hc; cases hc)
    (Nat.le_succ _)
  have hskip := skipSpace_dumps value []
  rw [List.append_nil] at hread hskip
  rw [loads, hskip, hread]
  rfl

end ResearchKernel
