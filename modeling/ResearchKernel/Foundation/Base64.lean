import Mathlib.Data.List.Basic

/-!
# Base64 with the alphabet of URLs

Bytes are written as characters of the alphabet without padding. The reader is the lenient one:
it passes over characters that are not of the alphabet, takes the characters of both alphabets
and stops at a complete padding. What is written and padded is read back.
-/

namespace Foundation

/-! ## The alphabet -/

/-- The character of six bits. -/
def urlsafeChar (n : ℕ) : Char :=
  if n < 26 then Char.ofNat (65 + n)
  else if n < 52 then Char.ofNat (71 + n)
  else if n < 62 then Char.ofNat (n - 4)
  else if n = 62 then '-'
  else '_'

/-- The six bits of a character. -/
def alphabetIndex (c : Char) : Option ℕ :=
  let n := c.toNat
  if 65 ≤ n ∧ n ≤ 90 then some (n - 65)
  else if 97 ≤ n ∧ n ≤ 122 then some (n - 71)
  else if 48 ≤ n ∧ n ≤ 57 then some (n + 4)
  else if c = '-' ∨ c = '+' then some 62
  else if c = '_' ∨ c = '/' then some 63
  else none

/-- Six bits are given back by their character, which is plain and is no padding. -/
theorem alphabetIndex_urlsafeChar {n : ℕ} (h : n < 64) :
    alphabetIndex (urlsafeChar n) = some n ∧ urlsafeChar n ≠ '=' ∧ (urlsafeChar n).toNat < 128 := by
  have hall : ∀ n < 64, alphabetIndex (urlsafeChar n) = some n ∧ urlsafeChar n ≠ '=' ∧
      (urlsafeChar n).toNat < 128 := by decide
  exact hall n h

/-! ## Writing -/

/-- The characters of bytes, four for every three, without padding. -/
def urlsafeB64encode : List UInt8 → List Char
  | [] => []
  | [a] => [urlsafeChar (a.toNat / 4), urlsafeChar (a.toNat % 4 * 16)]
  | [a, b] =>
    [urlsafeChar (a.toNat / 4), urlsafeChar (a.toNat % 4 * 16 + b.toNat / 16),
      urlsafeChar (b.toNat % 16 * 4)]
  | a :: b :: c :: rest =>
    urlsafeChar (a.toNat / 4) :: urlsafeChar (a.toNat % 4 * 16 + b.toNat / 16) ::
      urlsafeChar (b.toNat % 16 * 4 + c.toNat / 64) :: urlsafeChar (c.toNat % 64) ::
        urlsafeB64encode rest

/-- The padding that completes a number of characters to a multiple of four. -/
def padding (length : ℕ) : List Char := List.replicate ((4 - length % 4) % 4) '='

/-! ## Reading -/

/-- Read on at a place in a group of four characters, with the bits that are left over and the
number of paddings seen. -/
def decodeFrom : ℕ → ℕ → ℕ → List Char → Option (List UInt8)
  | place, _, _, [] => if place = 0 then some [] else none
  | place, left, pads, c :: rest =>
    if c = '=' then
      if 2 ≤ place then
        if 4 ≤ place + (pads + 1) then some [] else decodeFrom place left (pads + 1) rest
      else decodeFrom place left pads rest
    else match alphabetIndex c with
      | none => decodeFrom place left pads rest
      | some n =>
        match place with
        | 0 => decodeFrom 1 n 0 rest
        | 1 => (decodeFrom 2 (n % 16) 0 rest).map (UInt8.ofNat (left * 4 + n / 16) :: ·)
        | 2 => (decodeFrom 3 (n % 4) 0 rest).map (UInt8.ofNat (left * 16 + n / 4) :: ·)
        | _ => (decodeFrom 0 0 0 rest).map (UInt8.ofNat (left * 64 + n) :: ·)

/-- The bytes of characters; none when a character is not ASCII or the padding is wrong. -/
def urlsafeB64decode (text : List Char) : Option (List UInt8) :=
  if text.any fun c => decide (128 ≤ c.toNat) then none else decodeFrom 0 0 0 text

section Characters

variable {n : ℕ} (h : n < 64) (left pads : ℕ) (rest : List Char)

include h

/-- The first character of a group. -/
theorem decodeFrom_first :
    decodeFrom 0 left pads (urlsafeChar n :: rest) = decodeFrom 1 n 0 rest := by
  obtain ⟨hindex, hpad, -⟩ := alphabetIndex_urlsafeChar h
  simp only [decodeFrom, if_neg hpad, hindex]

/-- The second character of a group. -/
theorem decodeFrom_second : decodeFrom 1 left pads (urlsafeChar n :: rest) =
    (decodeFrom 2 (n % 16) 0 rest).map (UInt8.ofNat (left * 4 + n / 16) :: ·) := by
  obtain ⟨hindex, hpad, -⟩ := alphabetIndex_urlsafeChar h
  simp only [decodeFrom, if_neg hpad, hindex]

/-- The third character of a group. -/
theorem decodeFrom_third : decodeFrom 2 left pads (urlsafeChar n :: rest) =
    (decodeFrom 3 (n % 4) 0 rest).map (UInt8.ofNat (left * 16 + n / 4) :: ·) := by
  obtain ⟨hindex, hpad, -⟩ := alphabetIndex_urlsafeChar h
  simp only [decodeFrom, if_neg hpad, hindex]

/-- The fourth character of a group. -/
theorem decodeFrom_fourth : decodeFrom 3 left pads (urlsafeChar n :: rest) =
    (decodeFrom 0 0 0 rest).map (UInt8.ofNat (left * 64 + n) :: ·) := by
  obtain ⟨hindex, hpad, -⟩ := alphabetIndex_urlsafeChar h
  simp only [decodeFrom, if_neg hpad, hindex]

end Characters

/-- A byte is given back by its number. -/
theorem ofNat_eq_of_toNat {a : UInt8} {n : ℕ} (h : n = a.toNat) : UInt8.ofNat n = a := by
  rw [h, UInt8.ofNat_toNat]

/-- What is written and padded is read back. -/
theorem decodeFrom_encode (bytes : List UInt8) :
    decodeFrom 0 0 0 (urlsafeB64encode bytes ++ padding (urlsafeB64encode bytes).length) =
      some bytes := by
  induction bytes using urlsafeB64encode.induct with
  | case1 => rfl
  | case2 a =>
    have ha := a.toNat_lt
    have hfirst : UInt8.ofNat (a.toNat / 4 * 4 + a.toNat % 4 * 16 / 16) = a :=
      ofNat_eq_of_toNat (by omega)
    simp only [urlsafeB64encode, List.cons_append, List.nil_append]
    rw [decodeFrom_first (by omega), decodeFrom_second (by omega), hfirst]
    rfl
  | case3 a b =>
    have ha := a.toNat_lt
    have hb := b.toNat_lt
    have hfirst : UInt8.ofNat (a.toNat / 4 * 4 + (a.toNat % 4 * 16 + b.toNat / 16) / 16) = a :=
      ofNat_eq_of_toNat (by omega)
    have hsecond : UInt8.ofNat ((a.toNat % 4 * 16 + b.toNat / 16) % 16 * 16 +
        b.toNat % 16 * 4 / 4) = b := ofNat_eq_of_toNat (by omega)
    simp only [urlsafeB64encode, List.cons_append, List.nil_append]
    rw [decodeFrom_first (by omega), decodeFrom_second (by omega), decodeFrom_third (by omega),
      hfirst, hsecond]
    rfl
  | case4 a b c rest ih =>
    have ha := a.toNat_lt
    have hb := b.toNat_lt
    have hc := c.toNat_lt
    have hfirst : UInt8.ofNat (a.toNat / 4 * 4 + (a.toNat % 4 * 16 + b.toNat / 16) / 16) = a :=
      ofNat_eq_of_toNat (by omega)
    have hsecond : UInt8.ofNat ((a.toNat % 4 * 16 + b.toNat / 16) % 16 * 16 +
        (b.toNat % 16 * 4 + c.toNat / 64) / 4) = b := ofNat_eq_of_toNat (by omega)
    have hthird : UInt8.ofNat ((b.toNat % 16 * 4 + c.toNat / 64) % 4 * 64 + c.toNat % 64) = c :=
      ofNat_eq_of_toNat (by omega)
    have hpadding : padding ((urlsafeB64encode rest).length + 4) =
        padding (urlsafeB64encode rest).length := by
      rw [padding, padding, Nat.add_mod_right]
    simp only [urlsafeB64encode, List.cons_append, List.length_cons, hpadding]
    rw [decodeFrom_first (by omega), decodeFrom_second (by omega), decodeFrom_third (by omega),
      decodeFrom_fourth (by omega), hfirst, hsecond, hthird, ih]
    rfl

/-- The characters of bytes are ASCII. -/
theorem ascii_of_mem_encode (bytes : List UInt8) :
    ∀ c ∈ urlsafeB64encode bytes, c.toNat < 128 := by
  have hchar : ∀ n < 64, (urlsafeChar n).toNat < 128 := fun n hn =>
    (alphabetIndex_urlsafeChar hn).2.2
  induction bytes using urlsafeB64encode.induct with
  | case1 => simp [urlsafeB64encode]
  | case2 a =>
    have ha := a.toNat_lt
    simp only [urlsafeB64encode, List.mem_cons, List.not_mem_nil, or_false, forall_eq_or_imp,
      forall_eq]
    exact ⟨hchar _ (by omega), hchar _ (by omega)⟩
  | case3 a b =>
    have ha := a.toNat_lt
    have hb := b.toNat_lt
    simp only [urlsafeB64encode, List.mem_cons, List.not_mem_nil, or_false, forall_eq_or_imp,
      forall_eq]
    exact ⟨hchar _ (by omega), hchar _ (by omega), hchar _ (by omega)⟩
  | case4 a b c rest ih =>
    have ha := a.toNat_lt
    have hb := b.toNat_lt
    have hc := c.toNat_lt
    simp only [urlsafeB64encode, List.mem_cons, forall_eq_or_imp]
    exact ⟨hchar _ (by omega), hchar _ (by omega), hchar _ (by omega), hchar _ (by omega), ih⟩

/-- What is written and padded is read back. -/
theorem urlsafeB64decode_encode (bytes : List UInt8) :
    urlsafeB64decode (urlsafeB64encode bytes ++ padding (urlsafeB64encode bytes).length) =
      some bytes := by
  have hascii : ((urlsafeB64encode bytes ++ padding (urlsafeB64encode bytes).length).any
      fun c => decide (128 ≤ c.toNat)) = false := by
    rw [List.any_eq_false]
    intro c hc
    rw [decide_eq_true_eq, Nat.not_le]
    rcases List.mem_append.mp hc with hc | hc
    · exact ascii_of_mem_encode bytes c hc
    · rw [List.eq_of_mem_replicate hc]
      decide
  rw [urlsafeB64decode, hascii, if_neg Bool.false_ne_true]
  exact decodeFrom_encode bytes

end Foundation
