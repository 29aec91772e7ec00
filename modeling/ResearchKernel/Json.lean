import Mathlib.Data.List.Basic
import Mathlib.Data.Int.Notation

/-!
# JSON values as the kernel reads them

Free-form fields of requests and rows are JSON values. Requests that contain floating
point numbers are refused before they reach the kernel, so numbers are integers. The
readers below follow the Python operations the kernel applies to such values: `get`
with and without a default, equality (in which `true` equals `1`), truth values,
membership of a type, iteration and conversion to text.
-/

namespace ResearchKernel

/-- A JSON value without floating point numbers. -/
inductive Json where
  /-- The value `null`, read as `None`. -/
  | null
  /-- A truth value. -/
  | bool (value : Bool)
  /-- An integer of any size. -/
  | int (value : ℤ)
  /-- A text. -/
  | str (text : String)
  /-- An array. -/
  | arr (items : List Json)
  /-- An object, as the list of its members. -/
  | obj (fields : List (String × Json))

/-- An object, as the list of its members. -/
abbrev JsonObject := List (String × Json)

/-- What the kernel takes from the Python runtime and from its hash functions. -/
structure Platform where
  /-- Unicode normalization form C. -/
  nfc : String → String
  /-- The hexadecimal SHA-256 digest of the UTF-8 encoding of a text. -/
  sha256 : List Char → String
  /-- The hexadecimal HMAC-SHA-256 of a text under a key given as bytes. -/
  hmacSha256 : List ℕ → List Char → String
  /-- The version 5 UUID of a name in the URL namespace. -/
  uuid5 : String → String
  /-- The text `str` gives for a list or a dictionary. -/
  repr : Json → String
  /-- The integer that `int` reads from a text. -/
  parseInt : String → Option ℤ

namespace JsonObject

/-- The member with the given key, `null` when there is none. -/
def get (o : JsonObject) (key : String) : Json :=
  (o.lookup key).getD .null

/-- The member with the given key, a default when there is none. -/
def getOr (o : JsonObject) (key : String) (default : Json) : Json :=
  (o.lookup key).getD default

/-- Whether the object has a member with the given key. -/
def has (o : JsonObject) (key : String) : Bool :=
  (o.lookup key).isSome

/-- Whether the keys of the object are exactly the given ones. -/
def hasExactly (o : JsonObject) (keys : List String) : Bool :=
  keys.all (o.has ·) && o.all fun member => keys.contains member.1

end JsonObject

namespace Json

mutual

/-- Equality of Python values: `True` equals `1`, `False` equals `0`, and objects are
compared as dictionaries. -/
def eqv : Json → Json → Bool
  | .null, .null => true
  | .bool a, .bool b => a == b
  | .bool a, .int n => n == a.toNat
  | .int n, .bool a => n == a.toNat
  | .int m, .int n => m == n
  | .str s, .str t => s == t
  | .arr xs, .arr ys => eqvItems xs ys
  | .obj fs, .obj gs => fs.length == gs.length && eqvFields fs gs
  | _, _ => false
termination_by structural x => x

/-- Equality of arrays, element by element. -/
def eqvItems : List Json → List Json → Bool
  | [], [] => true
  | x :: xs, y :: ys => eqv x y && eqvItems xs ys
  | _, _ => false
termination_by structural x => x

/-- Whether every member of the first object is a member of the second. -/
def eqvFields : List (String × Json) → List (String × Json) → Bool
  | [], _ => true
  | field :: fields, others => eqvField field others && eqvFields fields others
termination_by structural x => x

/-- Whether a member occurs with an equal value in the second object. -/
def eqvField : String × Json → List (String × Json) → Bool
  | (key, value), others =>
    match others.lookup key with
    | some other => eqv value other
    | none => false
termination_by structural x => x

end

/-- Truth value of a Python object. -/
def truthy : Json → Bool
  | .null => false
  | .bool value => value
  | .int value => value != 0
  | .str text => text != ""
  | .arr items => !items.isEmpty
  | .obj fields => !fields.isEmpty

/-- The test `value is True`. -/
def isTrue : Json → Bool
  | .bool value => value
  | _ => false

/-- The test `value is None`. -/
def isNull : Json → Bool
  | .null => true
  | _ => false

/-- The test `value == text`. -/
def isText (text : String) : Json → Bool
  | .str value => value == text
  | _ => false

/-- The members of an object. -/
def mapping? : Json → Option JsonObject
  | .obj fields => some fields
  | _ => none

/-- The elements of an array. -/
def sequence? : Json → Option (List Json)
  | .arr items => some items
  | _ => none

/-- The characters of a text. -/
def text? : Json → Option String
  | .str text => some text
  | _ => none

/-- An integer that is not a truth value. -/
def int? : Json → Option ℤ
  | .int value => some value
  | _ => none

/-- What a `for` loop over the value runs through; none when the value is not iterable. -/
def elements : Json → Option (List Json)
  | .arr items => some items
  | .obj fields => some (fields.map fun member => .str member.1)
  | .str text => some (text.toList.map fun c => .str (String.singleton c))
  | _ => none

/-- Conversion of a value to text. -/
def toText (P : Platform) : Json → String
  | .null => "None"
  | .bool true => "True"
  | .bool false => "False"
  | .int value => toString value
  | .str text => text
  | value => P.repr value

/-- An array of texts. -/
def ofTexts (texts : List String) : Json :=
  .arr (texts.map .str)

/-- A text or `null`. -/
def ofText? : Option String → Json
  | some text => .str text
  | none => .null

variable {text : String} {value : Json}

@[simp] theorem isText_iff :
    value.isText text = true ↔ value = .str text := by
  cases value <;> simp [isText]

@[simp] theorem mapping?_eq_some {fields : JsonObject} :
    value.mapping? = some fields ↔ value = .obj fields := by
  cases value <;> simp [mapping?]

@[simp] theorem text?_eq_some :
    value.text? = some text ↔ value = .str text := by
  cases value <;> simp [text?]

@[simp] theorem eqv_str :
    value.eqv (.str text) = true ↔ value = .str text := by
  cases value <;> simp [eqv]

end Json

/-- The characters that `str.strip` removes. -/
def isSpace (c : Char) : Bool :=
  let n := c.toNat
  (9 ≤ n && n ≤ 13) || (28 ≤ n && n ≤ 32) || n == 0x85 || n == 0xA0 || n == 0x1680 ||
    (0x2000 ≤ n && n ≤ 0x200A) || n == 0x2028 || n == 0x2029 || n == 0x202F || n == 0x205F ||
    n == 0x3000

/-- Whether nothing is left of a text after `str.strip`. -/
def isBlank (text : String) : Bool :=
  text.toList.all isSpace

end ResearchKernel
