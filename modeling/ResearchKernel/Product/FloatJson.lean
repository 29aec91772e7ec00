import Mathlib.Data.List.Sort
import Mathlib.Data.String.Basic
import ResearchKernel.Foundation.Dict

/-!
# JSON values with floating point numbers

Tables of the product keep values as JSON texts with sorted keys. What is read back from such
a text is the value with the members of its objects in the order of their keys. Floating point
numbers are a parameter: they are stored and compared, never computed with.
-/

namespace ResearchKernel.Product

open Foundation

/-- A JSON value with floating point numbers from `F`. -/
inductive FloatJson (F : Type) where
  | null
  | bool (value : Bool)
  | int (value : ℤ)
  | float (value : F)
  | str (text : String)
  | arr (items : List (FloatJson F))
  | obj (fields : List (String × FloatJson F))

namespace FloatJson

variable {F : Type}

/-- Put the members of an object in the order of their keys. -/
def sortKeys (fields : List (String × FloatJson F)) : List (String × FloatJson F) :=
  fields.insertionSort fun a b => a.1 ≤ b.1

mutual

/-- What is read back of a value that was stored as a JSON text with sorted keys. -/
def stored : FloatJson F → FloatJson F
  | .arr items => .arr (storedItems items)
  | .obj fields => .obj (sortKeys (storedFields fields))
  | .null => .null
  | .bool value => .bool value
  | .int value => .int value
  | .float value => .float value
  | .str text => .str text
termination_by structural value => value

/-- What is read back of the elements of an array. -/
def storedItems : List (FloatJson F) → List (FloatJson F)
  | [] => []
  | item :: items => stored item :: storedItems items
termination_by structural items => items

/-- What is read back of the members of an object, before they are sorted. -/
def storedFields : List (String × FloatJson F) → List (String × FloatJson F)
  | [] => []
  | field :: fields => storedField field :: storedFields fields
termination_by structural fields => fields

/-- What is read back of a member. -/
def storedField : String × FloatJson F → String × FloatJson F
  | (key, value) => (key, stored value)
termination_by structural field => field

end

/-- How floating point numbers compare with each other and with integers. -/
structure FloatOps (F : Type) where
  eqFloat : F → F → Bool
  eqInt : F → ℤ → Bool

mutual

/-- Equality of Python values. -/
def eqv (ops : FloatOps F) : FloatJson F → FloatJson F → Bool
  | .null, .null => true
  | .bool a, .bool b => a == b
  | .bool a, .int n => n == a.toNat
  | .int n, .bool a => n == a.toNat
  | .int m, .int n => m == n
  | .float x, .float y => ops.eqFloat x y
  | .float x, .int n => ops.eqInt x n
  | .int n, .float x => ops.eqInt x n
  | .float x, .bool a => ops.eqInt x a.toNat
  | .bool a, .float x => ops.eqInt x a.toNat
  | .str s, .str t => s == t
  | .arr xs, .arr ys => eqvItems ops xs ys
  | .obj fs, .obj gs => fs.length == gs.length && eqvFields ops fs gs
  | _, _ => false
termination_by structural x => x

/-- Equality of arrays, element by element. -/
def eqvItems (ops : FloatOps F) : List (FloatJson F) → List (FloatJson F) → Bool
  | [], [] => true
  | x :: xs, y :: ys => eqv ops x y && eqvItems ops xs ys
  | _, _ => false
termination_by structural x => x

/-- Whether every member of the first object is a member of the second. -/
def eqvFields (ops : FloatOps F) :
    List (String × FloatJson F) → List (String × FloatJson F) → Bool
  | [], _ => true
  | field :: fields, others => eqvField ops field others && eqvFields ops fields others
termination_by structural x => x

/-- Whether a member occurs with an equal value in the second object. -/
def eqvField (ops : FloatOps F) : String × FloatJson F → List (String × FloatJson F) → Bool
  | (key, value), others =>
    match others.lookup key with
    | some other => eqv ops value other
    | none => false
termination_by structural x => x

end

/-- The members of an object. -/
def mapping? : FloatJson F → Option (List (String × FloatJson F))
  | .obj fields => some fields
  | _ => none

/-- The elements of an array. -/
def sequence? : FloatJson F → Option (List (FloatJson F))
  | .arr items => some items
  | _ => none

def text? : FloatJson F → Option String
  | .str text => some text
  | _ => none

/-- An integer. -/
def int? : FloatJson F → Option ℤ
  | .int value => some value
  | _ => none

/-- A text or `null`. -/
def optionalText? : FloatJson F → Option (Option String)
  | .null => some none
  | .str text => some (some text)
  | _ => none

/-- An array of texts. -/
def ofTexts (texts : List String) : FloatJson F := .arr (texts.map .str)

/-- A text or `null`, as JSON. -/
def ofText? : Option String → FloatJson F
  | some text => .str text
  | none => .null

/-! ## Reading back -/

theorem storedItems_eq_map (items : List (FloatJson F)) : storedItems items = items.map stored := by
  induction items with
  | nil => rfl
  | cons item items ih => rw [storedItems, List.map_cons, ih]

theorem storedFields_eq_map (fields : List (String × FloatJson F)) :
    storedFields fields = fields.map fun field => (field.1, stored field.2) := by
  induction fields with
  | nil => rfl
  | cons field fields ih =>
    obtain ⟨key, value⟩ := field
    rw [storedFields, List.map_cons, ih, storedField]

instance : Std.Total fun a b : String × FloatJson F => a.1 ≤ b.1 where
  total a b := le_total a.1 b.1

instance : IsTrans (String × FloatJson F) fun a b => a.1 ≤ b.1 where
  trans _ _ _ hab hbc := le_trans hab hbc

/-- Members that were read back once are read back as they are, if their values are. -/
theorem sortKeys_map_stored (fields : List (String × FloatJson F)) :
    (sortKeys fields).map (fun field => (field.1, stored field.2)) =
      sortKeys (fields.map fun field => (field.1, stored field.2)) :=
  List.map_insertionSort (fun a b => a.1 ≤ b.1) (fun a b => a.1 ≤ b.1)
    (fun field => (field.1, stored field.2)) fields fun _ _ _ _ => Iff.rfl

/-- Sorting twice is sorting once. -/
theorem sortKeys_sortKeys (fields : List (String × FloatJson F)) :
    sortKeys (sortKeys fields) = sortKeys fields :=
  List.Pairwise.insertionSort_eq (List.pairwise_insertionSort _ fields)

mutual

/-- What was read back of a stored text is read back again as it is. -/
theorem stored_stored : ∀ value : FloatJson F, stored (stored value) = stored value
  | .null | .bool _ | .int _ | .float _ | .str _ => rfl
  | .arr items => by rw [stored, stored, storedItems_storedItems items]
  | .obj fields => by
    rw [stored, stored, storedFields_eq_map (sortKeys _), sortKeys_map_stored,
      sortKeys_sortKeys, ← storedFields_eq_map, storedFields_storedFields fields]

theorem storedItems_storedItems :
    ∀ items : List (FloatJson F), storedItems (storedItems items) = storedItems items
  | [] => rfl
  | item :: items => by
    rw [storedItems, storedItems, stored_stored item, storedItems_storedItems items]

theorem storedFields_storedFields :
    ∀ fields : List (String × FloatJson F), storedFields (storedFields fields) = storedFields fields
  | [] => rfl
  | field :: fields => by
    rw [storedFields, storedFields, storedField_storedField field,
      storedFields_storedFields fields]

theorem storedField_storedField :
    ∀ field : String × FloatJson F, storedField (storedField field) = storedField field
  | (key, value) => by rw [storedField, storedField, stored_stored value]

end

/-- A member is found in an object that was read back as it was stored. -/
theorem lookup_stored {fields : List (String × FloatJson F)} (h : (fields.map Prod.fst).Nodup)
    (key : String) :
    (sortKeys (storedFields fields)).lookup key = (fields.lookup key).map stored :=
  lookup_of_perm_map h (storedFields_eq_map fields ▸ List.perm_insertionSort _ _) key

end FloatJson

end ResearchKernel.Product
