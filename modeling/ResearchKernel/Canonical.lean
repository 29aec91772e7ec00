import Mathlib.Data.List.Sort
import ResearchKernel.Foundation.Checks
import ResearchKernel.Json

/-!
# Canonical JSON text

Statements, contracts and selected subgraphs are identified by the digest of a canonical
text. Two normalizations exist: the one of the wire, used for contracts, and the one of
the composition rules, which also orders the arrays that stand for sets. Both are
written out by the same compact serialization with sorted keys.
-/

namespace ResearchKernel

open Foundation

/-- Carriage returns become line feeds, alone or before a line feed. -/
def lineFeeds : List Char → List Char
  | [] => []
  | '\r' :: '\n' :: rest => '\n' :: lineFeeds rest
  | '\r' :: rest => '\n' :: lineFeeds rest
  | c :: rest => c :: lineFeeds rest

/-- Line endings and Unicode composition of a text are made canonical. -/
def normalString (P : Platform) (text : String) : String :=
  P.nfc (String.ofList (lineFeeds text.toList))

/-- Sorted without repetitions, as `sorted(set(texts))`. -/
def sortedSet (texts : List String) : List String :=
  (texts.dedup).insertionSort (· ≤ ·)

/-! ## Serialization -/

/-- A hexadecimal digit. -/
def hexDigit (n : ℕ) : Char :=
  if n < 10 then Char.ofNat (48 + n) else Char.ofNat (87 + n)

/-- One character inside a JSON string literal. -/
def escapeChar (c : Char) : List Char :=
  if c = '"' then ['\\', '"']
  else if c = '\\' then ['\\', '\\']
  else if c = '\n' then ['\\', 'n']
  else if c = '\r' then ['\\', 'r']
  else if c = '\t' then ['\\', 't']
  else if c.toNat = 8 then ['\\', 'b']
  else if c.toNat = 12 then ['\\', 'f']
  else if c.toNat < 32 then ['\\', 'u', '0', '0', hexDigit (c.toNat / 16), hexDigit (c.toNat % 16)]
  else [c]

/-- A JSON string literal. -/
def quoteText (text : String) : List Char :=
  '"' :: (text.toList.flatMap escapeChar ++ ['"'])

/-- Texts separated by commas. -/
def joinCommas : List (List Char) → List Char
  | [] => []
  | [last] => last
  | first :: rest => first ++ ',' :: joinCommas rest

mutual

/-- The text of `json.dumps` with sorted keys and without spaces. -/
def dumps : Json → List Char
  | .null => "null".toList
  | .bool true => "true".toList
  | .bool false => "false".toList
  | .int value => (toString value).toList
  | .str text => quoteText text
  | .arr items => '[' :: (joinCommas (dumpItems items) ++ [']'])
  | .obj fields =>
    let members := (dumpFields fields).insertionSort fun a b => a.1 ≤ b.1
    '{' :: (joinCommas (members.map fun m => quoteText m.1 ++ ':' :: m.2) ++ ['}'])
termination_by structural value => value

/-- The texts of the elements of an array. -/
def dumpItems : List Json → List (List Char)
  | [] => []
  | item :: items => dumps item :: dumpItems items
termination_by structural items => items

/-- The texts of the members of an object, with their keys. -/
def dumpFields : List (String × Json) → List (String × List Char)
  | [] => []
  | field :: fields => dumpField field :: dumpFields fields
termination_by structural fields => fields

/-- The text of one member of an object, with its key. -/
def dumpField : String × Json → String × List Char
  | (key, value) => (key, dumps value)
termination_by structural field => field

end

/-! ## The normalization of the wire -/

namespace Wire

mutual

/-- Normalize every text and key; two keys of one object may not become equal. -/
def normalize (P : Platform) : Json → Option Json
  | .null => some .null
  | .bool value => some (.bool value)
  | .int value => some (.int value)
  | .str text => some (.str (normalString P text))
  | .arr items => (normalizeItems P items).map .arr
  | .obj fields => (normalizeFields P fields []).map .obj
termination_by structural value => value

/-- Normalize the elements of an array. -/
def normalizeItems (P : Platform) : List Json → Option (List Json)
  | [] => some []
  | item :: items => do
    let item ← normalize P item
    let items ← normalizeItems P items
    return item :: items
termination_by structural items => items

/-- Normalize the members of an object, after those already done. -/
def normalizeFields (P : Platform) :
    List (String × Json) → List (String × Json) → Option (List (String × Json))
  | [], done => some done.reverse
  | field :: fields, done => do
    let (key, value) ← normalizeField P field
    require (!JsonObject.has done key)
    normalizeFields P fields ((key, value) :: done)
termination_by structural fields => fields

/-- Normalize the key and the value of one member. The key keeps its line endings. -/
def normalizeField (P : Platform) : String × Json → Option (String × Json)
  | (key, value) => do
    let value ← normalize P value
    return (P.nfc key, value)
termination_by structural field => field

end

/-- The canonical text of a wire value; none when two keys collide. -/
def canonicalJsonBytes (P : Platform) (value : Json) : Option (List Char) :=
  (normalize P value).map dumps

end Wire

/-! ## The normalization of the composition rules -/

/-- The arrays of a selected subgraph whose entries carry an identifier, and its name. -/
def collectionKeys : List (String × String) :=
  [("claims", "claim_id"), ("edges", "edge_id"), ("obligations", "obligation_id"),
    ("bridges", "bridge_id"), ("cuts", "cut_id")]

/-- The arrays that stand for sets of texts. -/
def setArrayKeys : List String :=
  ["bridge_dependency_ids", "child_claim_ids", "discharged_obligation_ids", "evidence_ids",
    "from_claim_ids", "human_attestation_review_ids", "human_review_ids", "open_obligation_ids",
    "verification_refs"]

/-- The identifier of a collection entry. -/
def entryId (idKey : String) : Json → Option String
  | .obj fields => (JsonObject.get fields idKey).text?
  | _ => none

/-- All the identifiers of a collection, none when an entry has none. -/
def entryIds (idKey : String) (items : List Json) : Option (List String) :=
  items.mapM (entryId idKey)

/-- All elements as texts, none when one is not a text. -/
def asTexts (items : List Json) : Option (List String) :=
  items.mapM Json.text?

/-- The canonical order of an array, which depends on the key that holds it. -/
def normalizeArray (parentKey : Option String) (items : List Json) : Except String Json :=
  match parentKey.bind fun key => collectionKeys.lookup key with
  | some idKey =>
    let name := parentKey.getD ""
    match entryIds idKey items with
    | none => .error (name ++ " entries require " ++ idKey)
    | some ids =>
      if ids.Nodup then
        let keyed := (ids.zip items).insertionSort fun a b => a.1 ≤ b.1
        .ok (.arr (keyed.map Prod.snd))
      else .error ("duplicate " ++ idKey ++ " in " ++ name)
  | none =>
    let key := parentKey.getD ""
    if setArrayKeys.contains key || key.endsWith "_ids" then
      match asTexts items with
      | some texts => .ok (Json.ofTexts (sortedSet texts))
      | none => .ok (.arr items)
    else .ok (.arr items)

mutual

/-- The canonical form of a value held under `parentKey`, or the text of the error. -/
def normalize (P : Platform) (parentKey : Option String) : Json → Except String Json
  | .null => .ok .null
  | .bool value => .ok (.bool value)
  | .int value => .ok (.int value)
  | .str text => .ok (.str (normalString P text))
  | .arr items => do
    let items ← normalizeItems P items
    normalizeArray parentKey items
  | .obj fields => do
    let fields ← normalizeFields P fields []
    return .obj fields
termination_by structural value => value

/-- The canonical forms of the elements of an array. -/
def normalizeItems (P : Platform) : List Json → Except String (List Json)
  | [] => .ok []
  | item :: items => do
    let item ← normalize P none item
    let items ← normalizeItems P items
    return item :: items
termination_by structural items => items

/-- The canonical forms of the members of an object, after those already done. -/
def normalizeFields (P : Platform) :
    List (String × Json) → List (String × Json) → Except String (List (String × Json))
  | [], done => .ok done.reverse
  | field :: fields, done => do
    let member ← normalizeField P field done
    normalizeFields P fields (member :: done)
termination_by structural fields => fields

/-- The canonical form of one member. Its key may not collide with an earlier one. -/
def normalizeField (P : Platform) :
    String × Json → List (String × Json) → Except String (String × Json)
  | (rawKey, rawValue), done => do
    let key := normalString P rawKey
    rejectIf (JsonObject.has done key) "object keys collide after NFC normalization"
    let value ← normalize P (some key) rawValue
    return (key, value)
termination_by structural field => field

end

/-- The canonical text of a value under the composition rules. -/
def canonicalJsonBytes (P : Platform) (value : Json) : Except String (List Char) := do
  let normalized ← normalize P none value
  return dumps normalized

end ResearchKernel
