import Mathlib.Data.List.Dedup
import Mathlib.Data.String.Basic
import ResearchKernel.Canonical.Texts
import ResearchKernel.Foundation.Dict

/-!
# Where the two normalizations agree

A contract is hashed under the normalization of the wire when it is created, and under that
of the composition rules when its root is registered. The second one also normalizes the
line endings of keys and orders the arrays under certain keys. The two give the same text
exactly for the values on which it has nothing to do.
-/

namespace ResearchKernel

open Foundation

/-! ## Values that the composition rules leave as they are -/

/-- The text that an entry has under a name, normalized. -/
def namedText (P : Platform) (name : String) : Json → Option String
  | .obj fields =>
    ((fields.find? fun field => P.nfc field.1 == name).bind fun field => field.2.text?).map
      (normalString P)
  | _ => none

/-- Whether each text is less than those after it. -/
def ascending (texts : List String) : Bool := decide (texts.Pairwise (· < ·))

/-- Whether an array under the given key needs no reordering: the entries of a collection
have identifiers in ascending order, and so are the texts of a set. -/
def arrayInOrder (P : Platform) (parentKey : Option String) (items : List Json) : Bool :=
  match parentKey.bind fun key => collectionKeys.lookup key with
  | some idKey => (items.mapM (namedText P idKey)).any ascending
  | none =>
    let key := parentKey.getD ""
    if setArrayKeys.contains key || key.endsWith "_ids" then
      (asTexts items).all fun texts => ascending (texts.map (normalString P))
    else true

mutual

/-- Whether every array in a value is in order, and no key has a carriage return. -/
def inOrder (P : Platform) (parentKey : Option String) : Json → Bool
  | .arr items => itemsInOrder P items && arrayInOrder P parentKey items
  | .obj fields => fieldsInOrder P fields
  | _ => true
termination_by structural value => value

/-- Whether every element of an array is in order. -/
def itemsInOrder (P : Platform) : List Json → Bool
  | [] => true
  | item :: items => inOrder P none item && itemsInOrder P items
termination_by structural items => items

/-- Whether every member of an object is in order. -/
def fieldsInOrder (P : Platform) : List (String × Json) → Bool
  | [] => true
  | field :: fields => fieldInOrder P field && fieldsInOrder P fields
termination_by structural fields => fields

/-- Whether a member is in order. -/
def fieldInOrder (P : Platform) : String × Json → Bool
  | (key, value) => !key.toList.contains '\r' && inOrder P (some (P.nfc key)) value
termination_by structural field => field

end

/-- Normalization form C neither adds nor removes carriage returns. -/
def KeepsReturns (P : Platform) : Prop :=
  ∀ text, '\r' ∈ (P.nfc text).toList ↔ '\r' ∈ text.toList

/-! ## Induction and inversion -/

/-- Induction over values, with a hypothesis for every element and every member. -/
theorem Json.ind {motive : Json → Prop} (null : motive .null) (bool : ∀ b, motive (.bool b))
    (int : ∀ n, motive (.int n)) (str : ∀ text, motive (.str text))
    (arr : ∀ items, (∀ item ∈ items, motive item) → motive (.arr items))
    (obj : ∀ fields : List (String × Json), (∀ field ∈ fields, motive field.2) →
      motive (.obj fields)) (value : Json) : motive value := by
  refine @Json.rec motive (fun items => ∀ item ∈ items, motive item)
    (fun fields => ∀ field ∈ fields, motive field.2) (fun field => motive field.2) null bool int
    str arr obj ?_ ?_ ?_ ?_ ?_ value
  · simp
  · intro item items hitem hitems other hother
    rcases List.mem_cons.mp hother with rfl | hother
    · exact hitem
    · exact hitems other hother
  · simp
  · intro field fields hfield hfields other hother
    rcases List.mem_cons.mp hother with rfl | hother
    · exact hfield
    · exact hfields other hother
  · exact fun _ _ hvalue => hvalue

variable {P : Platform}

theorem itemsInOrder_iff {items : List Json} :
    itemsInOrder P items = true ↔ ∀ item ∈ items, inOrder P none item = true := by
  induction items with
  | nil => simp [itemsInOrder]
  | cons item items ih => simp [itemsInOrder, ih]

theorem fieldsInOrder_iff {fields : List (String × Json)} :
    fieldsInOrder P fields = true ↔ ∀ field ∈ fields,
      '\r' ∉ field.1.toList ∧ inOrder P (some (P.nfc field.1)) field.2 = true := by
  induction fields with
  | nil => simp [fieldsInOrder]
  | cons field fields ih =>
    obtain ⟨key, value⟩ := field
    simp [fieldsInOrder, fieldInOrder, ih]

/-- An object has a member with a key if the key is among its keys. -/
theorem has_iff {fields : JsonObject} {key : String} :
    fields.has key = true ↔ key ∈ fields.map Prod.fst := by
  simp [JsonObject.has]

/-- The elements of an array on the wire. -/
theorem Wire.normalizeItems_eq_some {items ws : List Json} :
    Wire.normalizeItems P items = some ws ↔
      List.Forall₂ (fun item w => Wire.normalize P item = some w) items ws := by
  induction items generalizing ws with
  | nil => simp [Wire.normalizeItems, eq_comm]
  | cons item items ih =>
    rw [Wire.normalizeItems, List.forall₂_cons_left_iff]
    constructor
    · intro h
      obtain ⟨w, hw, h⟩ := Option.bind_eq_some_iff.mp h
      obtain ⟨rest, hrest, h⟩ := Option.bind_eq_some_iff.mp h
      exact ⟨w, rest, hw, ih.mp hrest, (Option.some.inj h).symm⟩
    · rintro ⟨w, rest, hw, hrest, rfl⟩
      simp [hw, ih.mpr hrest]

/-- A member on the wire keeps the line endings of its key. -/
def Wire.NormalField (P : Platform) (field normal : String × Json) : Prop :=
  normal.1 = P.nfc field.1 ∧ Wire.normalize P field.2 = some normal.2

theorem Wire.normalizeField_eq_some {field normal : String × Json} :
    Wire.normalizeField P field = some normal ↔ Wire.NormalField P field normal := by
  obtain ⟨key, value⟩ := field
  obtain ⟨key', value'⟩ := normal
  rw [Wire.normalizeField, Wire.NormalField]
  constructor
  · intro h
    obtain ⟨w, hw, h⟩ := Option.bind_eq_some_iff.mp h
    cases Option.some.inj h
    exact ⟨rfl, hw⟩
  · rintro ⟨rfl, hw⟩
    simp [hw]

/-- The members of an object on the wire have distinct keys. -/
theorem Wire.normalizeFields_eq_some {fields done result : JsonObject}
    (hdone : (done.map Prod.fst).Nodup) :
    Wire.normalizeFields P fields done = some result ↔ ∃ normal,
      List.Forall₂ (Wire.NormalField P) fields normal ∧ result = done.reverse ++ normal ∧
        (result.map Prod.fst).Nodup := by
  induction fields generalizing done with
  | nil =>
    simp only [Wire.normalizeFields, Option.some.injEq, List.forall₂_nil_left_iff]
    constructor
    · rintro rfl
      exact ⟨[], rfl, by simp, by simpa using hdone⟩
    · rintro ⟨normal, rfl, hresult, -⟩
      simp [hresult]
  | cons field fields ih =>
    rw [Wire.normalizeFields]
    constructor
    · intro h
      obtain ⟨⟨key, value⟩, hfield, h⟩ := Option.bind_eq_some_iff.mp h
      obtain ⟨⟨⟩, hfresh, h⟩ := Option.bind_eq_some_iff.mp h
      have hnew : key ∉ done.map Prod.fst := by
        rw [require_eq_some, Bool.not_eq_true', ← Bool.not_eq_true, has_iff] at hfresh
        exact hfresh
      have hdone' : (((key, value) :: done).map Prod.fst).Nodup :=
        List.nodup_cons.mpr ⟨hnew, hdone⟩
      obtain ⟨normal, hnormal, hresult, hnodup⟩ := (ih hdone').mp h
      exact ⟨(key, value) :: normal, .cons (normalizeField_eq_some.mp hfield) hnormal,
        by simpa using hresult, hnodup⟩
    · rintro ⟨normal, hnormal, hresult, hnodup⟩
      obtain ⟨⟨key, value⟩, rest, hfield, hrest, rfl⟩ := List.forall₂_cons_left_iff.mp hnormal
      have hnew : key ∉ done.map Prod.fst := by
        intro hmem
        rw [hresult, List.map_append, List.nodup_append] at hnodup
        exact hnodup.2.2 key (by simpa using hmem) key (by simp) rfl
      have hfresh : (!JsonObject.has done key) = true := by
        rw [Bool.not_eq_true', ← Bool.not_eq_true, has_iff]
        exact hnew
      have hdone' : (((key, value) :: done).map Prod.fst).Nodup :=
        List.nodup_cons.mpr ⟨hnew, hdone⟩
      have hlast := (ih hdone').mpr ⟨rest, hrest, by simpa using hresult, hnodup⟩
      exact Option.bind_eq_some_iff.mpr ⟨(key, value), normalizeField_eq_some.mpr hfield,
        Option.bind_eq_some_iff.mpr ⟨(), require_eq_some.mpr hfresh, hlast⟩⟩

/-- A value on the wire, by its kind. -/
theorem Wire.normalize_arr {items : List Json} {w : Json} :
    Wire.normalize P (.arr items) = some w ↔ ∃ ws,
      List.Forall₂ (fun item w => Wire.normalize P item = some w) items ws ∧ w = .arr ws := by
  rw [Wire.normalize, Option.map_eq_some_iff]
  constructor
  · rintro ⟨ws, hws, rfl⟩
    exact ⟨ws, normalizeItems_eq_some.mp hws, rfl⟩
  · rintro ⟨ws, hws, rfl⟩
    exact ⟨ws, normalizeItems_eq_some.mpr hws, rfl⟩

theorem Wire.normalize_obj {fields : JsonObject} {w : Json} :
    Wire.normalize P (.obj fields) = some w ↔ ∃ normal,
      List.Forall₂ (Wire.NormalField P) fields normal ∧ (normal.map Prod.fst).Nodup ∧
        w = .obj normal := by
  rw [Wire.normalize, Option.map_eq_some_iff]
  constructor
  · rintro ⟨result, hresult, rfl⟩
    obtain ⟨normal, hnormal, heq, hnodup⟩ := (normalizeFields_eq_some (by simp)).mp hresult
    rw [List.reverse_nil, List.nil_append] at heq
    subst heq
    exact ⟨result, hnormal, hnodup, rfl⟩
  · rintro ⟨normal, hnormal, hnodup, rfl⟩
    exact ⟨normal, (normalizeFields_eq_some (by simp)).mpr ⟨normal, hnormal, by simp, hnodup⟩, rfl⟩

/-- The elements of an array under the composition rules. -/
theorem normalizeItems_eq_ok {items cs : List Json} :
    normalizeItems P items = .ok cs ↔
      List.Forall₂ (fun item c => normalize P none item = .ok c) items cs := by
  induction items generalizing cs with
  | nil => simp [normalizeItems, eq_comm]
  | cons item items ih =>
    rw [normalizeItems, List.forall₂_cons_left_iff]
    constructor
    · intro h
      obtain ⟨c, hc, h⟩ := bind_eq_ok.mp h
      obtain ⟨rest, hrest, h⟩ := bind_eq_ok.mp h
      exact ⟨c, rest, hc, ih.mp hrest, (pure_eq_ok.mp h).symm⟩
    · rintro ⟨c, rest, hc, hrest, rfl⟩
      exact bind_eq_ok.mpr ⟨c, hc, bind_eq_ok.mpr ⟨rest, ih.mpr hrest, rfl⟩⟩

/-- A member under the composition rules has a key without carriage returns. -/
def NormalField (P : Platform) (field normal : String × Json) : Prop :=
  normal.1 = normalString P field.1 ∧ normalize P (some normal.1) field.2 = .ok normal.2

theorem normalizeField_eq_ok {field normal : String × Json} {done : JsonObject} :
    normalizeField P field done = .ok normal ↔
      normal.1 ∉ done.map Prod.fst ∧ NormalField P field normal := by
  obtain ⟨key, value⟩ := field
  obtain ⟨key', value'⟩ := normal
  rw [normalizeField, NormalField, ← has_iff, Bool.not_eq_true]
  constructor
  · intro h
    obtain ⟨⟨⟩, hfresh, h⟩ := bind_eq_ok.mp h
    obtain ⟨c, hc, h⟩ := bind_eq_ok.mp h
    cases pure_eq_ok.mp h
    exact ⟨by simpa using hfresh, rfl, hc⟩
  · rintro ⟨hfresh, rfl, hc⟩
    exact bind_eq_ok.mpr ⟨(), by simpa using hfresh, bind_eq_ok.mpr ⟨value', hc, rfl⟩⟩

/-- The members of an object under the composition rules have distinct keys. -/
theorem normalizeFields_eq_ok {fields done result : JsonObject}
    (hdone : (done.map Prod.fst).Nodup) :
    normalizeFields P fields done = .ok result ↔ ∃ normal,
      List.Forall₂ (NormalField P) fields normal ∧ result = done.reverse ++ normal ∧
        (result.map Prod.fst).Nodup := by
  induction fields generalizing done with
  | nil =>
    simp only [normalizeFields, Except.ok.injEq, List.forall₂_nil_left_iff]
    constructor
    · rintro rfl
      exact ⟨[], rfl, by simp, by simpa using hdone⟩
    · rintro ⟨normal, rfl, hresult, -⟩
      simp [hresult]
  | cons field fields ih =>
    rw [normalizeFields]
    constructor
    · intro h
      obtain ⟨member, hfield, h⟩ := bind_eq_ok.mp h
      obtain ⟨hnew, hmember⟩ := normalizeField_eq_ok.mp hfield
      have hdone' : ((member :: done).map Prod.fst).Nodup := List.nodup_cons.mpr ⟨hnew, hdone⟩
      obtain ⟨normal, hnormal, hresult, hnodup⟩ := (ih hdone').mp h
      exact ⟨member :: normal, .cons hmember hnormal, by simpa using hresult, hnodup⟩
    · rintro ⟨normal, hnormal, hresult, hnodup⟩
      obtain ⟨member, rest, hmember, hrest, rfl⟩ := List.forall₂_cons_left_iff.mp hnormal
      have hnew : member.1 ∉ done.map Prod.fst := by
        intro hmem
        rw [hresult, List.map_append, List.nodup_append] at hnodup
        exact hnodup.2.2 member.1 (by simpa using hmem) member.1 (by simp) rfl
      have hdone' : ((member :: done).map Prod.fst).Nodup := List.nodup_cons.mpr ⟨hnew, hdone⟩
      have hlast := (ih hdone').mpr ⟨rest, hrest, by simpa using hresult, hnodup⟩
      exact bind_eq_ok.mpr ⟨member, normalizeField_eq_ok.mpr ⟨hnew, hmember⟩, hlast⟩

/-- A value under the composition rules, by its kind. -/
theorem normalize_arr {parentKey : Option String} {items : List Json} {c : Json} :
    normalize P parentKey (.arr items) = .ok c ↔ ∃ cs,
      List.Forall₂ (fun item c => normalize P none item = .ok c) items cs ∧
        normalizeArray parentKey cs = .ok c := by
  rw [normalize, bind_eq_ok]
  constructor
  · rintro ⟨cs, hcs, hc⟩
    exact ⟨cs, normalizeItems_eq_ok.mp hcs, hc⟩
  · rintro ⟨cs, hcs, hc⟩
    exact ⟨cs, normalizeItems_eq_ok.mpr hcs, hc⟩

theorem normalize_obj {parentKey : Option String} {fields : JsonObject} {c : Json} :
    normalize P parentKey (.obj fields) = .ok c ↔ ∃ normal,
      List.Forall₂ (NormalField P) fields normal ∧ (normal.map Prod.fst).Nodup ∧
        c = .obj normal := by
  rw [normalize, bind_eq_ok]
  constructor
  · rintro ⟨result, hresult, hc⟩
    obtain ⟨normal, hnormal, heq, hnodup⟩ := (normalizeFields_eq_ok (by simp)).mp hresult
    rw [List.reverse_nil, List.nil_append] at heq
    subst heq
    exact ⟨result, hnormal, hnodup, (pure_eq_ok.mp hc).symm⟩
  · rintro ⟨normal, hnormal, hnodup, rfl⟩
    exact ⟨normal, (normalizeFields_eq_ok (by simp)).mpr ⟨normal, hnormal, by simp, hnodup⟩, rfl⟩

/-! ## Texts and identifiers -/

/-- No carriage return is left. -/
theorem return_notMem_lineFeeds (text : List Char) : '\r' ∉ lineFeeds text := by
  fun_induction lineFeeds text with
  | case1 => simp
  | case2 rest ih => simpa using ih
  | case3 rest hnext ih => simpa using ih
  | case4 c rest hreturn hnext ih =>
    rw [List.mem_cons, not_or]
    exact ⟨fun h => hnext h.symm, ih⟩

/-- A text without carriage returns stays as it is. -/
theorem lineFeeds_eq_self {text : List Char} (h : '\r' ∉ text) : lineFeeds text = text := by
  fun_induction lineFeeds text with
  | case1 => rfl
  | case2 rest ih => simp at h
  | case3 rest hnext ih => simp at h
  | case4 c rest hreturn hnext ih => rw [ih fun hmem => h (by simp [hmem])]

theorem normalString_of_notMem {key : String} (h : '\r' ∉ key.toList) :
    normalString P key = P.nfc key := by
  rw [normalString, lineFeeds_eq_self h, String.ofList_toList]

/-- The order of a collection, by the identifiers of its entries. -/
def sortedEntries (ids : List String) (items : List Json) : List (String × Json) :=
  (ids.zip items).insertionSort fun a b => a.1 ≤ b.1

/-- What becomes of an array under the given key. -/
inductive Arranged (parentKey : Option String) (items : List Json) : Json → Prop
  | collection (idKey : String) (ids : List String)
      (hkey : (parentKey.bind fun key => collectionKeys.lookup key) = some idKey)
      (hids : entryIds idKey items = some ids) (hnodup : ids.Nodup) :
      Arranged parentKey items (.arr ((sortedEntries ids items).map Prod.snd))
  | set (texts : List String)
      (hkey : (parentKey.bind fun key => collectionKeys.lookup key) = none)
      (hset : (setArrayKeys.contains (parentKey.getD "") ||
        (parentKey.getD "").endsWith "_ids") = true)
      (htexts : asTexts items = some texts) :
      Arranged parentKey items (Json.ofTexts (sortedSet texts))
  | sequence (hkey : (parentKey.bind fun key => collectionKeys.lookup key) = none)
      (hset : (setArrayKeys.contains (parentKey.getD "") ||
        (parentKey.getD "").endsWith "_ids") = true → asTexts items = none) :
      Arranged parentKey items (.arr items)

theorem normalizeArray_cases {parentKey : Option String} {items : List Json} {c : Json}
    (h : normalizeArray parentKey items = .ok c) : Arranged parentKey items c := by
  unfold normalizeArray at h
  dsimp only at h
  split at h
  · rename_i idKey hkey
    split at h
    · cases h
    · rename_i ids hids
      split at h
      · rename_i hnodup
        cases Except.ok.inj h
        exact .collection idKey ids hkey hids hnodup
      · cases h
  · rename_i hkey
    split at h
    · rename_i hset
      split at h
      · rename_i texts htexts
        cases Except.ok.inj h
        exact .set texts hkey hset htexts
      · rename_i htexts
        cases Except.ok.inj h
        exact .sequence hkey fun _ => htexts
    · rename_i hset
      cases Except.ok.inj h
      exact .sequence hkey fun hset' => absurd hset' hset

theorem normalizeArray_eq_arr {parentKey : Option String} {items : List Json} {c : Json}
    (h : normalizeArray parentKey items = .ok c) : ∃ others, c = .arr others := by
  cases normalizeArray_cases h with
  | collection | set | sequence => exact ⟨_, rfl⟩

theorem Wire.text?_of_normalize {value w : Json} (h : Wire.normalize P value = some w) :
    w.text? = value.text?.map (normalString P) := by
  cases value with
  | arr items =>
    obtain ⟨ws, -, rfl⟩ := normalize_arr.mp h
    rfl
  | obj fields =>
    obtain ⟨normal, -, -, rfl⟩ := normalize_obj.mp h
    rfl
  | _ =>
    rw [Wire.normalize] at h
    cases Option.some.inj h
    rfl

theorem text?_of_normalize {parentKey : Option String} {value c : Json}
    (h : normalize P parentKey value = .ok c) :
    c.text? = value.text?.map (normalString P) := by
  cases value with
  | arr items =>
    obtain ⟨cs, -, hc⟩ := normalize_arr.mp h
    obtain ⟨others, rfl⟩ := normalizeArray_eq_arr hc
    rfl
  | obj fields =>
    obtain ⟨normal, -, -, rfl⟩ := normalize_obj.mp h
    rfl
  | _ =>
    rw [normalize] at h
    cases Except.ok.inj h
    rfl

/-- The identifier of a normalized entry. -/
theorem entryId_obj_eq_namedText {name : String} {fields normal : JsonObject}
    (h : List.Forall₂ (fun field member => member.1 = P.nfc field.1 ∧
      member.2.text? = field.2.text?.map (normalString P)) fields normal) :
    entryId name (.obj normal) = namedText P name (.obj fields) := by
  simp only [entryId, namedText, JsonObject.get]
  induction h with
  | nil => rfl
  | @cons field member fields normal hfield _ ih =>
    obtain ⟨key, value⟩ := member
    obtain ⟨hkey, htext⟩ := hfield
    rw [List.lookup_cons, List.find?_cons, ← hkey, BEq.comm]
    cases hname : key == name with
    | true => simpa using htext
    | false => simpa using ih

theorem Wire.entryId_of_normalize {name : String} {value w : Json}
    (h : Wire.normalize P value = some w) : entryId name w = namedText P name value := by
  cases value with
  | obj fields =>
    obtain ⟨normal, hnormal, -, rfl⟩ := normalize_obj.mp h
    refine entryId_obj_eq_namedText (hnormal.imp ?_)
    exact fun field member hmember => ⟨hmember.1, text?_of_normalize hmember.2⟩
  | arr items =>
    obtain ⟨ws, -, rfl⟩ := normalize_arr.mp h
    rfl
  | _ =>
    rw [Wire.normalize] at h
    cases Option.some.inj h
    rfl

/-- The keys of an entry, if it is an object. -/
def entryKeys : Json → List String
  | .obj fields => fields.map Prod.fst
  | _ => []

theorem entryId_of_normalize {name : String} {value c : Json}
    (h : normalize P none value = .ok c) (hkeys : ∀ key ∈ entryKeys value, '\r' ∉ key.toList) :
    entryId name c = namedText P name value := by
  cases value with
  | obj fields =>
    obtain ⟨normal, hnormal, -, rfl⟩ := normalize_obj.mp h
    refine entryId_obj_eq_namedText (forall₂_imp_of_mem hnormal ?_)
    intro field hfield member hmember
    have hkey := hkeys field.1 (List.mem_map_of_mem hfield)
    exact ⟨hmember.1.trans (normalString_of_notMem hkey), text?_of_normalize hmember.2⟩
  | arr items =>
    obtain ⟨cs, -, hc⟩ := normalize_arr.mp h
    obtain ⟨others, rfl⟩ := normalizeArray_eq_arr hc
    rfl
  | _ =>
    rw [normalize] at h
    cases Except.ok.inj h
    rfl

/-- Two maps over related lists that agree on related elements. -/
theorem mapM_eq_of_forall₂ {α β γ : Type} {R : α → β → Prop} {f : α → Option γ}
    {g : β → Option γ} {xs : List α} {ys : List β} (h : List.Forall₂ R xs ys)
    (hfg : ∀ x ∈ xs, ∀ y ∈ ys, R x y → f x = g y) : xs.mapM f = ys.mapM g := by
  induction h with
  | nil => rfl
  | @cons x y xs ys hxy _ ih =>
    have hhead := hfg x (by simp) y (by simp) hxy
    have htail := ih fun x hx y hy => hfg x (by simp [hx]) y (by simp [hy])
    rw [List.mapM_cons, List.mapM_cons, hhead, htail]

/-- The texts of normalized elements. -/
theorem asTexts_of_forall₂ {items others : List Json}
    (h : List.Forall₂ (fun item other => other.text? = item.text?.map (normalString P))
      items others) :
    asTexts others = (asTexts items).map (List.map (normalString P)) := by
  unfold asTexts
  induction h with
  | nil => rfl
  | @cons item other items others hitem _ ih =>
    rw [List.mapM_cons, List.mapM_cons, hitem, ih]
    cases item.text? with
    | none => rfl
    | some text =>
      cases items.mapM Json.text? with
      | none | some => rfl

/-- Elements that are all texts. -/
theorem eq_map_of_asTexts {items : List Json} {texts : List String}
    (h : asTexts items = some texts) : items = texts.map .str := by
  have hforall := mapM_eq_some.mp h
  induction hforall with
  | nil => rfl
  | cons hhead htail ih =>
    rw [List.map_cons, ← ih (mapM_eq_some.mpr htail), Json.text?_eq_some.mp hhead]

/-! ## Nothing to do -/

theorem sortedSet_eq_self {texts : List String} (h : texts.Pairwise (· < ·)) :
    sortedSet texts = texts := by
  have hnodup : texts.Nodup := h.imp fun hlt => hlt.ne
  rw [sortedSet, List.dedup_eq_self.mpr hnodup]
  exact List.Pairwise.insertionSort_eq (h.imp fun hlt => hlt.le)

theorem sortedEntries_eq_zip {ids : List String} {items : List Json}
    (hlength : ids.length ≤ items.length) (h : ids.Pairwise (· < ·)) :
    sortedEntries ids items = ids.zip items := by
  refine List.Pairwise.insertionSort_eq ?_
  have hfirst : ((ids.zip items).map Prod.fst).Pairwise (· < ·) := by
    rwa [List.map_fst_zip hlength]
  exact (List.pairwise_map.mp hfirst).imp fun hlt => hlt.le

/-- An array in order stays as it is. -/
theorem normalizeArray_of_inOrder {parentKey : Option String} {items ws : List Json}
    (h : List.Forall₂ (fun item w => Wire.normalize P item = some w) items ws)
    (horder : arrayInOrder P parentKey items = true) :
    normalizeArray parentKey ws = .ok (.arr ws) := by
  unfold arrayInOrder at horder
  unfold normalizeArray
  dsimp only at horder ⊢
  cases hkey : parentKey.bind fun key => collectionKeys.lookup key with
  | some idKey =>
    simp only [hkey] at horder ⊢
    obtain ⟨ids, hids, hascending⟩ := (Option.any_eq_true _ _).mp horder
    have hpairwise : ids.Pairwise (· < ·) := of_decide_eq_true hascending
    have hnodup : ids.Nodup := hpairwise.imp fun hlt => hlt.ne
    have hentries : entryIds idKey ws = some ids := by
      rw [← hids]
      exact (mapM_eq_of_forall₂ h fun _ _ _ _ hw => (Wire.entryId_of_normalize hw).symm).symm
    have hlength : ws.length = ids.length := (mapM_eq_some.mp hentries).length_eq
    have hsorted := @sortedEntries_eq_zip ids ws hlength.ge hpairwise
    rw [hentries]
    unfold sortedEntries at hsorted
    simp only [hnodup, if_true, hsorted, List.map_snd_zip hlength.le]
  | none =>
    simp only [hkey] at horder ⊢
    split_ifs with hset
    · rw [if_pos hset] at horder
      have htexts := asTexts_of_forall₂ (h.imp fun _ _ => Wire.text?_of_normalize)
      cases hitems : asTexts items with
      | none =>
        rw [hitems] at htexts
        simp [htexts]
      | some texts =>
        rw [hitems] at htexts horder
        have hpairwise : (texts.map (normalString P)).Pairwise (· < ·) :=
          of_decide_eq_true horder
        have hws : ws = (texts.map (normalString P)).map .str := eq_map_of_asTexts htexts
        simp only [htexts, Option.map_some, sortedSet_eq_self hpairwise]
        rw [hws, Json.ofTexts]
    · rfl

/-- The two normalizations of a value in order are the same. -/
theorem normalize_of_inOrder {parentKey : Option String} {value w : Json}
    (hwire : Wire.normalize P value = some w) (horder : inOrder P parentKey value = true) :
    normalize P parentKey value = .ok w := by
  induction value using Json.ind generalizing parentKey w with
  | arr items ih =>
    obtain ⟨ws, hws, rfl⟩ := Wire.normalize_arr.mp hwire
    rw [inOrder, Bool.and_eq_true, itemsInOrder_iff] at horder
    refine normalize_arr.mpr ⟨ws, ?_, normalizeArray_of_inOrder hws horder.2⟩
    exact forall₂_imp_of_mem hws fun item hitem w hw => ih item hitem hw (horder.1 item hitem)
  | obj fields ih =>
    obtain ⟨normal, hnormal, hnodup, rfl⟩ := Wire.normalize_obj.mp hwire
    rw [inOrder, fieldsInOrder_iff] at horder
    refine normalize_obj.mpr ⟨normal, ?_, hnodup, rfl⟩
    refine forall₂_imp_of_mem hnormal ?_
    intro field hfield member hmember
    obtain ⟨hkey, hvalue⟩ := horder field hfield
    have hname : member.1 = normalString P field.1 := by
      rw [hmember.1, normalString_of_notMem hkey]
    refine ⟨hname, ih field hfield hmember.2 ?_⟩
    rwa [hmember.1]
  | _ =>
    rw [Wire.normalize] at hwire
    rw [normalize, Option.some.inj hwire]

/-! ## Equal texts -/

theorem eq_obj_of_dumps {fields : JsonObject} {value : Json}
    (h : dumps (.obj fields) = dumps value) : ∃ others, value = .obj others := by
  cases value with
  | obj others => exact ⟨others, rfl⟩
  | null | arr => simp [dumps] at h
  | bool value => cases value <;> simp [dumps] at h
  | int value =>
    rw [dumps, dumps] at h
    have hmem : '{' ∈ (toString value).toList := by
      rw [← h]
      simp
    exact absurd (isPlainChar_of_mem_toString hmem) (by decide)
  | str text => simp [dumps, quoteText] at h

/-- Members with the texts of other members have their keys. -/
theorem exists_member_of_perm {fields others : JsonObject}
    (h : (dumpFields fields).Perm (dumpFields others)) {field : String × Json}
    (hfield : field ∈ fields) :
    ∃ other ∈ others, other.1 = field.1 ∧ dumps other.2 = dumps field.2 := by
  rw [dumpFields_eq_map, dumpFields_eq_map] at h
  have hmem := h.mem_iff.mp (List.mem_map_of_mem (f := fun field => (field.1, dumps field.2)) hfield)
  obtain ⟨other, hother, heq⟩ := List.mem_map.mp hmem
  exact ⟨other, hother, (Prod.mk.inj heq).1, (Prod.mk.inj heq).2⟩

/-- A key normalized under the composition rules has no carriage return. -/
theorem return_notMem_normalString (hnfc : KeepsReturns P) (text : String) :
    '\r' ∉ (normalString P text).toList := by
  rw [normalString, hnfc, String.toList_ofList]
  exact return_notMem_lineFeeds text.toList

/-- An entry has no carriage return in its keys if its text on the wire is the text of a
value normalized under the composition rules. -/
theorem return_notMem_of_dumps (hnfc : KeepsReturns P) {parentKey : Option String}
    {value w other c : Json} (hwire : Wire.normalize P value = some w)
    (hother : normalize P parentKey other = .ok c) (h : dumps w = dumps c) :
    ∀ key ∈ entryKeys value, '\r' ∉ key.toList := by
  intro key hkey
  cases value with
  | obj fields =>
    obtain ⟨normal, hnormal, -, rfl⟩ := Wire.normalize_obj.mp hwire
    obtain ⟨members, rfl⟩ := eq_obj_of_dumps h
    obtain ⟨field, hfield, rfl⟩ := List.mem_map.mp hkey
    obtain ⟨member, hmember, hname, -⟩ := exists_of_forall₂ hnormal field hfield
    obtain ⟨match', hmatch, hkeys, -⟩ := exists_member_of_perm (dumps_obj_inj h) hmember
    rw [← hnfc, ← hname, ← hkeys]
    cases other with
    | obj others =>
      obtain ⟨normal', hnormal', -, heq⟩ := normalize_obj.mp hother
      cases heq
      exact forall_of_forall₂ hnormal'
        (fun _ _ hR => hR.1 ▸ return_notMem_normalString hnfc _) match' hmatch
    | arr items =>
      obtain ⟨cs, -, hc⟩ := normalize_arr.mp hother
      obtain ⟨_, heq⟩ := normalizeArray_eq_arr hc
      cases heq
    | _ =>
      rw [normalize] at hother
      cases Except.ok.inj hother
  | _ => cases hkey

/-- The identifier of an entry stands in it. -/
theorem entryId_eq_some_iff {name text : String} {fields : JsonObject}
    (hnodup : (fields.map Prod.fst).Nodup) :
    entryId name (.obj fields) = some text ↔ (name, .str text) ∈ fields := by
  rw [mem_iff_lookup hnodup, entryId, JsonObject.get, Json.text?_eq_some]
  cases fields.lookup name with
  | none | some => simp

/-- The text of an entry determines its identifier. -/
theorem entryId_eq_of_dumps {name : String} {fields others : JsonObject}
    (hfields : (fields.map Prod.fst).Nodup) (hothers : (others.map Prod.fst).Nodup)
    (h : dumps (.obj fields) = dumps (.obj others)) :
    entryId name (.obj fields) = entryId name (.obj others) := by
  have hkeeps : ∀ {fields others : JsonObject} {text : String},
      dumps (.obj fields) = dumps (.obj others) → (name, Json.str text) ∈ fields →
        (name, Json.str text) ∈ others := by
    intro fields others text h hmem
    obtain ⟨⟨key, value⟩, hother, hkey, hvalue⟩ := exists_member_of_perm (dumps_obj_inj h) hmem
    rw [dumps] at hvalue
    have hstr := eq_str_of_dumps hvalue
    subst hkey hstr
    exact hother
  ext text
  rw [entryId_eq_some_iff hfields, entryId_eq_some_iff hothers]
  exact ⟨hkeeps h, hkeeps h.symm⟩

/-- The identifiers of the entries of a collection are those of the entries in order. -/
theorem entryIds_sortedEntries {idKey : String} {ids : List String} {items : List Json}
    (h : entryIds idKey items = some ids) :
    entryIds idKey ((sortedEntries ids items).map Prod.snd) =
      some ((sortedEntries ids items).map Prod.fst) := by
  rw [entryIds, mapM_eq_some, List.forall₂_map_left_iff, List.forall₂_map_right_iff,
    List.forall₂_same]
  intro entry hentry
  have hzip : entry ∈ ids.zip items := (List.mem_insertionSort _).mp hentry
  exact List.forall₂_zip (mapM_eq_some.mp h).flip hzip

/-- The identifiers of the entries in order are in order. -/
theorem sortedEntries_pairwise {ids : List String} {items : List Json} :
    ((sortedEntries ids items).map Prod.fst).Pairwise (· ≤ ·) := by
  have htotal : Std.Total fun a b : String × Json => a.1 ≤ b.1 := ⟨fun a b => le_total a.1 b.1⟩
  have htrans : IsTrans (String × Json) fun a b => a.1 ≤ b.1 := ⟨fun _ _ _ => le_trans⟩
  rw [List.pairwise_map]
  exact List.pairwise_insertionSort _ _

/-- Ordered texts without repetition. -/
theorem pairwise_lt_of_nodup {texts : List String} (hle : texts.Pairwise (· ≤ ·))
    (hnodup : texts.Nodup) : texts.Pairwise (· < ·) :=
  (hle.and hnodup).imp fun h => lt_of_le_of_ne h.1 h.2

theorem Wire.keys_nodup_of_normalize {value : Json} {normal : JsonObject}
    (h : Wire.normalize P value = some (.obj normal)) : (normal.map Prod.fst).Nodup := by
  cases value with
  | obj fields =>
    obtain ⟨_, -, hnodup, heq⟩ := normalize_obj.mp h
    cases heq
    exact hnodup
  | arr items =>
    obtain ⟨_, -, heq⟩ := normalize_arr.mp h
    cases heq
  | _ => cases h

theorem keys_nodup_of_normalize {parentKey : Option String} {value : Json} {normal : JsonObject}
    (h : normalize P parentKey value = .ok (.obj normal)) : (normal.map Prod.fst).Nodup := by
  cases value with
  | obj fields =>
    obtain ⟨_, -, hnodup, heq⟩ := normalize_obj.mp h
    cases heq
    exact hnodup
  | arr items =>
    obtain ⟨cs, -, hc⟩ := normalize_arr.mp h
    obtain ⟨_, heq⟩ := normalizeArray_eq_arr hc
    cases heq
  | _ => cases h

/-- Lists of values with the same texts. -/
theorem forall₂_dumps {items others : List Json} (h : items.map dumps = others.map dumps) :
    List.Forall₂ (fun item other => dumps item = dumps other) items others := by
  have hforall : List.Forall₂ Eq (items.map dumps) (others.map dumps) := by
    rw [h, List.forall₂_same]
    exact fun _ _ => rfl
  rwa [List.forall₂_map_left_iff, List.forall₂_map_right_iff] at hforall

section Reading

variable {items ws cs : List Json}

/-- A collection whose text is its text on the wire is in order. -/
theorem collection_inOrder (hnfc : KeepsReturns P) {idKey : String} {ids : List String}
    (hws : List.Forall₂ (fun item w => Wire.normalize P item = some w) items ws)
    (hcs : List.Forall₂ (fun item c => normalize P none item = .ok c) items cs)
    (hids : entryIds idKey cs = some ids) (hnodup : ids.Nodup)
    (h : ws.map dumps = ((sortedEntries ids cs).map Prod.snd).map dumps) :
    items.mapM (namedText P idKey) = some ids ∧ ids.Pairwise (· < ·) ∧
      ws.map dumps = cs.map dumps := by
  have hpairs := forall₂_dumps h
  have hsorted : ∀ s ∈ (sortedEntries ids cs).map Prod.snd, s ∈ cs := by
    intro s hs
    obtain ⟨entry, hentry, rfl⟩ := List.mem_map.mp hs
    exact (List.of_mem_zip ((List.mem_insertionSort _).mp hentry)).2
  have hkeys : ∀ item ∈ items, ∀ key ∈ entryKeys item, '\r' ∉ key.toList := by
    intro item hitem
    obtain ⟨w, hw, hwire⟩ := exists_of_forall₂ hws item hitem
    obtain ⟨s, hs, htext⟩ := exists_of_forall₂ hpairs w hw
    obtain ⟨other, -, hother⟩ := exists_of_forall₂ hcs.flip s (hsorted s hs)
    exact return_notMem_of_dumps hnfc hwire hother htext
  have hnamed : entryIds idKey cs = items.mapM (namedText P idKey) :=
    (mapM_eq_of_forall₂ hcs fun item hitem c _ hc =>
      (entryId_of_normalize hc (hkeys item hitem)).symm).symm
  have hwireIds : entryIds idKey ws = items.mapM (namedText P idKey) :=
    (mapM_eq_of_forall₂ hws fun _ _ _ _ hw => (Wire.entryId_of_normalize hw).symm).symm
  have hsortedIds : entryIds idKey ws =
      entryIds idKey ((sortedEntries ids cs).map Prod.snd) := by
    refine mapM_eq_of_forall₂ hpairs ?_
    intro w hw s hs htext
    obtain ⟨item, -, hwire⟩ := exists_of_forall₂ hws.flip w hw
    obtain ⟨other, -, hother⟩ := exists_of_forall₂ hcs.flip s (hsorted s hs)
    obtain ⟨id, -, hid⟩ := exists_of_forall₂ (mapM_eq_some.mp hids) s (hsorted s hs)
    -- An entry of a collection is an object, or it would have no identifier.
    cases s with
    | obj members =>
      obtain ⟨fields, rfl⟩ := eq_obj_of_dumps htext.symm
      exact entryId_eq_of_dumps (Wire.keys_nodup_of_normalize hwire)
        (keys_nodup_of_normalize hother) htext
    | _ => cases hid
  have heq : ids = (sortedEntries ids cs).map Prod.fst := by
    rw [hwireIds, ← hnamed, entryIds_sortedEntries hids, hids] at hsortedIds
    exact Option.some.inj hsortedIds
  have hpairwise : ids.Pairwise (· < ·) := by
    refine pairwise_lt_of_nodup ?_ hnodup
    rw [heq]
    exact sortedEntries_pairwise
  have hlength : cs.length = ids.length := (mapM_eq_some.mp hids).length_eq
  rw [sortedEntries_eq_zip hlength.ge hpairwise, List.map_snd_zip hlength.le] at h
  exact ⟨hnamed.symm.trans hids, hpairwise, h⟩

/-- A set whose text is its text on the wire is in order. -/
theorem set_inOrder {texts : List String}
    (hws : List.Forall₂ (fun item w => Wire.normalize P item = some w) items ws)
    (hcs : List.Forall₂ (fun item c => normalize P none item = .ok c) items cs)
    (htexts : asTexts cs = some texts)
    (h : ws.map dumps = ((sortedSet texts).map Json.str).map dumps) :
    (asTexts items).all (fun texts => ascending (texts.map (normalString P))) = true ∧
      ws.map dumps = cs.map dumps := by
  have hnormal := asTexts_of_forall₂ (hcs.imp fun _ _ => text?_of_normalize)
  have hwire := asTexts_of_forall₂ (hws.imp fun _ _ => Wire.text?_of_normalize)
  have hsame : ws = cs := by
    rw [eq_map_of_asTexts htexts, eq_map_of_asTexts (hwire.trans (hnormal.symm.trans htexts))]
  have hsorted : texts = sortedSet texts := by
    rw [hsame, eq_map_of_asTexts htexts, List.map_map, List.map_map] at h
    have hinj : Function.Injective (dumps ∘ Json.str) := fun _ _ heq => quoteText_inj heq
    exact hinj.list_map h
  have hpairwise : texts.Pairwise (· < ·) := by
    rw [hsorted]
    refine pairwise_lt_of_nodup (List.pairwise_insertionSort _ _) ?_
    exact (List.perm_insertionSort _ _).nodup_iff.mpr (List.nodup_dedup texts)
  refine ⟨?_, by rw [hsame]⟩
  rw [htexts] at hnormal
  cases hitems : asTexts items with
  | none => rfl
  | some raw =>
    rw [hitems] at hnormal
    cases Option.some.inj hnormal
    exact decide_eq_true hpairwise

/-- An array whose text is its text on the wire is in order, and so are its elements. -/
theorem array_inOrder (hnfc : KeepsReturns P) {parentKey : Option String} {c : Json}
    (hws : List.Forall₂ (fun item w => Wire.normalize P item = some w) items ws)
    (hcs : List.Forall₂ (fun item c => normalize P none item = .ok c) items cs)
    (hc : normalizeArray parentKey cs = .ok c) (h : dumps (.arr ws) = dumps c) :
    arrayInOrder P parentKey items = true ∧ ws.map dumps = cs.map dumps := by
  unfold arrayInOrder
  cases normalizeArray_cases hc with
  | collection idKey ids hkey hids hnodup =>
    obtain ⟨hnamed, hpairwise, htexts⟩ :=
      collection_inOrder hnfc hws hcs hids hnodup (dumps_arr_inj h)
    simp only [hkey, hnamed]
    exact ⟨decide_eq_true hpairwise, htexts⟩
  | set texts hkey hset htexts =>
    obtain ⟨hascending, hsame⟩ := set_inOrder hws hcs htexts (dumps_arr_inj h)
    simp only [hkey, hset, if_true]
    exact ⟨hascending, hsame⟩
  | sequence hkey hset =>
    refine ⟨?_, dumps_arr_inj h⟩
    simp only [hkey]
    split_ifs with hkeys
    · have hnormal := asTexts_of_forall₂ (hcs.imp fun _ _ => text?_of_normalize)
      rw [hset hkeys] at hnormal
      rw [Option.map_eq_none_iff.mp hnormal.symm]
      rfl
    · rfl

end Reading

/-- A value with equal texts under the two normalizations is in order. -/
theorem inOrder_of_dumps (hnfc : KeepsReturns P) {parentKey : Option String} {value w c : Json}
    (hwire : Wire.normalize P value = some w) (hcomposed : normalize P parentKey value = .ok c)
    (h : dumps w = dumps c) : inOrder P parentKey value = true := by
  induction value using Json.ind generalizing parentKey w c with
  | arr items ih =>
    obtain ⟨ws, hws, rfl⟩ := Wire.normalize_arr.mp hwire
    obtain ⟨cs, hcs, hc⟩ := normalize_arr.mp hcomposed
    obtain ⟨harray, htexts⟩ := array_inOrder hnfc hws hcs hc h
    rw [inOrder, Bool.and_eq_true, itemsInOrder_iff]
    refine ⟨?_, harray⟩
    clear hwire hcomposed hc h harray
    induction hws generalizing cs with
    | nil => simp
    | @cons item w items ws hw _ ihs =>
      obtain ⟨c, rest, hc, hrest, rfl⟩ := List.forall₂_cons_left_iff.mp hcs
      obtain ⟨hfirst, hothers⟩ := List.cons.inj htexts
      intro other hother
      rcases List.mem_cons.mp hother with rfl | hother
      · exact ih other (by simp) hw hc hfirst
      · exact ihs (fun item hitem => ih item (by simp [hitem])) rest hrest hothers other hother
  | obj fields ih =>
    have hkeys := return_notMem_of_dumps hnfc hwire hcomposed h
    obtain ⟨normal, hnormal, -, rfl⟩ := Wire.normalize_obj.mp hwire
    obtain ⟨members, hmembers, hnodup, rfl⟩ := normalize_obj.mp hcomposed
    rw [inOrder, fieldsInOrder_iff]
    intro field hfield
    have hkey := hkeys field.1 (List.mem_map_of_mem hfield)
    obtain ⟨w, hw, hname, hwire⟩ := exists_of_forall₂ hnormal field hfield
    obtain ⟨c, hc, hname', hcomposed⟩ := exists_of_forall₂ hmembers field hfield
    rw [normalString_of_notMem hkey] at hname'
    obtain ⟨other, hother, hsame, htext⟩ := exists_member_of_perm (dumps_obj_inj h) hw
    -- The keys are distinct, so the member with the same key and text is this one.
    have heq : other = c :=
      List.inj_on_of_nodup_map hnodup hother hc (hsame.trans (hname.trans hname'.symm))
    subst heq
    refine ⟨hkey, ?_⟩
    rw [← hname']
    exact ih field hfield hwire hcomposed htext.symm
  | _ => rfl

theorem canonicalJsonBytes_eq_iff (hnfc : KeepsReturns P) {value : Json} {text : List Char}
    (hwire : Wire.canonicalJsonBytes P value = some text) :
    canonicalJsonBytes P value = .ok text ↔ inOrder P none value = true := by
  obtain ⟨w, hw, rfl⟩ := Option.map_eq_some_iff.mp hwire
  rw [canonicalJsonBytes, bind_eq_ok]
  constructor
  · rintro ⟨c, hc, htext⟩
    exact inOrder_of_dumps hnfc hw hc (pure_eq_ok.mp htext).symm
  · intro horder
    exact ⟨w, normalize_of_inOrder hw horder, rfl⟩

end ResearchKernel
