import Mathlib.Data.List.Perm.Basic
import ResearchKernel.Canonical.Agreement
import ResearchKernel.Canonical.Loads

/-!
# What a canonical text forgets

The normalization of the composition rules is made once: a canonical form is its own form. Its
text does not depend on the order of keys, of collections and of sets, and on how often a member
of a set is named. Two values with the same text have the same form up to the order of keys, and
differ in nothing else than these, and in the line endings and the composition of their texts.
-/

namespace ResearchKernel

open Foundation

/-- What is documented of normalization form C: it is made once, and adds no carriage return. -/
structure Composes (P : Platform) : Prop where
  idempotent : ∀ text, P.nfc (P.nfc text) = P.nfc text
  noReturn : ∀ text : String, '\r' ∉ text.toList → '\r' ∉ (P.nfc text).toList

/-! ## Changes inside a value -/

/-- Changes of the parts of a value, one after another. A part is changed under the key that
holds it, which is read as `name` gives it. -/
inductive Throughout (name : String → String) (change : Option String → Json → Json → Prop) :
    Option String → Json → Json → Prop
  | step {parentKey : Option String} {value other : Json} (h : change parentKey value other) :
      Throughout name change parentKey value other
  | refl (parentKey : Option String) (value : Json) : Throughout name change parentKey value value
  | trans {parentKey : Option String} {value middle other : Json}
      (first : Throughout name change parentKey value middle)
      (second : Throughout name change parentKey middle other) :
      Throughout name change parentKey value other
  | item {parentKey : Option String} {value other : Json} (front back : List Json)
      (h : Throughout name change none value other) :
      Throughout name change parentKey (.arr (front ++ value :: back))
        (.arr (front ++ other :: back))
  | member {parentKey : Option String} {value other : Json} (front back : JsonObject)
      (key : String) (h : Throughout name change (some (name key)) value other) :
      Throughout name change parentKey (.obj (front ++ (key, value) :: back))
        (.obj (front ++ (key, other) :: back))

/-- The keys of an object are put in another order. -/
inductive Reordered (parentKey : Option String) : Json → Json → Prop
  | members {fields others : JsonObject} (h : fields.Perm others) :
      Reordered parentKey (.obj fields) (.obj others)

/-- Whether the texts of an array under a key stand for a set. -/
def isSetKey (parentKey : Option String) : Bool :=
  setArrayKeys.contains (parentKey.getD "") || (parentKey.getD "").endsWith "_ids"

/-- The keys of an object or the entries of a collection are put in another order, or the texts
of a set in another order and number. -/
inductive Rearranged (parentKey : Option String) : Json → Json → Prop
  | members {fields others : JsonObject} (h : fields.Perm others) :
      Rearranged parentKey (.obj fields) (.obj others)
  | collection {items others : List Json} (idKey : String)
      (hkey : (parentKey.bind fun key => collectionKeys.lookup key) = some idKey)
      (h : items.Perm others) : Rearranged parentKey (.arr items) (.arr others)
  | set {texts others : List String} (hkey : isSetKey parentKey = true)
      (h : ∀ text, text ∈ texts ↔ text ∈ others) :
      Rearranged parentKey (Json.ofTexts texts) (Json.ofTexts others)

/-- A value is rearranged, or a text or a key is written with other line endings or in another
composition. -/
inductive Rewritten (P : Platform) (parentKey : Option String) : Json → Json → Prop
  | rearranged {value other : Json} (h : Rearranged parentKey value other) :
      Rewritten P parentKey value other
  | text {text other : String} (h : normalString P text = normalString P other) :
      Rewritten P parentKey (.str text) (.str other)
  | key {key other : String} (front back : JsonObject) (value : Json)
      (h : normalString P key = normalString P other) :
      Rewritten P parentKey (.obj (front ++ (key, value) :: back))
        (.obj (front ++ (other, value) :: back))

section Parts

variable {name : String → String} {change : Option String → Json → Json → Prop}
  {parentKey : Option String} {value other : Json}

/-- Changes that may be made backwards. -/
theorem Throughout.symm (hchange : ∀ {parentKey value other}, change parentKey value other →
    change parentKey other value) (h : Throughout name change parentKey value other) :
    Throughout name change parentKey other value := by
  induction h with
  | step h => exact .step (hchange h)
  | refl parentKey value => exact .refl parentKey value
  | trans _ _ first second => exact .trans second first
  | item front back _ ih => exact .item front back ih
  | member front back key _ ih => exact .member front back key ih

/-- Wider changes. -/
theorem Throughout.mono {wider : Option String → Json → Json → Prop}
    (hwider : ∀ {parentKey value other}, change parentKey value other → wider parentKey value other)
    (h : Throughout name change parentKey value other) :
    Throughout name wider parentKey value other := by
  induction h with
  | step h => exact .step (hwider h)
  | refl parentKey value => exact .refl parentKey value
  | trans _ _ first second => exact .trans first second
  | item front back _ ih => exact .item front back ih
  | member front back key _ ih => exact .member front back key ih

/-- All the elements of an array are changed. -/
theorem Throughout.items {items others : List Json} (front : List Json)
    (h : List.Forall₂ (Throughout name change none) items others) :
    Throughout name change parentKey (.arr (front ++ items)) (.arr (front ++ others)) := by
  induction h generalizing front with
  | nil => exact .refl _ _
  | @cons item other items others hitem _ ih =>
    have hrest := ih (front ++ [other])
    rw [List.append_assoc, List.append_assoc] at hrest
    exact .trans (.item front items hitem) hrest

theorem Throughout.members {fields others : JsonObject} (front : JsonObject)
    (h : List.Forall₂ (fun field other => other.1 = field.1 ∧
      Throughout name change (some (name field.1)) field.2 other.2) fields others) :
    Throughout name change parentKey (.obj (front ++ fields)) (.obj (front ++ others)) := by
  induction h generalizing front with
  | nil => exact .refl _ _
  | @cons field other fields others hfield _ ih =>
    obtain ⟨key, value⟩ := field
    obtain ⟨key', value'⟩ := other
    obtain ⟨hkey, hvalue⟩ := hfield
    subst hkey
    have hrest := ih (front ++ [(key', value')])
    rw [List.append_assoc, List.append_assoc] at hrest
    exact .trans (.member front fields key' hvalue) hrest

end Parts

/-! ## Sorting by distinct keys -/

/-- Entries with distinct keys are sorted in one way. -/
theorem sortByKey_eq {α : Type} {xs ys : List (String × α)} (h : xs.Perm ys)
    (hnodup : (xs.map Prod.fst).Nodup) :
    xs.insertionSort (fun a b => a.1 ≤ b.1) = ys.insertionSort fun a b => a.1 ≤ b.1 := by
  have htotal : Std.Total fun a b : String × α => a.1 ≤ b.1 := ⟨fun a b => le_total a.1 b.1⟩
  have htrans : IsTrans (String × α) fun a b => a.1 ≤ b.1 := ⟨fun _ _ _ => le_trans⟩
  refine List.Perm.eq_of_pairwise ?_ (List.pairwise_insertionSort _ _)
    (List.pairwise_insertionSort _ _)
    ((List.perm_insertionSort _ _).trans (h.trans (List.perm_insertionSort _ _).symm))
  intro a b ha hb hab hba
  rw [List.mem_insertionSort] at ha hb
  exact List.inj_on_of_nodup_map hnodup ha (h.mem_iff.mpr hb) (le_antisymm hab hba)

/-- Sorted texts without repetition are given by their members. -/
theorem sortedSet_congr {texts others : List String} (h : ∀ text, text ∈ texts ↔ text ∈ others) :
    sortedSet texts = sortedSet others := by
  have hperm : texts.dedup.Perm others.dedup := by
    rw [List.perm_ext_iff_of_nodup (List.nodup_dedup _) (List.nodup_dedup _)]
    simpa only [List.mem_dedup] using h
  have hsorted := fun texts : List String => List.pairwise_insertionSort (· ≤ ·) texts.dedup
  exact List.Perm.eq_of_pairwise (fun _ _ _ _ => le_antisymm) (hsorted texts) (hsorted others)
    ((List.perm_insertionSort _ _).trans (hperm.trans (List.perm_insertionSort _ _).symm))

theorem mem_sortedSet {texts : List String} {text : String} :
    text ∈ sortedSet texts ↔ text ∈ texts := by
  rw [sortedSet, List.mem_insertionSort, List.mem_dedup]

theorem sortedSet_pairwise (texts : List String) : (sortedSet texts).Pairwise (· < ·) := by
  refine pairwise_lt_of_nodup (List.pairwise_insertionSort _ _) ?_
  exact (List.perm_insertionSort _ _).nodup_iff.mpr (List.nodup_dedup texts)

/-! ## Arrays -/

theorem asTexts_map_str (texts : List String) : asTexts (texts.map Json.str) = some texts := by
  rw [asTexts, mapM_eq_some, List.forall₂_map_left_iff, List.forall₂_same]
  exact fun _ _ => rfl

variable {parentKey : Option String} {items : List Json}

theorem normalizeArray_eq_ok {c : Json} :
    normalizeArray parentKey items = .ok c ↔ Arranged parentKey items c := by
  refine ⟨normalizeArray_cases, fun h => ?_⟩
  unfold normalizeArray
  cases h with
  | collection idKey ids hkey hids hnodup =>
    simp only [hkey, hids, hnodup, if_true]
    rfl
  | set texts hkey hset htexts => simp only [hkey, hset, if_true, htexts]
  | sequence hkey hset =>
    simp only [hkey]
    split_ifs with hkeys
    · rw [hset hkeys]
    · rfl

/-- The entries of a collection, each with its identifier. -/
theorem zip_entryIds {idKey : String} {ids : List String} (h : entryIds idKey items = some ids) :
    ids.zip items = items.map fun item => ((entryId idKey item).getD "", item) := by
  have hforall := mapM_eq_some.mp h
  clear h
  induction hforall with
  | nil => rfl
  | @cons item id items ids hitem _ ih =>
    rw [List.zip_cons_cons, List.map_cons, ih, hitem]
    rfl

/-- A sorted collection is a permutation of the collection. -/
theorem sortedEntries_perm {idKey : String} {ids : List String}
    (h : entryIds idKey items = some ids) :
    ((sortedEntries ids items).map Prod.snd).Perm items := by
  have hlength : items.length = ids.length := (mapM_eq_some.mp h).length_eq
  have hperm := (List.perm_insertionSort (fun a b : String × Json => a.1 ≤ b.1)
    (ids.zip items)).map Prod.snd
  rwa [List.map_snd_zip hlength.le] at hperm

/-- An array stays as it was arranged. -/
theorem Arranged.idem {others : List Json} (h : Arranged parentKey items (.arr others)) :
    Arranged parentKey others (.arr others) ∧ others ⊆ items := by
  cases h with
  | collection idKey ids hkey hids hnodup =>
    have hsorted := entryIds_sortedEntries hids
    have hlength : items.length = ids.length := (mapM_eq_some.mp hids).length_eq
    have hkeys : ((sortedEntries ids items).map Prod.fst).Nodup := by
      refine ((List.perm_insertionSort _ _).map Prod.fst).nodup_iff.mpr ?_
      rwa [List.map_fst_zip hlength.ge]
    have hagain := Arranged.collection idKey _ hkey hsorted hkeys
    rw [sortedEntries_eq_zip (by simp) (pairwise_lt_of_nodup sortedEntries_pairwise hkeys),
      List.map_snd_zip (by simp)] at hagain
    exact ⟨hagain, (sortedEntries_perm hids).subset⟩
  | set texts hkey hset htexts =>
    have hagain := Arranged.set _ hkey hset (asTexts_map_str (sortedSet texts))
    rw [sortedSet_eq_self (sortedSet_pairwise texts)] at hagain
    refine ⟨hagain, ?_⟩
    rw [eq_map_of_asTexts htexts]
    exact List.map_subset _ fun text htext => mem_sortedSet.mp htext
  | sequence hkey hset => exact ⟨.sequence hkey hset, fun _ h => h⟩

/-! ## Normalizing once -/

section Once

variable {P : Platform} {parentKey : Option String} {value form : Json}

theorem return_notMem_of_composes (hP : Composes P) (text : String) :
    '\r' ∉ (normalString P text).toList := by
  refine hP.noReturn _ ?_
  rw [String.toList_ofList]
  exact return_notMem_lineFeeds text.toList

/-- A text is normalized once. -/
theorem normalString_idem (hP : Composes P) (text : String) :
    normalString P (normalString P text) = normalString P text := by
  rw [normalString_of_notMem (return_notMem_of_composes hP text), normalString, hP.idempotent]

/-- A canonical form is its own form. -/
theorem normalize_idem (hP : Composes P) (h : normalize P parentKey value = .ok form) :
    normalize P parentKey form = .ok form := by
  induction value using Json.ind generalizing parentKey form with
  | arr items ih =>
    obtain ⟨forms, hforms, harranged⟩ := normalize_arr.mp h
    obtain ⟨others, rfl⟩ := normalizeArray_eq_arr harranged
    obtain ⟨hagain, hsubset⟩ := (normalizeArray_eq_ok.mp harranged).idem
    have hnormal : ∀ other ∈ others, normalize P none other = .ok other := by
      intro other hother
      obtain ⟨item, hitem, heq⟩ := exists_of_forall₂ hforms.flip other (hsubset hother)
      exact ih item hitem heq
    exact normalize_arr.mpr ⟨others, List.forall₂_same.mpr hnormal, normalizeArray_eq_ok.mpr hagain⟩
  | obj fields ih =>
    obtain ⟨members, hmembers, hnodup, rfl⟩ := normalize_obj.mp h
    refine normalize_obj.mpr ⟨members, List.forall₂_same.mpr ?_, hnodup, rfl⟩
    intro member hmember
    obtain ⟨field, hfield, hkey, hvalue⟩ := exists_of_forall₂ hmembers.flip member hmember
    refine ⟨?_, ih field hfield hvalue⟩
    rw [hkey, normalString_idem hP]
  | str text =>
    rw [normalize] at h
    cases Except.ok.inj h
    rw [normalize, normalString_idem hP]
  | _ =>
    rw [normalize] at h
    cases Except.ok.inj h
    rw [normalize]

end Once

/-! ## The text of a form -/

theorem dumps_arr_congr {others : List Json} (h : items.map dumps = others.map dumps) :
    dumps (.arr items) = dumps (.arr others) := by
  rw [dumps, dumps, dumpItems_eq_map, dumpItems_eq_map, h]

theorem dumps_obj_congr {fields others : JsonObject}
    (h : (dumpFields fields).Perm (dumpFields others)) (hnodup : (fields.map Prod.fst).Nodup) :
    dumps (.obj fields) = dumps (.obj others) := by
  have hkeys : ((dumpFields fields).map Prod.fst).Nodup := by
    rw [dumpFields_eq_map, List.map_map]
    exact hnodup
  rw [dumps, dumps, sortByKey_eq h hkeys]

/-- What is read in an entry of an array is the same in two entries. -/
structure SameEntry (c d : Json) : Prop where
  text : dumps d = dumps c
  entryId : ∀ idKey, entryId idKey d = entryId idKey c
  text? : d.text? = c.text?

theorem SameEntry.refl (c : Json) : SameEntry c c := ⟨rfl, fun _ => rfl, rfl⟩

/-- Forms with the same text are the same as entries. -/
theorem sameEntry_of_dumps {P : Platform} {value other c d : Json}
    (hc : normalize P parentKey value = .ok c) (hd : normalize P parentKey other = .ok d)
    (h : dumps d = dumps c) : SameEntry c d := by
  refine ⟨h, fun idKey => ?_, ?_⟩
  · cases c with
    | obj fields =>
      obtain ⟨others, rfl⟩ := eq_obj_of_dumps h.symm
      exact entryId_eq_of_dumps (keys_nodup_of_normalize hd) (keys_nodup_of_normalize hc) h
    | _ =>
      cases d with
      | obj others =>
        obtain ⟨_, heq⟩ := eq_obj_of_dumps h
        cases heq
      | _ => rfl
  · cases c with
    | str text => rw [eq_str_of_dumps h]
    | _ =>
      cases d with
      | str text => cases eq_str_of_dumps h.symm
      | _ => rfl

/-- Entries that are the same are arranged to arrays with the same text. -/
theorem Arranged.of_sameEntry {cs ds : List Json} {form : Json}
    (hsame : List.Forall₂ SameEntry cs ds) (h : Arranged parentKey cs form) :
    ∃ other, Arranged parentKey ds other ∧ dumps other = dumps form := by
  have htexts : ds.map dumps = cs.map dumps := by
    rw [← List.forall₂_eq_eq_eq, List.forall₂_map_left_iff, List.forall₂_map_right_iff]
    exact (hsame.imp fun _ _ hentry => hentry.text).flip
  have hasTexts : asTexts ds = asTexts cs :=
    (mapM_eq_of_forall₂ hsame fun _ _ _ _ hentry => hentry.text?.symm).symm
  cases h with
  | collection idKey ids hkey hids hnodup =>
    have hids' : entryIds idKey ds = some ids := by
      rw [← hids]
      exact (mapM_eq_of_forall₂ hsame fun _ _ _ _ hentry => (hentry.entryId idKey).symm).symm
    refine ⟨_, .collection idKey ids hkey hids' hnodup, dumps_arr_congr ?_⟩
    -- The order is by the identifiers alone, so the texts may be taken first.
    have hsort : ∀ items : List Json, (sortedEntries ids items).map (fun e => (e.1, dumps e.2)) =
        (ids.zip (items.map dumps)).insertionSort fun a b => a.1 ≤ b.1 := by
      intro items
      rw [sortedEntries, List.map_insertionSort (fun a b => a.1 ≤ b.1) (fun a b => a.1 ≤ b.1)
        (fun e : String × Json => (e.1, dumps e.2)) _ fun _ _ _ _ => Iff.rfl, List.zip_map_right]
      rfl
    have hpairs := (hsort ds).trans (htexts ▸ (hsort cs).symm)
    have hsecond := congrArg (List.map Prod.snd) hpairs
    rw [List.map_map, List.map_map] at hsecond
    rw [List.map_map, List.map_map]
    exact hsecond
  | set texts hkey hset htexts => exact ⟨_, .set texts hkey hset (hasTexts.trans htexts), rfl⟩
  | sequence hkey hset =>
    exact ⟨_, .sequence hkey fun hkeys => hasTexts.trans (hset hkeys), dumps_arr_congr htexts⟩

/-! ## Changes that keep the text -/

section Kept

variable {P : Platform} {parentKey : Option String} {value other : Json}

/-- Where a value has a canonical form, another has one with the same text. -/
def SameText (P : Platform) (parentKey : Option String) (value other : Json) : Prop :=
  ∀ form, normalize P parentKey value = .ok form →
    ∃ otherForm, normalize P parentKey other = .ok otherForm ∧ dumps otherForm = dumps form

/-- A relation between lists, around an element of the first. -/
theorem forall₂_middle_iff {α β : Type} {R : α → β → Prop} {front back : List α} {x : α}
    {ys : List β} : List.Forall₂ R (front ++ x :: back) ys ↔ ∃ first y last,
      List.Forall₂ R front first ∧ R x y ∧ List.Forall₂ R back last ∧ ys = first ++ y :: last := by
  induction front generalizing ys with
  | nil =>
    rw [List.nil_append, List.forall₂_cons_left_iff]
    constructor
    · rintro ⟨y, last, hxy, hback, rfl⟩
      exact ⟨[], y, last, .nil, hxy, hback, rfl⟩
    · rintro ⟨first, y, last, hfront, hxy, hback, rfl⟩
      cases hfront
      exact ⟨y, last, hxy, hback, rfl⟩
  | cons z front ih =>
    rw [List.cons_append, List.forall₂_cons_left_iff]
    constructor
    · rintro ⟨w, rest, hzw, hrest, rfl⟩
      obtain ⟨first, y, last, hfront, hxy, hback, rfl⟩ := ih.mp hrest
      exact ⟨w :: first, y, last, .cons hzw hfront, hxy, hback, rfl⟩
    · rintro ⟨first, y, last, hfront, hxy, hback, rfl⟩
      obtain ⟨w, rest, hzw, hrest, rfl⟩ := List.forall₂_cons_left_iff.mp hfront
      exact ⟨w, rest ++ y :: last, hzw, ih.mpr ⟨rest, y, last, hrest, hxy, hback, rfl⟩, rfl⟩

/-- Changes of parts that keep the text of the part keep the text of the value. -/
theorem Throughout.sameText {change : Option String → Json → Json → Prop}
    (hchange : ∀ {parentKey value other}, change parentKey value other →
      SameText P parentKey value other)
    (h : Throughout (normalString P) change parentKey value other) :
    SameText P parentKey value other := by
  induction h with
  | step h => exact hchange h
  | refl parentKey value => exact fun form hform => ⟨form, hform, rfl⟩
  | trans _ _ first second =>
    intro form hform
    obtain ⟨middle, hmiddle, htext⟩ := first form hform
    obtain ⟨last, hlast, htext'⟩ := second middle hmiddle
    exact ⟨last, hlast, htext'.trans htext⟩
  | item front back _ ih =>
    intro form hform
    obtain ⟨forms, hforms, harranged⟩ := normalize_arr.mp hform
    obtain ⟨first, c, last, hfront, hc, hback, rfl⟩ := forall₂_middle_iff.mp hforms
    obtain ⟨d, hd, htext⟩ := ih c hc
    have hsame : List.Forall₂ SameEntry (first ++ c :: last) (first ++ d :: last) :=
      forall₂_middle_iff.mpr ⟨first, d, last, List.forall₂_same.mpr fun c _ => .refl c,
        sameEntry_of_dumps hc hd htext, List.forall₂_same.mpr fun c _ => .refl c, rfl⟩
    obtain ⟨otherForm, harranged', htext'⟩ :=
      (normalizeArray_eq_ok.mp harranged).of_sameEntry hsame
    refine ⟨otherForm, normalize_arr.mpr ⟨first ++ d :: last, ?_, ?_⟩, htext'⟩
    · exact forall₂_middle_iff.mpr ⟨first, d, last, hfront, hd, hback, rfl⟩
    · exact normalizeArray_eq_ok.mpr harranged'
  | member front back key _ ih =>
    intro form hform
    obtain ⟨normal, hnormal, hnodup, rfl⟩ := normalize_obj.mp hform
    obtain ⟨first, ⟨name, c⟩, last, hfront, ⟨hname, hc⟩, hback, rfl⟩ :=
      forall₂_middle_iff.mp hnormal
    dsimp only at hname hc
    subst hname
    obtain ⟨d, hd, htext⟩ := ih c hc
    have hnormal' : List.Forall₂ (NormalField P) (front ++ (key, _) :: back)
        (first ++ (normalString P key, d) :: last) :=
      forall₂_middle_iff.mpr ⟨first, _, last, hfront, ⟨rfl, hd⟩, hback, rfl⟩
    have hnodup' : ((first ++ (normalString P key, d) :: last).map Prod.fst).Nodup := by
      rw [List.map_append, List.map_cons] at hnodup ⊢
      exact hnodup
    refine ⟨_, normalize_obj.mpr ⟨_, hnormal', hnodup', rfl⟩, dumps_obj_congr ?_ hnodup'⟩
    simp only [dumpFields_eq_map, List.map_append, List.map_cons, htext]
    exact .refl _

theorem forms_ofTexts {texts : List String} {forms : List Json}
    (h : List.Forall₂ (fun item form => normalize P none item = .ok form)
      (texts.map Json.str) forms) : forms = (texts.map (normalString P)).map Json.str := by
  rw [List.forall₂_map_left_iff] at h
  induction h with
  | nil => rfl
  | @cons text form texts forms hform _ ih =>
    rw [normalize] at hform
    rw [ih, List.map_cons, List.map_cons, Except.ok.inj hform]

theorem normalize_texts (texts : List String) :
    List.Forall₂ (fun item form => normalize P none item = .ok form) (texts.map Json.str)
      ((texts.map (normalString P)).map Json.str) := by
  rw [List.map_map, List.forall₂_map_left_iff, List.forall₂_map_right_iff, List.forall₂_same]
  intro text _
  rw [normalize]
  rfl

/-- Entries of a collection have the same identifiers in another order. -/
theorem entryIds_perm {idKey : String} {ids : List String} {items others : List Json}
    (hids : entryIds idKey items = some ids) (h : others.Perm items) :
    ∃ otherIds, entryIds idKey others = some otherIds ∧ otherIds.Perm ids := by
  obtain ⟨otherIds, hforall, hperm⟩ := List.perm_comp_forall₂ h (mapM_eq_some.mp hids)
  exact ⟨otherIds, mapM_eq_some.mpr hforall, hperm⟩

/-- A collection in another order has the same form. -/
theorem normalize_collection {items others : List Json} {form : Json} {idKey : String}
    (hkey : (parentKey.bind fun key => collectionKeys.lookup key) = some idKey)
    (h : items.Perm others) (hform : normalize P parentKey (.arr items) = .ok form) :
    normalize P parentKey (.arr others) = .ok form := by
  obtain ⟨forms, hforms, harranged⟩ := normalize_arr.mp hform
  obtain ⟨otherForms, hotherForms, hperm⟩ := List.perm_comp_forall₂ h.symm hforms
  refine normalize_arr.mpr ⟨otherForms, hotherForms, normalizeArray_eq_ok.mpr ?_⟩
  cases normalizeArray_eq_ok.mp harranged with
  | collection idKey ids hkey hids hnodup =>
    obtain ⟨otherIds, hotherIds, hidsPerm⟩ := entryIds_perm hids hperm
    have hzip : (otherIds.zip otherForms).Perm (ids.zip forms) := by
      rw [zip_entryIds hids, zip_entryIds hotherIds]
      exact hperm.map _
    have hlength : otherForms.length = otherIds.length := (mapM_eq_some.mp hotherIds).length_eq
    have hsorted : sortedEntries otherIds otherForms = sortedEntries ids forms := by
      refine sortByKey_eq hzip ?_
      rw [List.map_fst_zip hlength.ge]
      exact hidsPerm.nodup_iff.mpr hnodup
    rw [← hsorted]
    exact .collection idKey otherIds hkey hotherIds (hidsPerm.nodup_iff.mpr hnodup)
  | set texts hnone | sequence hnone => rw [hkey] at hnone; cases hnone

/-- A set that is named in another order and number has the same form. -/
theorem normalize_set {texts others : List String} {form : Json}
    (hset : isSetKey parentKey = true) (h : ∀ text, text ∈ texts ↔ text ∈ others)
    (hform : normalize P parentKey (Json.ofTexts texts) = .ok form) :
    normalize P parentKey (Json.ofTexts others) = .ok form := by
  obtain ⟨forms, hforms, harranged⟩ := normalize_arr.mp hform
  obtain rfl := forms_ofTexts hforms
  cases normalizeArray_eq_ok.mp harranged with
  | collection idKey ids hkey hids hnodup =>
    -- No text has an identifier, so there are none.
    cases texts with
    | nil =>
      have hothers : others = [] := List.eq_nil_iff_forall_not_mem.mpr fun text htext =>
        List.not_mem_nil ((h text).mpr htext)
      rw [hothers]
      exact hform
    | cons text texts =>
      obtain ⟨_, _, hnone, -⟩ := List.forall₂_cons_left_iff.mp (mapM_eq_some.mp hids)
      cases hnone
  | set normal hkey _ htexts =>
    rw [asTexts_map_str, Option.some.injEq] at htexts
    subst htexts
    have hmem : ∀ text, text ∈ texts.map (normalString P) ↔ text ∈ others.map (normalString P) := by
      intro text
      simp only [List.mem_map, h]
    rw [sortedSet_congr hmem]
    exact normalize_arr.mpr ⟨_, normalize_texts others,
      normalizeArray_eq_ok.mpr (.set _ hkey hset (asTexts_map_str _))⟩
  | sequence hkey hnone =>
    rw [asTexts_map_str] at hnone
    cases hnone hset

theorem sameText_members {fields others : JsonObject} (h : fields.Perm others) :
    SameText P parentKey (.obj fields) (.obj others) := by
  intro form hform
  obtain ⟨normal, hnormal, hnodup, rfl⟩ := normalize_obj.mp hform
  obtain ⟨otherNormal, hother, hperm⟩ := List.perm_comp_forall₂ h.symm hnormal
  have hotherNodup := (hperm.map Prod.fst).nodup_iff.mpr hnodup
  refine ⟨_, normalize_obj.mpr ⟨otherNormal, hother, hotherNodup, rfl⟩,
    dumps_obj_congr ?_ hotherNodup⟩
  rw [dumpFields_eq_map, dumpFields_eq_map]
  exact hperm.map _

/-- A rearrangement keeps the text. -/
theorem Rearranged.sameText (h : Rearranged parentKey value other) :
    SameText P parentKey value other := by
  cases h with
  | members h => exact sameText_members h
  | collection idKey hkey h =>
    exact fun form hform => ⟨form, normalize_collection hkey h hform, rfl⟩
  | set hkey h => exact fun form hform => ⟨form, normalize_set hkey h hform, rfl⟩

end Kept

/-! ## What equal texts say -/

section Forgotten

variable {P : Platform} {parentKey : Option String} {value other : Json}

theorem Reordered.symm (h : Reordered parentKey value other) : Reordered parentKey other value := by
  cases h with
  | members h => exact .members h.symm

theorem Reordered.rearranged (h : Reordered parentKey value other) :
    Rearranged parentKey value other := by
  cases h with
  | members h => exact .members h

theorem Rearranged.symm (h : Rearranged parentKey value other) :
    Rearranged parentKey other value := by
  cases h with
  | members h => exact .members h.symm
  | collection idKey hkey h => exact .collection idKey hkey h.symm
  | set hkey h => exact .set hkey fun text => (h text).symm

theorem Rewritten.symm (h : Rewritten P parentKey value other) :
    Rewritten P parentKey other value := by
  cases h with
  | rearranged h => exact .rearranged h.symm
  | text h => exact .text h.symm
  | key front back value h => exact .key front back value h.symm

theorem keyedItems_iff {items : List Json} :
    Json.KeyedItems items ↔ ∀ item ∈ items, item.Keyed := by
  induction items with
  | nil => simp [Json.KeyedItems]
  | cons item items ih => simp [Json.KeyedItems, ih]

theorem keyedFields_iff {fields : JsonObject} :
    Json.KeyedFields fields ↔ ∀ field ∈ fields, field.2.Keyed := by
  induction fields with
  | nil => simp [Json.KeyedFields]
  | cons field fields ih =>
    obtain ⟨key, value⟩ := field
    simp [Json.KeyedFields, Json.KeyedField, ih]

variable {form : Json}

/-- The keys of the objects of a canonical form are distinct. -/
theorem keyed_of_normalize (h : normalize P parentKey value = .ok form) :
    form.Keyed := by
  induction value using Json.ind generalizing parentKey form with
  | arr items ih =>
    obtain ⟨forms, hforms, harranged⟩ := normalize_arr.mp h
    obtain ⟨others, rfl⟩ := normalizeArray_eq_arr harranged
    have hsubset := (normalizeArray_eq_ok.mp harranged).idem.2
    rw [Json.Keyed, keyedItems_iff]
    intro other hother
    obtain ⟨item, hitem, heq⟩ := exists_of_forall₂ hforms.flip other (hsubset hother)
    exact ih item hitem heq
  | obj fields ih =>
    obtain ⟨members, hmembers, hnodup, rfl⟩ := normalize_obj.mp h
    rw [Json.Keyed, keyedFields_iff]
    refine ⟨hnodup, fun member hmember => ?_⟩
    obtain ⟨field, hfield, -, hvalue⟩ := exists_of_forall₂ hmembers.flip member hmember
    exact ih field hfield hvalue
  | _ =>
    rw [normalize] at h
    cases Except.ok.inj h
    rw [Json.Keyed]
    trivial

/-- What is read back of a value is the value with the keys of its objects in order. -/
theorem within_stored (name : String → String) (value : Json) :
    Throughout name Reordered parentKey value value.stored := by
  induction value using Json.ind generalizing parentKey with
  | arr items ih =>
    rw [Json.stored, Json.storedItems_eq_map]
    refine Throughout.items [] ?_
    rw [List.forall₂_map_right_iff, List.forall₂_same]
    exact fun item hitem => ih item hitem
  | obj fields ih =>
    rw [Json.stored, Json.storedFields_eq_map]
    have hperm := List.perm_insertionSort (fun a b : String × Json => a.1 ≤ b.1)
      (fields.map fun field => (field.1, field.2.stored))
    refine .trans (Throughout.members [] ?_) (.step (.members hperm.symm))
    rw [List.forall₂_map_right_iff, List.forall₂_same]
    exact fun field hfield => ⟨rfl, ih field hfield⟩
  | _ =>
    rw [Json.stored]
    exact .refl _ _

/-- The keys and the members of an object are written in another way. -/
theorem rewritten_members {fields others : JsonObject} (front : JsonObject)
    (h : List.Forall₂ (fun field other => normalString P field.1 = normalString P other.1 ∧
      Throughout (normalString P) (Rewritten P) (some (normalString P field.1)) field.2 other.2)
      fields others) :
    Throughout (normalString P) (Rewritten P) parentKey (.obj (front ++ fields))
      (.obj (front ++ others)) := by
  induction h generalizing front with
  | nil => exact .refl _ _
  | @cons field other fields others hfield _ ih =>
    obtain ⟨key, value⟩ := field
    obtain ⟨key', value'⟩ := other
    obtain ⟨hkey, hvalue⟩ := hfield
    have hrest := ih (front ++ [(key', value')])
    rw [List.append_assoc, List.append_assoc] at hrest
    exact .trans (.member front fields key hvalue)
      (.trans (.step (.key front fields value' hkey)) hrest)

/-- A canonical form is the value, written in another way. -/
theorem within_form (hP : Composes P) (h : normalize P parentKey value = .ok form) :
    Throughout (normalString P) (Rewritten P) parentKey value form := by
  induction value using Json.ind generalizing parentKey form with
  | arr items ih =>
    obtain ⟨forms, hforms, harranged⟩ := normalize_arr.mp h
    have hitems : Throughout (normalString P) (Rewritten P) parentKey (.arr items) (.arr forms) :=
      Throughout.items [] (forall₂_imp_of_mem hforms fun item hitem _ hform => ih item hitem hform)
    cases normalizeArray_eq_ok.mp harranged with
    | collection idKey ids hkey hids hnodup =>
      exact .trans hitems
        (.step (.rearranged (.collection idKey hkey (sortedEntries_perm hids).symm)))
    | set texts hkey hset htexts =>
      rw [eq_map_of_asTexts htexts] at hitems
      exact .trans hitems (.step (.rearranged (.set hset fun text => mem_sortedSet.symm)))
    | sequence hkey hset => exact hitems
  | obj fields ih =>
    obtain ⟨members, hmembers, -, rfl⟩ := normalize_obj.mp h
    refine rewritten_members [] (forall₂_imp_of_mem hmembers ?_)
    intro field hfield member hmember
    obtain ⟨hkey, hvalue⟩ := hmember
    rw [hkey] at hvalue
    exact ⟨by rw [hkey, normalString_idem hP], ih field hfield hvalue⟩
  | str text =>
    rw [normalize] at h
    cases Except.ok.inj h
    exact .step (.text (normalString_idem hP text).symm)
  | _ =>
    rw [normalize] at h
    cases Except.ok.inj h
    exact .refl _ _

/-- Forms with the same text differ in the order of keys alone. -/
theorem reordered_of_dumps {otherForm : Json} (hform : normalize P none value = .ok form)
    (hother : normalize P none other = .ok otherForm) (h : dumps otherForm = dumps form)
    (name : String → String) : Throughout name Reordered none form otherForm := by
  have hloads := loads_dumps (keyed_of_normalize hother)
  rw [h, loads_dumps (keyed_of_normalize hform), Option.some.injEq] at hloads
  have hback : Throughout name Reordered none otherForm.stored otherForm :=
    (within_stored name otherForm).symm Reordered.symm
  rw [← hloads] at hback
  exact .trans (within_stored name form) hback

theorem canonicalJsonBytes_of_normalize (h : normalize P none value = .ok form) :
    canonicalJsonBytes P value = .ok (dumps form) :=
  bind_eq_ok.mpr ⟨form, h, rfl⟩

/-- A value is normalized once. Its canonical text does not depend on the order of keys, of the
entries of collections and of the members of sets, and on how often these are named. A value with
the same text has the same form up to the order of keys, and is the same value written in another
way. -/
theorem canonical_form (hP : Composes P) (value : Json) :
    (∀ parentKey form, normalize P parentKey value = .ok form →
      normalize P parentKey form = .ok form) ∧
    ∀ form, normalize P none value = .ok form →
      (∀ other, Throughout (normalString P) Rearranged none value other →
        canonicalJsonBytes P other = canonicalJsonBytes P value) ∧
      ∀ other otherForm, normalize P none other = .ok otherForm →
        canonicalJsonBytes P other = canonicalJsonBytes P value →
          Throughout (normalString P) Reordered none form otherForm ∧
            Throughout (normalString P) (Rewritten P) none value other := by
  refine ⟨fun parentKey form => normalize_idem hP, fun form hform => ⟨?_, ?_⟩⟩
  · intro other hwithin
    obtain ⟨otherForm, hother, htext⟩ := hwithin.sameText Rearranged.sameText form hform
    rw [canonicalJsonBytes_of_normalize hother, canonicalJsonBytes_of_normalize hform, htext]
  · intro other otherForm hother htext
    rw [canonicalJsonBytes_of_normalize hother, canonicalJsonBytes_of_normalize hform] at htext
    have hforms := reordered_of_dumps hform hother (Except.ok.inj htext) (normalString P)
    have hsame : Throughout (normalString P) (Rewritten P) none form otherForm :=
      hforms.mono fun h => .rearranged h.rearranged
    have hback : Throughout (normalString P) (Rewritten P) none otherForm other :=
      (within_form hP hother).symm Rewritten.symm
    exact ⟨hforms, .trans (within_form hP hform) (.trans hsame hback)⟩

/-- What is read of a canonical text is the value written in another way, and its canonical text
is the one that was read. -/
theorem canonical_text_read_back (hP : Composes P) {text : List Char}
    (h : canonicalJsonBytes P value = .ok text) :
    ∃ read, loads text = some read ∧ canonicalJsonBytes P read = .ok text ∧
      Throughout (normalString P) (Rewritten P) none value read := by
  obtain ⟨form, hform, h⟩ := bind_eq_ok.mp h
  cases pure_eq_ok.mp h
  have hstored : Throughout (normalString P) Rearranged none form form.stored :=
    (within_stored _ form).mono Reordered.rearranged
  obtain ⟨again, hagain, htext⟩ :=
    hstored.sameText Rearranged.sameText form (normalize_idem hP hform)
  refine ⟨form.stored, loads_dumps (keyed_of_normalize hform), ?_,
    .trans (within_form hP hform) (hstored.mono .rearranged)⟩
  rw [canonicalJsonBytes_of_normalize hagain, htext]

end Forgotten

/-! ## A subgraph in two orders -/

section Samples

/-- A platform for texts that are composed. -/
def composedPlatform : Platform where
  nfc := id
  sha256 _ := ""
  hmacSha256 _ _ := ""
  uuid5 := id
  repr _ := ""
  parseInt _ := none

def sampleClaim (claimId : String) : Json := .obj [("claim_id", .str claimId)]

/-- A subgraph with two claims. -/
def sampleSubgraph : Json :=
  .obj [("claims", .arr [sampleClaim "b", sampleClaim "a"]),
    ("evidence_ids", Json.ofTexts ["y", "x", "y"])]

/-- The subgraph in another order. -/
def sampleOrdered : Json :=
  .obj [("evidence_ids", Json.ofTexts ["x", "y"]),
    ("claims", .arr [sampleClaim "a", sampleClaim "b"])]

theorem composedPlatform_composes : Composes composedPlatform := ⟨fun _ => rfl, fun _ h => h⟩

theorem sample_normal : ∃ form, normalize composedPlatform none sampleSubgraph = .ok form :=
  ⟨.obj [("claims", .arr [sampleClaim "a", sampleClaim "b"]),
    ("evidence_ids", Json.ofTexts ["x", "y"])], by rfl⟩

theorem sample_within :
    Throughout (normalString composedPlatform) Rearranged none sampleSubgraph sampleOrdered := by
  have hclaims : normalString composedPlatform "claims" = "claims" := by decide
  have hids : normalString composedPlatform "evidence_ids" = "evidence_ids" := by decide
  refine .trans (.member [] _ "claims" (.step ?_)) (.trans (.member [_] [] "evidence_ids"
    (.step ?_)) (.step (.members (.swap _ _ _))))
  · rw [hclaims]
    exact .collection "claim_id" rfl (.swap _ _ _)
  · rw [hids]
    exact .set rfl (by simp)

theorem canonical_form_of_subgraph :
    canonicalJsonBytes composedPlatform sampleOrdered =
      canonicalJsonBytes composedPlatform sampleSubgraph := by
  obtain ⟨form, hform⟩ := sample_normal
  exact ((canonical_form composedPlatform_composes sampleSubgraph).2 form hform).1 sampleOrdered
    sample_within

theorem canonical_text_read_back_of_subgraph :
    ∃ text read, loads text = some read ∧ canonicalJsonBytes composedPlatform read = .ok text := by
  obtain ⟨form, hform⟩ := sample_normal
  obtain ⟨read, hread, hagain, -⟩ :=
    canonical_text_read_back composedPlatform_composes (canonicalJsonBytes_of_normalize hform)
  exact ⟨dumps form, read, hread, hagain⟩

end Samples

end ResearchKernel
