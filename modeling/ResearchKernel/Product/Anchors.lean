import ResearchKernel.Product.Materials

/-!
# Anchors of an extraction

When a call that extracts something is not stopped between its two transactions, and the
identifiers of its anchors are new, then every object has its anchor. Otherwise the row stands
there without anchors, and no later call writes them.
-/

namespace ResearchKernel.Product.Materials

open Foundation
open Extraction (ExtractedMaterial Formula LayoutObject projectTex projectText nodup_number
  formulas_projectText)
open Uploads (ArtifactRef)

/-! ## What is promised -/

def objects (extracted : ExtractedMaterial) : List AnchorObject :=
  objectsOf extracted.layout extracted.formulas

/-- An extraction has exactly one anchor for each object of its projection. -/
def Anchored (s : MaterialTables) (row : MaterialExtraction) : Prop :=
  ∃ projection, row.projection = some projection ∧ projection.objects.Nodup ∧
    ((anchors s row.extractionId).map MaterialAnchor.object).Perm projection.objects

/-- Every extraction that is reported as successful has its anchors. -/
def Complete (s : MaterialTables) : Prop :=
  ∀ extractionId row, getExtraction s extractionId = .ok row → row.status = .succeeded →
    Anchored s row

/-- The identifiers of the anchors of what was extracted are new, and no two are the same. -/
def Fresh (P : Platform) (s : MaterialTables) (row : MaterialExtraction)
    (extracted : ExtractedMaterial) : Prop :=
  ∃ records, (objects extracted).mapM (anchorOf P row.extractionId row.createdAt) = some records ∧
    (records.map MaterialAnchor.anchorId).Nodup ∧
      ∀ record ∈ records, ∀ old ∈ s.anchors, old.anchorId ≠ record.anchorId

/-- A call that is going to write a row for what was extracted is not stopped between its
transactions, and can write the anchors, if there are any. -/
def Untorn (P : Platform) (s : MaterialTables) (stop : Option Stop)
    (plan : Except MaterialError Plan) : Prop :=
  ∀ row extracted, plan = .ok (.write row (some extracted)) →
    stop = some .early ∨ objects extracted = [] ∨ stop ≠ some .between ∧ Fresh P s row extracted

/-- A call does not leave a row without its anchors. -/
def Whole (P : Platform) (s : MaterialTables) : Call → Prop
  | .extract answers stop request => Untorn P s stop (planExtract P s answers request)
  | .revise answers stop request => Untorn P s stop (planRevise P s answers request)
  | _ => True

/-! ## Objects are distinct -/

def AnchorObject.place (o : AnchorObject) : AnchorKind × Locator := (o.kind, o.locator)

/-- No two objects have the same place. -/
def Distinct (extracted : ExtractedMaterial) : Prop :=
  ((objects extracted).map AnchorObject.place).Nodup

section Distinct

variable {layout : List LayoutObject} {formulas : List Formula}

theorem nodup_layoutObject (h : (layout.map LayoutObject.number).Nodup) :
    ((layout.map layoutObject).map AnchorObject.place).Nodup := by
  rw [List.map_map]
  refine List.pairwise_map.mpr ((List.pairwise_map.mp h).imp fun hne heq => hne ?_)
  injection heq with _ hlocator
  injection hlocator with hpage hline
  rw [LayoutObject.number, LayoutObject.number, hpage, hline]

theorem nodup_candidate {origin : String} (h : (layout.map LayoutObject.number).Nodup) :
    (((layout.map (LayoutObject.candidate origin)).map formulaObject).map
      AnchorObject.place).Nodup := by
  rw [List.map_map, List.map_map]
  refine List.pairwise_map.mpr ((List.pairwise_map.mp h).imp fun hne heq => hne ?_)
  injection heq with _ hlocator
  injection hlocator with hpage hline
  rw [LayoutObject.number, LayoutObject.number, hpage, hline]

theorem distinct_of (extracted : ExtractedMaterial)
    (hlayout : (extracted.layout.map LayoutObject.number).Nodup)
    (hformulas : ((extracted.formulas.map formulaObject).map AnchorObject.place).Nodup) :
    Distinct extracted := by
  rw [Distinct, objects, objectsOf, List.map_append, List.nodup_append]
  refine ⟨nodup_layoutObject hlayout, hformulas, fun a ha b hb heq => ?_⟩
  rw [List.map_map] at ha hb
  obtain ⟨o, -, rfl⟩ := List.mem_map.mp ha
  obtain ⟨formula, -, rfl⟩ := List.mem_map.mp hb
  cases formula <;> cases heq

theorem nodup_filtered {p : LayoutObject → Bool} (h : (layout.map LayoutObject.number).Nodup) :
    ((layout.filter p).map LayoutObject.number).Nodup :=
  h.sublist (List.filter_sublist.map _)

theorem distinct_projectText (text : List Char) (origin : String) :
    Distinct (projectText text origin) := by
  refine distinct_of _ (nodup_number text origin) ?_
  rw [formulas_projectText]
  exact nodup_candidate (nodup_filtered (nodup_number text origin))

/-- The formulas between delimiters are counted, and so they differ from each other, and from the
lines. -/
theorem distinct_projectTex (text : List Char) : Distinct (projectTex text) := by
  have hnumbers := nodup_number text "TEX_LINE_CANDIDATE"
  refine distinct_of _ hnumbers ?_
  rw [projectTex, formulas_projectText, List.map_append, List.map_append, List.nodup_append]
  refine ⟨nodup_candidate (nodup_filtered hnumbers), ?_, ?_⟩
  · rw [List.nodup_iff_pairwise_ne, List.pairwise_iff_getElem]
    intro i j hi hj hlt heq
    simp only [List.getElem_map, List.getElem_mapIdx, formulaObject, AnchorObject.place] at heq
    injection heq with _ hlocator
    injection hlocator with hordinal
    omega
  · intro a ha b hb heq
    rw [List.map_map] at ha hb
    obtain ⟨candidate, hcandidate, rfl⟩ := List.mem_map.mp ha
    obtain ⟨exact', hexact, rfl⟩ := List.mem_map.mp hb
    obtain ⟨o, -, rfl⟩ := List.mem_map.mp hcandidate
    obtain ⟨index, hindex, rfl⟩ := List.mem_mapIdx.mp hexact
    cases heq

theorem distinct_project (text : List Char) (extractor : Extractor) :
    Distinct (extractor.project text) := by
  cases extractor with
  | pdf | text => exact distinct_projectText _ _
  | tex => exact distinct_projectTex _
  | image =>
    rw [Extractor.project]
    split_ifs
    · exact distinct_of _ (nodup_number text _) (List.nodup_singleton _)
    · exact distinct_projectText _ _

theorem distinct_projectRevision (text : List Char) (kind : MaterialKind) :
    Distinct (projectRevision kind text) := by
  rw [projectRevision]
  split_ifs
  · exact distinct_projectTex _
  · exact distinct_projectText _ _

end Distinct

/-! ## What is planned -/

/-- What a call may be going to do: it answers, or writes a row with a new identifier, for what was
extracted or without it. -/
inductive Planned (s : MaterialTables) : Plan → Prop where
  | answer (row : MaterialExtraction) : Planned s (.answer row)
  | without {row : MaterialExtraction}
    (hnew : ∀ old ∈ s.extractions, old.extractionId ≠ row.extractionId)
    (hstatus : row.status ≠ .succeeded) : Planned s (.write row none)
  | extracted {row : MaterialExtraction} {extracted : ExtractedMaterial}
    {projection : PublishedProjection}
    (hnew : ∀ old ∈ s.extractions, old.extractionId ≠ row.extractionId)
    (hstatus : row.status = .succeeded) (hprojection : row.projection = some projection)
    (hobjects : projection.objects = objects extracted) (hdistinct : Distinct extracted) :
    Planned s (.write row (some extracted))

section Planned

variable {P : Platform} {s : MaterialTables} {answers : Answers} {plan : Plan}

variable {extractionId : Id}

theorem objects_of_publishProjection {original : ArtifactRef} {extracted : ExtractedMaterial}
    {difference : Option (List Char)} {projection : PublishedProjection}
    (h : publishProjection P answers extractionId original extracted difference = .ok projection) :
    projection.objects = objects extracted := by
  obtain ⟨_, -, h⟩ := bind_eq_ok.mp h
  obtain ⟨_, -, h⟩ := bind_eq_ok.mp h
  obtain ⟨_, -, h⟩ := bind_eq_ok.mp h
  cases pure_eq_ok.mp h
  rfl

theorem new_of_find? (h : s.extractions.find? (·.extractionId == extractionId) = none) :
    ∀ old ∈ s.extractions, old.extractionId ≠ extractionId := by
  intro old hold heq
  exact List.find?_eq_none.mp h old hold (beq_iff_eq.mpr heq)

theorem planned_of_planExtract {request : ExtractRequest}
    (h : planExtract P s answers request = .ok plan) : Planned s plan := by
  rw [planExtract] at h
  cases hfound : s.extractions.find? (·.extractionId == request.extractionId) with
  | some existing =>
    simp only [hfound] at h
    split_ifs at h
    cases h
    exact .answer existing
  | none =>
    have hnew := new_of_find? hfound
    simp only [hfound] at h
    obtain ⟨material, -, h⟩ := bind_eq_ok.mp h
    obtain ⟨profile, -, h⟩ := bind_eq_ok.mp h
    obtain ⟨_, -, h⟩ := bind_eq_ok.mp h
    obtain ⟨run, -, h⟩ := bind_eq_ok.mp h
    obtain ⟨_, -, h⟩ := bind_eq_ok.mp h
    split_ifs at h
    · cases pure_eq_ok.mp h
      exact .without hnew (by simp)
    · obtain ⟨extractor, -, h⟩ := bind_eq_ok.mp h
      cases hreading : answers.reading with
      | error detail =>
        rw [hreading] at h
        cases pure_eq_ok.mp h
        exact .without hnew (by simp)
      | ok text =>
        rw [hreading] at h
        obtain ⟨projection, hprojection, h⟩ := bind_eq_ok.mp h
        have hobjects := objects_of_publishProjection hprojection
        cases pure_eq_ok.mp h
        exact .extracted hnew rfl rfl hobjects (distinct_project text extractor)

theorem planned_of_planRevise {request : ReviseRequest}
    (h : planRevise P s answers request = .ok plan) : Planned s plan := by
  rw [planRevise] at h
  cases hfound : s.extractions.find? (·.extractionId == request.extractionId) with
  | some existing =>
    simp only [hfound] at h
    obtain ⟨_, -, h⟩ := bind_eq_ok.mp h
    obtain ⟨_, -, h⟩ := bind_eq_ok.mp h
    obtain ⟨_, -, h⟩ := bind_eq_ok.mp h
    cases pure_eq_ok.mp h
    exact .answer existing
  | none =>
    have hnew := new_of_find? hfound
    simp only [hfound] at h
    obtain ⟨previous, -, h⟩ := bind_eq_ok.mp h
    obtain ⟨_, -, h⟩ := bind_eq_ok.mp h
    obtain ⟨old, -, h⟩ := bind_eq_ok.mp h
    obtain ⟨_, -, h⟩ := bind_eq_ok.mp h
    obtain ⟨_, -, h⟩ := bind_eq_ok.mp h
    obtain ⟨material, -, h⟩ := bind_eq_ok.mp h
    obtain ⟨profile, -, h⟩ := bind_eq_ok.mp h
    obtain ⟨projection, hprojection, h⟩ := bind_eq_ok.mp h
    have hobjects := objects_of_publishProjection hprojection
    cases pure_eq_ok.mp h
    exact .extracted hnew rfl rfl hobjects (distinct_projectRevision _ _)

end Planned

/-! ## What is written -/

/-- The tables with one more row and its anchors. -/
def MaterialTables.add (s : MaterialTables) (row : MaterialExtraction)
    (records : List MaterialAnchor) : MaterialTables :=
  { s with
    extractions := s.extractions ++ [row]
    anchors := s.anchors ++ records }

def Owned (s : MaterialTables) : Prop :=
  ∀ anchor ∈ s.anchors, ∃ row ∈ s.extractions, row.extractionId = anchor.extractionId

/-- An extraction that is not there yet, and neither are anchors of it. -/
structure New (s : MaterialTables) (row : MaterialExtraction) : Prop where
  extraction : ∀ old ∈ s.extractions, old.extractionId ≠ row.extractionId
  anchor : ∀ anchor ∈ s.anchors, anchor.extractionId ≠ row.extractionId

section Writing

variable {P : Platform} {s : MaterialTables} {row old : MaterialExtraction}
  {records : List MaterialAnchor} {extracted : ExtractedMaterial}

theorem Owned.new (h : Owned s)
    (hnew : ∀ old ∈ s.extractions, old.extractionId ≠ row.extractionId) : New s row := by
  refine ⟨hnew, fun anchor hanchor heq => ?_⟩
  obtain ⟨old, hold, hid⟩ := h anchor hanchor
  exact hnew old hold (hid.trans heq)

theorem Owned.add (h : Owned s) (hrecords : ∀ record ∈ records,
    record.extractionId = row.extractionId) : Owned (s.add row records) := by
  intro anchor hanchor
  rcases List.mem_append.mp hanchor with hanchor | hanchor
  · obtain ⟨old, hold, hid⟩ := h anchor hanchor
    exact ⟨old, List.mem_append_left _ hold, hid⟩
  · exact ⟨row, List.mem_append_right _ List.mem_cons_self, (hrecords anchor hanchor).symm⟩

variable {extractionId : Id} {now : Stamp}

theorem anchorOf_eq_some {object : AnchorObject} {record : MaterialAnchor}
    (h : anchorOf P extractionId now object = some record) :
    record.extractionId = extractionId ∧ record.object = object := by
  obtain ⟨_, -, h⟩ := Option.bind_eq_some_iff.mp h
  cases h
  exact ⟨rfl, rfl⟩

theorem map_object_of_mapM {os : List AnchorObject}
    (h : os.mapM (anchorOf P extractionId now) = some records) :
    records.map MaterialAnchor.object = os ∧
      ∀ record ∈ records, record.extractionId = extractionId := by
  have hall := mapM_eq_some.mp h
  induction hall with
  | nil => exact ⟨rfl, fun _ hrecord => absurd hrecord List.not_mem_nil⟩
  | @cons object record os records hrecord hall ih =>
    obtain ⟨hid, hobject⟩ := anchorOf_eq_some hrecord
    obtain ⟨hobjects, hids⟩ := ih (mapM_eq_some.mpr hall)
    refine ⟨by rw [List.map_cons, hobject, hobjects], fun other hother => ?_⟩
    rcases List.mem_cons.mp hother with rfl | hother
    · exact hid
    · exact hids other hother

/-- Anchors clash by their identifiers only, if their objects are distinct and the extraction is
new. -/
theorem anchorClash_eq_false {a b : MaterialAnchor}
    (h : a.extractionId ≠ b.extractionId ∨ a.object.place ≠ b.object.place) :
    anchorClash a b = false ↔ a.anchorId ≠ b.anchorId := by
  have hplaces : (a.extractionId == b.extractionId && a.object.kind == b.object.kind &&
      a.object.locator == b.object.locator) = false := by
    rw [Bool.eq_false_iff]
    intro htrue
    rw [Bool.and_eq_true, Bool.and_eq_true, beq_iff_eq, beq_iff_eq, beq_iff_eq] at htrue
    obtain ⟨⟨hid, hkind⟩, hlocator⟩ := htrue
    rcases h with hne | hne
    · exact hne hid
    · exact hne (Prod.ext hkind hlocator)
  rw [anchorClash, hplaces, Bool.or_false, beq_eq_false_iff_ne]

/-- The anchors can be written exactly when their identifiers are new. -/
theorem insertRows_iff_fresh (hnew : New s row) (hdistinct : Distinct extracted)
    (hrecords : (objects extracted).mapM (anchorOf P row.extractionId row.createdAt) = some records) :
    insertRows anchorClash records s.anchors = some (s.anchors ++ records) ↔
      Fresh P s row extracted := by
  obtain ⟨hobjects, hids⟩ := map_object_of_mapM hrecords
  have hplaces : records.Pairwise fun a b => b.object.place ≠ a.object.place := by
    rw [Distinct, ← hobjects, List.map_map] at hdistinct
    exact (List.pairwise_map.mp hdistinct).imp Ne.symm
  have hpairs : records.Pairwise (fun a b => anchorClash b a = false) ↔
      (records.map MaterialAnchor.anchorId).Nodup := by
    rw [List.nodup_iff_pairwise_ne, List.pairwise_map]
    exact ⟨fun h => (h.and hplaces).imp fun hab =>
        ((anchorClash_eq_false (Or.inr hab.2)).mp hab.1).symm,
      fun h => (h.and hplaces).imp fun hab => (anchorClash_eq_false (Or.inr hab.2)).mpr hab.1.symm⟩
  have hothers : (∀ record ∈ records, ∀ old ∈ s.anchors, anchorClash record old = false) ↔
      ∀ record ∈ records, ∀ old ∈ s.anchors, old.anchorId ≠ record.anchorId := by
    refine forall₂_congr fun record hrecord => forall₂_congr fun old hold => ?_
    have hne : record.extractionId ≠ old.extractionId := by
      rw [hids record hrecord]
      exact (hnew.anchor old hold).symm
    rw [anchorClash_eq_false (Or.inl hne)]
    exact ne_comm
  rw [insertRows_eq_some, hpairs, hothers]
  constructor
  · rintro ⟨-, hnodup, hfresh⟩
    exact ⟨records, hrecords, hnodup, hfresh⟩
  · rintro ⟨records', hrecords', hnodup, hfresh⟩
    obtain rfl : records' = records := Option.some.inj (hrecords'.symm.trans hrecords)
    exact ⟨rfl, hnodup, hfresh⟩

theorem insertAnchors_eq_ok {s' : MaterialTables} :
    insertAnchors P s extractionId extracted now = .ok s' ↔
      ∃ records, (objects extracted).mapM (anchorOf P extractionId now) = some records ∧
        insertRows anchorClash records s.anchors = some (s.anchors ++ records) ∧
          s' = { s with anchors := s.anchors ++ records } := by
  rw [insertAnchors, bind_eq_ok]
  constructor
  · rintro ⟨records, hrecords, h⟩
    obtain ⟨anchors, hanchors, h⟩ := bind_eq_ok.mp h
    have hinserted := orReject_eq_ok.mp hanchors
    have happend := eq_append_of_insertRows hinserted
    rw [happend] at hinserted h
    exact ⟨records, orReject_eq_ok.mp hrecords, hinserted, (pure_eq_ok.mp h).symm⟩
  · rintro ⟨records, hrecords, hinserted, rfl⟩
    refine ⟨records, orReject_eq_ok.mpr hrecords, bind_eq_ok.mpr ?_⟩
    exact ⟨_, orReject_eq_ok.mpr hinserted, rfl⟩

/-- The row is written, and behind it the anchors if they can be. -/
theorem write_extracted (hnew : New s row) (hdistinct : Distinct extracted) (stop : Option Stop) :
    ∃ records, (write P s stop row (some extracted)).1 = s.add row records ∧
      (stop ≠ some .between ∧ Fresh P s row extracted ∧
          (objects extracted).mapM (anchorOf P row.extractionId row.createdAt) = some records ∨
        ¬(stop ≠ some .between ∧ Fresh P s row extracted) ∧ records = []) := by
  have hrow : s.extractions.find? (·.extractionId == row.extractionId) = none :=
    List.find?_eq_none.mpr fun old hold heq => hnew.extraction old hold (beq_iff_eq.mp heq)
  have hwritten : { s with extractions := s.extractions ++ [row] } = s.add row [] := by
    rw [MaterialTables.add, List.append_nil]
  by_cases hstop : stop = some .between
  · refine ⟨[], ?_, Or.inr ⟨fun h => h.1 hstop, rfl⟩⟩
    simp only [write, insertExtraction, hrow, hstop]
    exact hwritten
  · by_cases hfresh : Fresh P s row extracted
    · obtain ⟨records, hrecords, -⟩ := id hfresh
      have hinserted := (insertRows_iff_fresh hnew hdistinct hrecords).mpr hfresh
      have hanchors : insertAnchors P { s with extractions := s.extractions ++ [row] }
          row.extractionId extracted row.createdAt = .ok (s.add row records) :=
        insertAnchors_eq_ok.mpr ⟨records, hrecords, hinserted, rfl⟩
      refine ⟨records, ?_, Or.inl ⟨hstop, hfresh, hrecords⟩⟩
      simp only [write, insertExtraction, hrow, if_neg hstop, hanchors]
    · refine ⟨[], ?_, Or.inr ⟨fun h => hfresh h.2, rfl⟩⟩
      simp only [write, insertExtraction, hrow, if_neg hstop]
      cases hanchors : insertAnchors P { s with extractions := s.extractions ++ [row] }
          row.extractionId extracted row.createdAt with
      | error error => exact hwritten
      | ok anchored =>
        obtain ⟨records, hrecords, hinserted, -⟩ := insertAnchors_eq_ok.mp hanchors
        exact absurd ((insertRows_iff_fresh hnew hdistinct hrecords).mp hinserted) hfresh

theorem write_without (hnew : New s row) (stop : Option Stop) :
    (write P s stop row none).1 = s.add row [] := by
  have hrow : s.extractions.find? (·.extractionId == row.extractionId) = none :=
    List.find?_eq_none.mpr fun old hold heq => hnew.extraction old hold (beq_iff_eq.mp heq)
  rw [MaterialTables.add, List.append_nil]
  simp only [write, insertExtraction, hrow]
  split_ifs <;> rfl

/-! ## Anchors of one extraction -/

/-- The anchors of an extraction, up to their order. -/
theorem anchored_iff : Anchored s row ↔
    ∃ projection, row.projection = some projection ∧ projection.objects.Nodup ∧
      ((s.anchors.filter (·.extractionId == row.extractionId)).map MaterialAnchor.object).Perm
        projection.objects := by
  refine exists_congr fun projection => and_congr_right fun _ => and_congr_right fun _ => ?_
  exact (((List.perm_insertionSort _ _).map MaterialAnchor.object).congr_left _)

/-- The anchors of another extraction stay as they are. -/
theorem anchored_add_other (hrecords : ∀ record ∈ records, record.extractionId = row.extractionId)
    (hne : old.extractionId ≠ row.extractionId) :
    Anchored (s.add row records) old ↔ Anchored s old := by
  have hnone : records.filter (·.extractionId == old.extractionId) = [] := by
    refine List.filter_eq_nil_iff.mpr fun record hrecord heq => hne ?_
    rw [← hrecords record hrecord]
    exact (beq_iff_eq.mp heq).symm
  rw [anchored_iff, anchored_iff, MaterialTables.add]
  dsimp only
  rw [List.filter_append, hnone, List.append_nil]

/-- The new extraction has the new anchors. -/
theorem anchored_add (hnew : New s row)
    (hrecords : ∀ record ∈ records, record.extractionId = row.extractionId)
    {projection : PublishedProjection} (hprojection : row.projection = some projection)
    (hobjects : projection.objects = objects extracted) (hdistinct : Distinct extracted) :
    Anchored (s.add row records) row ↔
      (records.map MaterialAnchor.object).Perm (objects extracted) := by
  have hnone : s.anchors.filter (·.extractionId == row.extractionId) = [] :=
    List.filter_eq_nil_iff.mpr fun anchor hanchor heq =>
      hnew.anchor anchor hanchor (beq_iff_eq.mp heq)
  have hall : records.filter (·.extractionId == row.extractionId) = records :=
    List.filter_eq_self.mpr fun record hrecord => beq_iff_eq.mpr (hrecords record hrecord)
  have hanchors : (s.add row records).anchors.filter (·.extractionId == row.extractionId) =
      records := by
    rw [MaterialTables.add, List.filter_append, hnone, hall, List.nil_append]
  rw [anchored_iff, hanchors]
  constructor
  · rintro ⟨other, hother, -, hperm⟩
    rw [← Option.some.inj (hprojection.symm.trans hother), hobjects] at hperm
    exact hperm
  · intro hperm
    refine ⟨projection, hprojection, ?_, by rwa [hobjects]⟩
    rw [hobjects]
    exact hdistinct.of_map _

theorem getExtraction_eq_ok (h : getExtraction s extractionId = .ok row) :
    row ∈ s.extractions ∧ row.extractionId = extractionId := by
  have hfound := orReject_eq_ok.mp h
  have htest := List.find?_some hfound
  exact ⟨List.mem_of_find?_eq_some hfound, beq_iff_eq.mp htest⟩

/-- One more extraction leaves the tables complete exactly when it has its anchors. -/
theorem complete_add_iff (hcomplete : Complete s) (hnew : New s row)
    (hrecords : ∀ record ∈ records, record.extractionId = row.extractionId) :
    Complete (s.add row records) ↔
      (row.status = .succeeded → Anchored (s.add row records) row) := by
  have hnone : s.extractions.find? (·.extractionId == row.extractionId) = none :=
    List.find?_eq_none.mpr fun old hold heq => hnew.extraction old hold (beq_iff_eq.mp heq)
  constructor
  · intro h hstatus
    refine h row.extractionId row (orReject_eq_ok.mpr ?_) hstatus
    simp [MaterialTables.add, hnone]
  · intro h extractionId other hother hstatus
    have hfound := orReject_eq_ok.mp hother
    rw [MaterialTables.add, List.find?_append] at hfound
    cases hold : s.extractions.find? (·.extractionId == extractionId) with
    | some known =>
      rw [hold, Option.some_or, Option.some.injEq] at hfound
      have hknown : getExtraction s extractionId = .ok other := by
        rw [getExtraction, hold, hfound]
        rfl
      have hne := hnew.extraction other (getExtraction_eq_ok hknown).1
      exact (anchored_add_other hrecords hne).mpr (hcomplete extractionId other hknown hstatus)
    | none =>
      rw [hold, Option.none_or] at hfound
      obtain rfl := List.mem_singleton.mp (List.mem_of_find?_eq_some hfound)
      exact h hstatus

end Writing

/-! ## Calls -/

section Calls

variable {P : Platform} {s : MaterialTables} {plan : Except MaterialError Plan}

theorem perform_early : (perform P s (some .early) plan).1 = s := by
  unfold perform
  rfl

theorem perform_error (stop : Option Stop) (error : MaterialError) :
    (perform P s stop (.error error)).1 = s := by
  unfold perform
  split_ifs <;> rfl

theorem perform_answer (stop : Option Stop) (row : MaterialExtraction) :
    (perform P s stop (.ok (.answer row))).1 = s := by
  unfold perform
  split_ifs <;> rfl

theorem perform_write {stop : Option Stop} (hstop : stop ≠ some .early) (row : MaterialExtraction)
    (extracted : Option ExtractedMaterial) :
    perform P s stop (.ok (.write row extracted)) = write P s stop row extracted := by
  unfold perform
  rw [if_neg hstop]

/-- What a call writes: nothing, or one new row with anchors of it. -/
theorem perform_adds (howned : Owned s) (hplan : ∀ planned, plan = .ok planned → Planned s planned)
    (stop : Option Stop) :
    (perform P s stop plan).1 = s ∨ ∃ row records, New s row ∧
      (∀ record ∈ records, record.extractionId = row.extractionId) ∧
        (perform P s stop plan).1 = s.add row records := by
  by_cases hearly : stop = some .early
  · rw [hearly]
    exact Or.inl perform_early
  cases hresult : plan with
  | error error => exact Or.inl (perform_error stop error)
  | ok planned =>
    cases hplan planned hresult with
    | answer row => exact Or.inl (perform_answer stop row)
    | @without row hrow hstatus =>
      refine Or.inr ⟨row, [], howned.new hrow, fun _ hrecord => absurd hrecord List.not_mem_nil, ?_⟩
      rw [perform_write hearly, write_without (howned.new hrow)]
    | @extracted row extracted projection hrow hstatus hprojection hobjects hdistinct =>
      have hnew := howned.new hrow
      obtain ⟨records, hwritten, hcases⟩ := write_extracted hnew hdistinct stop (P := P)
      refine Or.inr ⟨row, records, hnew, ?_, by rw [perform_write hearly, hwritten]⟩
      rcases hcases with ⟨-, -, hrecords⟩ | ⟨-, rfl⟩
      · exact (map_object_of_mapM hrecords).2
      · exact fun _ hrecord => absurd hrecord List.not_mem_nil

/-- A call leaves the tables complete exactly when it is whole. -/
theorem complete_perform_iff (howned : Owned s) (hcomplete : Complete s)
    (hplan : ∀ planned, plan = .ok planned → Planned s planned) (stop : Option Stop) :
    Complete (perform P s stop plan).1 ↔ Untorn P s stop plan := by
  by_cases hearly : stop = some .early
  · rw [hearly, perform_early]
    exact iff_of_true hcomplete fun _ _ _ => Or.inl rfl
  cases hresult : plan with
  | error error =>
    rw [perform_error]
    exact iff_of_true hcomplete fun _ _ h => by cases h
  | ok planned =>
    cases hplan planned hresult with
    | answer row =>
      rw [perform_answer]
      exact iff_of_true hcomplete fun _ _ h => by cases h
    | @without row hrow hstatus =>
      have hnew := howned.new hrow
      refine iff_of_true ?_ fun _ _ h => by cases h
      rw [perform_write hearly, write_without hnew, complete_add_iff hcomplete hnew
        fun _ hrecord => absurd hrecord List.not_mem_nil]
      exact fun hsucceeded => absurd hsucceeded hstatus
    | @extracted row extracted projection hrow hstatus hprojection hobjects hdistinct =>
      have hnew := howned.new hrow
      have huntorn : Untorn P s stop (.ok (.write row (some extracted))) ↔
          objects extracted = [] ∨ stop ≠ some .between ∧ Fresh P s row extracted := by
        constructor
        · intro h
          exact (h row extracted rfl).resolve_left hearly
        · rintro h _ _ heq
          cases heq
          exact Or.inr h
      obtain ⟨records, hwritten, hcases⟩ := write_extracted hnew hdistinct stop (P := P)
      rw [perform_write hearly, hwritten, huntorn]
      rcases hcases with ⟨hstop, hfresh, hrecords⟩ | ⟨htorn, rfl⟩
      · obtain ⟨hobjectsOf, hids⟩ := map_object_of_mapM hrecords
        refine iff_of_true ?_ (Or.inr ⟨hstop, hfresh⟩)
        rw [complete_add_iff hcomplete hnew hids, anchored_add hnew hids hprojection hobjects
          hdistinct, hobjectsOf]
        exact fun _ => List.Perm.refl _
      · have hids : ∀ record ∈ ([] : List MaterialAnchor), record.extractionId = row.extractionId :=
          fun _ hrecord => absurd hrecord List.not_mem_nil
        rw [complete_add_iff hcomplete hnew hids, anchored_add hnew hids hprojection hobjects
          hdistinct, List.map_nil, List.nil_perm, or_iff_left htorn]
        exact ⟨fun h => h hstatus, fun h _ => h⟩

/-! ### Runs -/

theorem registerProfiles_tables (rows : List ExtractionProfile) :
    (registerProfiles rows s).extractions = s.extractions ∧
      (registerProfiles rows s).anchors = s.anchors := by
  induction rows generalizing s with
  | nil => exact ⟨rfl, rfl⟩
  | cons row rows ih =>
    rw [registerProfiles]
    cases hregistered : registerProfile s row with
    | error error => exact ⟨rfl, rfl⟩
    | ok registered =>
      have hsame : registered.extractions = s.extractions ∧ registered.anchors = s.anchors := by
        rw [registerProfile] at hregistered
        split at hregistered
        · cases hregistered
          exact ⟨rfl, rfl⟩
        · split_ifs at hregistered
          cases hregistered
          exact ⟨rfl, rfl⟩
      exact ⟨ih.1.trans hsame.1, ih.2.trans hsame.2⟩

variable {s' : MaterialTables}

theorem ingest_tables {normalized : String} {row : Material}
    (h : ingest s normalized row = .ok s') :
    s'.extractions = s.extractions ∧ s'.anchors = s.anchors := by
  rw [ingest] at h
  obtain ⟨_, -, h⟩ := bind_eq_ok.mp h
  split at h
  · obtain ⟨materials, -, h⟩ := bind_eq_ok.mp h
    cases pure_eq_ok.mp h
    exact ⟨rfl, rfl⟩
  · obtain ⟨_, -, h⟩ := bind_eq_ok.mp h
    cases pure_eq_ok.mp h
    exact ⟨rfl, rfl⟩

/-- Tables with the same extractions and anchors promise the same. -/
theorem complete_congr (hextractions : s'.extractions = s.extractions)
    (hanchors : s'.anchors = s.anchors) : Complete s' ↔ Complete s := by
  unfold Complete Anchored getExtraction anchors
  rw [hextractions, hanchors]

theorem owned_congr (hextractions : s'.extractions = s.extractions)
    (hanchors : s'.anchors = s.anchors) (h : Owned s) : Owned s' := by
  unfold Owned
  rw [hextractions, hanchors]
  exact h

/-- What a call writes: no extraction and no anchor, or one new extraction with anchors of it. -/
theorem step_adds (howned : Owned s) (call : Call) :
    ((step P s call).extractions = s.extractions ∧ (step P s call).anchors = s.anchors) ∨
      ∃ row records, New s row ∧ (∀ record ∈ records, record.extractionId = row.extractionId) ∧
        step P s call = s.add row records := by
  have hperform : ∀ {plan : Except MaterialError Plan} (stop : Option Stop),
      (∀ planned, plan = .ok planned → Planned s planned) →
        ((perform P s stop plan).1.extractions = s.extractions ∧
            (perform P s stop plan).1.anchors = s.anchors) ∨
          ∃ row records, New s row ∧
            (∀ record ∈ records, record.extractionId = row.extractionId) ∧
              (perform P s stop plan).1 = s.add row records := by
    intro plan stop hplan
    refine (perform_adds howned hplan stop).imp_left fun hsame => ?_
    rw [hsame]
    exact ⟨rfl, rfl⟩
  cases call with
  | register tools now => exact Or.inl (registerProfiles_tables _)
  | ingest normalized row =>
    left
    rw [step]
    cases hingested : ingest s normalized row with
    | error error => exact ⟨rfl, rfl⟩
    | ok ingested => exact ingest_tables hingested
  | extract answers stop request =>
    exact hperform stop fun _ hplanned => planned_of_planExtract hplanned
  | revise answers stop request =>
    exact hperform stop fun _ hplanned => planned_of_planRevise hplanned

/-- Every call keeps the anchors with their extractions. -/
theorem owned_step (h : Owned s) (call : Call) : Owned (step P s call) := by
  rcases step_adds h call (P := P) with ⟨hextractions, hanchors⟩ | ⟨row, records, -, hids, hadd⟩
  · exact owned_congr hextractions hanchors h
  · rw [hadd]
    exact h.add hids

/-- From complete tables, a call leads to complete tables exactly when it is whole. -/
theorem complete_step_iff (howned : Owned s) (hcomplete : Complete s) (call : Call) :
    Complete (step P s call) ↔ Whole P s call := by
  cases call with
  | register tools now =>
    obtain ⟨hextractions, hanchors⟩ := registerProfiles_tables (s := s)
      (builtins.map (profileOf tools now))
    exact iff_of_true ((complete_congr hextractions hanchors).mpr hcomplete) trivial
  | ingest normalized row =>
    refine iff_of_true ?_ trivial
    rw [step]
    cases hingested : ingest s normalized row with
    | error error => exact hcomplete
    | ok ingested =>
      obtain ⟨hextractions, hanchors⟩ := ingest_tables hingested
      exact (complete_congr hextractions hanchors).mpr hcomplete
  | extract answers stop request =>
    exact complete_perform_iff howned hcomplete (fun _ h => planned_of_planExtract h) stop
  | revise answers stop request =>
    exact complete_perform_iff howned hcomplete (fun _ h => planned_of_planRevise h) stop

/-- In every state that is reached the anchors are those of extractions. -/
theorem owned_reached (P : Platform) (calls : List Call) : Owned (reached P calls) := by
  refine @runFrom_invariant _ _ (step P) Owned _ ?_ (fun s call hs => owned_step hs call) calls
  exact fun _ hanchor => absurd hanchor List.not_mem_nil

/-- The extractions that are reported as successful have their anchors in every state of a run
exactly when every call of the run is whole. -/
theorem extractions_anchored_iff (P : Platform) (calls : List Call) :
    (∀ before, before <+: calls → Complete (reached P before)) ↔
      StepsSatisfy (step P) (Whole P) {} calls := by
  constructor
  · rintro h before call after rfl
    have hbefore := h before (List.prefix_append _ _)
    have hafter := h (before ++ [call]) ⟨after, by simp⟩
    rw [reached, runFrom_concat] at hafter
    exact (complete_step_iff (owned_reached P before) hbefore call).mp hafter
  · rintro h before ⟨after, rfl⟩
    have hstart : Complete ({} : MaterialTables) := fun _ _ hfound => by cases hfound
    have hboth : Owned (reached P before) ∧ Complete (reached P before) := by
      refine @runFrom_invariant_of _ _ (step P) (fun s => Owned s ∧ Complete s) (Whole P) _
        ⟨owned_reached P [], hstart⟩ (fun s call hs hcall => ?_) _ h.left
      exact ⟨owned_step hs.1 call, (complete_step_iff hs.1 hs.2 call).mpr hcall⟩
    exact hboth.2

end Calls

/-! ### A call that ends between its transactions -/

namespace Sample

def digest : Digest := String.ofList (List.replicate 64 'a')

def platform : Platform where
  nfc := id
  sha256 := fun _ => digest
  hmacSha256 := fun _ _ => ""
  uuid5 := id
  repr := fun _ => ""
  parseInt := fun _ => none

/-- A text of one line. -/
def answers : Answers where
  toolRun := fun _ => some ("RUN", "ATTEMPT")
  reading := .ok ['x']
  publish := fun _ logicalName mediaType => ⟨logicalName, digest, 1, mediaType⟩
  unifiedDiff := fun _ _ _ _ => []

def material : Material := ⟨"MATERIAL", "RUN", .text, ⟨"ORIGINAL", digest, 1, "text/plain"⟩, ""⟩

def request : ExtractRequest where
  extractionId := "EXTRACTION"
  materialId := "MATERIAL"
  profileId := "text_utf8_v1"
  toolRunId := "TOOL-RUN"
  attemptId := "ATTEMPT"
  now := ""

/-- The call is stopped between its transactions. -/
def stopped : List Call :=
  [.register ⟨none, none⟩ "", .ingest "text/plain" material,
    .extract answers (some .between) request]

/-- The row that it leaves. -/
def row : MaterialExtraction where
  extractionId := "EXTRACTION"
  materialId := "MATERIAL"
  profileId := "text_utf8_v1"
  mode := .machine
  toolRunId := some "TOOL-RUN"
  attemptId := some "ATTEMPT"
  status := .succeeded
  parserBuild := "rk-utf8-v1"
  projection := some
    { text := ⟨⟨"EXTRACTION.txt", digest, 1, "text/plain"⟩, ['x']⟩
      layout :=
        ⟨⟨"EXTRACTION.layout.json", digest, 1, "application/json"⟩, [⟨1, 1, 0, 1, ['x']⟩]⟩
      formulas := ⟨⟨"EXTRACTION.formulas.json", digest, 1, "application/json"⟩, []⟩
      difference := ⟨"EXTRACTION.diff", digest, 1, "application/json"⟩ }
  createdAt := ""

/-- The call is made again, and is answered with the row that has no anchors. -/
theorem retry_answered_without_anchors :
    (extract platform (reached platform stopped) answers none request).2 = .ok row ∧
      row.status = .succeeded ∧
        ¬ Anchored (reached platform (stopped ++ [.extract answers none request])) row := by
  refine ⟨by decide +kernel, rfl, ?_⟩
  rintro ⟨projection, hprojection, -, hperm⟩
  have hnone : anchors (reached platform (stopped ++ [.extract answers none request]))
      row.extractionId = [] := by decide +kernel
  rw [hnone, List.map_nil, List.nil_perm] at hperm
  cases Option.some.inj hprojection
  cases hperm

end Sample

end ResearchKernel.Product.Materials
