import ResearchKernel.Product.Bundles

/-!
# What is backed up is restored

The restorer finds in a bundle exactly what the manifest names. What the manifest names is the
snapshot, the configuration files and the files of the artifacts that are no backups themselves.
Files that are the same when their digest is taken and when they are copied pass every check.
-/

namespace ResearchKernel.Product.Backup

open Foundation Registry
open Uploads (ArtifactRef)
open Pages (utf8 ofUtf8 ofUtf8_utf8)

variable {γ : Type} {H : BackupHost γ}

/-! ## Reading a manifest -/

/-- What is read from a canonical text that is followed by a line feed. -/
theorem loads_dumps_newline {value : Json} (h : value.Keyed) :
    loads (dumps value ++ ['\n']) = some value.stored := by
  have hends : EndsNumber ['\n'] := by
    intro c hc
    obtain rfl := Option.some.inj hc
    decide
  have hread := reads_of_keyed value h ['\n'] ((dumps value ++ ['\n']).length + 1) hends (by
    rw [List.length_append]
    omega)
  rw [loads, skipSpace_dumps, hread]
  rfl

def readBack (fields : JsonObject) : JsonObject := Json.sortKeys (Json.storedFields fields)

theorem get_readBack {fields : JsonObject} (h : (fields.map Prod.fst).Nodup) {key : String}
    {value : Json} (hvalue : fields.lookup key = some value) :
    (readBack fields).get key = value.stored := by
  rw [JsonObject.get, readBack, Json.lookup_stored h, hvalue]
  rfl

theorem mapping?_stored (fields : JsonObject) :
    (Json.stored (.obj fields)).mapping? = some (readBack fields) := by
  rw [Json.stored, readBack, Json.mapping?]

variable {manifest : JsonObject}

/-- The manifest of a bundle is read. -/
theorem readManifest_of_keyed (h : Json.Keyed (.obj manifest))
    (hschema : manifest.lookup "schema_version" = some (.str "rk.product.backup-manifest.v1"))
    (members : Tree) :
    readManifest (("manifest.json", manifestBytes manifest) :: members) =
      .ok (readBack manifest) := by
  have hkeys : (manifest.map Prod.fst).Nodup := by
    simp only [Json.Keyed] at h
    exact h.1
  have hread : loads (dumps (.obj manifest) ++ ['\n']) = some (.obj (readBack manifest)) := by
    rw [loads_dumps_newline h, Json.stored]
    rfl
  have hversion := get_readBack hkeys hschema
  unfold readManifest manifestBytes
  rw [List.lookup_cons_self, orReject_bind_of_some rfl, ofUtf8_utf8, orReject_bind_of_some rfl,
    String.toList_ofList, hread, orReject_bind_of_some rfl, Json.mapping?,
    orReject_bind_of_some rfl, rejectIf_bind_of_passes]
  · rfl
  · rw [hversion]
    decide

/-! ## Extracting members -/

/-- An entry says what is put at its path. -/
structure Sealed (H : BackupHost γ) (item : BundleEntry) (bytes : List UInt8) : Prop where
  keyed : Json.Keyed (.obj item.json)
  path : item.json.lookup "archive_path" = some (.str item.archivePath)
  count : item.json.lookup "byte_count" = some (.int bytes.length)
  digest : item.json.lookup "sha256" = some (.str (H.content.sha256 bytes))
  safe : isArchivePath item.archivePath = true

def databaseEntry (H : BackupHost γ) (snapshot : ProductDb γ) : BundleEntry where
  json := ("archive_path", .str "database.sqlite") :: entry H (H.sqlite.file snapshot)
  archivePath := "database.sqlite"
  source := some (H.sqlite.file snapshot)

/-- Entries together with what is put at their paths. -/
abbrev Sealings := List (BundleEntry × List UInt8)

/-- The entries are sealed and have different paths. -/
structure AllSealed (H : BackupHost γ) (items : Sealings) : Prop where
  each : ∀ item ∈ items, Sealed H item.1 item.2
  nodup : (items.map fun item => item.1.archivePath).Nodup

/-- The files that the entries name. -/
def filesOf (items : Sealings) : Tree := items.map fun item => (item.1.archivePath, item.2)

/-- Digests are not empty. -/
def Digests (H : BackupHost γ) : Prop := ∀ bytes, isDigest (H.content.sha256 bytes) = true

variable {item : BundleEntry} {bytes : List UInt8}

theorem Sealed.keys (h : Sealed H item bytes) :
    (item.json.map Prod.fst).Nodup := by
  have hkeyed := h.keyed
  simp only [Json.Keyed] at hkeyed
  exact hkeyed.1

theorem archivePathOf_readBack (h : Sealed H item bytes) :
    archivePathOf H (readBack item.json) = .ok item.archivePath := by
  unfold archivePathOf
  rw [readBack, Json.lookup_stored h.keys, h.path]
  rfl

theorem digest_ne_empty (hdigests : Digests H) (bytes : List UInt8) :
    H.content.sha256 bytes ≠ "" := by
  intro hempty
  have hdigest := hdigests bytes
  rw [hempty] at hdigest
  exact absurd hdigest (by decide)

/-- A member that is as its entry says is extracted. -/
theorem extractMember_of_sealed (hdigests : Digests H) (h : Sealed H item bytes)
    {members tree : Tree} (hmember : members.lookup item.archivePath = some bytes)
    (hnew : ∀ file ∈ tree, file.1 ≠ item.archivePath) :
    extractMember H members tree (readBack item.json) =
      .ok (tree ++ [(item.archivePath, bytes)]) := by
  have hcount : integerAt (readBack item.json) "byte_count" = .ok (bytes.length : ℤ) := by
    unfold integerAt
    rw [get_readBack h.keys h.count, Json.stored, Json.int?, orReject_bind_of_some rfl,
      rejectIf_bind_of_passes (by simp)]
    rfl
  have hdigest : stringAt (readBack item.json) "sha256" = .ok (H.content.sha256 bytes) := by
    unfold stringAt
    rw [get_readBack h.keys h.digest, Json.stored, Json.text?, orReject_bind_of_some rfl,
      rejectIf_bind_of_passes (by simpa using digest_ne_empty hdigests bytes)]
    rfl
  have hfree : tree.any (·.1 == item.archivePath) = false := by
    rw [List.any_eq_false]
    intro file hfile
    simpa using hnew file hfile
  unfold extractMember
  simp only [archivePathOf_readBack h, hcount, hdigest, h.safe, hfree, hmember, bind, Except.bind,
    orReject, rejectIf, Bool.not_true, bne_self_eq_false, Bool.false_eq_true, if_false]
  rfl

/-- A file is found among those of the entries. -/
theorem lookup_filesOf {items : Sealings}
    (hnodup : (items.map fun item => item.1.archivePath).Nodup) (hitem : (item, bytes) ∈ items) :
    (filesOf items).lookup item.archivePath = some bytes := by
  have hkeys : ((filesOf items).map Prod.fst).Nodup := by
    rw [filesOf, List.map_map]
    exact hnodup
  exact (mem_iff_lookup hkeys).mp (List.mem_map.mpr ⟨(item, bytes), hitem, rfl⟩)

/-- Members that are as their entries say are extracted in the order of the entries. -/
theorem extract_of_sealed (hdigests : Digests H) {members : Tree} {rest : Sealings} :
    ∀ {done : Sealings}, AllSealed H (done ++ rest) →
      (∀ item ∈ rest, members.lookup item.1.archivePath = some item.2) →
      (rest.map fun item => readBack item.1.json).foldlM (extractMember H members) (filesOf done) =
        .ok (filesOf (done ++ rest)) := by
  induction rest with
  | nil =>
    intro done _ _
    rw [List.append_nil]
    rfl
  | cons item rest ih =>
    intro done hsealed hmembers
    have hnew : ∀ file ∈ filesOf done, file.1 ≠ item.1.archivePath := by
      intro file hfile heq
      obtain ⟨old, hold, rfl⟩ := List.mem_map.mp hfile
      have hnodup := hsealed.nodup
      rw [List.map_append] at hnodup
      exact List.disjoint_of_nodup_append hnodup (List.mem_map_of_mem hold)
        (by simp only [List.map_cons, List.mem_cons]; exact Or.inl heq)
    have hfirst := extractMember_of_sealed hdigests
      (hsealed.each item (List.mem_append_right _ List.mem_cons_self))
      (hmembers item List.mem_cons_self) hnew
    have hnext : filesOf done ++ [(item.1.archivePath, item.2)] = filesOf (done ++ [item]) := by
      rw [filesOf, filesOf, List.map_append]
      rfl
    have hassoc : done ++ item :: rest = (done ++ [item]) ++ rest := by
      rw [List.append_assoc]
      rfl
    rw [List.map_cons, List.foldlM_cons, hfirst, hnext, hassoc]
    exact ih (hassoc ▸ hsealed) fun other hother =>
      hmembers other (List.mem_cons_of_mem _ hother)

/-! ## Reading a bundle -/

theorem keyedItems_of_sealed {items : Sealings} (h : ∀ item ∈ items, Sealed H item.1 item.2) :
    Json.KeyedItems (items.map fun item => .obj item.1.json) := by
  induction items with
  | nil => trivial
  | cons item items ih =>
    exact ⟨(h item List.mem_cons_self).keyed,
      ih fun other hother => h other (List.mem_cons_of_mem _ hother)⟩

theorem objects_readBack (items : Sealings) :
    objects (Json.stored (.arr (items.map fun item => .obj item.1.json))) =
      some (items.map fun item => readBack item.1.json) := by
  rw [Json.stored, Json.storedItems_eq_map, List.map_map]
  unfold objects
  rw [Json.sequence?, Option.bind_some, mapM_eq_some]
  induction items with
  | nil => exact .nil
  | cons item items ih =>
    refine .cons ?_ ih
    simp only [Function.comp_apply, Json.stored, Json.mapping?, readBack]

section Bundle

variable {request : BackupRequest} {backupId : Id} {createdAt : String} {snapshot : ProductDb γ}
  {configs cas : Sealings}

/-- The manifest of entries. -/
def manifestFor (H : BackupHost γ) (request : BackupRequest) (backupId : Id) (createdAt : String)
    (snapshot : ProductDb γ) (configs cas : Sealings) : JsonObject :=
  manifestOf H request backupId createdAt snapshot (configs.map Prod.fst) (cas.map Prod.fst)

/-- All entries of a manifest. -/
def sealings (H : BackupHost γ) (snapshot : ProductDb γ) (configs cas : Sealings) : Sealings :=
  (databaseEntry H snapshot, H.sqlite.file snapshot) :: (configs ++ cas)

theorem sealed_databaseEntry (snapshot : ProductDb γ) :
    Sealed H (databaseEntry H snapshot) (H.sqlite.file snapshot) where
  keyed := by
    simp [databaseEntry, entry, Json.Keyed, Json.KeyedFields, Json.KeyedField]
  path := rfl
  count := rfl
  digest := rfl
  safe := by
    change isArchivePath "database.sqlite" = true
    decide

/-- The keys of a manifest are distinct. -/
theorem keyed_manifestFor (h : AllSealed H (sealings H snapshot configs cas)) :
    Json.Keyed (.obj (manifestFor H request backupId createdAt snapshot configs cas)) := by
  have hconfigs : Json.KeyedItems ((configs.map Prod.fst).map fun item => .obj item.json) := by
    rw [List.map_map]
    exact keyedItems_of_sealed fun item hitem =>
      h.each item (List.mem_cons_of_mem _ (List.mem_append_left _ hitem))
  have hcas : Json.KeyedItems ((cas.map Prod.fst).map fun item => .obj item.json) := by
    rw [List.map_map]
    exact keyedItems_of_sealed fun item hitem =>
      h.each item (List.mem_cons_of_mem _ (List.mem_append_right _ hitem))
  have hdatabase := (sealed_databaseEntry (H := H) snapshot).keyed
  have hcounters : Json.Keyed (.obj snapshot.consistency.json) := by
    simp [Consistency.json, Json.Keyed, Json.KeyedFields, Json.KeyedField]
  have hfields : Json.KeyedFields
      (manifestFor H request backupId createdAt snapshot configs cas) :=
    ⟨trivial, trivial, trivial, trivial, trivial, trivial, hdatabase, hconfigs, hcas, hcounters,
      trivial⟩
  refine ⟨?_, hfields⟩
  unfold manifestFor manifestOf
  simp only [List.map_cons, List.map_nil]
  decide

theorem keys_manifestFor (h : AllSealed H (sealings H snapshot configs cas)) :
    ((manifestFor H request backupId createdAt snapshot configs cas).map Prod.fst).Nodup := by
  have hkeyed : Json.Keyed (.obj (manifestFor H request backupId createdAt snapshot configs cas)) :=
    keyed_manifestFor h
  simp only [Json.Keyed] at hkeyed
  exact hkeyed.1

/-- The restorer finds the entries in the manifest. -/
theorem manifestEntries_readBack (h : AllSealed H (sealings H snapshot configs cas)) :
    manifestEntries (readBack (manifestFor H request backupId createdAt snapshot configs cas)) =
      .ok ((sealings H snapshot configs cas).map fun item => readBack item.1.json) := by
  set manifest := manifestFor H request backupId createdAt snapshot configs cas with hmanifest
  have hkeys : (manifest.map Prod.fst).Nodup := keys_manifestFor h
  have hdatabase : manifest.lookup "database" = some (.obj (databaseEntry H snapshot).json) := rfl
  have hconfigs : manifest.lookup "configuration" =
      some (.arr ((configs.map Prod.fst).map fun item => .obj item.json)) := rfl
  have hcas : manifest.lookup "cas_objects" =
      some (.arr ((cas.map Prod.fst).map fun item => .obj item.json)) := rfl
  rw [List.map_map] at hconfigs hcas
  unfold manifestEntries objectAt
  rw [get_readBack hkeys hdatabase, get_readBack hkeys hconfigs, get_readBack hkeys hcas,
    mapping?_stored, orReject_bind_of_some rfl]
  have hread (items : Sealings) : objects (Json.stored (.arr (items.map
      ((fun item => Json.obj item.json) ∘ Prod.fst)))) =
        some (items.map fun item => readBack item.1.json) := objects_readBack items
  rw [hread, hread, orReject_bind_of_some rfl, orReject_bind_of_some rfl, sealings, List.map_cons,
    List.map_append]
  rfl

/-- What is extracted from a bundle. -/
theorem extractVerified_bundle (hdigests : Digests H)
    (h : AllSealed H (sealings H snapshot configs cas)) :
    extractVerified H (H.zip.write
      (("manifest.json", manifestBytes
        (manifestFor H request backupId createdAt snapshot configs cas)) ::
          filesOf (sealings H snapshot configs cas))) =
      .ok (readBack (manifestFor H request backupId createdAt snapshot configs cas),
        filesOf (sealings H snapshot configs cas)) := by
  set manifest := manifestFor H request backupId createdAt snapshot configs cas
  set items := sealings H snapshot configs cas
  have hpaths : (items.map fun item => readBack item.1.json).mapM (archivePathOf H) =
      .ok (items.map fun item => item.1.archivePath) := by
    rw [mapM_eq_ok, List.forall₂_map_left_iff, List.forall₂_map_right_iff, List.forall₂_same]
    intro item hitem
    exact archivePathOf_readBack (h.each item hitem)
  have hnames : (("manifest.json", manifestBytes manifest) :: filesOf items).map Prod.fst =
      "manifest.json" :: items.map fun item => item.1.archivePath := by
    rw [List.map_cons, filesOf, List.map_map]
    rfl
  have hmembers : ∀ item ∈ items,
      (("manifest.json", manifestBytes manifest) :: filesOf items).lookup item.1.archivePath =
        some item.2 := by
    intro item hitem
    have hne : item.1.archivePath ≠ "manifest.json" := by
      intro heq
      have hsafe := (h.each item hitem).safe
      rw [heq] at hsafe
      exact absurd hsafe (by decide)
    rw [List.lookup_cons, beq_false_of_ne hne]
    exact lookup_filesOf h.nodup hitem
  have hextract : (items.map fun item => readBack item.1.json).foldlM
      (extractMember H (("manifest.json", manifestBytes manifest) :: filesOf items)) (filesOf []) =
        .ok (filesOf ([] ++ items)) := extract_of_sealed hdigests h hmembers
  refine bind_eq_ok.mpr ⟨_, orReject_eq_ok.mpr (H.zip.read_write _), ?_⟩
  refine bind_eq_ok.mpr ⟨_, readManifest_of_keyed (keyed_manifestFor h) rfl _, ?_⟩
  refine bind_eq_ok.mpr ⟨_, manifestEntries_readBack h, ?_⟩
  refine bind_eq_ok.mpr ⟨_, hpaths, ?_⟩
  refine bind_eq_ok.mpr ⟨(), rejectIf_eq_ok.mpr ?_, bind_eq_ok.mpr ⟨_, hextract, rfl⟩⟩
  have hall : (("manifest.json", manifestBytes manifest) :: filesOf items).all
      (fun member => ("manifest.json" :: items.map fun item => item.1.archivePath).contains
        member.1) = true := by
    rw [List.all_eq_true]
    intro member hmember
    rw [List.contains_iff_mem, ← hnames]
    exact List.mem_map_of_mem hmember
  have hany : (("manifest.json" :: items.map fun item => item.1.archivePath).all fun name =>
      (("manifest.json", manifestBytes manifest) :: filesOf items).any (·.1 == name)) = true := by
    rw [← hnames, List.all_eq_true]
    intro name hname
    obtain ⟨member, hmember, rfl⟩ := List.mem_map.mp hname
    exact List.any_eq_true.mpr ⟨member, hmember, beq_self_eq_true _⟩
  rw [hall, hany]
  rfl

/-- The counters of a database that has those of the snapshot are accepted. -/
theorem checkConsistency_readBack (h : AllSealed H (sealings H snapshot configs cas))
    {db : ProductDb γ} (hcounters : db.consistency = snapshot.consistency) :
    checkConsistency (readBack (manifestFor H request backupId createdAt snapshot configs cas)) db =
      .ok () := by
  set manifest := manifestFor H request backupId createdAt snapshot configs cas
  have hkeys : (snapshot.consistency.json.map Prod.fst).Nodup := by
    simp only [Consistency.json, List.map_cons, List.map_nil]
    decide
  have hnumber (key : String) (n : ℕ) (hvalue : snapshot.consistency.json.lookup key =
      some (.int n)) : integerAt (readBack snapshot.consistency.json) key = .ok (n : ℤ) := by
    unfold integerAt
    rw [get_readBack hkeys hvalue, Json.stored, Json.int?, orReject_bind_of_some rfl,
      rejectIf_bind_of_passes (by simp)]
    rfl
  have hfield : manifest.lookup "consistency" = some (.obj snapshot.consistency.json) := rfl
  have hobject : objectAt (readBack manifest) "consistency" =
      .ok (readBack snapshot.consistency.json) := by
    unfold objectAt
    rw [get_readBack (keys_manifestFor h) hfield, mapping?_stored]
    rfl
  refine bind_eq_ok.mpr ⟨_, hobject, checkAll_eq_ok.mpr ?_⟩
  intro counter hcounter
  rw [hcounters] at hcounter
  simp only [List.mem_cons, List.not_mem_nil, or_false] at hcounter
  have hpass (key : String) (n : ℕ) (hvalue : snapshot.consistency.json.lookup key =
      some (.int n)) : (do
        let number ← integerAt (readBack snapshot.consistency.json) key
        rejectIf ((n : ℤ) != number)
          (.restore ("restored consistency fence differs: " ++ key))) =
        (.ok () : Except RestoreError Unit) := by
    refine bind_eq_ok.mpr ⟨_, hnumber key n hvalue, rejectIf_eq_ok.mpr ?_⟩
    exact bne_self_eq_false _
  obtain rfl | rfl | rfl | rfl := hcounter
  all_goals exact hpass _ _ rfl

/-- The data root that is restored from a bundle of sealed entries. -/
theorem restoreBundle_bundle (hdigests : Digests H)
    (h : AllSealed H (sealings H snapshot configs cas)) {release : Release γ} {db : ProductDb γ}
    (hread : H.sqlite.read (H.sqlite.file snapshot) = some snapshot)
    (hrelease : release snapshot = some db)
    (hcounters : db.consistency = snapshot.consistency) :
    restoreBundle H release backupId (H.zip.write
      (("manifest.json", manifestBytes
        (manifestFor H request backupId createdAt snapshot configs cas)) ::
          filesOf (sealings H snapshot configs cas))) =
      .ok { database := db, files := filesOf (configs ++ cas) } := by
  set manifest := manifestFor H request backupId createdAt snapshot configs cas with hmanifest
  have hfield : manifest.lookup "backup_id" = some (.str backupId) := rfl
  have hid : ((readBack manifest).get "backup_id").isText backupId = true := by
    rw [get_readBack (keys_manifestFor h) hfield, Json.stored, Json.isText_iff]
  have hupgrade : upgradeAndRebuild H release (filesOf (sealings H snapshot configs cas)) =
      .ok db := by
    have hfile : (filesOf (sealings H snapshot configs cas)).lookup "database.sqlite" =
        some (H.sqlite.file snapshot) := rfl
    unfold upgradeAndRebuild
    rw [hfile, orReject_bind_of_some rfl, hread, orReject_bind_of_some rfl, hrelease]
    rfl
  have hrest : (filesOf (sealings H snapshot configs cas)).filter (·.1 != "database.sqlite") =
      filesOf (configs ++ cas) := by
    have hothers : ∀ file ∈ filesOf (configs ++ cas), (file.1 != "database.sqlite") = true := by
      intro file hfile
      have hnodup := h.nodup
      rw [sealings, List.map_cons, List.nodup_cons] at hnodup
      obtain ⟨item, hitem, rfl⟩ := List.mem_map.mp hfile
      refine bne_iff_ne.mpr fun heq => hnodup.1 ?_
      exact List.mem_map.mpr ⟨item, hitem, heq⟩
    have hcons : filesOf (sealings H snapshot configs cas) =
        ("database.sqlite", H.sqlite.file snapshot) :: filesOf (configs ++ cas) := rfl
    rw [hcons, List.filter_cons_of_neg (by simp), List.filter_eq_self.mpr hothers]
  refine bind_eq_ok.mpr ⟨_, extractVerified_bundle hdigests h, ?_⟩
  refine bind_eq_ok.mpr ⟨(), rejectIf_eq_ok.mpr (by rw [hid]; rfl), ?_⟩
  refine bind_eq_ok.mpr ⟨_, hupgrade, ?_⟩
  refine bind_eq_ok.mpr ⟨(), checkConsistency_readBack h hcounters, ?_⟩
  rw [hrest]
  rfl

end Bundle

/-! ## Entries that are sealed -/

/-- An entry says what is copied to its path. -/
def Copied (H : BackupHost γ) (item : BundleEntry × List UInt8) : Prop :=
  Sealed H item.1 item.2 ∧ item.1.source = some item.2

/-- Entries that are made one after the other and are copied as they are sealed. -/
theorem exists_sealings {α : Type} {f : α → Except BackupError BundleEntry}
    (file : α → String × List UInt8) {xs : List α} {items : List BundleEntry}
    (h : xs.mapM f = .ok items)
    (hspec : ∀ x ∈ xs, ∀ item, f x = .ok item →
      Copied H (item, (file x).2) ∧ item.archivePath = (file x).1) :
    ∃ made : Sealings, made.map Prod.fst = items ∧ (∀ item ∈ made, Copied H item) ∧
      filesOf made = xs.map file := by
  have hall := mapM_eq_ok.mp h
  clear h
  induction hall with
  | nil => exact ⟨[], rfl, by simp, rfl⟩
  | @cons x item xs items hitem _ ih =>
    obtain ⟨made, hmade, hcopied, hfiles⟩ :=
      ih fun y hy => hspec y (List.mem_cons_of_mem _ hy)
    obtain ⟨hfirst, hpath⟩ := hspec x List.mem_cons_self item hitem
    refine ⟨(item, (file x).2) :: made, by rw [List.map_cons, hmade], ?_, ?_⟩
    · intro other hother
      rcases List.mem_cons.mp hother with rfl | hother
      · exact hfirst
      · exact hcopied other hother
    · have hcons : filesOf ((item, (file x).2) :: made) =
          (item.archivePath, (file x).2) :: filesOf made := rfl
      rw [hcons, hpath, hfiles, List.map_cons]

/-- What is copied is what the entries say. -/
theorem copied_eq_filesOf {made : Sealings} (h : ∀ item ∈ made, Copied H item) {files : Tree}
    (hfiles : (made.map Prod.fst).mapM copyEntry = .ok files) : files = filesOf made := by
  have hall : (made.map Prod.fst).mapM copyEntry = .ok (filesOf made) := by
    rw [mapM_eq_ok, filesOf, List.forall₂_map_left_iff, List.forall₂_map_right_iff,
      List.forall₂_same]
    intro item hitem
    unfold copyEntry
    rw [(h item hitem).2]
    rfl
  exact Except.ok.inj (hfiles.symm.trans hall)

theorem isArchivePath_configuration {name : String} (h : isLogicalName name.toList = true) :
    isArchivePath ("configuration/" ++ name) = true := by
  have hfront : "configuration/".toList.isPrefixOf ("configuration/" ++ name).toList = true := by
    rw [String.toList_append, List.isPrefixOf_iff_prefix]
    exact List.prefix_append _ _
  have hdrop : ("configuration/" ++ name).toList.drop 14 = name.toList := by
    rw [String.toList_append]
    exact List.drop_left' (by decide)
  unfold isArchivePath
  dsimp only
  rw [hfront, hdrop, h]
  simp

variable {relative : String}

theorem isArchivePath_cas (h : isCasRelpath relative.toList = true) :
    isArchivePath ("cas/" ++ relative) = true := by
  have hfront : "cas/".toList.isPrefixOf ("cas/" ++ relative).toList = true := by
    rw [String.toList_append, List.isPrefixOf_iff_prefix]
    exact List.prefix_append _ _
  have hdrop : ("cas/" ++ relative).toList.drop 4 = relative.toList := by
    rw [String.toList_append]
    exact List.drop_left' (by decide)
  unfold isArchivePath
  dsimp only
  rw [hfront, hdrop, h]
  simp

/-- The entry of a configuration file that did not change. -/
theorem copied_configurationEntry {name : String} {source : ConfigurationSource}
    (h : configurationEntry H name source = .ok item)
    (hstable : source.copied = some source.hashed) :
    Copied H (item, source.hashed) ∧ item.archivePath = "configuration/" ++ name := by
  obtain ⟨⟨⟩, hname, h⟩ := bind_eq_ok.mp h
  obtain ⟨⟨⟩, -, h⟩ := bind_eq_ok.mp h
  obtain rfl := pure_eq_ok.mp h
  rw [rejectIf_eq_ok, Bool.not_eq_false'] at hname
  refine ⟨⟨⟨?_, rfl, rfl, rfl, isArchivePath_configuration hname⟩, hstable⟩, rfl⟩
  simp [entry, Json.Keyed, Json.KeyedFields, Json.KeyedField]

variable {hashing copying : Digest → Option (List UInt8)}

/-- A file that is there stays at its path. -/
theorem casFile_grows
    (h : ∀ digest bytes, hashing digest = some bytes → copying digest = some bytes)
    (hfile : casFile hashing relative = some bytes) :
    casFile copying relative = some bytes := by
  unfold casFile at hfile ⊢
  split at hfile
  · rename_i name _
    split at hfile
    · rw [if_pos ‹_›]
      exact h _ _ hfile
    · cases hfile
  · cases hfile

/-- The file of an artifact of the content store, as it is bundled. -/
def casMember (finals : Digest → Option (List UInt8)) (artifact : Artifact) : String × List UInt8 :=
  ("cas/" ++ artifact.casRelpath, (casFile finals artifact.casRelpath).getD [])

variable {artifact : Artifact}

/-- The entry of a file of the content store is copied as it is sealed, and the file is what the
artifact says. -/
theorem copied_casEntry
    (hgrows : ∀ digest bytes, hashing digest = some bytes → copying digest = some bytes)
    (h : casEntry H hashing copying artifact = .ok item) :
    ∃ bytes, casFile hashing artifact.casRelpath = some bytes ∧
      H.content.sha256 bytes = artifact.sha256 ∧ bytes.length = artifact.byteCount ∧
        Copied H (item, bytes) ∧ item.archivePath = "cas/" ++ artifact.casRelpath := by
  obtain ⟨⟨⟩, hpath, h⟩ := bind_eq_ok.mp h
  obtain ⟨bytes, hfile, h⟩ := bind_eq_ok.mp h
  obtain ⟨⟨⟩, hsame, h⟩ := bind_eq_ok.mp h
  obtain rfl := pure_eq_ok.mp h
  rw [rejectIf_eq_ok, Bool.not_eq_false'] at hpath
  rw [orReject_eq_ok] at hfile
  rw [rejectIf_eq_ok, Bool.or_eq_false_iff, bne_eq_false_iff_eq, bne_eq_false_iff_eq] at hsame
  refine ⟨bytes, hfile, hsame.1, hsame.2,
    ⟨⟨?_, rfl, rfl, rfl, isArchivePath_cas hpath⟩, casFile_grows hgrows hfile⟩, rfl⟩
  simp [entry, Json.Keyed, Json.KeyedFields, Json.KeyedField]

/-! ## The bundle in the content store -/

/-- No other bytes have the digest of a file of the store. -/
def Distinguishes (H : BackupHost γ) (finals : Digest → Option (List UInt8)) : Prop :=
  ∀ digest stored bytes, finals digest = some stored → H.content.sha256 bytes = digest →
    bytes = stored

/-- An artifact stands for bytes of the content store. -/
structure Holds (H : BackupHost γ) (store : ContentStore) (artifact : Artifact)
    (bytes : List UInt8) : Prop where
  mem : artifact ∈ store.db.artifacts
  committed : artifact.ingestState = .committed
  sha256 : artifact.sha256 = H.content.sha256 bytes
  byteCount : artifact.byteCount = bytes.length
  path : artifact.casRelpath = relpathForDigest (H.content.sha256 bytes)
  stored : store.finals (H.content.sha256 bytes) = some bytes

variable {store : ContentStore}

theorem Holds.grows {later : ContentStore} (h : Holds H store artifact bytes)
    (hgrows : Registry.Grows store later) :
    Holds H later artifact bytes where
  mem := hgrows.artifacts artifact h.mem
  committed := h.committed
  sha256 := h.sha256
  byteCount := h.byteCount
  path := h.path
  stored := hgrows.finals _ _ h.stored

theorem mapError_eq_ok {ε ε' α : Type} {x : Except ε α} {f : ε → ε'} {a : α} :
    x.mapError f = .ok a ↔ x = .ok a := by
  cases x <;> simp [Except.mapError]

/-- A row that is given for a file is at the path of its digest. -/
theorem casRelpath_of_register {store' : ContentStore} {file : CommittedFile}
    (h : store.register file = .ok (store', artifact)) :
    artifact.casRelpath = relpathForDigest file.sha256 := by
  obtain ⟨⟨db, row⟩, hinsert, h⟩ := bind_eq_ok.mp h
  obtain ⟨-, rfl⟩ := Prod.mk.inj (pure_eq_ok.mp h)
  have hinsert := orReject_eq_ok.mp hinsert
  unfold Db.insertArtifact at hinsert
  obtain ⟨found, -, hinsert⟩ := Option.bind_eq_some_iff.mp hinsert
  obtain ⟨⟨⟩, hsame, hinsert⟩ := Option.bind_eq_some_iff.mp hinsert
  obtain ⟨-, rfl⟩ := Prod.mk.inj (Option.some.inj hinsert)
  have hsame := require_eq_some.mp hsame
  simp only [Bool.and_eq_true, beq_iff_eq] at hsame
  exact hsame.2

variable {live : Live γ} {artifactId : Id}

/-- A bundle that is committed is held by the content store. -/
theorem holds_of_commitBundle {live' : Live γ} {backupId : Id} {archive : List UInt8}
    (hgenuine : Registry.Genuine H.content live.store) (hdistinct : Distinguishes H live.finals)
    (h : commitBundle H live backupId artifactId archive = .ok (live', artifact)) :
    Registry.Genuine H.content live'.store ∧ Holds H live'.store artifact archive ∧
      live'.db.backups = live.db.backups := by
  unfold commitBundle at h
  obtain ⟨staged, hstaged, h⟩ := bind_eq_ok.mp h
  obtain ⟨file, hfile, h⟩ := bind_eq_ok.mp h
  obtain ⟨⟨store, row⟩, hregister, h⟩ := bind_eq_ok.mp h
  dsimp only at h
  obtain ⟨⟨⟩, hbound, h⟩ := bind_eq_ok.mp h
  obtain ⟨hlive, hrow⟩ := Prod.mk.inj (pure_eq_ok.mp h)
  rw [mapError_eq_ok] at hstaged hfile hregister
  rw [commit_fst] at hregister
  have hsource : archive = staged.bytes := Option.some.inj (stageInput_spec hstaged).1
  obtain ⟨hcommitted, hholds⟩ := commit_spec hfile
  obtain ⟨hfinals, hmem, -, -, -, -⟩ := register_spec hregister
  rw [rejectIf_eq_ok, Bool.or_eq_false_iff, bne_eq_false_iff_eq, bne_eq_false_iff_eq] at hbound
  have hsha : file.sha256 = H.content.sha256 archive := by
    rw [hcommitted, hsource]
    rfl
  have hkept : Registry.Genuine H.content store := (hgenuine.place staged).register hholds hregister
  have hstate : row.ingestState = .committed := hkept.committed row hmem
  have hplaced : store.finals (H.content.sha256 archive) = some archive := by
    rw [hfinals, hsource]
    cases hold : live.store.finals (H.content.sha256 staged.bytes) with
    | some old =>
      rw [place_of_some hold, hold, hdistinct _ old staged.bytes hold rfl]
    | none => rw [finals_place hold, Function.update_self]
  have hpath := casRelpath_of_register hregister
  rw [hsha] at hpath
  subst hlive hrow
  exact ⟨hkept, ⟨hmem, hstate, hbound.1, hbound.2, hpath, hplaced⟩, rfl⟩
/-- A bundle that is new is committed. -/
theorem exists_commitBundle {backupId : Id} {archive : List UInt8}
    (hsize : archive.length ≤ H.content.maxBytes)
    (hdigest : isDigest (H.content.sha256 archive) = true)
    (hfree : live.finals (H.content.sha256 archive) = none)
    (hnew : ∀ artifact ∈ live.db.kernel.artifacts, artifact.artifactId ≠ artifactId ∧
      artifact.sha256 ≠ H.content.sha256 archive ∧
        artifact.casRelpath ≠ relpathForDigest (H.content.sha256 archive)) :
    ∃ live' artifact, commitBundle H live backupId artifactId archive = .ok (live', artifact) ∧
      live'.db.backups = live.db.backups ∧ artifact ∈ live'.db.kernel.artifacts := by
  set staged : StagedArtifact := ⟨artifactId, bundleMediaType, archive⟩ with hstaged
  have hstage : stageInput H.content ⟨backupId ++ ".rkzip", H.content.sha256 archive,
      archive.length, bundleMediaType⟩ (some archive) artifactId = .ok staged := by
    refine bind_eq_ok.mpr ⟨archive, rfl, ?_⟩
    refine bind_eq_ok.mpr ⟨(), rejectIf_eq_ok.mpr (by simpa using hsize), ?_⟩
    refine bind_eq_ok.mpr ⟨(), rejectIf_eq_ok.mpr (by simpa using hdigest), ?_⟩
    refine bind_eq_ok.mpr ⟨(), rejectIf_eq_ok.mpr (by simpa using hsize), ?_⟩
    exact bind_eq_ok.mpr ⟨(), rejectIf_eq_ok.mpr (by simp), rfl⟩
  have hplaced : (live.store.place H.content staged).finals (H.content.sha256 archive) =
      some archive := by
    rw [finals_place hfree, Function.update_self]
  have hcommit : (live.store.commit H.content staged).2 = .ok (staged.committed H.content) := by
    refine bind_eq_ok.mpr ⟨(), rejectIf_eq_ok.mpr (by simpa using hdigest), ?_⟩
    refine bind_eq_ok.mpr ⟨(), bind_eq_ok.mpr ⟨archive, orReject_eq_ok.mpr hplaced, ?_⟩, rfl⟩
    exact rejectIf_eq_ok.mpr (by simp [hstaged])
  set row := (staged.committed H.content).row with hrow
  have hclash : live.db.kernel.artifacts.any (row.clash ·) = false := by
    rw [List.any_eq_false]
    intro artifact hartifact
    obtain ⟨hid, hsha, hpath⟩ := hnew artifact hartifact
    simp only [hrow, hstaged, Artifact.clash, StagedArtifact.committed, CommittedFile.row,
      Bool.or_eq_true, beq_iff_eq, not_or]
    exact ⟨⟨fun heq => hid heq.symm, fun heq => hsha heq.symm⟩, fun heq => hpath heq.symm⟩
  have hfound : (live.db.kernel.artifacts ++ [row]).find? (fun other =>
      other.artifactId == artifactId || other.sha256 == H.content.sha256 archive) = some row := by
    rw [List.find?_append, List.find?_eq_none.mpr, Option.none_or]
    · simp [hrow, hstaged, StagedArtifact.committed, CommittedFile.row]
    · intro artifact hartifact
      obtain ⟨hid, hsha, -⟩ := hnew artifact hartifact
      simp [hid, hsha]
  have hinsert : live.db.kernel.insertArtifact (staged.committed H.content) =
      some ({ live.db.kernel with artifacts := live.db.kernel.artifacts ++ [row] }, row) := by
    unfold Db.insertArtifact
    dsimp only
    rw [hclash]
    refine Option.bind_eq_some_iff.mpr ⟨row, hfound, ?_⟩
    refine Option.bind_eq_some_iff.mpr ⟨(), require_eq_some.mpr ?_, rfl⟩
    simp [hrow, hstaged, StagedArtifact.committed, CommittedFile.row]
  have hregister : (live.store.commit H.content staged).1.register (staged.committed H.content) =
      .ok ({ live.store.place H.content staged with
        db := { live.db.kernel with artifacts := live.db.kernel.artifacts ++ [row] } }, row) := by
    rw [commit_fst]
    refine bind_eq_ok.mpr ⟨({ live.db.kernel with
      artifacts := live.db.kernel.artifacts ++ [row] }, row), orReject_eq_ok.mpr ?_, rfl⟩
    rw [db_place]
    exact hinsert
  refine ⟨{ db := { live.db with kernel :=
      { live.db.kernel with artifacts := live.db.kernel.artifacts ++ [row] } }
            finals := (live.store.place H.content staged).finals }, row, ?_, rfl,
    List.mem_append_right _ (List.mem_singleton.mpr rfl)⟩
  refine bind_eq_ok.mpr ⟨staged, mapError_eq_ok.mpr hstage, ?_⟩
  refine bind_eq_ok.mpr ⟨_, mapError_eq_ok.mpr hcommit, ?_⟩
  refine bind_eq_ok.mpr ⟨_, mapError_eq_ok.mpr hregister, ?_⟩
  refine bind_eq_ok.mpr ⟨(), rejectIf_eq_ok.mpr ?_, rfl⟩
  simp [hrow, hstaged, StagedArtifact.committed, CommittedFile.row]

theorem notMem_slash_of_digest {digest : String} (h : isDigest digest = true) :
    ∀ c ∈ digest.toList, (c == '/') = false := by
  intro c hc
  rw [isDigest, Bool.and_eq_true, List.all_eq_true] at h
  rw [beq_eq_false_iff_ne]
  rintro rfl
  exact absurd (h.2 _ hc) (by decide)

/-- The file at the path of a digest is the file of the digest. -/
theorem casFile_relpathForDigest {finals : Digest → Option (List UInt8)} {digest : String}
    (h : isDigest digest = true) : casFile finals (relpathForDigest digest) = finals digest := by
  have hslash := notMem_slash_of_digest h
  have htext : (relpathForDigest digest).toList =
      digest.toList.take 2 ++ '/' :: ((digest.toList.drop 2).take 2 ++ '/' :: digest.toList) := by
    simp [relpathForDigest]
  have hsplit : (relpathForDigest digest).toList.splitOn '/' =
      [digest.toList.take 2, (digest.toList.drop 2).take 2, digest.toList] := by
    rw [htext, List.splitOn_eq_splitOnP, List.splitOnP_append_cons_of_forall_mem
        (fun c hc => hslash c (List.mem_of_mem_take hc)) '/' (by decide),
      List.splitOnP_append_cons_of_forall_mem
        (fun c hc => hslash c (List.mem_of_mem_drop (List.mem_of_mem_take hc))) '/' (by decide),
      List.splitOnP_eq_singleton hslash]
  unfold casFile
  rw [hsplit]
  simp

/-- A bundle that is held is copied for a restore. -/
theorem materialize_of_holds (hdigests : Digests H) (h : Holds H store artifact bytes)
    (hids : (store.db.artifacts.map (·.artifactId)).Nodup) :
    materialize H store (artifactRef artifact) = .ok bytes := by
  have hfound : store.findById artifact.artifactId = some artifact := by
    unfold ContentStore.findById
    have hfind := find?_of_nodup hids h.mem
    rw [List.find?_eq_some_iff_append] at hfind ⊢
    obtain ⟨-, before, after, hsplit, hbefore⟩ := hfind
    refine ⟨by simp [h.committed], before, after, hsplit, fun other hother => ?_⟩
    have hne := hbefore other hother
    simp only [Bool.not_eq_true'] at hne
    simp [hne]
  have hfile : casFile store.finals artifact.casRelpath = some bytes := by
    rw [h.path, casFile_relpathForDigest (hdigests bytes), h.stored]
  refine bind_eq_ok.mpr ⟨artifact, orReject_eq_ok.mpr hfound, ?_⟩
  refine bind_eq_ok.mpr ⟨bytes, orReject_eq_ok.mpr hfile, ?_⟩
  refine bind_eq_ok.mpr ⟨(), rejectIf_eq_ok.mpr ?_, ?_⟩
  · simp [h.sha256, h.byteCount]
  · refine bind_eq_ok.mpr ⟨(), rejectIf_eq_ok.mpr ?_, rfl⟩
    simp [artifactRef, h.sha256, h.byteCount]

/-! ## Backups that are made -/

/-- No backup was made for a request. -/
def Unanswered (request : BackupRequest) (db : ProductDb γ) : Prop :=
  ∀ row ∈ db.backups, ¬ (row.deploymentId = request.deploymentId ∧
    row.requestId = request.requestId)

/-- What a call that makes a backup meets: its request is new, the snapshot can be read, the files
of the content store stay, what is registered stays, and the other writers keep the store
genuine. -/
structure Moments.Orderly (H : BackupHost γ) (request : BackupRequest) (moments : Moments γ) :
    Prop where
  asked : Unanswered request moments.asked.db
  committing : Unanswered request moments.committing.db
  meanwhile : ∀ live, Unanswered request live.db → Unanswered request (moments.meanwhile live).db
  snapshot : H.sqlite.read (H.sqlite.file moments.snapshot.db) = some moments.snapshot.db
  copying : ∀ digest bytes, moments.hashing.finals digest = some bytes →
    moments.copying.finals digest = some bytes
  recording : ∀ live, Registry.Genuine H.content live.store →
    Registry.Genuine H.content (moments.meanwhile live).store ∧
      Registry.Grows live.store (moments.meanwhile live).store
  genuine : Registry.Genuine H.content moments.committing.store
  distinguishes : Distinguishes H moments.committing.finals
  paths : (moments.snapshot.db.kernel.artifacts.map (·.casRelpath)).Nodup

/-- The configuration files are the same when their digest is taken and when they are copied. -/
def Configuration.Stable (configuration : Configuration) : Prop :=
  ∀ file ∈ configuration.files, file.2.copied = some file.2.hashed

variable {request : BackupRequest}

theorem byRequest_of_unanswered {db : ProductDb γ} (h : Unanswered request db) :
    db.byRequest request.deploymentId request.requestId = .ok none := by
  have hnone : db.backups.find? (fun row =>
      row.deploymentId == request.deploymentId && row.requestId == request.requestId) = none := by
    rw [List.find?_eq_none]
    intro row hrow
    simpa using h row hrow
  unfold ProductDb.byRequest
  rw [hnone]

/-- The receipt of a backup that is recorded for a new request. -/
theorem recordBundle_spec {stamps : BackupStamps} {snapshot : ProductDb γ} {created : Created γ}
    (hnew : Unanswered request live.db)
    (h : recordBundle H request stamps snapshot manifest artifact live = .ok created) :
    created.receipt.backupId = stamps.backupId ∧
      created.receipt.artifact = artifactRef artifact ∧ created.live.store = live.store := by
  unfold recordBundle at h
  dsimp only at h
  split at h
  · rw [byRequest_of_unanswered hnew] at h
    cases h
  · rename_i db hrecorded
    obtain rfl := pure_eq_ok.mp h
    obtain ⟨⟨⟩, -, hrecorded⟩ := Option.bind_eq_some_iff.mp hrecorded
    obtain ⟨⟨⟩, -, hrecorded⟩ := Option.bind_eq_some_iff.mp hrecorded
    obtain ⟨backups, -, hrecorded⟩ := Option.bind_eq_some_iff.mp hrecorded
    obtain rfl := Option.some.inj hrecorded
    exact ⟨rfl, rfl, rfl⟩

/-- The file of a configuration, as it is bundled. -/
def configurationMember (file : String × ConfigurationSource) : String × List UInt8 :=
  ("configuration/" ++ file.1, file.2.hashed)

/-- The configuration files in the order of their names. -/
def Configuration.sorted (configuration : Configuration) : List (String × ConfigurationSource) :=
  configuration.files.insertionSort fun a b => a.1 ≤ b.1

/-- What a bundle holds beside the database. -/
def bundledFiles (request : BackupRequest) (moments : Moments γ) : Tree :=
  request.configuration.sorted.map configurationMember ++
    (bundled moments.snapshot.db).map (casMember moments.hashing.finals)

theorem configuration_ne_cas (name relative : String) :
    "configuration/" ++ name ≠ "cas/" ++ relative := by
  intro heq
  have htexts := congrArg (fun text => text.toList.take 2) heq
  simp only [String.toList_append] at htexts
  rw [List.take_append_of_le_length (by decide), List.take_append_of_le_length (by decide)]
    at htexts
  exact absurd htexts (by decide)

/-- The paths of a bundle are different. -/
theorem nodup_bundledFiles {moments : Moments γ}
    (hpaths : (moments.snapshot.db.kernel.artifacts.map (·.casRelpath)).Nodup) :
    ((bundledFiles request moments).map Prod.fst).Nodup := by
  have happend (text : String) : Function.Injective (text ++ ·) := by
    intro first second heq
    have hlists := congrArg String.toList heq
    simp only [String.toList_append, List.append_cancel_left_eq] at hlists
    exact String.toList_inj.mp hlists
  rw [bundledFiles, List.map_append, List.map_map, List.map_map, List.nodup_append]
  refine ⟨?_, ?_, ?_⟩
  · have hnames : (request.configuration.sorted.map Prod.fst).Nodup :=
      ((List.perm_insertionSort _ _).map Prod.fst).nodup_iff.mpr request.configuration.nodup
    have hmap := hnames.map (happend "configuration/")
    rw [List.map_map] at hmap
    exact hmap
  · have hrelative : ((bundled moments.snapshot.db).map (·.casRelpath)).Nodup := by
      refine ((List.perm_insertionSort _ _).map Artifact.casRelpath).nodup_iff.mpr ?_
      exact hpaths.sublist (List.filter_sublist.map _)
    have hmap := hrelative.map (happend "cas/")
    rw [List.map_map] at hmap
    exact hmap
  · intro first hfirst second hsecond
    obtain ⟨file, -, rfl⟩ := List.mem_map.mp hfirst
    obtain ⟨artifact, -, rfl⟩ := List.mem_map.mp hsecond
    exact configuration_ne_cas _ _

/-- Every bundled artifact has a file, which is what the artifact says. -/
def Available (H : BackupHost γ) (moments : Moments γ) : Prop :=
  ∀ artifact ∈ bundled moments.snapshot.db, ∃ bytes,
    casFile moments.hashing.finals artifact.casRelpath = some bytes ∧
      H.content.sha256 bytes = artifact.sha256 ∧ bytes.length = artifact.byteCount

/-- A bundle of a call: it is sealed, holds what is bundled, and is held by the content store. -/
structure Bundled (H : BackupHost γ) (request : BackupRequest) (stamps : BackupStamps)
    (moments : Moments γ) (created : Created γ) (configs cas : Sealings) (artifact : Artifact) :
    Prop where
  sealed : AllSealed H (sealings H moments.snapshot.db configs cas)
  files : filesOf (configs ++ cas) = bundledFiles request moments
  backupId : created.receipt.backupId = stamps.backupId
  ref : created.receipt.artifact = artifactRef artifact
  genuine : Registry.Genuine H.content created.live.store
  holds : Holds H created.live.store artifact (H.zip.write (("manifest.json", manifestBytes
    (manifestFor H request stamps.backupId stamps.createdAt moments.snapshot.db configs cas)) ::
      filesOf (sealings H moments.snapshot.db configs cas)))

section Create

variable {request : BackupRequest} {stamps : BackupStamps} {moments : Moments γ}
  {created : Created γ}

/-- The entries of the configuration files and of the content store. -/
theorem exists_entries (hmoments : moments.Orderly H request)
    (hstable : request.configuration.Stable) {configs cas : List BundleEntry}
    (hconfigs : configurationEntries H request.configuration = .ok configs)
    (hcas : casEntries H moments.snapshot.db moments.hashing.finals moments.copying.finals =
      .ok cas) :
    ∃ configs' cas' : Sealings, configs'.map Prod.fst = configs ∧ cas'.map Prod.fst = cas ∧
      (∀ item ∈ configs' ++ cas', Copied H item) ∧
        filesOf (configs' ++ cas') = bundledFiles request moments := by
  have hsorted : ∀ file ∈ request.configuration.sorted, file.2.copied = some file.2.hashed :=
    fun file hfile => hstable file ((List.perm_insertionSort _ _).mem_iff.mp hfile)
  obtain ⟨configs', hconfigs', hcopied, hfiles⟩ :=
    exists_sealings (H := H) configurationMember hconfigs fun file hfile item hitem =>
      copied_configurationEntry hitem (hsorted file hfile)
  obtain ⟨cas', hcas', hcopied', hfiles'⟩ :=
    exists_sealings (H := H) (casMember moments.hashing.finals) hcas
      fun artifact _ item hitem => by
        obtain ⟨bytes, hfile, -, -, hcopied, hpath⟩ := copied_casEntry hmoments.copying hitem
        unfold casMember
        rw [hfile]
        exact ⟨hcopied, hpath⟩
  refine ⟨configs', cas', hconfigs', hcas', ?_, ?_⟩
  · intro item hitem
    exact (List.mem_append.mp hitem).elim (hcopied item) (hcopied' item)
  · have happend : filesOf (configs' ++ cas') = filesOf configs' ++ filesOf cas' := List.map_append
    rw [happend, hfiles, hfiles']
    rfl

/-- The entries of a call are sealed. -/
theorem allSealed_of_copied {configs cas : Sealings}
    (hpaths : (moments.snapshot.db.kernel.artifacts.map (·.casRelpath)).Nodup)
    (hcopied : ∀ item ∈ configs ++ cas, Copied H item)
    (hfiles : filesOf (configs ++ cas) = bundledFiles request moments) :
    AllSealed H (sealings H moments.snapshot.db configs cas) where
  each := by
    intro item hitem
    rcases List.mem_cons.mp hitem with rfl | hitem
    · exact sealed_databaseEntry _
    · exact (hcopied item hitem).1
  nodup := by
    have hpaths' : (configs ++ cas).map (fun item => item.1.archivePath) =
        (bundledFiles request moments).map Prod.fst := by
      rw [← hfiles, filesOf, List.map_map]
      rfl
    rw [sealings, List.map_cons, List.nodup_cons, hpaths']
    refine ⟨?_, nodup_bundledFiles hpaths⟩
    intro hmem
    rw [bundledFiles, List.map_append, List.mem_append, List.map_map, List.map_map] at hmem
    have hhead : ∃ text, "database.sqlite".toList = 'c' :: text := by
      rcases hmem with hmem | hmem
      · obtain ⟨file, -, heq⟩ := List.mem_map.mp hmem
        have htext : "configuration/" ++ file.1 = "database.sqlite" := heq
        exact ⟨_, htext ▸ String.toList_append⟩
      · obtain ⟨artifact, -, heq⟩ := List.mem_map.mp hmem
        have htext : "cas/" ++ artifact.casRelpath = "database.sqlite" := heq
        exact ⟨_, htext ▸ String.toList_append⟩
    obtain ⟨text, htext⟩ := hhead
    have hfirst : "database.sqlite".toList.head? = some 'c' := congrArg List.head? htext
    exact absurd hfirst (by decide)

/-- The artifacts of a call that makes a bundle are available. -/
theorem available_of_casEntries (hmoments : moments.Orderly H request) {cas : List BundleEntry}
    (hcas : casEntries H moments.snapshot.db moments.hashing.finals moments.copying.finals =
      .ok cas) : Available H moments := by
  intro artifact hartifact
  obtain ⟨item, -, hitem⟩ := exists_of_forall₂ (mapM_eq_ok.mp hcas) artifact hartifact
  obtain ⟨bytes, hfile, hsha, hcount, -, -⟩ := copied_casEntry hmoments.copying hitem
  exact ⟨bytes, hfile, hsha, hcount⟩

/-- What a call makes for a new request. -/
theorem exists_bundled (hmoments : moments.Orderly H request)
    (hstable : request.configuration.Stable) (hcas : request.includeCas = true)
    (h : create H request stamps moments = .ok created) :
    Available H moments ∧ ∃ configs cas artifact,
      Bundled H request stamps moments created configs cas artifact := by
  unfold create at h
  obtain ⟨⟨⟩, -, h⟩ := bind_eq_ok.mp h
  obtain ⟨⟨⟩, -, h⟩ := bind_eq_ok.mp h
  obtain ⟨existing, hexisting, h⟩ := bind_eq_ok.mp h
  obtain rfl := Except.ok.inj ((byRequest_of_unanswered hmoments.asked).symm.trans hexisting)
  obtain ⟨configs, hconfigs, h⟩ := bind_eq_ok.mp h
  dsimp only at h
  rw [if_pos hcas] at h
  obtain ⟨cas, hentries, h⟩ := bind_eq_ok.mp h
  obtain ⟨members, hmembers, h⟩ := bind_eq_ok.mp h
  obtain ⟨⟨live, artifact⟩, hcommit, hrecord⟩ := bind_eq_ok.mp h
  obtain ⟨configs, cas, rfl, rfl, hcopied, hfiles⟩ :=
    exists_entries hmoments hstable hconfigs hentries
  obtain ⟨copied, hcopies, hmembers⟩ := bind_eq_ok.mp hmembers
  rw [← List.map_append] at hcopies
  obtain rfl := copied_eq_filesOf hcopied hcopies
  obtain rfl := pure_eq_ok.mp hmembers
  obtain ⟨hkept, hholds, hbackups⟩ := holds_of_commitBundle hmoments.genuine hmoments.distinguishes hcommit
  have hnew : Unanswered request (moments.meanwhile live).db := by
    refine hmoments.meanwhile live ?_
    unfold Unanswered
    rw [hbackups]
    exact hmoments.committing
  obtain ⟨hid, hartifact, hstore⟩ := recordBundle_spec hnew hrecord
  refine ⟨available_of_casEntries hmoments hentries, configs, cas, artifact,
    allSealed_of_copied hmoments.paths hcopied hfiles, hfiles, hid, hartifact, ?_, ?_⟩
  · rw [hstore]
    exact (hmoments.recording live hkept).1
  · rw [hstore]
    exact hholds.grows (hmoments.recording live hkept).2

/-! ## The round trip -/

/-- The release of the restorer accepts a database, and what it adds is none of what a backup is
checked for. -/
structure Upgrades (release : Release γ) (snapshot db : ProductDb γ) : Prop where
  applies : release snapshot = some db
  artifacts : db.kernel.artifacts = snapshot.kernel.artifacts
  backups : db.backups = snapshot.backups
  counters : db.consistency = snapshot.consistency

variable {artifact : Artifact}

/-- A bundle is restored, for as long as the content store holds it. -/
theorem restore_of_bundled (hdigests : Digests H) (hid : stamps.backupId ≠ "")
    (hread : H.sqlite.read (H.sqlite.file moments.snapshot.db) = some moments.snapshot.db)
    {configs cas : Sealings} (h : Bundled H request stamps moments created configs cas artifact)
    {later : ContentStore} (hlater : Registry.Grows created.live.store later)
    (hids : (later.db.artifacts.map (·.artifactId)).Nodup) {release : Release γ} {db : ProductDb γ}
    (hrelease : Upgrades release moments.snapshot.db db) :
    restore H release later created.receipt.backupId created.receipt.artifact =
      .ok { database := db, files := bundledFiles request moments } := by
  have hbundle : restoreBundle H release stamps.backupId (H.zip.write (("manifest.json",
      manifestBytes (manifestFor H request stamps.backupId stamps.createdAt moments.snapshot.db
        configs cas)) :: filesOf (sealings H moments.snapshot.db configs cas))) =
      .ok { database := db, files := filesOf (configs ++ cas) } :=
    restoreBundle_bundle hdigests h.sealed hread hrelease.applies hrelease.counters
  rw [h.files] at hbundle
  rw [h.backupId, h.ref]
  refine bind_eq_ok.mpr ⟨(), rejectIf_eq_ok.mpr (by simpa using hid), ?_⟩
  exact bind_eq_ok.mpr ⟨_, materialize_of_holds hdigests (h.holds.grows hlater) hids, hbundle⟩

/-- What a restore gives back: the snapshot, the configuration files, and the files of the
committed artifacts that are no backups themselves. -/
structure Restored (H : BackupHost γ) (request : BackupRequest) (moments : Moments γ)
    (release : Release γ) (root : DataRoot γ) : Prop where
  database : release moments.snapshot.db = some root.database
  configuration : ∀ name bytes, root.files.lookup ("configuration/" ++ name) = some bytes ↔
    ∃ source, (name, source) ∈ request.configuration.files ∧ source.hashed = bytes
  artifacts : ∀ artifact ∈ root.database.kernel.artifacts, artifact.ingestState = .committed →
    isBackup root.database artifact = false →
      ∃ bytes, root.files.lookup ("cas/" ++ artifact.casRelpath) = some bytes ∧
        casFile moments.hashing.finals artifact.casRelpath = some bytes ∧
          H.content.sha256 bytes = artifact.sha256 ∧ bytes.length = artifact.byteCount

/-- The configuration files of a bundle. -/
theorem lookup_configuration
    (hpaths : (moments.snapshot.db.kernel.artifacts.map (·.casRelpath)).Nodup) (name : String)
    (bytes : List UInt8) :
    (bundledFiles request moments).lookup ("configuration/" ++ name) = some bytes ↔
      ∃ source, (name, source) ∈ request.configuration.files ∧ source.hashed = bytes := by
  rw [← mem_iff_lookup (nodup_bundledFiles hpaths), bundledFiles, List.mem_append]
  constructor
  · rintro (hmem | hmem)
    · obtain ⟨⟨other, source⟩, hfile, heq⟩ := List.mem_map.mp hmem
      obtain ⟨hname, rfl⟩ := Prod.mk.inj heq
      have hlists := congrArg String.toList hname
      simp only [String.toList_append, List.append_cancel_left_eq] at hlists
      obtain rfl := String.toList_inj.mp hlists
      exact ⟨source, (List.perm_insertionSort _ _).mem_iff.mp hfile, rfl⟩
    · obtain ⟨artifact, -, heq⟩ := List.mem_map.mp hmem
      exact absurd (Prod.mk.inj heq).1.symm (configuration_ne_cas _ _)
  · rintro ⟨source, hfile, rfl⟩
    refine Or.inl (List.mem_map.mpr ⟨(name, source), ?_, rfl⟩)
    exact (List.perm_insertionSort _ _).mem_iff.mpr hfile

theorem lookup_cas (hpaths : (moments.snapshot.db.kernel.artifacts.map (·.casRelpath)).Nodup)
    (hartifact : artifact ∈ bundled moments.snapshot.db) {bytes : List UInt8}
    (hfile : casFile moments.hashing.finals artifact.casRelpath = some bytes) :
    (bundledFiles request moments).lookup ("cas/" ++ artifact.casRelpath) = some bytes := by
  rw [← mem_iff_lookup (nodup_bundledFiles hpaths), bundledFiles, List.mem_append]
  refine Or.inr (List.mem_map.mpr ⟨artifact, hartifact, ?_⟩)
  rw [casMember, hfile]
  rfl

/-- What is bundled is what a restore gives back. -/
theorem restored_bundledFiles
    (hpaths : (moments.snapshot.db.kernel.artifacts.map (·.casRelpath)).Nodup)
    (havailable : Available H moments) {release : Release γ} {db : ProductDb γ}
    (hrelease : Upgrades release moments.snapshot.db db) :
    Restored H request moments release
      { database := db, files := bundledFiles request moments } where
  database := hrelease.applies
  configuration := lookup_configuration hpaths
  artifacts := by
    intro artifact hartifact hstate hbackup
    have hmem : artifact ∈ bundled moments.snapshot.db := by
      refine (List.perm_insertionSort _ _).mem_iff.mpr (List.mem_filter.mpr ?_)
      unfold isBackup at hbackup
      rw [hrelease.artifacts] at hartifact
      rw [hrelease.backups] at hbackup
      refine ⟨hartifact, ?_⟩
      unfold isBackup
      rw [hbackup, hstate]
      rfl
    obtain ⟨bytes, hfile, hsha, hcount⟩ := havailable artifact hmem
    exact ⟨bytes, lookup_cas hpaths hmem hfile, hfile, hsha, hcount⟩

end Create

/-- A backup of a new request is restored to the snapshot, the configuration files and the files
of all artifacts that are no backups, when no configuration file changed before it was copied. -/
theorem restored_of_create (H : BackupHost γ) (hdigests : Digests H) (request : BackupRequest)
    (hcas : request.includeCas = true) (hstable : request.configuration.Stable)
    (stamps : BackupStamps) (hid : stamps.backupId ≠ "") (moments : Moments γ)
    (hmoments : moments.Orderly H request) (created : Created γ)
    (hcreate : create H request stamps moments = .ok created) (later : ContentStore)
    (hlater : Registry.Grows created.live.store later)
    (hids : (later.db.artifacts.map (·.artifactId)).Nodup) (release : Release γ) (db : ProductDb γ)
    (hrelease : Upgrades release moments.snapshot.db db) :
    ∃ root, restore H release later created.receipt.backupId created.receipt.artifact = .ok root ∧
      Restored H request moments release root := by
  obtain ⟨havailable, configs, cas, artifact, hbundled⟩ :=
    exists_bundled hmoments hstable hcas hcreate
  exact ⟨_, restore_of_bundled hdigests hid hmoments.snapshot hbundled hlater hids hrelease,
    restored_bundledFiles hmoments.paths havailable hrelease⟩

/-! ## A deployment with an archive among its artifacts -/

/-- Bytes with an end. -/
def pack (bytes : List UInt8) : List UInt8 := bytes.flatMap (fun b => [1, b]) ++ [0]

/-- The bytes up to their end, and what follows. -/
def unpack : List UInt8 → Option (List UInt8 × List UInt8)
  | 0 :: rest => some ([], rest)
  | 1 :: b :: rest => (unpack rest).map fun found => (b :: found.1, found.2)
  | _ => none

theorem unpack_pack (bytes rest : List UInt8) : unpack (pack bytes ++ rest) = some (bytes, rest) := by
  induction bytes with
  | nil => rfl
  | cons b bytes ih =>
    have hcons : pack (b :: bytes) ++ rest = 1 :: b :: (pack bytes ++ rest) := by simp [pack]
    rw [hcons, unpack, ih]
    rfl

/-- The members of an archive that holds them one after the other. -/
def readStored : ℕ → List UInt8 → Option (List (String × List UInt8))
  | _, [] => some []
  | 0, _ => none
  | fuel + 1, bytes => do
    let (name, rest) ← unpack bytes
    let (data, rest) ← unpack rest
    let name ← ofUtf8 name
    let members ← readStored fuel rest
    return (name, data) :: members

def writeStored (members : List (String × List UInt8)) : List UInt8 :=
  members.flatMap fun member => pack (utf8 member.1.toList) ++ pack member.2

theorem readStored_writeStored (members : List (String × List UInt8)) (fuel : ℕ)
    (h : members.length ≤ fuel) : readStored fuel (writeStored members) = some members := by
  induction members generalizing fuel with
  | nil => cases fuel <;> rfl
  | cons member members ih =>
    obtain ⟨name, data⟩ := member
    obtain ⟨fuel, rfl⟩ := Nat.exists_eq_add_of_lt (Nat.lt_of_lt_of_le (Nat.zero_lt_succ _) h)
    rw [Nat.zero_add]
    have hcons : writeStored ((name, data) :: members) =
        pack (utf8 name.toList) ++ (pack data ++ writeStored members) := by
      simp [writeStored]
    have hne : pack (utf8 name.toList) ++ (pack data ++ writeStored members) ≠ [] := by
      simp [pack]
    rw [hcons]
    generalize hbytes : pack (utf8 name.toList) ++ (pack data ++ writeStored members) = bytes at hne
    cases bytes with
    | nil => exact absurd rfl hne
    | cons b bytes =>
      rw [readStored, ← hbytes, unpack_pack]
      simp only [Option.bind_eq_bind, Option.bind_some, unpack_pack, ofUtf8_utf8,
        String.ofList_toList, ih fuel (by simpa using h)]
      · rfl
      · simp

theorem length_le_writeStored (members : List (String × List UInt8)) :
    members.length ≤ (writeStored members).length := by
  induction members with
  | nil => exact Nat.zero_le _
  | cons member members ih =>
    have hcons : writeStored (member :: members) =
        (pack (utf8 member.1.toList) ++ pack member.2) ++ writeStored members := by
      simp [writeStored]
    rw [hcons, List.length_append, List.length_append, List.length_cons]
    have hpos : 1 ≤ (pack member.2).length := by simp [pack]
    omega

/-- Archives that hold their members one after the other. -/
def storedZip : ZipFormat where
  write := writeStored
  read bytes := readStored bytes.length bytes
  read_write members := readStored_writeStored members _ (length_le_writeStored members)

def firstDigest : Digest := String.ofList (List.replicate 64 'b')

def secondDigest : Digest := String.ofList (List.replicate 64 'c')

def otherDigest : Digest := String.ofList (List.replicate 64 'a')

/-- An artifact that was stored under the media type of backups. -/
def backupArtifact : Artifact where
  artifactId := "backup-artifact"
  sha256 := firstDigest
  byteCount := 1
  mediaType := bundleMediaType
  casRelpath := relpathForDigest firstDigest
  ingestState := .committed

def proofArtifact : Artifact where
  artifactId := "proof-artifact"
  sha256 := secondDigest
  byteCount := 1
  mediaType := "text/plain"
  casRelpath := relpathForDigest secondDigest
  ingestState := .committed

def sampleDb : ProductDb Unit where
  kernel := { artifacts := [backupArtifact, proofArtifact] }
  activityCursors := []
  jobs := []
  checkpoints := []
  backups := []
  rest := ()

def sampleLive : Live Unit where
  db := sampleDb
  finals digest :=
    if digest = firstDigest then some [1] else if digest = secondDigest then some [2] else none

def sampleHost (maxBytes : ℕ) : BackupHost Unit where
  platform :=
    { nfc := id, sha256 := fun _ => "", hmacSha256 := fun _ _ => "", uuid5 := id
      repr := fun _ => "", parseInt := fun _ => none }
  content :=
    { sha256 := fun bytes =>
        if bytes = [1] then firstDigest
        else if bytes = [2] then secondDigest
        else otherDigest
      maxBytes := maxBytes }
  sqlite := { file := fun _ => [7], read := fun _ => some sampleDb }
  zip := storedZip

def sampleRequest : BackupRequest where
  deploymentId := "deployment"
  requestId := "request"
  includeCas := true
  includeConfiguration := true
  configuration :=
    ⟨[("deployment.json", { hashed := [3], copied := some [3] })], List.nodup_singleton _⟩

def sampleStamps : BackupStamps := ⟨"backup", "bundle", "t1", "t2"⟩

def sampleMoments : Moments Unit where
  asked := sampleLive
  snapshot := sampleLive
  hashing := sampleLive
  copying := sampleLive
  committing := sampleLive
  meanwhile live := live

theorem sample_digests (n : ℕ) : Digests (sampleHost n) := by
  intro bytes
  change isDigest (if bytes = [1] then firstDigest else if bytes = [2] then secondDigest
    else otherDigest) = true
  split
  · decide
  · split <;> decide

theorem sample_genuine (n : ℕ) : Registry.Genuine (sampleHost n).content sampleLive.store where
  addressed := by
    intro digest bytes hbytes
    change (if digest = firstDigest then some [1] else if digest = secondDigest then some [2]
      else none) = some bytes at hbytes
    split at hbytes
    · obtain rfl := Option.some.inj hbytes
      exact ‹digest = firstDigest›.symm
    · split at hbytes
      · obtain rfl := Option.some.inj hbytes
        exact ‹digest = secondDigest›.symm
      · cases hbytes
  stored := by
    intro artifact hartifact
    rcases List.mem_cons.mp hartifact with rfl | hartifact
    · exact ⟨[1], rfl, rfl⟩
    · obtain rfl := List.mem_singleton.mp hartifact
      exact ⟨[2], rfl, rfl⟩
  committed := by
    intro artifact hartifact
    rcases List.mem_cons.mp hartifact with rfl | hartifact
    · rfl
    · obtain rfl := List.mem_singleton.mp hartifact
      rfl
  distinct := by decide

theorem sample_distinguishes (n : ℕ) : Distinguishes (sampleHost n) sampleLive.finals := by
  intro digest stored bytes hstored hdigest
  change (if bytes = [1] then firstDigest else if bytes = [2] then secondDigest
    else otherDigest) = digest at hdigest
  change (if digest = firstDigest then some [1] else if digest = secondDigest then some [2]
    else none) = some stored at hstored
  have hdistinct : firstDigest ≠ secondDigest ∧ otherDigest ≠ firstDigest ∧
      otherDigest ≠ secondDigest := by decide
  by_cases hfirst : bytes = [1]
  · rw [if_pos hfirst] at hdigest
    rw [← hdigest, if_pos rfl] at hstored
    exact hfirst.trans (Option.some.inj hstored)
  · rw [if_neg hfirst] at hdigest
    by_cases hsecond : bytes = [2]
    · rw [if_pos hsecond] at hdigest
      rw [← hdigest, if_neg hdistinct.1.symm, if_pos rfl] at hstored
      exact hsecond.trans (Option.some.inj hstored)
    · rw [if_neg hsecond] at hdigest
      rw [← hdigest, if_neg hdistinct.2.1, if_neg hdistinct.2.2] at hstored
      cases hstored

theorem sample_orderly (n : ℕ) : sampleMoments.Orderly (sampleHost n) sampleRequest where
  asked := by nofun
  committing := by nofun
  meanwhile _ h := h
  snapshot := rfl
  copying _ _ h := h
  recording _ h := ⟨h, Registry.Grows.refl _⟩
  genuine := sample_genuine n
  distinguishes := sample_distinguishes n
  paths := by decide

theorem sample_stable : sampleRequest.configuration.Stable := by
  intro file hfile
  obtain rfl := List.mem_singleton.mp hfile
  rfl

def sampleConfig : BundleEntry where
  json := [("logical_name", .str "deployment.json"),
    ("archive_path", .str "configuration/deployment.json")] ++ entry (sampleHost 0) [3]
  archivePath := "configuration/deployment.json"
  source := some [3]

def sampleProof : BundleEntry where
  json := [("artifact_id", .str "proof-artifact"),
    ("cas_relpath", .str (relpathForDigest secondDigest)),
    ("archive_path", .str ("cas/" ++ relpathForDigest secondDigest))] ++ entry (sampleHost 0) [2]
  archivePath := "cas/" ++ relpathForDigest secondDigest
  source := some [2]

def sampleArchive : List UInt8 :=
  storedZip.write [
    ("manifest.json", manifestBytes (manifestOf (sampleHost 0) sampleRequest "backup" "t1" sampleDb
      [sampleConfig] [sampleProof])),
    ("database.sqlite", [7]), ("configuration/deployment.json", [3]),
    ("cas/" ++ relpathForDigest secondDigest, [2])]

theorem sha256_stored (n : ℕ) {members : List (String × List UInt8)} (h : 1 < members.length) :
    (sampleHost n).content.sha256 (storedZip.write members) = otherDigest := by
  have hlength : 1 < (storedZip.write members).length := h.trans_le (length_le_writeStored members)
  have hne (b : UInt8) : storedZip.write members ≠ [b] := by
    intro heq
    rw [heq] at hlength
    exact absurd hlength (by simp)
  change (if storedZip.write members = [1] then firstDigest
    else if storedZip.write members = [2] then secondDigest else otherDigest) = otherDigest
  rw [if_neg (hne 1), if_neg (hne 2)]

theorem sha256_sampleArchive (n : ℕ) :
    (sampleHost n).content.sha256 sampleArchive = otherDigest :=
  sha256_stored n (by simp)

theorem sample_maxBytes (n : ℕ) : (sampleHost n).content.maxBytes = n := rfl

theorem sample_configs (n : ℕ) :
    configurationEntries (sampleHost n) sampleRequest.configuration = .ok [sampleConfig] := by
  rw [configurationEntries, mapM_eq_ok]
  refine .cons (bind_eq_ok.mpr ⟨(), rejectIf_eq_ok.mpr (by decide), ?_⟩) .nil
  exact bind_eq_ok.mpr ⟨(), rejectIf_eq_ok.mpr rfl, rfl⟩

theorem sample_cas (n : ℕ) :
    casEntries (sampleHost n) sampleDb sampleLive.finals sampleLive.finals = .ok [sampleProof] := by
  have hbundled : bundled sampleDb = [proofArtifact] := by decide
  have hfile : casFile sampleLive.finals proofArtifact.casRelpath = some [2] := by decide
  rw [casEntries, hbundled, mapM_eq_ok]
  refine .cons (bind_eq_ok.mpr ⟨(), rejectIf_eq_ok.mpr (by decide), ?_⟩) .nil
  refine bind_eq_ok.mpr ⟨[2], orReject_eq_ok.mpr hfile, ?_⟩
  refine bind_eq_ok.mpr ⟨(), rejectIf_eq_ok.mpr rfl, ?_⟩
  rw [hfile]
  rfl

theorem sample_commits {n : ℕ} (hn : sampleArchive.length ≤ n) :
    ∃ live artifact, commitBundle (sampleHost n) sampleLive "backup" "bundle" sampleArchive =
      .ok (live, artifact) ∧ live.db.backups = [] ∧ artifact ∈ live.db.kernel.artifacts := by
  refine exists_commitBundle (H := sampleHost n) ?_ ?_ ?_ ?_
  · rw [sample_maxBytes]
    exact hn
  · rw [sha256_sampleArchive]
    decide
  · rw [sha256_sampleArchive]
    decide
  · rw [sha256_sampleArchive]
    decide

theorem sample_creates {n : ℕ} (hn : sampleArchive.length ≤ n) :
    ∃ created, create (sampleHost n) sampleRequest sampleStamps sampleMoments = .ok created := by
  obtain ⟨live, artifact, hcommit, hbackups, hmem⟩ := sample_commits hn
  have hrecord (row : BackupRow) (htimes : row.createdAt ≤ row.completedAt)
      (hrow : row.backupArtifactId = artifact.artifactId) :
      live.db.recordBackup row = some { live.db with backups := [row] } := by
    have hany : live.db.kernel.artifacts.any (·.artifactId == row.backupArtifactId) = true :=
      List.any_eq_true.mpr ⟨artifact, hmem, by simp [hrow]⟩
    unfold ProductDb.recordBackup
    simp [hany, htimes, hbackups, insertRow, require]
  have hmembers : bundleMembers (sampleHost n) (manifestOf (sampleHost n) sampleRequest "backup"
      "t1" sampleDb [sampleConfig] [sampleProof]) sampleDb ([sampleConfig] ++ [sampleProof]) =
        .ok [("manifest.json", manifestBytes (manifestOf (sampleHost n) sampleRequest "backup" "t1"
          sampleDb [sampleConfig] [sampleProof])), ("database.sqlite", [7]),
          ("configuration/deployment.json", [3]),
          ("cas/" ++ relpathForDigest secondDigest, [2])] := rfl
  have htimes : sampleStamps.createdAt ≤ sampleStamps.completedAt := by decide
  obtain ⟨created, hcreated⟩ : ∃ created, recordBundle (sampleHost n) sampleRequest sampleStamps
      sampleDb (manifestOf (sampleHost n) sampleRequest "backup" "t1" sampleDb [sampleConfig]
        [sampleProof]) artifact live = .ok created := by
    unfold recordBundle
    dsimp only
    rw [hrecord _ htimes rfl]
    exact ⟨_, rfl⟩
  refine ⟨created, bind_eq_ok.mpr ⟨(), rejectIf_eq_ok.mpr (by decide), ?_⟩⟩
  refine bind_eq_ok.mpr ⟨(), rejectIf_eq_ok.mpr (by decide), ?_⟩
  refine bind_eq_ok.mpr ⟨none, rfl, ?_⟩
  refine bind_eq_ok.mpr ⟨_, sample_configs n, ?_⟩
  refine bind_eq_ok.mpr ⟨_, sample_cas n, ?_⟩
  refine bind_eq_ok.mpr ⟨_, hmembers, ?_⟩
  exact bind_eq_ok.mpr ⟨_, hcommit, hcreated⟩

/-- Nothing is added by the release that made the backup. -/
theorem sample_upgrades : Upgrades some sampleDb sampleDb := ⟨rfl, rfl, rfl, rfl⟩

/-- The archive, the configuration file and the proof of a deployment come back. -/
theorem restored_of_deployment : ∃ created, create (sampleHost sampleArchive.length) sampleRequest
    sampleStamps sampleMoments = .ok created ∧ ∃ root,
      restore (sampleHost sampleArchive.length) some created.live.store created.receipt.backupId
        created.receipt.artifact = .ok root ∧
          Restored (sampleHost sampleArchive.length) sampleRequest sampleMoments some root := by
  obtain ⟨created, hcreate⟩ := sample_creates le_rfl
  obtain ⟨-, configs, cas, artifact, hbundled⟩ :=
    exists_bundled (sample_orderly _) sample_stable rfl hcreate
  refine ⟨created, hcreate, ?_⟩
  exact restored_of_create _ (sample_digests _) sampleRequest rfl sample_stable sampleStamps
    (by decide) sampleMoments (sample_orderly _) created hcreate created.live.store
    (Registry.Grows.refl _) hbundled.genuine.distinct some sampleDb sample_upgrades

/-- An artifact that is listed as committed has no file in the data root that is restored. -/
theorem backup_artifact_is_left_out : ∃ created,
    create (sampleHost sampleArchive.length) sampleRequest sampleStamps sampleMoments =
      .ok created ∧ ∃ root,
        restore (sampleHost sampleArchive.length) some created.live.store created.receipt.backupId
          created.receipt.artifact = .ok root ∧
            backupArtifact ∈ root.database.kernel.artifacts ∧
              backupArtifact.ingestState = .committed ∧
                root.files.lookup ("cas/" ++ backupArtifact.casRelpath) = none := by
  obtain ⟨created, hcreate⟩ := sample_creates le_rfl
  obtain ⟨-, configs, cas, artifact, hbundled⟩ :=
    exists_bundled (sample_orderly _) sample_stable rfl hcreate
  refine ⟨created, hcreate, _, restore_of_bundled (sample_digests _) (by decide) rfl hbundled
    (Registry.Grows.refl _) hbundled.genuine.distinct sample_upgrades, ?_, rfl, ?_⟩
  · exact List.mem_cons_self
  · decide

end ResearchKernel.Product.Backup
