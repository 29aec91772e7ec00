import ResearchKernel.Storage
import ResearchKernel.Product.Uploads

/-!
# The content store and the registry of artifacts

Bytes are staged, moved to a file that is named by their digest, and registered as an artifact.
The three are steps of their own, and a call may end after any of them. A file that is there is
never written again, and an artifact never changes.
-/

namespace ResearchKernel.Product.Registry

open Foundation
open Uploads (ArtifactRef)

/-- What the content store takes from its surroundings: the digest of bytes, and its limit. -/
structure ContentRuntime where
  sha256 : List UInt8 → Digest
  maxBytes : ℕ

/-- What the content store and the registry raise. -/
inductive ContentError where
  /-- `CasValidationError`. -/
  | validation (message : String)
  /-- `CasCorruptionError`. -/
  | corruption (message : String)
  /-- `StorageConflict`. -/
  | conflict (message : String)

/-- A file of the staging area. Its digest and its size are those of the bytes that were written
to it. -/
structure StagedArtifact where
  artifactId : Id
  mediaType : String
  bytes : List UInt8

/-- The files that are named by a digest, and the database with the table of artifacts. -/
structure ContentStore where
  db : Db := {}
  finals : Digest → Option (List UInt8) := fun _ => none

/-! ## Steps of the writers -/

section Steps

variable (C : ContentRuntime)

/-- Copy a declared file to the staging area, if it is there and is what was declared. -/
def stageInput (input : ArtifactInput) (source : Option (List UInt8)) (artifactId : Id) :
    Except ContentError StagedArtifact := do
  let bytes ← orReject source (.validation "artifact path does not exist")
  rejectIf (decide (C.maxBytes < input.byteCount))
    (.validation "declared byte_count exceeds the configured limit")
  rejectIf (!isDigest input.sha256)
    (.validation "declared sha256 must be lowercase hexadecimal")
  rejectIf (decide (C.maxBytes < bytes.length))
    (.validation "artifact exceeds the configured byte limit")
  rejectIf (bytes.length != input.byteCount || C.sha256 bytes != input.sha256)
    (.validation "artifact size or digest does not match its declaration")
  return { artifactId := artifactId, mediaType := input.mediaType, bytes := bytes }

/-- Write bytes to the staging area. -/
def stageBytes (bytes : List UInt8) (mediaType : String) (artifactId : Id) :
    Except ContentError StagedArtifact := do
  rejectIf (decide (C.maxBytes < bytes.length))
    (.validation "artifact exceeds the configured byte limit")
  return { artifactId := artifactId, mediaType := mediaType, bytes := bytes }

/-- What the content store says of a staged file. -/
def StagedArtifact.committed (staged : StagedArtifact) : CommittedFile where
  artifactId := staged.artifactId
  sha256 := C.sha256 staged.bytes
  byteCount := staged.bytes.length
  mediaType := staged.mediaType

namespace ContentStore

variable (s : ContentStore)

/-- Put a staged file in its final place, unless a file is there. -/
def place (staged : StagedArtifact) : ContentStore :=
  match s.finals (C.sha256 staged.bytes) with
  | some _ => s
  | none =>
    { s with finals := Function.update s.finals (C.sha256 staged.bytes) (some staged.bytes) }

/-- Whether the file of a digest is what its name says. -/
def verifyFinal (digest : Digest) (byteCount : ℕ) : Except ContentError Unit := do
  let bytes ← orReject (s.finals digest)
    (.corruption "CAS final object is missing or not a regular file")
  rejectIf (C.sha256 bytes != digest || bytes.length != byteCount)
    (.corruption "CAS final object does not match its address")

/-- Move a staged file to its final place. The file stays there when it fails its check. -/
def commit (staged : StagedArtifact) : ContentStore × Except ContentError CommittedFile :=
  let placed := s.place C staged
  (placed, do
    rejectIf (!isDigest (C.sha256 staged.bytes)) (.validation "invalid staged artifact digest")
    placed.verifyFinal C (C.sha256 staged.bytes) staged.bytes.length
    return staged.committed C)

def findBySha256 (digest : Digest) : Option Artifact :=
  (s.db.artifacts.find? (·.sha256 == digest)).filter (·.ingestState == .committed)

/-- The committed artifact with an identifier. -/
def findById (artifactId : Id) : Option Artifact :=
  s.db.artifacts.find? fun artifact =>
    artifact.artifactId == artifactId && artifact.ingestState == .committed

/-- Register a committed file. The artifact that has its content stands for it. -/
def register (file : CommittedFile) : Except ContentError (ContentStore × Artifact) := do
  let (db, artifact) ← orReject (s.db.insertArtifact file)
    (.conflict "artifact identity or digest was reused with different content")
  return ({ s with db := db }, artifact)

/-- Whether the content store has committed a file. -/
def holds (file : CommittedFile) : Bool :=
  match s.finals file.sha256 with
  | some bytes => bytes.length == file.byteCount
  | none => false

end ContentStore

end Steps

/-- What callers are told of an artifact. -/
def artifactRef (artifact : Artifact) : ArtifactRef where
  artifactId := artifact.artifactId
  sha256 := artifact.sha256
  byteCount := artifact.byteCount
  mediaType := artifact.mediaType

/-! ## Other writers -/

/-- A step of another writer. -/
inductive ContentOp where
  /-- Stage bytes and commit them. -/
  | put (bytes : List UInt8) (mediaType : String) (artifactId : Id)
  /-- Register a file that was committed before. -/
  | register (file : CommittedFile)

/-- Perform a step of another writer. -/
def step (C : ContentRuntime) (s : ContentStore) : ContentOp → ContentStore
  | .put bytes mediaType artifactId =>
    match stageBytes C bytes mediaType artifactId with
    | .error _ => s
    | .ok staged => (s.commit C staged).1
  | .register file =>
    if s.holds file then ((s.register file).toOption.map Prod.fst).getD s else s

/-! ## What is registered is stored -/

/-- The artifact stands for a file that is stored under its digest. -/
def Stored (s : ContentStore) (artifact : Artifact) (bytes : List UInt8) : Prop :=
  s.finals artifact.sha256 = some bytes ∧ bytes.length = artifact.byteCount

/-- Every file has the digest that names it, and every artifact is stored. -/
structure Genuine (C : ContentRuntime) (s : ContentStore) : Prop where
  addressed : ∀ digest bytes, s.finals digest = some bytes → C.sha256 bytes = digest
  stored : ∀ artifact ∈ s.db.artifacts, ∃ bytes, Stored s artifact bytes
  committed : ∀ artifact ∈ s.db.artifacts, artifact.ingestState = .committed
  distinct : (s.db.artifacts.map (·.artifactId)).Nodup

/-- Whatever is stored and whatever is registered stays as it is. -/
structure Grows (s s' : ContentStore) : Prop where
  finals : ∀ digest bytes, s.finals digest = some bytes → s'.finals digest = some bytes
  artifacts : ∀ artifact ∈ s.db.artifacts, artifact ∈ s'.db.artifacts

theorem Grows.refl (s : ContentStore) : Grows s s :=
  ⟨fun _ _ h => h, fun _ h => h⟩

theorem Grows.trans {s t u : ContentStore} (h : Grows s t) (h' : Grows t u) : Grows s u :=
  ⟨fun digest bytes hs => h'.finals digest bytes (h.finals digest bytes hs),
    fun artifact hs => h'.artifacts artifact (h.artifacts artifact hs)⟩

theorem Stored.grows {s s' : ContentStore} {artifact : Artifact} {bytes : List UInt8}
    (h : Stored s artifact bytes) (hgrows : Grows s s') : Stored s' artifact bytes :=
  ⟨hgrows.finals _ _ h.1, h.2⟩

/-- A file that is held stays held. -/
theorem Grows.holds {s s' : ContentStore} {file : CommittedFile} (h : Grows s s')
    (hholds : s.holds file = true) : s'.holds file = true := by
  unfold ContentStore.holds at hholds ⊢
  cases hfinal : s.finals file.sha256 with
  | none =>
    rw [hfinal] at hholds
    cases hholds
  | some bytes =>
    rw [hfinal] at hholds
    rw [h.finals _ _ hfinal]
    exact hholds

section Lemmas

variable {C : ContentRuntime} {s s' : ContentStore}

variable {artifactId : Id} {staged : StagedArtifact}

/-- A staged input is what was declared. -/
theorem stageInput_spec {input : ArtifactInput} {source : Option (List UInt8)}
    (h : stageInput C input source artifactId = .ok staged) :
    source = some staged.bytes ∧ staged.bytes.length = input.byteCount ∧
      C.sha256 staged.bytes = input.sha256 ∧ isDigest input.sha256 = true ∧
        staged.mediaType = input.mediaType := by
  obtain ⟨bytes, hbytes, h⟩ := bind_eq_ok.mp h
  obtain ⟨_, -, h⟩ := bind_eq_ok.mp h
  obtain ⟨_, hdigest, h⟩ := bind_eq_ok.mp h
  obtain ⟨_, -, h⟩ := bind_eq_ok.mp h
  obtain ⟨_, hmatch, h⟩ := bind_eq_ok.mp h
  have hstaged := pure_eq_ok.mp h
  subst hstaged
  have hboth := rejectIf_eq_ok.mp hmatch
  rw [Bool.or_eq_false_iff, bne_eq_false_iff_eq, bne_eq_false_iff_eq] at hboth
  have hhex := rejectIf_eq_ok.mp hdigest
  rw [Bool.not_eq_false'] at hhex
  exact ⟨orReject_eq_ok.mp hbytes, hboth.1, hboth.2, hhex, rfl⟩

/-- A staged file changes nothing that is there. -/
theorem grows_place (staged : StagedArtifact) : Grows s (s.place C staged) := by
  unfold ContentStore.place
  cases hfinal : s.finals (C.sha256 staged.bytes) with
  | some bytes => exact Grows.refl s
  | none =>
    refine ⟨fun digest bytes hbytes => ?_, fun _ h => h⟩
    have hne : digest ≠ C.sha256 staged.bytes := by
      intro heq
      rw [heq, hfinal] at hbytes
      cases hbytes
    exact (Function.update_of_ne hne ..).trans hbytes

/-- The artifacts are left by a staged file. -/
theorem db_place (staged : StagedArtifact) : (s.place C staged).db = s.db := by
  unfold ContentStore.place
  cases s.finals (C.sha256 staged.bytes) <;> rfl

/-- A file that is there is not written again. -/
theorem place_of_some {bytes : List UInt8} (h : s.finals (C.sha256 staged.bytes) = some bytes) :
    s.place C staged = s := by
  rw [ContentStore.place, h]

/-- A file that is not there is put in place. -/
theorem finals_place (h : s.finals (C.sha256 staged.bytes) = none) :
    (s.place C staged).finals =
      Function.update s.finals (C.sha256 staged.bytes) (some staged.bytes) := by
  rw [ContentStore.place, h]

theorem Genuine.place (h : Genuine C s) (staged : StagedArtifact) :
    Genuine C (s.place C staged) where
  addressed := by
    intro digest bytes hbytes
    cases hfinal : s.finals (C.sha256 staged.bytes) with
    | some old =>
      rw [place_of_some hfinal] at hbytes
      exact h.addressed digest bytes hbytes
    | none =>
      rw [finals_place hfinal] at hbytes
      by_cases heq : digest = C.sha256 staged.bytes
      · rw [heq, Function.update_self] at hbytes
        rw [heq, Option.some.inj hbytes]
      · rw [Function.update_of_ne heq] at hbytes
        exact h.addressed digest bytes hbytes
  stored := by
    intro artifact hartifact
    rw [db_place] at hartifact
    obtain ⟨bytes, hstored⟩ := h.stored artifact hartifact
    exact ⟨bytes, hstored.grows (grows_place staged)⟩
  committed := by
    rw [db_place]
    exact h.committed
  distinct := by
    rw [db_place]
    exact h.distinct

variable {file : CommittedFile}

/-- A commit that succeeds gives a file that is held. -/
theorem commit_spec (h : (s.commit C staged).2 = .ok file) :
    file = staged.committed C ∧ (s.place C staged).holds file = true := by
  obtain ⟨_, -, h⟩ := bind_eq_ok.mp h
  obtain ⟨_, hverify, h⟩ := bind_eq_ok.mp h
  have hfile := pure_eq_ok.mp h
  subst hfile
  obtain ⟨bytes, hbytes, hverify⟩ := bind_eq_ok.mp hverify
  have hmatch := rejectIf_eq_ok.mp hverify
  rw [Bool.or_eq_false_iff, bne_eq_false_iff_eq, bne_eq_false_iff_eq] at hmatch
  have hfinal : (s.place C staged).finals (staged.committed C).sha256 = some bytes :=
    orReject_eq_ok.mp hbytes
  refine ⟨rfl, ?_⟩
  rw [ContentStore.holds, hfinal]
  exact beq_iff_eq.mpr hmatch.2

variable {artifact : Artifact}

/-- What the registration of a file does. -/
theorem register_spec (h : s.register file = .ok (s', artifact)) :
    s'.finals = s.finals ∧ artifact ∈ s'.db.artifacts ∧ artifact.sha256 = file.sha256 ∧
      artifact.byteCount = file.byteCount ∧ artifact.mediaType = file.mediaType ∧
        (s'.db.artifacts = s.db.artifacts ∨ s'.db.artifacts = s.db.artifacts ++ [file.row] ∧
          ∀ old ∈ s.db.artifacts, file.row.clash old = false) := by
  obtain ⟨⟨db, row⟩, hinsert, h⟩ := bind_eq_ok.mp h
  have hpair := pure_eq_ok.mp h
  cases hpair
  have hinsert := orReject_eq_ok.mp hinsert
  unfold Db.insertArtifact at hinsert
  obtain ⟨found, hfound, hinsert⟩ := Option.bind_eq_some_iff.mp hinsert
  obtain ⟨_, hsame, hinsert⟩ := Option.bind_eq_some_iff.mp hinsert
  cases hinsert
  have hsame := require_eq_some.mp hsame
  simp only [Bool.and_eq_true, beq_iff_eq] at hsame
  refine ⟨rfl, List.mem_of_find?_eq_some hfound, hsame.1.1.1, hsame.1.1.2, hsame.1.2, ?_⟩
  by_cases hclash : s.db.artifacts.any (file.row.clash ·) = true
  · left
    exact if_pos hclash
  · right
    refine ⟨if_neg hclash, ?_⟩
    intro old hold
    rw [Bool.not_eq_true, List.any_eq_false] at hclash
    exact Bool.eq_false_iff.mpr (hclash old hold)

theorem grows_register (h : s.register file = .ok (s', artifact)) : Grows s s' := by
  obtain ⟨hfinals, -, -, -, -, hartifacts⟩ := register_spec h
  refine ⟨fun digest bytes hbytes => by rw [hfinals]; exact hbytes, fun old hold => ?_⟩
  rcases hartifacts with hsame | ⟨hmore, -⟩
  · rw [hsame]
    exact hold
  · rw [hmore]
    exact List.mem_append_left _ hold

theorem Genuine.register (h : Genuine C s) (hholds : s.holds file = true)
    (hregister : s.register file = .ok (s', artifact)) :
    Genuine C s' := by
  obtain ⟨hfinals, -, -, -, -, hartifacts⟩ := register_spec hregister
  have hgrows := grows_register hregister
  refine ⟨fun digest bytes hbytes => h.addressed digest bytes (hfinals ▸ hbytes), ?_, ?_, ?_⟩
  · intro row hrow
    have hold : row ∈ s.db.artifacts → ∃ bytes, Stored s' row bytes := by
      intro hrow
      obtain ⟨bytes, hstored⟩ := h.stored row hrow
      exact ⟨bytes, hstored.grows hgrows⟩
    rcases hartifacts with hsame | ⟨hmore, -⟩
    · exact hold (hsame ▸ hrow)
    · rw [hmore] at hrow
      rcases List.mem_append.mp hrow with hrow | hnew
      · exact hold hrow
      · rw [List.mem_singleton.mp hnew]
        unfold ContentStore.holds at hholds
        cases hfinal : s.finals file.sha256 with
        | none =>
          rw [hfinal] at hholds
          cases hholds
        | some bytes =>
          rw [hfinal] at hholds
          exact ⟨bytes, hgrows.finals _ _ hfinal, beq_iff_eq.mp hholds⟩
  · intro row hrow
    rcases hartifacts with hsame | ⟨hmore, -⟩
    · exact h.committed row (hsame ▸ hrow)
    · rw [hmore] at hrow
      rcases List.mem_append.mp hrow with hrow | hnew
      · exact h.committed row hrow
      · rw [List.mem_singleton.mp hnew]
        rfl
  · rcases hartifacts with hsame | ⟨hmore, hfresh⟩
    · rw [hsame]
      exact h.distinct
    · rw [hmore, List.map_append, List.nodup_append]
      refine ⟨h.distinct, List.nodup_singleton _, ?_⟩
      rintro value hvalue other hother rfl
      obtain ⟨old, hold, hvalue⟩ := List.mem_map.mp hvalue
      have hid : file.row.artifactId = old.artifactId := by
        rw [hvalue]
        exact (List.mem_singleton.mp hother).symm
      have hclash := hfresh old hold
      rw [Artifact.clash, hid, beq_self_eq_true, Bool.true_or, Bool.true_or] at hclash
      cases hclash

/-- The store that a commit leaves. -/
@[simp] theorem commit_fst (staged : StagedArtifact) : (s.commit C staged).1 = s.place C staged := rfl

/-- A step of another writer leaves what is there. -/
theorem grows_step (s : ContentStore) (op : ContentOp) : Grows s (step C s op) := by
  cases op with
  | put bytes mediaType artifactId =>
    cases hstage : stageBytes C bytes mediaType artifactId with
    | error error => simpa [step, hstage] using Grows.refl s
    | ok staged => simpa [step, hstage] using grows_place staged
  | register file =>
    by_cases hholds : s.holds file = true
    · cases hregister : s.register file with
      | error error => simpa [step, hholds, hregister, Except.toOption] using Grows.refl s
      | ok result =>
        obtain ⟨s', artifact⟩ := result
        simpa [step, hholds, hregister, Except.toOption] using grows_register hregister
    · simpa [step, hholds] using Grows.refl s

/-- A step of another writer keeps the artifacts stored. -/
theorem Genuine.step (h : Genuine C s) (op : ContentOp) : Genuine C (step C s op) := by
  cases op with
  | put bytes mediaType artifactId =>
    cases hstage : stageBytes C bytes mediaType artifactId with
    | error error => simpa [Registry.step, hstage] using h
    | ok staged => simpa [Registry.step, hstage] using h.place staged
  | register file =>
    by_cases hholds : s.holds file = true
    · cases hregister : s.register file with
      | error error => simpa [Registry.step, hholds, hregister, Except.toOption] using h
      | ok result =>
        obtain ⟨s', artifact⟩ := result
        simpa [Registry.step, hholds, hregister, Except.toOption] using
          h.register hholds hregister
    · simpa [Registry.step, hholds] using h

/-- Nothing is stored at first. -/
theorem genuine_empty : Genuine C {} where
  addressed := by
    intro digest bytes h
    cases h
  stored := by
    intro artifact h
    cases h
  committed := by
    intro artifact h
    cases h
  distinct := List.nodup_nil

theorem mem_of_findBySha256 {digest : Digest} (h : s.findBySha256 digest = some artifact) :
    artifact ∈ s.db.artifacts ∧ artifact.sha256 = digest := by
  have hfound := (Option.filter_eq_some_iff.mp h).1
  exact ⟨List.mem_of_find?_eq_some hfound, by simpa using List.find?_some hfound⟩

/-- The artifact that is found by its identifier is there. -/
theorem mem_of_findById (h : s.findById artifactId = some artifact) :
    artifact ∈ s.db.artifacts ∧ artifact.artifactId = artifactId := by
  have htest := List.find?_some h
  rw [Bool.and_eq_true, beq_iff_eq] at htest
  exact ⟨List.mem_of_find?_eq_some h, htest.1⟩

/-- One identifier stands for one artifact. -/
theorem Genuine.eq_of_artifactId (h : Genuine C s) {a b : Artifact} (ha : a ∈ s.db.artifacts)
    (hb : b ∈ s.db.artifacts) (hid : a.artifactId = b.artifactId) : a = b :=
  List.inj_on_of_nodup_map h.distinct ha hb hid

/-- An artifact that is there is found by its identifier. -/
theorem Genuine.findById_eq (h : Genuine C s) (hartifact : artifact ∈ s.db.artifacts) :
    s.findById artifact.artifactId = some artifact := by
  have hsome : (s.findById artifact.artifactId).isSome = true := by
    rw [ContentStore.findById, List.find?_isSome]
    refine ⟨artifact, hartifact, ?_⟩
    rw [h.committed artifact hartifact, beq_self_eq_true]
    rfl
  obtain ⟨found, hfound⟩ := Option.isSome_iff_exists.mp hsome
  obtain ⟨hmem, hid⟩ := mem_of_findById hfound
  rw [hfound, h.eq_of_artifactId hmem hartifact hid]

/-- In every history of writers a registered artifact has its bytes under their digest, and keeps
them. -/
theorem content_kept_of_history (C : ContentRuntime) (early late : List ContentOp) :
    Genuine C (runFrom (step C) {} (early ++ late)) ∧
      Grows (runFrom (step C) {} early) (runFrom (step C) {} (early ++ late)) :=
  ⟨runFrom_invariant genuine_empty (fun _ op h => h.step op) _,
    runFrom_stays (I := Grows _) (Grows.refl _) (fun _ op ih => ih.trans (grows_step _ op)) late⟩

end Lemmas

end ResearchKernel.Product.Registry
