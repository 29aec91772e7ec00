import ResearchKernel.Product.Registry

/-!
# Commits of uploads

When an upload is complete, `commit` looks for an artifact with the declared digest. One that is
there is bound to the upload. Otherwise the spool file is staged, committed and registered, and
the artifact that comes out is bound. Each of these is a step of its own.
-/

namespace ResearchKernel.Product.Possession

open Foundation
open Uploads
open Registry

/-- What the upload store and the content store take from their surroundings. -/
structure VaultRuntime where
  sha256 : List UInt8 → Digest
  maxUploadBytes : ℕ
  maxChunkBytes : ℕ
  maxBytes : ℕ

/-- The surroundings of the upload store. -/
def VaultRuntime.uploads (V : VaultRuntime) : UploadRuntime where
  sha256 := V.sha256
  maxUploadBytes := V.maxUploadBytes
  maxChunkBytes := V.maxChunkBytes

/-- The surroundings of the content store. -/
def VaultRuntime.content (V : VaultRuntime) : ContentRuntime where
  sha256 := V.sha256
  maxBytes := V.maxBytes

/-- What `commit` is to do next, when no artifact with the declared digest was there or when it
has one. -/
inductive CommitCall where
  /-- Stage the spool file. -/
  | stage (session : UploadSession)
  /-- Commit the staged file. -/
  | commit (session : UploadSession) (staged : StagedArtifact)
  /-- Register the committed file. -/
  | register (session : UploadSession) (file : CommittedFile)
  /-- Bind the artifact to the upload. -/
  | bind (session : UploadSession) (artifact : ArtifactRef)

/-- The uploads, the artifacts, the calls of `commit`, and what such calls have returned. -/
structure Vault where
  uploads : UploadStore := {}
  contents : ContentStore := {}
  calls : List CommitCall := []
  returned : List (Id × ArtifactRef) := []

/-- What a step of `commit` raises. -/
inductive CommitError where
  | upload (error : UploadError)
  | content (error : ContentError)

namespace Vault

variable (v : Vault)

/-- Leave something for a call of `commit` to do. -/
def later (call : CommitCall) : Vault := { v with calls := v.calls ++ [call] }

end Vault

/-! ## Steps of `commit` -/

section Steps

variable (V : VaultRuntime) (v : Vault)

/-- Look for an artifact with the declared digest of an upload that is being committed. -/
def lookup (index : ℕ) : Vault :=
  match v.uploads.pending[index]? with
  | some (.bind session) =>
    let rest := { v with
      uploads := { v.uploads with pending := v.uploads.pending.eraseIdx index } }
    match v.contents.findBySha256 session.declaredSha256 with
    | none => rest.later (.stage session)
    | some artifact =>
      match validateRef (artifactRef artifact) session with
      | .error _ => rest
      | .ok _ => rest.later (.bind session (artifactRef artifact))
  | _ => v

/-- Find the artifact of a committed upload. -/
def confirm (index : ℕ) (now : Stamp) : Vault :=
  match v.uploads.pending[index]? with
  | some (.confirm session _) =>
    let found := (v.contents.findBySha256 session.declaredSha256).map artifactRef
    { v with uploads := Uploads.resume v.uploads index now found }
  | _ => v

/-- The error of the upload store. -/
def liftUpload {α : Type} (result : Except UploadError α) : Except CommitError α :=
  result.mapError .upload

/-- The error of the content store. -/
def liftContent {α : Type} (result : Except ContentError α) : Except CommitError α :=
  result.mapError .content

/-- Stage the spool file of an upload. -/
def stageSpool (session : UploadSession) (generated : Id) :
    Except CommitError StagedArtifact := do
  let spool := v.uploads.spools (spoolName session.uploadId)
  let bytes ← orReject spool (.upload (.upload "upload spool is missing"))
  rejectIf (bytes.length != session.declaredByteCount)
    (.upload (.upload "upload spool length differs from durable offset"))
  liftContent (stageInput V.content
    { name := session.logicalName, sha256 := session.declaredSha256,
      byteCount := session.declaredByteCount, mediaType := session.mediaType } spool generated)

/-- Carry on with a call of `commit`. -/
def carryOn (call : CommitCall) (now : Stamp) (generated : Id) : Except CommitError Vault :=
  match call with
  | .stage session => do
    let staged ← stageSpool V v session generated
    return v.later (.commit session staged)
  | .commit session staged =>
    match v.contents.commit V.content staged with
    | (contents, .error _) => .ok { v with contents := contents }
    | (contents, .ok file) => .ok ({ v with contents := contents }.later (.register session file))
  | .register session file => do
    let (contents, artifact) ← liftContent (v.contents.register file)
    match validateRef (artifactRef artifact) session with
    | .error _ => return { v with contents := contents }
    | .ok _ => return { v with contents := contents }.later (.bind session (artifactRef artifact))
  | .bind session artifact => do
    let uploads ← liftUpload (bindCommitted v.uploads session artifact now)
    return { v with uploads := uploads
                    returned := v.returned ++ [(session.uploadId, artifact)] }

/-- Carry on with the call at a place. A call that finds the write lock held keeps waiting. -/
def carryOnAt (index : ℕ) (now : Stamp) (generated : Id) : Vault :=
  match v.calls[index]? with
  | none => v
  | some call =>
    match carryOn V { v with calls := v.calls.eraseIdx index } call now generated with
    | .ok after => after
    | .error (.upload .busy) => v
    | .error _ => { v with calls := v.calls.eraseIdx index }

end Steps

/-! ## Runs -/

/-- Whether an operation on the uploads takes the artifact of a commit from outside. -/
def takesArtifact (s : UploadStore) : UploadOp → Bool
  | .resume index _ _ =>
    match s.pending[index]? with
    | some (.bind _) => true
    | some (.confirm _ _) => true
    | _ => false
  | _ => false

/-- An operation on the uploads and the artifacts. -/
inductive VaultOp where
  /-- An operation on the uploads, other than the later steps of `commit`. -/
  | upload (op : UploadOp)
  /-- `commit` looks for an artifact. -/
  | lookup (index : ℕ)
  /-- `commit` finds the artifact of a committed upload. -/
  | confirm (index : ℕ) (now : Stamp)
  /-- `commit` does its next step. -/
  | carryOn (index : ℕ) (now : Stamp) (generated : Id)
  /-- A call of `commit` ends early. -/
  | drop (index : ℕ)
  /-- Another writer of the content store and the registry does a step. -/
  | elsewhere (op : ContentOp)

/-- Perform an operation. -/
def step (V : VaultRuntime) (v : Vault) : VaultOp → Vault
  | .upload op =>
    if takesArtifact v.uploads op then v
    else { v with uploads := Uploads.step V.uploads v.uploads op }
  | .lookup index => lookup v index
  | .confirm index now => confirm v index now
  | .carryOn index now generated => carryOnAt V v index now generated
  | .drop index => { v with calls := v.calls.eraseIdx index }
  | .elsewhere op => { v with contents := Registry.step V.content v.contents op }

/-- The uploads and the artifacts after a history. -/
def reached (V : VaultRuntime) (history : List VaultOp) : Vault := runFrom (step V) {} history

end ResearchKernel.Product.Possession
