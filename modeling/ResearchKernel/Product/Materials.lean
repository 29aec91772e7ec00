import ResearchKernel.Canonical
import ResearchKernel.Product.Extraction
import ResearchKernel.Product.Uploads

/-!
# Materials and what is extracted from them

A material names its original. An extraction reads it, publishes the text, the layout and the
formulas, and then writes to the database in two transactions: the row of the extraction first, an
anchor for every line of the layout and every formula after it. A call may end between the two.
When it is made again it finds the row, and answers with it.
-/

namespace ResearchKernel.Product.Materials

open Foundation
open Extraction (ExtractedMaterial Formula LayoutObject projectTex projectText)
open Ingest (strip)
open Uploads (ArtifactRef)

/-! ## Extractors -/

/-- What a material is. -/
inductive MaterialKind where
  | pdf | tex | image | text
deriving DecidableEq

/-- The extractors that are built in. -/
inductive Extractor where
  | pdf | tex | image | text

/-- The versions of the programs that are installed. -/
structure Tools where
  pdftotext : Option String
  tesseract : Option String

def Extractor.profileId : Extractor → Id
  | .pdf => "pdf_poppler_v1"
  | .tex => "tex_source_v1"
  | .image => "image_tesseract_v1"
  | .text => "text_utf8_v1"

def Extractor.materialKind : Extractor → MaterialKind
  | .pdf => .pdf
  | .tex => .tex
  | .image => .image
  | .text => .text

def Extractor.parserName : Extractor → String
  | .pdf => "pdftotext"
  | .tex => "rk-tex-source"
  | .image => "tesseract"
  | .text => "rk-utf8"

def Extractor.parserBuild (tools : Tools) : Extractor → String
  | .pdf => tools.pdftotext.getD "pdftotext:MISSING"
  | .tex => "rk-tex-source-v1"
  | .image => tools.tesseract.getD "tesseract:MISSING"
  | .text => "rk-utf8-v1"

def Extractor.unavailableReason (tools : Tools) : Extractor → Option String
  | .pdf => if tools.pdftotext.isNone then some "pdftotext executable is not installed" else none
  | .image => if tools.tesseract.isNone then some "tesseract executable is not installed" else none
  | _ => none

/-- The extractors in the order in which they are registered. -/
def builtins : List Extractor := [.pdf, .tex, .image, .text]

/-- The words of a text, with one space between them. -/
def joinWords (text : List Char) : List Char :=
  [' '].intercalate ((text.splitOnP isSpace).filter (!·.isEmpty))

/-- What an extractor makes of the text that it has read. A picture with a text but without
formulas has the whole text as one. -/
def Extractor.project (text : List Char) : Extractor → ExtractedMaterial
  | .pdf => projectText text "PDF_TEXT_FORMULA_CANDIDATE"
  | .tex => projectTex text
  | .image =>
    let projected := projectText text "OCR_FORMULA_CANDIDATE"
    if projected.formulas.isEmpty && !(strip text).isEmpty then
      { projected with formulas := [.candidate 1 1 (joinWords text) "OCR_FORMULA_CANDIDATE"] }
    else projected
  | .text => projectText text "TEXT_FORMULA_CANDIDATE"

def projectRevision (kind : MaterialKind) (text : List Char) : ExtractedMaterial :=
  if kind = .tex then projectTex text else projectText text "HUMAN_CORRECTED_FORMULA"

/-! ## Rows -/

/-- A row of `product_material_profiles`. -/
structure ExtractionProfile where
  profileId : Id
  materialKind : MaterialKind
  parserName : String
  parserBuild : String
  available : Bool
  unavailableReason : Option String
  registeredAt : Stamp

/-- A row of `product_materials`. -/
structure Material where
  materialId : Id
  runId : Id
  materialKind : MaterialKind
  original : ArtifactRef
  createdAt : Stamp
deriving DecidableEq

/-- An artifact never changes, so its reference stands with what was published under it. -/
structure Published (α : Type) where
  ref : ArtifactRef
  content : α
deriving DecidableEq

/-- The artifacts of an extraction. -/
structure PublishedProjection where
  text : Published (List Char)
  layout : Published (List LayoutObject)
  formulas : Published (List Formula)
  difference : ArtifactRef
deriving DecidableEq

/-- Who has made an extraction. -/
inductive Mode where
  | machine | humanRevision
deriving DecidableEq

/-- What has become of an extraction. -/
inductive ExtractionStatus where
  | succeeded | profileUnavailable | failed
deriving DecidableEq

/-- A row of `product_material_extractions`. -/
structure MaterialExtraction where
  extractionId : Id
  materialId : Id
  profileId : Id
  mode : Mode
  supersedesExtractionId : Option Id := none
  toolRunId : Option Id := none
  attemptId : Option Id := none
  status : ExtractionStatus
  parserBuild : String
  projection : Option PublishedProjection := none
  revisionReason : Option (List Char) := none
  revisedBy : Option (List Char) := none
  error : Option (String × String) := none
  createdAt : Stamp
deriving DecidableEq

/-- What an anchor is for. -/
inductive AnchorKind where
  | pageSegment | formula
deriving DecidableEq

/-- Text of a kind. -/
def AnchorKind.wire : AnchorKind → String
  | .pageSegment => "PAGE_SEGMENT"
  | .formula => "FORMULA"

/-- Where the object of an anchor is. -/
inductive Locator where
  | segment (page line start stop : ℕ)
  | numbered (page line : ℕ) (origin : String)
  | span (ordinal start stop : ℕ)
deriving DecidableEq

/-- An object that is anchored. -/
structure AnchorObject where
  kind : AnchorKind
  locator : Locator
  excerpt : List Char

/-- A row of `product_material_anchors`. Its digest is that of the excerpt. -/
structure MaterialAnchor where
  anchorId : Id
  extractionId : Id
  object : AnchorObject
  excerptDigest : Digest
  createdAt : Stamp

/-- The tables of the store. -/
structure MaterialTables where
  profiles : List ExtractionProfile := []
  materials : List Material := []
  extractions : List MaterialExtraction := []
  anchors : List MaterialAnchor := []

/-! ## What is anchored -/

/-- The members of a locator. -/
def Locator.fields : Locator → JsonObject
  | .segment page line start stop =>
    [("page", .int page), ("line", .int line), ("start", .int start), ("end", .int stop)]
  | .numbered page line origin => [("page", .int page), ("line", .int line), ("origin", .str origin)]
  | .span ordinal start stop =>
    [("ordinal", .int ordinal), ("start", .int start), ("end", .int stop),
      ("origin", .str "TEX_EXACT")]

def layoutObject (o : LayoutObject) : AnchorObject :=
  ⟨.pageSegment, .segment o.page o.line o.start o.stop, o.text⟩

def formulaObject : Formula → AnchorObject
  | .candidate page line source origin => ⟨.formula, .numbered page line origin, source⟩
  | .exact ordinal start stop source => ⟨.formula, .span ordinal start stop, source⟩

def objectsOf (layout : List LayoutObject) (formulas : List Formula) : List AnchorObject :=
  layout.map layoutObject ++ formulas.map formulaObject

def PublishedProjection.objects (p : PublishedProjection) : List AnchorObject :=
  objectsOf p.layout.content p.formulas.content

/-- An object as it is published. -/
def AnchorObject.json (o : AnchorObject) : Json :=
  let key := if o.kind = .pageSegment then "text" else "source"
  .obj (o.locator.fields ++ [(key, .str (String.ofList o.excerpt))])

/-! ## The store -/

/-- What the store raises. -/
inductive MaterialError where
  /-- `ValueError`. -/
  | value (message : String)
  /-- `KeyError`. -/
  | key (id : Id)
  /-- `MaterialError`. -/
  | material (message : String)
  /-- `MaterialConflict`. -/
  | conflict (message : String)
  /-- `RequestValidationError`, from a canonical text. -/
  | request
  /-- `IntegrityError`, from the database. -/
  | integrity
  /-- The call has ended at a point where it was stopped. -/
  | stopped
deriving DecidableEq

/-- What the surroundings answer during a call: the run of a tool run with its current attempt,
the text that the extractor reads or why it fails, references for what is published, and the
differences of two texts. -/
structure Answers where
  toolRun : Id → Option (Id × Id)
  reading : Except String (List Char)
  publish : List Char → String → String → ArtifactRef
  unifiedDiff : List Char → List Char → Id → Id → List Char

/-- Arguments of `extract`. -/
structure ExtractRequest where
  extractionId : Id
  materialId : Id
  profileId : Id
  toolRunId : Id
  attemptId : Id
  now : Stamp

/-- Arguments of `revise`. -/
structure ReviseRequest where
  extractionId : Id
  supersedesExtractionId : Id
  correctedText : List Char
  reason : List Char
  revisedBy : List Char
  now : Stamp

/-- Where a call ends before its end: before it has written anything, between its transactions, or
behind them. -/
inductive Stop where
  | early | between | late
deriving DecidableEq

section Store

variable (P : Platform) (s : MaterialTables)

def getProfile (profileId : Id) : Except MaterialError ExtractionProfile :=
  orReject (s.profiles.find? (·.profileId == profileId)) (.key profileId)

def getMaterial (materialId : Id) : Except MaterialError Material :=
  orReject (s.materials.find? (·.materialId == materialId)) (.key materialId)

def getExtraction (extractionId : Id) : Except MaterialError MaterialExtraction :=
  orReject (s.extractions.find? (·.extractionId == extractionId)) (.key extractionId)

/-- Whether an anchor stands before another in the order of the kinds and the identifiers. -/
def anchorLe (a b : MaterialAnchor) : Bool :=
  decide (a.object.kind.wire < b.object.kind.wire) ||
    (a.object.kind == b.object.kind && decide (a.anchorId ≤ b.anchorId))

def anchors (extractionId : Id) : List MaterialAnchor :=
  (s.anchors.filter (·.extractionId == extractionId)).insertionSort (anchorLe · ·)

/-- Publish what was extracted. -/
def publishProjection (answers : Answers) (extractionId : Id) (original : ArtifactRef)
    (extracted : ExtractedMaterial) (difference : Option (List Char)) :
    Except MaterialError PublishedProjection := do
  let textRef := answers.publish extracted.text (extractionId ++ ".txt") "text/plain"
  let layout ← orReject (Wire.canonicalJsonBytes P (.obj [("objects",
    .arr (extracted.layout.map fun o => (layoutObject o).json))])) .request
  let layoutRef := answers.publish layout (extractionId ++ ".layout.json") "application/json"
  let formulas ← orReject (Wire.canonicalJsonBytes P (.obj [("objects",
    .arr (extracted.formulas.map fun formula => (formulaObject formula).json))])) .request
  let formulaRef := answers.publish formulas (extractionId ++ ".formulas.json") "application/json"
  let derived ← orReject (Wire.canonicalJsonBytes P (.obj [
    ("schema_version", .str "rk.material-original-difference.v1"),
    ("original_artifact_id", .str original.artifactId),
    ("original_sha256", .str original.sha256),
    ("extraction_artifact_id", .str textRef.artifactId),
    ("extraction_sha256", .str textRef.sha256),
    ("relation", .str "DERIVED_NOT_IDENTICAL")])) .request
  let bytes := match difference with
    | some (c :: rest) => c :: rest
    | _ => derived
  let mediaType := if difference.isSome then "text/x-diff" else "application/json"
  return { text := ⟨textRef, extracted.text⟩
           layout := ⟨layoutRef, extracted.layout⟩
           formulas := ⟨formulaRef, extracted.formulas⟩
           difference := answers.publish bytes (extractionId ++ ".diff") mediaType }

/-! ### Transactions -/

/-- Write the row of an extraction. The row that is there already is left. -/
def insertExtraction (row : MaterialExtraction) : Except MaterialError MaterialTables :=
  match s.extractions.find? (·.extractionId == row.extractionId) with
  | none => .ok { s with extractions := s.extractions ++ [row] }
  | some known =>
    if known = row then .ok s
    else .error (.conflict "extraction ID is bound to another projection")

/-- The anchor of an object. Its identifier is cut off a digest. -/
def anchorOf (extractionId : Id) (now : Stamp) (object : AnchorObject) : Option MaterialAnchor := do
  let digest := P.sha256 object.excerpt
  let text ← Wire.canonicalJsonBytes P (.obj [("extraction_id", .str extractionId),
    ("kind", .str object.kind.wire), ("locator", .obj object.locator.fields),
    ("excerpt_digest", .str digest)])
  return { anchorId := "anchor-" ++ String.ofList ((P.sha256 text).toList.take 32)
           extractionId := extractionId
           object := object
           excerptDigest := digest
           createdAt := now }

/-- Two anchors cannot stand in the table together. The text of a locator is its own. -/
def anchorClash (a b : MaterialAnchor) : Bool :=
  a.anchorId == b.anchorId || (a.extractionId == b.extractionId &&
    a.object.kind == b.object.kind && a.object.locator == b.object.locator)

/-- Write the anchors of an extraction. -/
def insertAnchors (extractionId : Id) (extracted : ExtractedMaterial) (now : Stamp) :
    Except MaterialError MaterialTables := do
  let records ← orReject ((objectsOf extracted.layout extracted.formulas).mapM
    (anchorOf P extractionId now)) .request
  let anchors ← orReject (insertRows anchorClash records s.anchors) .integrity
  return { s with anchors := anchors }

/-! ### Calls -/

/-- What a call is about to do. -/
inductive Plan where
  /-- Answer with a row that is there. -/
  | answer (row : MaterialExtraction)
  /-- Write a row, and anchors if something was extracted. -/
  | write (row : MaterialExtraction) (extracted : Option ExtractedMaterial)

/-- What `extract` does before it writes. -/
def planExtract (answers : Answers) (request : ExtractRequest) : Except MaterialError Plan :=
  match s.extractions.find? (·.extractionId == request.extractionId) with
  | some existing =>
    if existing.materialId = request.materialId ∧ existing.profileId = request.profileId ∧
        existing.mode = .machine ∧ existing.toolRunId = some request.toolRunId ∧
        existing.attemptId = some request.attemptId then .ok (.answer existing)
    else .error (.conflict "extraction ID is bound to another request")
  | none => do
    let material ← getMaterial s request.materialId
    let profile ← getProfile s request.profileId
    rejectIf (profile.materialKind != material.materialKind)
      (.material "profile does not accept this material kind")
    let run ← orReject (answers.toolRun request.toolRunId) (.key request.toolRunId)
    rejectIf (run.1 != material.runId || run.2 != request.attemptId)
      (.material "extraction ToolRun binding is not current")
    let row : MaterialExtraction :=
      { extractionId := request.extractionId
        materialId := material.materialId
        profileId := profile.profileId
        mode := .machine
        toolRunId := some request.toolRunId
        attemptId := some request.attemptId
        status := .succeeded
        parserBuild := profile.parserBuild
        createdAt := request.now }
    if !profile.available then
      let reason := match profile.unavailableReason with
        | none | some "" => "unavailable"
        | some reason => reason
      return .write { row with
        status := .profileUnavailable
        error := some ("PROFILE_UNAVAILABLE", reason) } none
    else
      let extractor ← orReject (builtins.find? (·.profileId == request.profileId))
        (.key request.profileId)
      match answers.reading with
      | .error detail =>
        return .write { row with
          status := .failed
          error := some ("EXTRACTION_FAILED", detail) } none
      | .ok text =>
        let extracted := extractor.project text
        let projection ← publishProjection P answers request.extractionId material.original
          extracted none
        return .write { row with projection := some projection } (some extracted)

/-- What `revise` does before it writes. -/
def planRevise (answers : Answers) (request : ReviseRequest) : Except MaterialError Plan :=
  match s.extractions.find? (·.extractionId == request.extractionId) with
  | some existing => do
    rejectIf (existing.mode != .humanRevision ||
        existing.supersedesExtractionId != some request.supersedesExtractionId ||
        existing.revisionReason != some (strip request.reason) ||
        existing.revisedBy != some (strip request.revisedBy))
      (.conflict "revision ID is bound to another correction")
    let projection ← orReject existing.projection (.conflict "revision artifact is missing")
    rejectIf (projection.text.content != request.correctedText)
      (.conflict "revision ID is bound to another correction")
    return .answer existing
  | none => do
    let previous ← getExtraction s request.supersedesExtractionId
    rejectIf (previous.status != .succeeded)
      (.material "only a successful extraction can be revised")
    let old ← orReject previous.projection
      (.material "only a successful extraction can be revised")
    rejectIf (request.correctedText.isEmpty || (strip request.reason).isEmpty ||
        (strip request.revisedBy).isEmpty)
      (.value "revision text, reason, and author are required")
    rejectIf (old.text.content == request.correctedText)
      (.material "revision must change extracted text")
    let material ← getMaterial s previous.materialId
    let profile ← getProfile s previous.profileId
    let extracted := projectRevision material.materialKind request.correctedText
    let difference := answers.unifiedDiff old.text.content request.correctedText
      request.supersedesExtractionId request.extractionId
    let projection ← publishProjection P answers request.extractionId material.original extracted
      (some difference)
    return .write
      { extractionId := request.extractionId
        materialId := material.materialId
        profileId := profile.profileId
        mode := .humanRevision
        supersedesExtractionId := some request.supersedesExtractionId
        status := .succeeded
        parserBuild := "HUMAN_REVISION_V1"
        projection := some projection
        revisionReason := some (strip request.reason)
        revisedBy := some (strip request.revisedBy)
        createdAt := request.now } (some extracted)

/-- Read the row at the end of a call. -/
def finish (stop : Option Stop) (extractionId : Id) : Except MaterialError MaterialExtraction :=
  if stop = some .late then .error .stopped else getExtraction s extractionId

/-- Write what was planned, in two transactions. What a transaction has written stays when the
call ends after it. -/
def write (stop : Option Stop) (row : MaterialExtraction) (extracted : Option ExtractedMaterial) :
    MaterialTables × Except MaterialError MaterialExtraction :=
  match insertExtraction s row with
  | .error error => (s, .error error)
  | .ok written =>
    if stop = some .between then (written, .error .stopped)
    else match extracted with
      | none => (written, finish written stop row.extractionId)
      | some extracted =>
        match insertAnchors P written row.extractionId extracted row.createdAt with
        | .error error => (written, .error error)
        | .ok anchored => (anchored, finish anchored stop row.extractionId)

/-- Do what was planned. -/
def perform (stop : Option Stop) (plan : Except MaterialError Plan) :
    MaterialTables × Except MaterialError MaterialExtraction :=
  if stop = some .early then (s, .error .stopped)
  else match plan with
    | .error error => (s, .error error)
    | .ok (.answer row) => (s, .ok row)
    | .ok (.write row extracted) => write P s stop row extracted

/-- Extract a material with a profile. -/
def extract (answers : Answers) (stop : Option Stop) (request : ExtractRequest) :
    MaterialTables × Except MaterialError MaterialExtraction :=
  perform P s stop (planExtract P s answers request)

/-- Correct the text of an extraction. -/
def revise (answers : Answers) (stop : Option Stop) (request : ReviseRequest) :
    MaterialTables × Except MaterialError MaterialExtraction :=
  perform P s stop (planRevise P s answers request)

/-- Register a profile, in a transaction of its own. -/
def registerProfile (row : ExtractionProfile) : Except MaterialError MaterialTables :=
  match s.profiles.find? (·.profileId == row.profileId) with
  | none => .ok { s with profiles := s.profiles ++ [row] }
  | some known =>
    if known.materialKind = row.materialKind ∧ known.parserName = row.parserName ∧
        known.parserBuild = row.parserBuild ∧ known.available = row.available ∧
        known.unavailableReason = row.unavailableReason then .ok s
    else .error (.conflict "extraction profile build changed under stable ID")

def profileOf (tools : Tools) (now : Stamp) (extractor : Extractor) : ExtractionProfile where
  profileId := extractor.profileId
  materialKind := extractor.materialKind
  parserName := extractor.parserName
  parserBuild := extractor.parserBuild tools
  available := (extractor.unavailableReason tools).isNone
  unavailableReason := extractor.unavailableReason tools
  registeredAt := now

/-- Register profiles until one of them has changed. -/
def registerProfiles : List ExtractionProfile → MaterialTables → MaterialTables
  | [], s => s
  | row :: rows, s =>
    match registerProfile s row with
    | .error _ => s
    | .ok registered => registerProfiles rows registered

/-- Whether a media type is one of a kind. The type is given without its parameters, in lower
case. -/
def isMaterialMedia (kind : MaterialKind) (normalized : String) : Bool :=
  match kind with
  | .pdf => normalized == "application/pdf"
  | .tex => ["application/x-tex", "text/x-tex"].contains normalized
  | .image => "image/".toList.isPrefixOf normalized.toList
  | .text => ["text/plain", "text/markdown"].contains normalized

/-- Note a material. -/
def ingest (normalized : String) (row : Material) : Except MaterialError MaterialTables := do
  rejectIf (!isMaterialMedia row.materialKind normalized)
    (.material "original media type does not match material kind")
  match s.materials.find? (·.materialId == row.materialId) with
  | none =>
    let materials ← orReject (insertRow (fun a b => a.materialId == b.materialId ||
      (a.runId == b.runId && a.original.artifactId == b.original.artifactId)) row s.materials)
      .integrity
    return { s with materials := materials }
  | some known =>
    rejectIf (known != row) (.conflict "material ID is bound to another immutable original")
    return s

end Store

/-! ### Runs -/

/-- A call of the store. -/
inductive Call where
  | register (tools : Tools) (now : Stamp)
  | ingest (normalized : String) (row : Material)
  | extract (answers : Answers) (stop : Option Stop) (request : ExtractRequest)
  | revise (answers : Answers) (stop : Option Stop) (request : ReviseRequest)

def step (P : Platform) (s : MaterialTables) : Call → MaterialTables
  | .register tools now => registerProfiles (builtins.map (profileOf tools now)) s
  | .ingest normalized row =>
    match ingest s normalized row with
    | .error _ => s
    | .ok ingested => ingested
  | .extract answers stop request => (extract P s answers stop request).1
  | .revise answers stop request => (revise P s answers stop request).1

/-- The tables after some calls. -/
def reached (P : Platform) (calls : List Call) : MaterialTables := runFrom (step P) {} calls

end ResearchKernel.Product.Materials
