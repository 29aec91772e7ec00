import ResearchKernel.Product.GraphPages

/-!
# Cursors give back what they hold

A cursor that is read for the query and the fence it was written for gives back its boundary.
For another query or another fence it is stale.
-/

namespace ResearchKernel.Product.Pages

open Foundation Indexing

/-! ## Bytes -/

/-- The bytes of a text give back the text. -/
theorem ofUtf8_utf8 (text : List Char) : ofUtf8 (utf8 text) = some (String.ofList text) := by
  unfold ofUtf8 utf8 String.fromUTF8?
  have hbytes : ByteArray.mk (String.ofList text).toUTF8.data.toList.toArray =
      (String.ofList text).toUTF8 := by simp
  rw [hbytes]
  simp only [String.toUTF8_eq_toByteArray, Option.dite_none_right_eq_some, Option.some.injEq]
  exact ⟨(String.ofList text).isValidUTF8, rfl⟩

/-- Texts with the same bytes are the same. -/
theorem utf8_inj {text other : List Char} (h : utf8 text = utf8 other) : text = other := by
  have heq := congrArg ofUtf8 h
  rw [ofUtf8_utf8, ofUtf8_utf8] at heq
  exact String.ofList_injective (Option.some.inj heq)

/-- A text that is not empty has bytes. -/
theorem utf8_ne_nil {text : List Char} (h : text ≠ []) : utf8 text ≠ [] := by
  intro hnil
  have hempty : utf8 ([] : List Char) = [] := by decide
  exact h (utf8_inj (hnil.trans hempty.symm))

/-! ## Bodies -/

/-- What a cursor holds. -/
def cursorValue (binding : CursorBinding) (boundary : BoundaryState) : JsonObject :=
  binding.expected ++ [("boundary", .obj boundary.json)]

/-- The keys of what a cursor holds are distinct. -/
theorem keyed_cursorValue (binding : CursorBinding) (boundary : BoundaryState) :
    Json.Keyed (.obj (cursorValue binding boundary)) := by
  have hboundary : Json.Keyed (.obj boundary.json) := by
    cases hlast : boundary.lastClaimId <;>
      simp [BoundaryState.json, Json.Keyed, Json.KeyedFields, Json.KeyedField, Json.ofText?, hlast]
  simp only [Json.Keyed] at hboundary
  simp [cursorValue, CursorBinding.expected, Json.Keyed, Json.KeyedFields, Json.KeyedField]
  exact hboundary

theorem jsonMapping_cursorBody (binding : CursorBinding) (boundary : BoundaryState) :
    jsonMapping (cursorBody binding boundary) =
      .ok (Json.sortKeys (Json.storedFields (cursorValue binding boundary))) := by
  have hread := loads_dumps (keyed_cursorValue binding boundary)
  rw [Json.stored] at hread
  unfold jsonMapping cursorBody
  rw [ofUtf8_utf8, orReject_bind_of_some rfl, String.toList_ofList, ← cursorValue, hread,
    orReject_bind_of_some rfl]
  rfl

/-- A member of what a cursor holds is found in its body. -/
theorem get_cursorValue (binding : CursorBinding) (boundary : BoundaryState) (key : String) :
    JsonObject.get (Json.sortKeys (Json.storedFields (cursorValue binding boundary))) key =
      (((cursorValue binding boundary).lookup key).map Json.stored).getD .null := by
  have hkeys : ((cursorValue binding boundary).map Prod.fst).Nodup := by
    have hkeyed := keyed_cursorValue binding boundary
    simp only [Json.Keyed] at hkeyed
    exact hkeyed.1
  rw [JsonObject.get, Json.lookup_stored hkeys]

section Codec

variable {R : Type} (Q : QueryRuntime R) (codec : CursorCodec)

/-- The body of a cursor that was written is found to be signed. -/
theorem signedBody_encode (binding : CursorBinding) (boundary : BoundaryState) :
    signedBody Q codec (encode Q codec binding boundary) = .ok (cursorBody binding boundary) := by
  set body := cursorBody binding boundary with hbody
  have hne : body ≠ [] := by
    refine utf8_ne_nil ?_
    exact dumps_ne_nil _
  have hpos : 0 < body.length := List.length_pos_of_ne_nil hne
  have hlength : (body ++ Q.hmacDigest codec.secret body).length - 32 = body.length := by
    rw [List.length_append, Q.length_hmacDigest]
    omega
  have htoken : (encode Q codec binding boundary).toList =
      cursorPrefix ++ urlsafeB64encode (body ++ Q.hmacDigest codec.secret body) := by
    rw [encode, String.toList_ofList]
  have hmarked : cursorPrefix.isPrefixOf (encode Q codec binding boundary).toList = true := by
    rw [htoken, List.isPrefixOf_iff_prefix]
    exact List.prefix_append _ _
  have hdrop : (encode Q codec binding boundary).toList.drop 5 =
      urlsafeB64encode (body ++ Q.hmacDigest codec.secret body) := by
    rw [htoken]
    exact List.drop_left' (by decide)
  unfold signedBody
  rw [hmarked, Bool.not_true, rejectIf_bind_of_passes rfl]
  dsimp only
  rw [hdrop, urlsafeB64decode_encode, orReject_bind_of_some rfl, rejectIf_bind_of_passes]
  · rw [hlength, List.take_left, List.drop_left]
    rw [rejectIf_bind_of_passes (by simp)]
    rfl
  · rw [List.length_append, Q.length_hmacDigest]
    simp only [decide_eq_false_iff_not, not_le]
    omega

/-- The text of a kind says which it is. -/
theorem QueryKind.wire_inj {a b : QueryKind} (h : a.wire = b.wire) : a = b := by
  cases a <;> cases b <;> first | rfl | exact absurd h (by decide)

/-- The members that bind a cursor are as expected exactly when it is bound to what it is
presented for. -/
theorem expected_iff (binding presented : CursorBinding) (boundary : BoundaryState) :
    (presented.expected.any fun member =>
      !(JsonObject.get (Json.sortKeys (Json.storedFields (cursorValue binding boundary)))
        member.1).eqv member.2) = false ↔ binding = presented := by
  have hkind : ((cursorValue binding boundary).lookup "kind") = some (.str binding.kind.wire) := by
    simp [cursorValue, CursorBinding.expected, List.lookup_cons]
  have hv : ((cursorValue binding boundary).lookup "v") = some (.int 1) := by
    simp [cursorValue, CursorBinding.expected]
  have hrun : ((cursorValue binding boundary).lookup "run_id") = some (.str binding.runId) := by
    simp [cursorValue, CursorBinding.expected, List.lookup_cons]
  have hrevision : ((cursorValue binding boundary).lookup "revision") =
      some (.int binding.revision) := by
    simp [cursorValue, CursorBinding.expected, List.lookup_cons]
  have hcursor : ((cursorValue binding boundary).lookup "activity_cursor") =
      some (.int binding.activityCursor) := by
    simp [cursorValue, CursorBinding.expected, List.lookup_cons]
  have hdigest : ((cursorValue binding boundary).lookup "query_digest") =
      some (.str binding.queryDigest) := by
    simp [cursorValue, CursorBinding.expected, List.lookup_cons]
  simp only [CursorBinding.expected, List.any_cons, List.any_nil, get_cursorValue, hkind, hv, hrun,
    hrevision, hcursor, hdigest, Option.map_some, Option.getD_some, Json.stored, Json.eqv,
    Bool.or_false, Bool.or_eq_false_iff, Bool.not_eq_eq_eq_not, Bool.not_false, beq_iff_eq,
    beq_self_eq_true, true_and]
  constructor
  · rintro ⟨hkind, hrun, hrevision, hcursor, hdigest⟩
    obtain ⟨kind, runId, revision, activityCursor, queryDigest⟩ := binding
    obtain ⟨kind', runId', revision', activityCursor', queryDigest'⟩ := presented
    dsimp only at hkind hrun hrevision hcursor hdigest
    rw [QueryKind.wire_inj hkind, hrun, hrevision, hcursor, hdigest]
  · rintro rfl
    exact ⟨rfl, rfl, rfl, rfl, rfl⟩

def staleCursor : QueryError :=
  .stale "query cursor no longer matches run, revision, query, or activity fence"

variable {binding : CursorBinding} {boundary : BoundaryState}

/-- A signed text with the body of a cursor of another query or another fence is stale. -/
theorem decode_of_signed_ne {token : String} {presented : CursorBinding}
    (hsigned : signedBody Q codec token = .ok (cursorBody binding boundary))
    (h : binding ≠ presented) :
    decode Q codec token presented = .error staleCursor := by
  have hmismatch : (presented.expected.any fun member =>
      !(JsonObject.get (Json.sortKeys (Json.storedFields (cursorValue binding boundary)))
        member.1).eqv member.2) = true := by
    rw [← Bool.not_eq_false]
    exact fun hmatch => h ((expected_iff binding presented boundary).mp hmatch)
  have hvalue := jsonMapping_cursorBody binding boundary
  refine bind_eq_error.mpr (Or.inr ⟨_, hsigned, bind_eq_error.mpr (Or.inr ⟨_, hvalue, ?_⟩)⟩)
  exact rejectIf_bind hmismatch

/-- A boundary that is read out of a cursor is not the start, and has its last claim. -/
theorem boundary_of_decode {token : String} (h : decode Q codec token binding = .ok boundary) :
    1 ≤ boundary.offset ∧ ∃ last ≠ "", boundary.lastClaimId = some last := by
  obtain ⟨_, -, h⟩ := bind_eq_ok.mp h
  obtain ⟨_, -, h⟩ := bind_eq_ok.mp h
  obtain ⟨_, -, h⟩ := bind_eq_ok.mp h
  obtain ⟨_, -, h⟩ := bind_eq_ok.mp h
  obtain ⟨_, -, h⟩ := bind_eq_ok.mp h
  obtain ⟨offset, -, h⟩ := bind_eq_ok.mp h
  obtain ⟨_, hpositive, h⟩ := bind_eq_ok.mp h
  obtain ⟨last, -, h⟩ := bind_eq_ok.mp h
  obtain ⟨_, hne, h⟩ := bind_eq_ok.mp h
  cases h
  have hpositive := rejectIf_eq_ok.mp hpositive
  simp only [decide_eq_false_iff_not, not_lt] at hpositive
  exact ⟨by dsimp only; omega, last, by simpa using rejectIf_eq_ok.mp hne, rfl⟩

/-- A cursor that is presented for its query at its fence gives back where its page has ended. -/
theorem decode_encode {lastClaimId : Id} (hoffset : 1 ≤ boundary.offset)
    (hlast : boundary.lastClaimId = some lastClaimId) (hne : lastClaimId ≠ "")
    (binding : CursorBinding) :
    decode Q codec (encode Q codec binding boundary) binding = .ok boundary := by
  have hmatch := (expected_iff binding binding boundary).mpr rfl
  have hbody := signedBody_encode Q codec binding boundary
  have hvalue := jsonMapping_cursorBody binding boundary
  obtain ⟨offset, last⟩ := boundary
  dsimp only at hoffset hlast
  subst hlast
  have hboundary : JsonObject.get (Json.sortKeys (Json.storedFields
      (cursorValue binding ⟨offset, some lastClaimId⟩))) "boundary" =
        .obj [("last_claim_id", .str lastClaimId), ("offset", .int offset)] := by
    rw [get_cursorValue]
    have hlookup : (cursorValue binding ⟨offset, some lastClaimId⟩).lookup "boundary" =
        some (.obj (BoundaryState.json ⟨offset, some lastClaimId⟩)) := by
      simp [cursorValue, CursorBinding.expected, List.lookup_cons]
    have hsorted : Json.sortKeys (Json.storedFields
        (BoundaryState.json ⟨offset, some lastClaimId⟩)) =
          [("last_claim_id", .str lastClaimId), ("offset", .int offset)] := by
      have hle : ¬ ("offset" : String) ≤ "last_claim_id" := by decide
      simp [BoundaryState.json, Json.ofText?, Json.storedFields, Json.storedField, Json.stored,
        Json.sortKeys, List.orderedInsert, hle]
    rw [hlookup, Option.map_some, Option.getD_some, Json.stored, hsorted]
  refine bind_eq_ok.mpr ⟨_, hbody, bind_eq_ok.mpr ⟨_, hvalue, ?_⟩⟩
  rw [rejectIf_bind_of_passes hmatch, hboundary]
  have hkeys : JsonObject.hasExactly [("last_claim_id", .str lastClaimId), ("offset", .int offset)]
      ["offset", "last_claim_id"] = true := by
    simp [JsonObject.hasExactly, JsonObject.has, List.lookup_cons]
  have hget : JsonObject.get [("last_claim_id", .str lastClaimId), ("offset", .int offset)] "offset" =
      .int offset := by
    simp [JsonObject.get, List.lookup_cons]
  have hgetLast : JsonObject.get [("last_claim_id", .str lastClaimId), ("offset", .int offset)]
      "last_claim_id" = .str lastClaimId := by
    simp [JsonObject.get]
  have hpositive : decide ((offset : ℤ) < 1) = false := by
    simp only [decide_eq_false_iff_not, not_lt]
    omega
  refine bind_eq_ok.mpr ⟨_, rfl, ?_⟩
  rw [rejectIf_bind_of_passes (by rw [hkeys]; rfl), hget]
  refine bind_eq_ok.mpr ⟨_, rfl, ?_⟩
  rw [rejectIf_bind_of_passes hpositive, hgetLast]
  refine bind_eq_ok.mpr ⟨_, rfl, ?_⟩
  rw [rejectIf_bind_of_passes (by simpa using hne)]
  rfl

/-- A cursor opens for the query and the fence that it was written for, and for no other. -/
theorem cursor_opens_iff (binding presented : CursorBinding) (boundary : BoundaryState) :
    decode Q codec (encode Q codec binding boundary) presented = .ok boundary ↔
      binding = presented ∧ 1 ≤ boundary.offset ∧
        ∃ last ≠ "", boundary.lastClaimId = some last := by
  constructor
  · intro h
    refine ⟨?_, boundary_of_decode Q codec h⟩
    by_contra hne
    rw [decode_of_signed_ne Q codec (signedBody_encode Q codec binding boundary) hne] at h
    cases h
  · rintro ⟨rfl, hoffset, last, hne, hlast⟩
    exact decode_encode Q codec hoffset hlast hne binding

end Codec

end ResearchKernel.Product.Pages
