import ResearchKernel.Projector.Effects

/-!
# What becomes of a claim

A mutation edits the claims in place and registers at most one new claim. The statement
of a claim never changes. The edits are listed once, as a relation between a claim and
what the mutation may make of it.
-/

namespace ResearchKernel

open Foundation

/-- Two versions of one claim: what identifies it and what it states is the same. -/
structure Claim.SameStatement (claim claim' : Claim) : Prop where
  claimId : claim'.claimId = claim.claimId
  runId : claim'.runId = claim.runId
  claimKind : claim'.claimKind = claim.claimKind
  statementHash : claim'.statementHash = claim.statementHash

theorem Claim.SameStatement.refl (claim : Claim) : claim.SameStatement claim := ⟨rfl, rfl, rfl, rfl⟩

theorem Claim.SameStatement.trans {a b c : Claim} (h : a.SameStatement b) (h' : b.SameStatement c) :
    a.SameStatement c :=
  ⟨h'.claimId.trans h.claimId, h'.runId.trans h.runId, h'.claimKind.trans h.claimKind,
    h'.statementHash.trans h.statementHash⟩

namespace Projection

/-- What a mutation may make of a claim. -/
inductive ClaimChange : Mutation → Claim → Claim → Prop
  /-- The claim is left alone. -/
  | kept (m : Mutation) (claim : Claim) : ClaimChange m claim claim
  /-- An axis of the claim is promoted. -/
  | promoted (p : PromoteClaim) (value : AxisValue) (claim : Claim)
      (hid : claim.claimId = p.claimId) :
      ClaimChange (.setClaimAxis p value) claim (claim.setAxis value)
  /-- A verification writes to the axes of the claim. -/
  | verified (p : VerifyAtomicClaim) (update : AxisUpdate) (claim : Claim)
      (hid : claim.claimId = p.claimId) :
      ClaimChange (.recordAtomicVerification p update) claim (claim.update update)
  /-- A review writes to the axes of the claim. -/
  | reviewed (p : RecordPeerReview) (profile : JsonObject) (claim : Claim)
      (hid : claim.claimId = p.claimId) :
      ClaimChange (.appendPeerReview p profile) claim (claim.update (reviewUpdate p profile))
  /-- A review of its quality is recorded. -/
  | judged (p : RecordQualityReview) (claim : Claim) (value : QualityVerdict) :
      ClaimChange (.appendQualityReview p) claim { claim with qualityVerdict := value }
  /-- A witness closes the claim. -/
  | closed (p : SubmitClosureWitness) (closure : ClosureState) (claim : Claim)
      (hid : claim.claimId = p.parentClaimId) :
      ClaimChange (.acceptClosureWitness p closure) claim (closeClaim closure claim)
  /-- The closure of the claim is set. -/
  | closureSet (id : Id) (value : ClosureState) (claim : Claim) (hid : claim.claimId = id) :
      ClaimChange (.setClosure id value) claim { claim with closureState := value }
  /-- The closure of the claim is invalidated. -/
  | reopened (m : Mutation) (claim : Claim) :
      ClaimChange m claim { claim with closureState := .invalidated }
  /-- The claim is revoked. -/
  | revoked (id : Id) (claim : Claim) :
      ClaimChange (.revokeFactClosure id) claim
        { claim with lifecycleStatus := .invalidated, closureState := .invalidated }
  /-- The claim stays behind with a superseded contract. -/
  | superseded (version : ℕ) (affected : List Id) (claim : Claim) (value : ClosureState)
      (hvalue : value = .notRequired ∧ claim.closureState = .notRequired ∨ value = .invalidated) :
      ClaimChange (.migrateContractClosure version affected) claim
        { claim with lifecycleStatus := .superseded, closureState := value }
  /-- The claim is carried over to a new contract version. -/
  | carried (version : ℕ) (affected : List Id) (claim : Claim) :
      ClaimChange (.migrateContractClosure version affected) claim
        { claim with contractVersion := version }

variable {ctx : ProjectionContext} {db db' : Db} {m : Mutation}

theorem sameStatement_setAxis (claim : Claim) (value : AxisValue) :
    claim.SameStatement (claim.setAxis value) := by
  cases value <;> exact ⟨rfl, rfl, rfl, rfl⟩

variable {claim claim' : Claim}

/-- No mutation changes the statement of a claim. -/
theorem ClaimChange.sameStatement (h : ClaimChange m claim claim') :
    claim.SameStatement claim' := by
  cases h with
  | promoted p value claim hid => exact sameStatement_setAxis claim value
  | _ => exact ⟨rfl, rfl, rfl, rfl⟩

def newClaims (ctx : ProjectionContext) (db : Db) : Mutation → List Claim
  | .registerClaim p closure => [newClaim ctx db p closure]
  | _ => []

/-- The claims after a mutation: the old ones, edited in place, and then the new one. -/
def ClaimsAfter (ctx : ProjectionContext) (db : Db) (m : Mutation) (db' : Db) : Prop :=
  ∃ edit : Claim → Claim, (∀ claim ∈ db.claims, ClaimChange m claim (edit claim)) ∧
    db'.claims = db.claims.map edit ++ newClaims ctx db m

/-- A mutation that registers no claim and leaves the table alone. -/
theorem ClaimsAfter.of_eq (hnew : newClaims ctx db m = []) (h : db'.claims = db.claims) :
    ClaimsAfter ctx db m db' :=
  ⟨id, fun claim _ => ClaimChange.kept m claim, by simp [h, hnew]⟩

/-- A mutation that updates the claims with a change it may make. -/
theorem ClaimsAfter.of_updateWhere {test : Claim → Bool} {change : Claim → Claim}
    (hnew : newClaims ctx db m = [])
    (hchange : ∀ claim ∈ db.claims, test claim = true → ClaimChange m claim (change claim))
    (h : db'.claims = updateWhere test change db.claims) : ClaimsAfter ctx db m db' := by
  refine ⟨fun claim => if test claim then change claim else claim, ?_, ?_⟩
  · intro claim hclaim
    change ClaimChange m claim (if test claim = true then change claim else claim)
    by_cases htest : test claim = true
    · rw [if_pos htest]
      exact hchange claim hclaim htest
    · rw [if_neg htest]
      exact ClaimChange.kept m claim
  · rw [h, hnew, List.append_nil]
    rfl

theorem claimsAfter_invalidateDependencyClosure (id : Option Id)
    (hnew : newClaims ctx db m = []) :
    Gives (ClaimsAfter ctx db m) (invalidateDependencyClosure ctx db id) := by
  unfold invalidateDependencyClosure
  split
  · split
    · exact Gives.pure (ClaimsAfter.of_eq hnew rfl)
    · exact Gives.pure (ClaimsAfter.of_updateWhere hnew (fun claim _ _ => .reopened m claim) rfl)
  · exact Gives.pure (ClaimsAfter.of_updateWhere hnew (fun claim _ _ => .reopened m claim) rfl)

theorem claimsAfter_invalidateFromFirstFailure (id : Option Id)
    (hnew : newClaims ctx db m = []) :
    Gives (ClaimsAfter ctx db m) (invalidateFromFirstFailure ctx db id) := by
  unfold invalidateFromFirstFailure
  split
  · exact claimsAfter_invalidateDependencyClosure id hnew
  · exact Gives.pure (ClaimsAfter.of_eq hnew rfl)

/-- Carried claims are active and outside the closure of the defect. -/
theorem of_mem_carriedClaims {invalid : List Id} {id : Id}
    (h : id ∈ carriedClaims ctx db invalid) : id ∉ invalid := by
  simp only [carriedClaims, List.mem_map, List.mem_filter, Bool.and_eq_true] at h
  obtain ⟨claim, ⟨-, -, hout⟩, rfl⟩ := h
  simpa using hout

/-- What supersession makes of a claim. -/
def supersede (invalid : List Id) (claim : Claim) : Claim :=
  if invalid.contains claim.claimId then { claim with
    lifecycleStatus := .superseded
    closureState := if claim.closureState == .notRequired then .notRequired else .invalidated }
  else claim

/-- What the migration makes of a claim. -/
def migrate (version : ℕ) (invalid carried : List Id) (claim : Claim) : Claim :=
  if carried.contains (supersede invalid claim).claimId then
    { supersede invalid claim with contractVersion := version }
  else supersede invalid claim

theorem claimChange_migrate {version : ℕ} {affected invalid carried : List Id}
    (hdisjoint : ∀ id ∈ carried, id ∉ invalid) (claim : Claim) :
    ClaimChange (.migrateContractClosure version affected) claim
      (migrate version invalid carried claim) := by
  unfold migrate supersede
  by_cases hinv : claim.claimId ∈ invalid
  · have hout : claim.claimId ∉ carried := fun hin => hdisjoint _ hin hinv
    simp only [List.contains_iff_mem, hinv, hout, if_true, if_false]
    refine ClaimChange.superseded version affected claim _ ?_
    by_cases hreq : claim.closureState = .notRequired
    · exact Or.inl ⟨by simp [hreq], hreq⟩
    · exact Or.inr (by simp [hreq])
  · simp only [List.contains_iff_mem, hinv, if_false]
    split
    · exact ClaimChange.carried version affected claim
    · exact ClaimChange.kept _ claim

theorem claimsAfter_migrateContractClosure (version : ℕ) (affected : List Id) :
    Gives (ClaimsAfter ctx db (.migrateContractClosure version affected))
      (migrateContractClosure ctx db version affected) := by
  refine Gives.bind fun _ _ => Gives.pure ?_
  set invalid := defectClosure ctx db affected
  set mid := supersedeClosure ctx db invalid
  refine ⟨migrate version invalid (carriedClaims ctx mid invalid), ?_, ?_⟩
  · intro claim _
    exact claimChange_migrate (fun _ => of_mem_carriedClaims) claim
  · simp only [newClaims, List.append_nil]
    change ((db.claims.map (supersede invalid)).map _) = _
    rw [List.map_map]
    rfl

/-- The claims after a mutation. -/
theorem claims_of_apply (h : applyMutation ctx db m = some db') : ClaimsAfter ctx db m db' := by
  suffices hgives : Gives (ClaimsAfter ctx db m) (applyMutation ctx db m) from hgives db' h
  cases m with
  | migrateContractClosure version affected =>
    exact claimsAfter_migrateContractClosure version affected
  | invalidateDependencyClosure id => exact claimsAfter_invalidateDependencyClosure id rfl
  | invalidateFromFirstFailure id => exact claimsAfter_invalidateFromFirstFailure id rfl
  | invalidateParentClosure id =>
    exact Gives.pure (ClaimsAfter.of_updateWhere rfl (fun claim _ _ => .reopened _ claim) rfl)
  | setClosure id value =>
    exact Gives.pure (ClaimsAfter.of_updateWhere rfl
      (fun claim _ htest => .closureSet id value claim (beq_iff_eq.mp htest)) rfl)
  | revokeFactClosure id =>
    exact Gives.pure (ClaimsAfter.of_updateWhere rfl (fun claim _ _ => .revoked id claim) rfl)
  | setClaimAxis p value =>
    exact Gives.bind fun _ _ => Gives.bind fun _ _ => Gives.bind fun _ _ => Gives.bind fun _ _ =>
      Gives.pure (ClaimsAfter.of_updateWhere rfl
        (fun claim _ htest => .promoted p value claim (beq_iff_eq.mp htest)) rfl)
  | appendQualityReview p =>
    exact Gives.bind fun _ _ => Gives.pure
      (ClaimsAfter.of_updateWhere rfl (fun claim _ _ => .judged p claim _) rfl)
  | appendPeerReview p profile =>
    exact Gives.bind fun _ _ => Gives.pure (ClaimsAfter.of_updateWhere rfl
      (fun claim _ htest => .reviewed p profile claim (beq_iff_eq.mp htest)) rfl)
  | recordAtomicVerification p update =>
    exact Gives.bind fun _ _ => Gives.pure (ClaimsAfter.of_updateWhere rfl
      (fun claim _ htest => .verified p update claim (beq_iff_eq.mp htest)) rfl)
  | acceptClosureWitness p closure =>
    exact Gives.bind fun _ _ => Gives.bind fun _ _ => Gives.pure (ClaimsAfter.of_updateWhere rfl
      (fun claim _ htest => .closed p closure claim (beq_iff_eq.mp htest)) rfl)
  | registerClaim p closure =>
    refine Gives.bind fun claims hclaims => Gives.pure ?_
    obtain ⟨-, rfl⟩ := insertRow_eq_some.mp hclaims
    exact ⟨id, fun claim _ => .kept _ claim, by simp [newClaims]⟩
  | _ => exact fun db' h => ClaimsAfter.of_eq rfl (congrArg Records.claims (records_of_apply h))

theorem exists_claim_of_apply (h : applyMutation ctx db m = some db') (hmem : claim' ∈ db'.claims) :
    (∃ claim ∈ db.claims, ClaimChange m claim claim') ∨ claim' ∈ newClaims ctx db m := by
  obtain ⟨edit, hedit, heq⟩ := claims_of_apply h
  rw [heq, List.mem_append, List.mem_map] at hmem
  rcases hmem with ⟨claim, hclaim, rfl⟩ | hnew
  · exact Or.inl ⟨claim, hclaim, hedit claim hclaim⟩
  · exact Or.inr hnew

theorem exists_claim_after (h : applyMutation ctx db m = some db') (hmem : claim ∈ db.claims) :
    ∃ claim' ∈ db'.claims, ClaimChange m claim claim' := by
  obtain ⟨edit, hedit, heq⟩ := claims_of_apply h
  refine ⟨edit claim, ?_, hedit claim hmem⟩
  rw [heq]
  exact List.mem_append_left _ (List.mem_map_of_mem hmem)

theorem kept_claims_of_apply (h : applyMutation ctx db m = some db') :
    Kept Claim.SameStatement db.claims db'.claims := by
  intro claim hclaim
  obtain ⟨claim', hclaim', hchange⟩ := exists_claim_after h hclaim
  exact ⟨claim', hclaim', hchange.sameStatement⟩

theorem claimIds_of_apply (h : applyMutation ctx db m = some db') :
    db'.claims.map (·.claimId) =
      db.claims.map (·.claimId) ++ (newClaims ctx db m).map (·.claimId) := by
  obtain ⟨edit, hedit, heq⟩ := claims_of_apply h
  rw [heq, List.map_append, List.map_map]
  congr 1
  apply List.map_congr_left
  intro claim hclaim
  exact (hedit claim hclaim).sameStatement.claimId

theorem newClaim_fresh {p : RegisterClaim} {closure : ClosureState}
    (h : applyMutation ctx db (.registerClaim p closure) = some db') :
    ∀ claim ∈ db.claims, claim.claimId ≠ ctx.newId 0 := by
  obtain ⟨claims, hclaims, -⟩ := Option.bind_eq_some_iff.mp h
  intro claim hclaim heq
  have hclash := (insertRow_eq_some.mp hclaims).1 claim hclaim
  simp [Claim.clash, newClaim, heq] at hclash

/-- Mutations keep the identifiers of claims distinct. -/
theorem nodup_claimIds_of_apply (h : applyMutation ctx db m = some db')
    (hnodup : (db.claims.map (·.claimId)).Nodup) : (db'.claims.map (·.claimId)).Nodup := by
  rw [claimIds_of_apply h]
  cases m with
  | registerClaim p closure =>
    have hfresh := newClaim_fresh h
    refine nodup_concat_of_fresh hnodup fun id hid => ?_
    obtain ⟨claim, hclaim, rfl⟩ := List.mem_map.mp hid
    exact hfresh claim hclaim
  | _ => simpa [newClaims] using hnodup

/-! ## The life of a claim -/

/-- A claim loses its place in the life of the run only by revocation or by migration. -/
theorem ClaimChange.lifecycle (h : ClaimChange m claim claim') :
    claim'.lifecycleStatus = claim.lifecycleStatus ∨
      (∃ id, m = .revokeFactClosure id) ∧ claim'.lifecycleStatus = .invalidated ∨
      (∃ version affected, m = .migrateContractClosure version affected) ∧
        claim'.lifecycleStatus = .superseded := by
  cases h with
  | promoted p value claim hid => cases value <;> exact Or.inl rfl
  | revoked id claim => exact Or.inr (Or.inl ⟨⟨id, rfl⟩, rfl⟩)
  | superseded version affected claim value hvalue =>
    exact Or.inr (Or.inr ⟨⟨version, affected, rfl⟩, rfl⟩)
  | _ => exact Or.inl rfl

/-- No mutation makes a claim active again. -/
theorem ClaimChange.not_active (h : ClaimChange m claim claim')
    (hclaim : claim.lifecycleStatus ≠ .active) : claim'.lifecycleStatus ≠ .active := by
  rcases h.lifecycle with hsame | ⟨-, hinvalidated⟩ | ⟨-, hsuperseded⟩
  · rw [hsame]
    exact hclaim
  · rw [hinvalidated]
    exact fun h => by cases h
  · rw [hsuperseded]
    exact fun h => by cases h

/-- Only the migration of an amendment changes the contract version of a claim. -/
theorem ClaimChange.contractVersion (h : ClaimChange m claim claim') :
    claim'.contractVersion = claim.contractVersion ∨
      ∃ version affected, m = .migrateContractClosure version affected := by
  cases h with
  | promoted p value claim hid => cases value <;> exact Or.inl rfl
  | carried version affected claim => exact Or.inr ⟨version, affected, rfl⟩
  | _ => exact Or.inl rfl

/-- A mutation changes no other columns of a claim than its version, its life and its axes. -/
theorem ClaimChange.eq_update (h : ClaimChange m claim claim') :
    claim' = { claim with
      contractVersion := claim'.contractVersion
      lifecycleStatus := claim'.lifecycleStatus
      routeResult := claim'.routeResult
      machineVerdict := claim'.machineVerdict
      semanticVerdict := claim'.semanticVerdict
      peerVerdict := claim'.peerVerdict
      qualityVerdict := claim'.qualityVerdict
      closureState := claim'.closureState } := by
  cases h with
  | promoted p value claim hid => cases value <;> rfl
  | _ => rfl

/-- No mutation changes the label of a claim. -/
theorem ClaimChange.stableLabel (h : ClaimChange m claim claim') :
    claim'.stableLabel = claim.stableLabel := by
  rw [h.eq_update]

/-- No mutation changes the artifact in which a claim is stated. -/
theorem ClaimChange.statementArtifactId (h : ClaimChange m claim claim') :
    claim'.statementArtifactId = claim.statementArtifactId := by
  rw [h.eq_update]

/-- The claims that a revocation withdraws: the fact and all that depends on it. -/
def revokedIds (ctx : ProjectionContext) (db : Db) (id : Id) : List Id :=
  reachableFrom (db.activeArcs ctx.runId ctx.contractVersion) [id]

/-- A claim after a revocation. -/
theorem exists_claim_of_revoke {id : Id}
    (h : applyMutation ctx db (.revokeFactClosure id) = some db') (hmem : claim' ∈ db'.claims) :
    ∃ claim ∈ db.claims, claim'.claimId = claim.claimId ∧
      (claim.claimId ∈ revokedIds ctx db id ∧ claim'.lifecycleStatus = .invalidated ∧
          claim'.closureState = .invalidated ∨
        claim.claimId ∉ revokedIds ctx db id ∧ claim' = claim) := by
  obtain rfl := Option.some.inj h
  obtain ⟨claim, hclaim, rfl⟩ := mem_updateWhere.mp hmem
  refine ⟨claim, hclaim, ?_⟩
  split
  · rename_i htest
    exact ⟨rfl, Or.inl ⟨List.contains_iff_mem.mp htest, rfl, rfl⟩⟩
  · rename_i htest
    exact ⟨rfl, Or.inr ⟨fun hin => htest (List.contains_iff_mem.mpr hin), rfl⟩⟩

variable {affected : List Id}

/-- The claims after a migration. -/
theorem claims_of_migrate {version : ℕ}
    (h : applyMutation ctx db (.migrateContractClosure version affected) = some db') :
    db'.claims = db.claims.map (migrate version (defectClosure ctx db affected)
      (carriedClaims ctx (supersedeClosure ctx db (defectClosure ctx db affected))
        (defectClosure ctx db affected))) := by
  obtain ⟨-, -, h⟩ := Option.bind_eq_some_iff.mp h
  obtain rfl := Option.some.inj h
  change ((db.claims.map (supersede _)).map _) = _
  rw [List.map_map]
  rfl

/-- A migration leaves none of the claims that it withdraws closed. -/
theorem not_closed_of_migrate {version : ℕ}
    (h : applyMutation ctx db (.migrateContractClosure version affected) = some db')
    (hmem : claim' ∈ db'.claims) (hinvalid : claim'.claimId ∈ defectClosure ctx db affected) :
    claim'.closureState.isClosed = false := by
  rw [claims_of_migrate h] at hmem
  obtain ⟨claim, -, rfl⟩ := List.mem_map.mp hmem
  set invalid := defectClosure ctx db affected
  set carried := carriedClaims ctx (supersedeClosure ctx db invalid) invalid with hcarried
  have hid : (migrate version invalid carried claim).claimId = claim.claimId :=
    (@claimChange_migrate version affected invalid carried
      (fun _ => of_mem_carriedClaims) claim).sameStatement.claimId
  rw [hid] at hinvalid
  have hout : claim.claimId ∉ carried := fun hin => of_mem_carriedClaims hin hinvalid
  unfold migrate supersede
  simp only [List.contains_iff_mem, hinvalid, hout, if_true, if_false]
  by_cases hrequired : claim.closureState = .notRequired
  · simp [hrequired, ClosureState.isClosed]
  · simp [hrequired, ClosureState.isClosed]

/-- A claim becomes closed only by a witness or by promotion. -/
theorem ClaimChange.closed_cases (h : ClaimChange m claim claim')
    (hvalue : ∀ id value, m = .setClosure id value → value.isClosed = false)
    (hclosed : claim'.closureState.isClosed = true) :
    claim.closureState.isClosed = true ∨
      (∃ p closure, m = .acceptClosureWitness p closure ∧ claim.claimId = p.parentClaimId) ∨
      ∃ p value, m = .setClaimAxis p (.closure value) ∧ claim.claimId = p.claimId ∧
        value.isClosed = true := by
  cases h with
  | promoted p value claim hid =>
    cases value with
    | closure value => exact Or.inr (Or.inr ⟨p, value, rfl, hid, hclosed⟩)
    | _ => exact Or.inl hclosed
  | closed p closure claim hid => exact Or.inr (Or.inl ⟨p, closure, rfl, hid⟩)
  | closureSet id value claim hid =>
    have hopen := hvalue id value rfl
    rw [show value.isClosed = true from hclosed] at hopen
    cases hopen
  | reopened | revoked => cases hclosed
  | superseded version affected claim value hvalue =>
    rcases hvalue with ⟨rfl, -⟩ | rfl
    · cases hclosed
    · cases hclosed
  | _ => exact Or.inl hclosed

end Projection

end ResearchKernel
