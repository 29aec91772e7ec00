import ResearchKernel.Product.ProductClaims

/-!
# The graph of claims and their repairs

A claim rests on facts that were verified when it was submitted, so the claims it rests on are
older. A repair supersedes an older claim that was rejected, and is the only one that does. The
necessary subgraph of a claim is everything it rests on.
-/

namespace ResearchKernel.Product.Claims

open Foundation
open Relation

/-! ## The relations -/

def RestsOn (s : ClaimLedger) (claimId factId : Id) : Prop :=
  ∃ row ∈ s.predecessors, row.claimId = claimId ∧ row.factId = factId

/-- A claim supersedes an older one. -/
def Supersedes (s : ClaimLedger) (claimId oldId : Id) : Prop :=
  ∃ claim ∈ s.claims, claim.claimId = claimId ∧ claim.supersedesClaimId = some oldId

/-- The place of a claim in the order of the submissions. -/
def place (s : ClaimLedger) (claimId : Id) : ℕ :=
  (s.claims.map ProductClaim.claimId).idxOf claimId

/-- A relation that leads to smaller numbers has no cycle. -/
theorem acyclic_of_place {r : Id → Id → Prop} {number : Id → ℕ}
    (h : ∀ a b, r a b → number b < number a) (a : Id) : ¬ TransGen r a a := by
  have hless : ∀ b, TransGen r a b → number b < number a := by
    intro b hpath
    induction hpath with
    | single hstep => exact h _ _ hstep
    | tail _ hstep ih => exact (h _ _ hstep).trans ih
  exact fun hcycle => Nat.lt_irrefl _ (hless a hcycle)

/-- A claim whose verdict makes it a fact. -/
structure Verified (claim : ProductClaim) : Prop where
  accepted : claim.lifecycle = .accepted
  verified : claim.authorityClass = .verified

/-- Two claims of one run and one version of the contract. -/
structure SameScope (claim fact : ProductClaim) : Prop where
  run : fact.runId = claim.runId
  version : fact.contractVersion = claim.contractVersion

/-! ## Reading claims -/

variable {s : ClaimLedger} {claimId : Id} {record : ClaimRecord}

theorem get_eq_ok :
    get s claimId = .ok record ↔ ∃ row, s.claims.find? (·.claimId == claimId) = some row ∧
      record = { toProductClaim := row
                 predecessorFactIds := predecessorFactIds s claimId
                 evidenceArtifacts := evidenceArtifacts s claimId } := by
  unfold get
  constructor
  · intro h
    obtain ⟨row, hrow, h⟩ := bind_eq_ok.mp h
    exact ⟨row, orReject_eq_ok.mp hrow, (pure_eq_ok.mp h).symm⟩
  · rintro ⟨row, hrow, rfl⟩
    exact bind_eq_ok.mpr ⟨row, orReject_eq_ok.mpr hrow, pure_eq_ok.mpr rfl⟩

/-- A claim that is read is in the table, under its identifier. -/
theorem mem_of_get (h : get s claimId = .ok record) :
    record.toProductClaim ∈ s.claims ∧ record.claimId = claimId := by
  obtain ⟨row, hrow, rfl⟩ := get_eq_ok.mp h
  exact ⟨List.mem_of_find?_eq_some hrow, by simpa using List.find?_some hrow⟩

theorem mem_predecessorFactIds {factId : Id} :
    factId ∈ predecessorFactIds s claimId ↔ RestsOn s claimId factId := by
  unfold predecessorFactIds RestsOn
  rw [List.mem_map]
  constructor
  · rintro ⟨row, hrow, rfl⟩
    obtain ⟨hmem, hclaim⟩ := List.mem_filter.mp
      ((List.perm_insertionSort _ _).mem_iff.mp hrow)
    exact ⟨row, hmem, by simpa using hclaim, rfl⟩
  · rintro ⟨row, hrow, hclaim, rfl⟩
    refine ⟨row, (List.perm_insertionSort _ _).mem_iff.mpr (List.mem_filter.mpr ⟨hrow, ?_⟩), rfl⟩
    simpa using hclaim

/-! ## What a submission does -/

/-- Whether a claim is the one that a repair supersedes. -/
def marks (oldId : Option Id) (row : ProductClaim) : Bool :=
  oldId == some row.claimId && (row.lifecycle == .rejected && row.supersededByClaimId.isNone)

def superseded (claimId : Id) (now : Stamp) (row : ProductClaim) : ProductClaim :=
  { row with supersededByClaimId := some claimId, updatedAt := now }

variable {now : Stamp}

theorem markSuperseded_spec {claims claims' : List ProductClaim} {oldId : Option Id}
    (h : markSuperseded claims oldId claimId now = .ok claims') :
    claims' = updateWhere (marks oldId) (superseded claimId now) claims ∧
      ∀ old, oldId = some old → ∃ row ∈ claims, row.claimId = old ∧ marks oldId row = true := by
  unfold markSuperseded at h
  split at h
  · cases h
    refine ⟨(updateWhere_of_miss fun row _ => ?_).symm, fun _ hnone => nomatch hnone⟩
    rfl
  next old =>
    obtain ⟨_, hcount, h⟩ := bind_eq_ok.mp h
    have htest : (fun row : ProductClaim => row.claimId == old &&
        (row.lifecycle == .rejected && row.supersededByClaimId.isNone)) = marks (some old) := by
      funext row
      have hid : (row.claimId == old) = (some old == some row.claimId) := by
        rw [Bool.eq_iff_iff, beq_iff_eq, beq_iff_eq, Option.some.injEq, eq_comm]
      unfold marks
      rw [hid]
    have hchanged := pure_eq_ok.mp h
    rw [htest] at hchanged hcount
    refine ⟨hchanged.symm, fun oldId hold => ?_⟩
    cases hold
    have hone : claims.countP (marks (some old)) = 1 := by
      have := rejectIf_eq_ok.mp hcount
      simpa using this
    have hpos : 0 < claims.countP (marks (some old)) := by omega
    obtain ⟨row, hrow, hmarks⟩ := List.countP_pos_iff.mp hpos
    obtain ⟨hid, -⟩ := Bool.and_eq_true_iff.mp hmarks
    exact ⟨row, hrow, (Option.some.inj (beq_iff_eq.mp hid)).symm, hmarks⟩

/-- A fact that a submission names and that passed the check. -/
structure NamedFact (submission : ClaimSubmission) (fact : ProductClaim) : Prop where
  run : fact.runId = submission.runId
  version : fact.contractVersion = submission.contractVersion
  verified : Verified fact

/-- What a submission that adds a claim did. -/
structure Submitted (P : Platform) (s : ClaimLedger) (submission : ClaimSubmission)
    (subjectId claimId : Id) (now : Stamp) (s' : ClaimLedger) : Prop where
  fresh : ∀ old ∈ s.claims, old.claimId ≠ claimId
  facts : ∀ factId ∈ submission.predecessorFactIds,
    ∃ fact ∈ s.claims, fact.claimId = factId ∧ NamedFact submission fact
  repairs : ∀ oldId, submission.supersedesClaimId = some oldId →
    ∃ row ∈ s.claims ++ [newClaim P submission subjectId claimId now],
      row.claimId = oldId ∧ marks submission.supersedesClaimId row = true
  claims : s'.claims = updateWhere (marks submission.supersedesClaimId) (superseded claimId now)
    (s.claims ++ [newClaim P submission subjectId claimId now])
  predecessors : ∀ row, row ∈ s'.predecessors ↔ row ∈ s.predecessors ∨
    row.claimId = claimId ∧ submission.predecessorFactIds[row.ordinal]? = some row.factId
  apart : ∀ old ∈ s.claims, (newClaim P submission subjectId claimId now).clash old = false
  evidence : ∀ row ∈ s'.evidence, row ∈ s.evidence ∨ row.claimId = claimId

variable {submission : ClaimSubmission}

theorem validatePredecessors_eq_ok {u : Unit} (h : validatePredecessors s submission = .ok u) :
    ∀ factId ∈ submission.predecessorFactIds,
      ∃ fact ∈ s.claims, fact.claimId = factId ∧ NamedFact submission fact := by
  intro factId hfact
  obtain ⟨fact, hget, hcheck⟩ := bind_eq_ok.mp (checkAll_eq_ok.mp h factId hfact)
  obtain ⟨hmem, hid⟩ := mem_of_get hget
  have hpasses := rejectIf_eq_ok.mp hcheck
  simp only [Bool.or_eq_false_iff, bne_eq_false_iff_eq, decide_eq_false_iff_not, not_not] at hpasses
  obtain ⟨⟨⟨⟨hrun, hversion⟩, haccepted⟩, hverified⟩, -⟩ := hpasses
  exact ⟨fact.toProductClaim, hmem, hid, hrun, hversion, haccepted, hverified⟩

variable {P : Platform} {s' : ClaimLedger} {subjectId : Id}

theorem submit_spec (h : submit P s submission subjectId claimId now = .ok (record, s')) :
    s' = s ∨ Submitted P s submission subjectId claimId now s' := by
  obtain ⟨_, -, h⟩ := bind_eq_ok.mp h
  split at h
  · obtain ⟨_, -, h⟩ := bind_eq_ok.mp h
    obtain ⟨_, -, h⟩ := bind_eq_ok.mp h
    cases pure_eq_ok.mp h
    exact Or.inl rfl
  · right
    obtain ⟨_, hfacts, h⟩ := bind_eq_ok.mp h
    obtain ⟨_, -, h⟩ := bind_eq_ok.mp h
    obtain ⟨_, -, h⟩ := bind_eq_ok.mp h
    obtain ⟨claims, hclaims, h⟩ := bind_eq_ok.mp h
    obtain ⟨predecessors, hpredecessors, h⟩ := bind_eq_ok.mp h
    obtain ⟨evidence, hevidence, h⟩ := bind_eq_ok.mp h
    obtain ⟨claims', hmarked, h⟩ := bind_eq_ok.mp h
    obtain ⟨_, -, h⟩ := bind_eq_ok.mp h
    cases pure_eq_ok.mp h
    obtain ⟨hclash, rfl⟩ := insertRow_eq_some.mp (orReject_eq_ok.mp hclaims)
    obtain ⟨rfl, hrepairs⟩ := markSuperseded_spec hmarked
    have hrows := eq_append_of_insertRows (orReject_eq_ok.mp hpredecessors)
    have hbindings := eq_append_of_insertRows (orReject_eq_ok.mp hevidence)
    refine ⟨fun old hold heq => ?_, validatePredecessors_eq_ok hfacts, hrepairs, rfl, ?_, hclash, ?_⟩
    · have hno := hclash old hold
      unfold ProductClaim.clash at hno
      simp only [Bool.or_eq_false_iff, beq_eq_false_iff_ne] at hno
      exact hno.1.1.1.1 heq.symm
    · intro row
      show row ∈ predecessors ↔ _
      rw [hrows, List.mem_append, List.mem_mapIdx]
      refine or_congr_right ⟨?_, ?_⟩
      · rintro ⟨ordinal, hlt, rfl⟩
        exact ⟨rfl, List.getElem?_eq_getElem hlt⟩
      · rintro ⟨hid, hrow⟩
        obtain ⟨hlt, hfact⟩ := List.getElem?_eq_some_iff.mp hrow
        refine ⟨row.ordinal, hlt, ?_⟩
        rw [hfact, ← hid]
    · intro row hrow
      have hrow : row ∈ evidence := hrow
      rw [hbindings, List.mem_append, List.mem_mapIdx] at hrow
      refine hrow.imp_right ?_
      rintro ⟨ordinal, -, rfl⟩
      rfl

/-! ## What a verdict does -/

variable {receipt : KernelVerdictReceipt}

theorem recordKernelVerdict_spec (h : recordKernelVerdict s receipt now = .ok (record, s')) :
    ∃ claim, s.claims.find? (·.claimId == receipt.claimId) = some claim ∧
      claim.lifecycle = .pendingVerification ∧
      s'.claims = updateWhere (·.claimId == receipt.claimId) (decided receipt now) s.claims ∧
      s'.predecessors = s.predecessors ∧ s'.evidence = s.evidence ∧
      ∀ other ∈ s.claims, other.claimId ≠ claim.claimId →
        (decided receipt now claim).clash other = false := by
  obtain ⟨claim, hget, h⟩ := bind_eq_ok.mp h
  obtain ⟨_, hbound, h⟩ := bind_eq_ok.mp h
  obtain ⟨_, -, h⟩ := bind_eq_ok.mp h
  obtain ⟨_, -, h⟩ := bind_eq_ok.mp h
  obtain ⟨_, hfits, h⟩ := bind_eq_ok.mp h
  obtain ⟨_, -, h⟩ := bind_eq_ok.mp h
  cases pure_eq_ok.mp h
  obtain ⟨row, hrow, rfl⟩ := get_eq_ok.mp hget
  have hpasses := rejectIf_eq_ok.mp hbound
  simp only [Bool.or_eq_false_iff, bne_eq_false_iff_eq] at hpasses
  refine ⟨row, hrow, hpasses.1.1.1.2, rfl, rfl, rfl, fun other hother hne => ?_⟩
  have hapart := List.any_eq_false.mp (Bool.or_eq_false_iff.mp (rejectIf_eq_ok.mp hfits)).2
  have hclash := hapart other hother
  rw [Bool.and_eq_true, not_and, bne_iff_ne, Bool.not_eq_true] at hclash
  exact hclash hne

/-! ## The invariant -/

/-- What holds of the claims in every state that is reached. -/
structure Lineage (s : ClaimLedger) : Prop where
  ids : (s.claims.map ProductClaim.claimId).Nodup
  facts : ∀ claimId factId, RestsOn s claimId factId →
    ∃ claim ∈ s.claims, ∃ fact ∈ s.claims, claim.claimId = claimId ∧ fact.claimId = factId ∧
      SameScope claim fact ∧ Verified fact ∧ place s factId < place s claimId
  supersedes : ∀ new ∈ s.claims, ∀ oldId, new.supersedesClaimId = some oldId →
    ∃ old ∈ s.claims, old.claimId = oldId ∧ old.supersededByClaimId = some new.claimId
  superseded : ∀ old ∈ s.claims, ∀ newId, old.supersededByClaimId = some newId →
    old.lifecycle = .rejected ∧
      ∃ new ∈ s.claims, new.claimId = newId ∧ new.supersedesClaimId = some old.claimId ∧
        place s old.claimId < place s newId

/-- A row that an update leaves as it is, up to what supersedes it. -/
structure SameClaim (a b : ProductClaim) : Prop where
  claimId : b.claimId = a.claimId
  runId : b.runId = a.runId
  version : b.contractVersion = a.contractVersion
  supersedes : b.supersedesClaimId = a.supersedesClaimId
  decided : a.lifecycle ≠ .pendingVerification →
    b.lifecycle = a.lifecycle ∧ b.authorityClass = a.authorityClass

theorem SameClaim.refl (a : ProductClaim) : SameClaim a a := ⟨rfl, rfl, rfl, rfl, fun _ => ⟨rfl, rfl⟩⟩

/-- A fact stays verified. -/
theorem SameClaim.keeps_verified {a b : ProductClaim} (h : SameClaim a b) (ha : Verified a) :
    Verified b := by
  have hdecided := h.decided (by rw [ha.accepted]; exact nofun)
  exact ⟨hdecided.1.trans ha.accepted, hdecided.2.trans ha.verified⟩

/-- The places of old claims stay when a claim is added. -/
theorem place_of_mem {more : List Id}
    (hids : s'.claims.map ProductClaim.claimId = s.claims.map ProductClaim.claimId ++ more)
    {claim : ProductClaim} (h : claim ∈ s.claims) :
    place s' claim.claimId = place s claim.claimId := by
  unfold place
  rw [hids, List.idxOf_append_of_mem (List.mem_map_of_mem h)]

/-- The claims a claim rests on are the same after an update that adds none. -/
theorem Lineage.facts_kept (hs : Lineage s) {more : List Id}
    (hids : s'.claims.map ProductClaim.claimId = s.claims.map ProductClaim.claimId ++ more)
    (hkept : Kept SameClaim s.claims s'.claims) {factId : Id} (h : RestsOn s claimId factId) :
    ∃ claim ∈ s'.claims, ∃ fact ∈ s'.claims, claim.claimId = claimId ∧ fact.claimId = factId ∧
      SameScope claim fact ∧ Verified fact ∧ place s' factId < place s' claimId := by
  obtain ⟨claim, hclaim, fact, hfact, rfl, rfl, hscope, hverified, hplace⟩ := hs.facts _ _ h
  obtain ⟨claim', hclaim', hsame⟩ := hkept claim hclaim
  obtain ⟨fact', hfact', hsame'⟩ := hkept fact hfact
  refine ⟨claim', hclaim', fact', hfact', hsame.claimId, hsame'.claimId, ⟨?_, ?_⟩,
    hsame'.keeps_verified hverified, ?_⟩
  · rw [hsame.runId, hsame'.runId, hscope.run]
  · rw [hsame.version, hsame'.version, hscope.version]
  · rw [place_of_mem hids hclaim, place_of_mem hids hfact]
    exact hplace

/-- A verdict keeps the lineage. -/
theorem Lineage.verdict (hs : Lineage s)
    (h : recordKernelVerdict s receipt now = .ok (record, s')) : Lineage s' := by
  obtain ⟨claim, hclaim, hpending, hclaims, hpredecessors, -⟩ := recordKernelVerdict_spec h
  have honly : ∀ row ∈ s.claims, (row.claimId == receipt.claimId) = true →
      row.lifecycle = .pendingVerification := by
    intro row hrow heq
    have hfound := find?_of_nodup hs.ids hrow
    rw [beq_iff_eq.mp heq, hclaim] at hfound
    cases hfound
    exact hpending
  have hids : s'.claims.map ProductClaim.claimId = s.claims.map ProductClaim.claimId ++ [] := by
    rw [List.append_nil, hclaims]
    refine map_updateWhere ?_ _
    intro row
    rfl
  have hrows : ∀ row ∈ s.claims, SameClaim row
      (if row.claimId == receipt.claimId then decided receipt now row else row) := by
    intro row hrow
    split
    next htest =>
      exact ⟨rfl, rfl, rfl, rfl, fun hdecided => (hdecided (honly row hrow htest)).elim⟩
    next => exact SameClaim.refl row
  have hmem : ∀ row ∈ s.claims,
      (if row.claimId == receipt.claimId then decided receipt now row else row) ∈ s'.claims := by
    intro row hrow
    rw [hclaims]
    exact mem_updateWhere.mpr ⟨row, hrow, rfl⟩
  have hkept : Kept SameClaim s.claims s'.claims := fun row hrow =>
    ⟨_, hmem row hrow, hrows row hrow⟩
  have hback : ∀ row : ProductClaim, (if row.claimId == receipt.claimId then decided receipt now row
      else row).supersededByClaimId = row.supersededByClaimId := by
    intro row
    split <;> rfl
  refine ⟨?_, ?_, ?_, ?_⟩
  · rw [hids, List.append_nil]
    exact hs.ids
  · rintro claimId factId ⟨row, hrow, hboth⟩
    rw [hpredecessors] at hrow
    exact hs.facts_kept hids hkept ⟨row, hrow, hboth⟩
  · intro new hnew oldId hsupersedes
    rw [hclaims] at hnew
    obtain ⟨row, hrow, rfl⟩ := mem_updateWhere.mp hnew
    rw [(hrows row hrow).supersedes] at hsupersedes
    obtain ⟨old, hold, hid, hby⟩ := hs.supersedes row hrow oldId hsupersedes
    refine ⟨_, hmem old hold, ?_, ?_⟩
    · rw [(hrows old hold).claimId]
      exact hid
    · rw [hback, hby, (hrows row hrow).claimId]
  · intro old hold newId hby
    rw [hclaims] at hold
    obtain ⟨row, hrow, rfl⟩ := mem_updateWhere.mp hold
    have hsame := hrows row hrow
    rw [hback] at hby
    obtain ⟨hrejected, new, hnew, rfl, hsupersedes, hplace⟩ := hs.superseded row hrow newId hby
    have hdecided := hsame.decided (by rw [hrejected]; exact nofun)
    refine ⟨hdecided.1.trans hrejected, _, hmem new hnew, (hrows new hnew).claimId, ?_, ?_⟩
    · rw [(hrows new hnew).supersedes, hsame.claimId, hsupersedes]
    · rw [hsame.claimId, place_of_mem hids hrow, place_of_mem hids hnew]
      exact hplace

/-- A submission keeps the lineage. -/
theorem lineage_submitted (hs : Lineage s) (h : Submitted P s submission subjectId claimId now s') :
    Lineage s' := by
  set new := newClaim P submission subjectId claimId now with hnew
  set update := fun row => if marks submission.supersedesClaimId row then superseded claimId now row
    else row with hupdate
  have hsame : ∀ row, SameClaim row (update row) := by
    intro row
    rw [hupdate]
    show SameClaim row (if marks submission.supersedesClaimId row then superseded claimId now row
      else row)
    split
    · exact ⟨rfl, rfl, rfl, rfl, fun _ => ⟨rfl, rfl⟩⟩
    · exact SameClaim.refl row
  have hmem : ∀ row ∈ s.claims ++ [new], update row ∈ s'.claims := by
    intro row hrow
    rw [h.claims]
    exact mem_updateWhere.mpr ⟨row, hrow, rfl⟩
  have hmem_new : update new ∈ s'.claims :=
    hmem new (List.mem_append_right _ (List.mem_singleton_self _))
  have hkept : Kept SameClaim s.claims s'.claims := fun row hrow =>
    ⟨_, hmem row (List.mem_append_left _ hrow), hsame row⟩
  have hids : s'.claims.map ProductClaim.claimId = s.claims.map ProductClaim.claimId ++ [claimId] := by
    have hsplit : (s.claims ++ [new]).map ProductClaim.claimId =
        s.claims.map ProductClaim.claimId ++ [claimId] := List.map_append
    rw [h.claims, ← hsplit]
    refine map_updateWhere ?_ _
    intro row
    rfl
  have hfresh : claimId ∉ s.claims.map ProductClaim.claimId := by
    intro hin
    obtain ⟨old, hold, heq⟩ := List.mem_map.mp hin
    exact h.fresh old hold heq
  -- the new claim comes after all others
  have hplace : ∀ row ∈ s.claims, place s' row.claimId < place s' claimId := by
    intro row hrow
    rw [place_of_mem hids hrow]
    unfold place
    rw [hids, List.idxOf_append_of_notMem hfresh, List.idxOf_cons_self, Nat.add_zero]
    exact List.idxOf_lt_length_of_mem (List.mem_map_of_mem hrow)
  have hpending : marks submission.supersedesClaimId new = false := by
    have hlifecycle : (new.lifecycle == ClaimLifecycle.rejected) = false := rfl
    unfold marks
    rw [hlifecycle, Bool.false_and, Bool.and_false]
  refine ⟨?_, ?_, ?_, ?_⟩
  · rw [hids]
    refine nodup_concat_of_fresh hs.ids fun old hold heq => ?_
    exact hfresh (heq ▸ hold)
  · rintro source factId ⟨row, hrow, rfl, rfl⟩
    rcases (h.predecessors row).mp hrow with hold | ⟨hid, hnamed⟩
    · exact hs.facts_kept hids hkept ⟨row, hold, rfl, rfl⟩
    · obtain ⟨fact, hfact, hfactId, hfacts⟩ := h.facts row.factId (List.mem_of_getElem? hnamed)
      refine ⟨_, hmem_new, _, hmem fact (List.mem_append_left _ hfact), ?_, ?_, ⟨?_, ?_⟩,
        (hsame fact).keeps_verified hfacts.verified, ?_⟩
      · exact (hsame new).claimId.trans hid.symm
      · exact (hsame fact).claimId.trans hfactId
      · exact (hsame fact).runId.trans (hfacts.run.trans (hsame new).runId.symm)
      · exact (hsame fact).version.trans (hfacts.version.trans (hsame new).version.symm)
      · rw [hid, ← hfactId]
        exact hplace fact hfact
  · intro later hlater oldId hsupersedes
    rw [h.claims] at hlater
    obtain ⟨row, hrow, rfl⟩ := mem_updateWhere.mp hlater
    rw [show (if marks submission.supersedesClaimId row = true then superseded claimId now row
      else row) = update row from rfl] at hsupersedes ⊢
    rw [(hsame row).supersedes] at hsupersedes
    rcases List.mem_append.mp hrow with hold | hlast
    · -- what superseded before is not superseded again
      obtain ⟨old, holdmem, hid, hby⟩ := hs.supersedes row hold oldId hsupersedes
      have hmarks : marks submission.supersedesClaimId old = false := by
        unfold marks
        rw [hby, Option.isNone_some, Bool.and_false, Bool.and_false]
      refine ⟨_, hmem old (List.mem_append_left _ holdmem), ?_, ?_⟩
      · rw [(hsame old).claimId, hid]
      · rw [show update old = old from if_neg (by rw [hmarks]; exact Bool.false_ne_true), hby,
          (hsame row).claimId]
    · rw [List.mem_singleton.mp hlast] at hsupersedes ⊢
      obtain ⟨old, hold, hid, hmarks⟩ := h.repairs oldId hsupersedes
      refine ⟨_, hmem old hold, ?_, ?_⟩
      · rw [(hsame old).claimId, hid]
      · rw [show update old = superseded claimId now old from if_pos hmarks, (hsame new).claimId]
        rfl
  · intro old hold newId hby
    rw [h.claims] at hold
    obtain ⟨row, hrow, rfl⟩ := mem_updateWhere.mp hold
    rw [show (if marks submission.supersedesClaimId row = true then superseded claimId now row
      else row) = update row from rfl] at hby ⊢
    by_cases hmarks : marks submission.supersedesClaimId row = true
    · rw [show update row = superseded claimId now row from if_pos hmarks] at hby ⊢
      cases hby
      obtain ⟨hsupersedes, hstate⟩ := Bool.and_eq_true_iff.mp hmarks
      obtain ⟨hrejected, -⟩ := Bool.and_eq_true_iff.mp hstate
      have hin : row ∈ s.claims := by
        rcases List.mem_append.mp hrow with hin | hlast
        · exact hin
        · rw [List.mem_singleton.mp hlast, hpending] at hmarks
          cases hmarks
      refine ⟨beq_iff_eq.mp hrejected, _, hmem_new, (hsame new).claimId, ?_, hplace row hin⟩
      rw [(hsame new).supersedes]
      exact beq_iff_eq.mp hsupersedes
    · rw [show update row = row from if_neg hmarks] at hby ⊢
      have hin : row ∈ s.claims := by
        rcases List.mem_append.mp hrow with hin | hlast
        · exact hin
        · rw [List.mem_singleton.mp hlast] at hby
          cases hby
      obtain ⟨hrejected, other, hother, rfl, hsupersedes, hless⟩ := hs.superseded row hin newId hby
      refine ⟨hrejected, _, hmem other (List.mem_append_left _ hother), (hsame other).claimId, ?_, ?_⟩
      · rw [(hsame other).supersedes, hsupersedes]
      · rw [place_of_mem hids hin, place_of_mem hids hother]
        exact hless

theorem checkedSubmit_eq_ok
    (h : checkedSubmit P s submission subjectId claimId now = .ok (record, s')) :
    submit P s submission subjectId claimId now = .ok (record, s') := by
  obtain ⟨_, -, h⟩ := bind_eq_ok.mp h
  exact h

/-- Every operation keeps the lineage. -/
theorem lineage_step (P : Platform) (hs : Lineage s) (op : ClaimOp) :
    Lineage (step P s op) := by
  cases op with
  | submit submission subjectId claimId now =>
    show Lineage (((checkedSubmit P s submission subjectId claimId now).map
      Prod.snd).toOption.getD s)
    cases h : checkedSubmit P s submission subjectId claimId now with
    | error error => exact hs
    | ok result =>
      rcases submit_spec (checkedSubmit_eq_ok h) with heq | hsubmitted
      · show Lineage result.2
        rw [heq]
        exact hs
      · exact lineage_submitted hs hsubmitted
  | verdict receipt now =>
    show Lineage (((recordKernelVerdict s receipt now).map Prod.snd).toOption.getD s)
    cases h : recordKernelVerdict s receipt now with
    | error error => exact hs
    | ok result => exact hs.verdict h

/-- The lineage holds in every state that is reached. -/
theorem lineage_reached (P : Platform) (history : List ClaimOp) : Lineage (reached P history) := by
  refine @runFrom_invariant _ _ (step P) Lineage _ ?_ (fun s op hs => lineage_step P hs op) history
  refine ⟨List.nodup_nil, ?_, (fun _ hrow => nomatch hrow), (fun _ hrow => nomatch hrow)⟩
  rintro claimId factId ⟨row, hrow, -⟩
  cases hrow

end ResearchKernel.Product.Claims
