import ResearchKernel.Authority.Machine
import ResearchKernel.Contracts.Filing

/-!
# Contracts that can be started

A run starts with the registration of a root that states its contract. The guard hashes
the statement under the composition rules and compares the digest with the one that was
taken when the contract was created, under the rules of the wire. The comparison succeeds
for the contracts on which the two agree.
-/

namespace ResearchKernel

open Foundation

/-- A request to register the root that states a contract. -/
structure RegisterClaim.States (p : RegisterClaim) (contract : ContractVersion) : Prop where
  claimKind : p.claimKind = .root
  normalizedStatement : p.normalizedStatement = contract.contract
  statementHash : p.statementHash = contract.statementHash
  statementArtifactId : p.statementArtifactId = contract.contractArtifactId

/-- The guard decides in the given state on a run with the given contract and without a
root that states it. -/
structure AwaitsRoot (P : Platform) (db : Db) (contract : ContractVersion)
    (context : GuardContext) : Prop where
  platform : context.platform = P
  snapshot : db.guardSnapshot contract.runId = some context.snapshot
  current : context.snapshot.contract? = some contract
  rootless : Guard.rootExists context contract = false

/-- The checks of the registration of a claim that concern the digest of its statement and
the contract of its run. -/
structure PassesChecks (context : GuardContext) (p : RegisterClaim) (contract : ContractVersion) :
    Prop where
  digest : Guard.statementDigest context p.normalizedStatement = p.statementHash
  artifact : (context.snapshot.artifact? p.statementArtifactId).any
    (·.sha256 == p.statementHash) = true
  root : Guard.rootMatchesContract context p contract = true

/-- The two canonical texts of a contract are the same, and its root passes the checks. -/
structure Startable (P : Platform) (db : Db) (contract : ContractVersion) : Prop where
  agree : ∃ text, Wire.canonicalJsonBytes P (.obj contract.contract) = some text ∧
    canonicalJsonBytes P (.obj contract.contract) = .ok text
  passes : ∀ context p, AwaitsRoot P db contract context → p.States contract →
    PassesChecks context p contract

section Starting

variable {P : Platform} {db : Db} {contract : ContractVersion}

/-- Keys that are distinct after their normalization are distinct. -/
theorem nodup_of_normalFields {fields normal : JsonObject}
    (h : List.Forall₂ (Wire.NormalField P) fields normal)
    (hnodup : (normal.map Prod.fst).Nodup) : (fields.map Prod.fst).Nodup := by
  have hkeys : normal.map Prod.fst = (fields.map Prod.fst).map P.nfc := by
    induction h with
    | nil => rfl
    | cons hfield _ ih =>
      rw [List.map_cons, List.map_cons, List.map_cons, hfield.1, ih (List.nodup_cons.mp hnodup).2]
  rw [hkeys] at hnodup
  exact List.Nodup.of_map _ hnodup

theorem eqvItems_self {items : List Json} (h : ∀ item ∈ items, item.eqv item = true) :
    Json.eqvItems items items = true := by
  induction items with
  | nil => rfl
  | cons item items ih =>
    rw [Json.eqvItems, h item (by simp), ih fun other hother => h other (by simp [hother])]
    rfl

theorem eqvFields_of_lookup {fields others : JsonObject}
    (h : ∀ field ∈ fields, others.lookup field.1 = some field.2 ∧ field.2.eqv field.2 = true) :
    Json.eqvFields fields others = true := by
  induction fields with
  | nil => rfl
  | cons field fields ih =>
    obtain ⟨key, value⟩ := field
    obtain ⟨hlookup, heqv⟩ := h (key, value) (by simp)
    rw [Json.eqvFields, Json.eqvField, ih fun other hother => h other (by simp [hother])]
    simp only [hlookup, heqv, Bool.and_self]

/-- A value that can be written to the wire equals itself. -/
theorem eqv_self {value w : Json} (h : Wire.normalize P value = some w) :
    value.eqv value = true := by
  induction value using Json.ind generalizing w with
  | arr items ih =>
    obtain ⟨ws, hws, -⟩ := Wire.normalize_arr.mp h
    rw [Json.eqv]
    refine eqvItems_self fun item hitem => ?_
    obtain ⟨w, -, hw⟩ := exists_of_forall₂ hws item hitem
    exact ih item hitem hw
  | obj fields ih =>
    obtain ⟨normal, hnormal, hnodup, -⟩ := Wire.normalize_obj.mp h
    have hkeys := nodup_of_normalFields hnormal hnodup
    rw [Json.eqv, beq_self_eq_true, Bool.true_and]
    refine eqvFields_of_lookup fun field hfield => ?_
    obtain ⟨member, -, -, hw⟩ := exists_of_forall₂ hnormal field hfield
    exact ⟨(mem_iff_lookup hkeys).mp hfield, ih field hfield hw⟩
  | null => rfl
  | bool | int | str => simp [Json.eqv]

/-- The artifact of a filed contract is found in the snapshot of its run. -/
theorem artifact?_of_filed (hunique : db.ledger.UniqueArtifacts) (hfiled : contract.Filed P db.ledger)
    {snapshot : Snapshot} (hsnapshot : db.guardSnapshot contract.runId = some snapshot) :
    ∃ artifact, snapshot.artifact? contract.contractArtifactId = some artifact ∧
      artifact.sha256 = contract.statementHash := by
  obtain ⟨artifact, hartifact, hid, hhash⟩ := hfiled.stored
  obtain ⟨link, hlink, hrun, hlinked⟩ := hfiled.linked
  obtain ⟨run, -, hsnapshot⟩ := Option.bind_eq_some_iff.mp hsnapshot
  cases Option.some.inj hsnapshot
  have hfound : ∀ {id : Id} {other : Artifact},
      db.artifacts.find? (·.artifactId == id) = some other →
        other ∈ db.artifacts ∧ other.artifactId = id := by
    intro id other hother
    exact ⟨List.mem_of_find?_eq_some hother, by simpa using List.find?_some hother⟩
  have hmem : artifact ∈ db.linkedArtifacts contract.runId := by
    refine List.mem_filterMap.mpr ⟨link, List.mem_filter.mpr ⟨hlink, by simpa using hrun⟩, ?_⟩
    rw [hlinked]
    cases hfind : db.artifacts.find? (·.artifactId == contract.contractArtifactId) with
    | none =>
      have hnone := List.find?_eq_none.mp hfind artifact hartifact
      simp [hid] at hnone
    | some other =>
      obtain ⟨hother, hotherId⟩ := hfound hfind
      rw [List.inj_on_of_nodup_map hunique hother hartifact (hotherId.trans hid.symm)]
  have hdistinct : ∀ a ∈ db.linkedArtifacts contract.runId,
      ∀ b ∈ db.linkedArtifacts contract.runId, a.artifactId = b.artifactId → a = b := by
    intro a ha b hb heq
    obtain ⟨_, -, ha⟩ := List.mem_filterMap.mp ha
    obtain ⟨_, -, hb⟩ := List.mem_filterMap.mp hb
    exact List.inj_on_of_nodup_map hunique (hfound ha).1 (hfound hb).1 heq
  refine ⟨artifact, ?_, hhash⟩
  rw [← hid]
  exact lookup_records hdistinct hmem

/-- The root of a filed contract in order passes the checks. -/
theorem passesChecks_of_inOrder (hunique : db.ledger.UniqueArtifacts)
    (hfiled : contract.Filed P db.ledger)
    (horder : inOrder P none (.obj contract.contract) = true) {context : GuardContext}
    {p : RegisterClaim} (hawaits : AwaitsRoot P db contract context) (hstates : p.States contract) :
    PassesChecks context p contract := by
  obtain ⟨text, hwire, hhash⟩ := hfiled.hashed
  obtain ⟨w, hw, rfl⟩ := Option.map_eq_some_iff.mp hwire
  obtain ⟨artifact, hartifact, hartifactHash⟩ :=
    artifact?_of_filed hunique hfiled hawaits.snapshot
  refine ⟨?_, ?_, ?_⟩
  · have hcomposed : canonicalJsonBytes P (.obj contract.contract) = .ok (dumps w) :=
      bind_eq_ok.mpr ⟨w, normalize_of_inOrder hw horder, rfl⟩
    unfold Guard.statementDigest
    rw [hawaits.platform, hstates.normalizedStatement, hcomposed, hstates.statementHash, hhash]
  · rw [hstates.statementArtifactId, hartifact, hstates.statementHash]
    simpa using hartifactHash
  · unfold Guard.rootMatchesContract
    rw [hawaits.rootless, hstates.normalizedStatement, hstates.statementHash,
      hstates.statementArtifactId, eqv_self hw]
    simp

theorem agree_iff_inOrder (hnfc : KeepsReturns P) (hfiled : contract.Filed P db.ledger) :
    (∃ text, Wire.canonicalJsonBytes P (.obj contract.contract) = some text ∧
      canonicalJsonBytes P (.obj contract.contract) = .ok text) ↔
      inOrder P none (.obj contract.contract) = true := by
  obtain ⟨text, hwire, -⟩ := hfiled.hashed
  rw [← canonicalJsonBytes_eq_iff hnfc hwire]
  constructor
  · rintro ⟨other, hother, hcomposed⟩
    rw [hwire] at hother
    cases Option.some.inj hother
    exact hcomposed
  · exact fun hcomposed => ⟨text, hwire, hcomposed⟩

end Starting

/-- In every reached database a contract can be started exactly when its keys have no
carriage returns and its collections and sets are in order. -/
theorem startable_iff (P : Platform) (hnfc : KeepsReturns P) (policy : Policy) (ops : List Op) :
    ∀ contract ∈ (reached P policy ops).contractVersions,
      (Startable P (reached P policy ops) contract ↔
        inOrder P none (.obj contract.contract) = true) := by
  intro contract hcontract
  have hfiled := filed_reached P policy ops contract hcontract
  have hunique := uniqueArtifacts_reached P policy ops
  constructor
  · exact fun h => (agree_iff_inOrder hnfc hfiled).mp h.agree
  · intro horder
    exact ⟨(agree_iff_inOrder hnfc hfiled).mpr horder,
      fun _ _ hawaits hstates => passesChecks_of_inOrder hunique hfiled horder hawaits hstates⟩

/-- The platform of the sample leaves texts as they are. -/
theorem Sample.keepsReturns : KeepsReturns Sample.platform := fun _ => Iff.rfl

/-- In the run of the sample the contract can be started. -/
theorem startable_of_frozen :
    ∃ contract ∈ (reached Sample.platform Sample.policy Sample.frozen).contractVersions,
      Startable Sample.platform (reached Sample.platform Sample.policy Sample.frozen) contract := by
  obtain ⟨contract, hcontract, horder⟩ := Sample.outcomes.contracts.frozen_inOrder
  have hiff := startable_iff Sample.platform Sample.keepsReturns Sample.policy Sample.frozen
    contract hcontract
  exact ⟨contract, hcontract, hiff.mpr horder⟩

theorem not_startable_of_disordered {P : Platform} (hnfc : KeepsReturns P) {db : Db}
    {contract : ContractVersion} (hfiled : contract.Filed P db.ledger)
    (h : inOrder P none (.obj contract.contract) = false) : ¬ Startable P db contract := by
  intro hstartable
  have horder := (agree_iff_inOrder hnfc hfiled).mp hstartable.agree
  rw [h] at horder
  cases horder

/-- A contract that names a case twice is created, and its root is refused. -/
theorem repetitive_contract_refused :
    (∃ contract ∈ (reached Sample.platform Sample.policy [Sample.createRepetitive]).contractVersions,
      ¬ Startable Sample.platform
        (reached Sample.platform Sample.policy [Sample.createRepetitive]) contract) ∧
      ¬ (Sample.request 0 Sample.registerRepetitive [Sample.root]).Accepts Sample.platform
        Sample.policy (reached Sample.platform Sample.policy [Sample.createRepetitive]) := by
  obtain ⟨contract, hcontract, horder⟩ := Sample.outcomes.contracts.repetitive_disordered
  have hfiled := filed_reached Sample.platform Sample.policy [Sample.createRepetitive] contract
    hcontract
  exact ⟨⟨contract, hcontract, not_startable_of_disordered Sample.keepsReturns hfiled horder⟩,
    Sample.outcomes.contracts.repetitive_refused⟩

end ResearchKernel
