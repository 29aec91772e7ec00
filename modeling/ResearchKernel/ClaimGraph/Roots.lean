import ResearchKernel.ClaimGraph.Scoping

/-!
# The roots of the active graph

A root is registered unless an active root already states the contract. The guard compares
statements by their hash and by their artifact. Files have content of their own, so two
claims with one hash have one artifact, and at most one active root of a run has a hash.
-/

namespace ResearchKernel

open Foundation

/-! ## Files and statements -/

/-- No two files have the same content. -/
def Ledger.UniqueFiles (ledger : Ledger) : Prop := (ledger.artifacts.map (·.sha256)).Nodup

/-- Every move keeps the content of files distinct. -/
theorem uniqueFiles_move {ledger ledger' : Ledger} (hmove : Ledger.Move ledger ledger')
    (h : ledger.UniqueFiles) : ledger'.UniqueFiles := by
  cases hmove with
  | stored row fresh =>
    unfold Ledger.UniqueFiles
    rw [List.map_append]
    refine nodup_concat_of_fresh h fun digest hdigest hsame => ?_
    obtain ⟨old, hold, rfl⟩ := List.mem_map.mp hdigest
    have hclash := fresh old hold
    simp [Artifact.clash, hsame] at hclash
  | _ => exact h

/-- Files are never removed. -/
theorem artifacts_move {ledger ledger' : Ledger} (hmove : Ledger.Move ledger ledger')
    {artifact : Artifact} (h : artifact ∈ ledger.artifacts) : artifact ∈ ledger'.artifacts := by
  cases hmove with
  | stored row fresh => exact List.mem_append_left _ h
  | _ => exact h

/-- The statement of a claim is a stored file. -/
def Db.StatesFile (db : Db) (claim : Claim) : Prop :=
  ∃ artifact ∈ db.artifacts,
    artifact.artifactId = claim.statementArtifactId ∧ artifact.sha256 = claim.statementHash

section Files

variable {P : Platform} {policy : Policy} {db db' : Db} {op : ApplyOp}

variable {artifact : Artifact}

/-- Stored files stay where they are. -/
theorem artifacts_step (op : Op) (h : artifact ∈ db.artifacts) :
    artifact ∈ (step P policy db op).artifacts :=
  (moves_step P policy db op).preserves (I := fun ledger => artifact ∈ ledger.artifacts)
    (fun _ _ hmove => artifacts_move hmove) h

variable {context : GuardContext} {mutations : List Mutation}

theorem file_of_registerClaim {p : RegisterClaim}
    (h : Guard.handleRegisterClaim context p = .ok mutations) :
    ∃ artifact ∈ context.snapshot.artifacts,
      artifact.artifactId = p.statementArtifactId ∧ artifact.sha256 = p.statementHash := by
  obtain ⟨⟨⟩, -, h⟩ := bind_eq_ok.mp h
  obtain ⟨contract, -, h⟩ := bind_eq_ok.mp h
  obtain ⟨⟨⟩, -, h⟩ := bind_eq_ok.mp h
  obtain ⟨⟨⟩, hchecked, -⟩ := bind_eq_ok.mp h
  simp only [rejectIf_eq_ok, Bool.or_eq_false_iff, Bool.not_eq_false', Option.any_eq_true,
    beq_iff_eq] at hchecked
  obtain ⟨artifact, hfound, hhash⟩ := hchecked.1.1.2
  obtain ⟨hmem, hid⟩ := mem_of_lookup_records hfound
  exact ⟨artifact, hmem, hid, hhash⟩

/-- The files of the snapshot are files of the database. -/
theorem Acceptance.mem_artifacts (acceptance : Acceptance P policy db op db')
    (h : artifact ∈ acceptance.snapshot.artifacts) :
    artifact ∈ db.artifacts := by
  obtain ⟨run, -, hsnapshot⟩ := Option.bind_eq_some_iff.mp acceptance.snapshot_eq
  rw [← Option.some.inj hsnapshot] at h
  obtain ⟨link, -, hfound⟩ := List.mem_filterMap.mp h
  have hmem := List.mem_of_find?_eq_some hfound
  obtain ⟨rows, hstart⟩ := ensureCapability_eq _ _ acceptance.ensured
  rw [hstart] at hmem
  exact hmem

/-- No active root of the run has the hash and the file of a registered root. -/
theorem no_root_of_registerRoot {p : RegisterClaim}
    (h : Guard.handleRegisterClaim context p = .ok mutations) (hroot : p.claimKind = .root) :
    ∀ claim ∈ context.snapshot.claims, claim.claimKind = .root →
      claim.lifecycleStatus = .active → claim.statementHash = p.statementHash →
      claim.statementArtifactId ≠ p.statementArtifactId := by
  obtain ⟨⟨⟩, -, h⟩ := bind_eq_ok.mp h
  obtain ⟨contract, -, h⟩ := bind_eq_ok.mp h
  obtain ⟨⟨⟩, -, h⟩ := bind_eq_ok.mp h
  obtain ⟨⟨⟩, hmatches, -⟩ := bind_eq_ok.mp h
  simp only [rejectIf_eq_ok, Bool.or_eq_false_iff, hroot, beq_self_eq_true, Bool.true_and,
    Bool.not_eq_false', Guard.rootMatchesContract, Bool.and_eq_true, beq_iff_eq,
    Bool.not_eq_true'] at hmatches
  obtain ⟨⟨⟨hnone, -⟩, hhash⟩, hfile⟩ := hmatches.1.2
  intro claim hclaim hkind hactive hsame hsameFile
  have htest := List.any_eq_false.mp hnone claim hclaim
  simp [hkind, hactive, hsame, hsameFile, hhash, hfile] at htest

/-- A claim that an accepted request registers. -/
structure Acceptance.Registers (acceptance : Acceptance P policy db op db') (claim : Claim) :
    Prop where
  exists_payload : ∃ p, Guard.handleRegisterClaim (op.guardContext P policy acceptance.snapshot) p =
      .ok acceptance.mutations ∧ claim.claimKind = p.claimKind ∧
    claim.statementHash = p.statementHash ∧ claim.statementArtifactId = p.statementArtifactId
  claimId : claim.claimId = op.newId 0
  runId : claim.runId = op.request.runId

/-- A claim after a request was there before it, or is registered by it. -/
theorem Acceptance.exists_claim (acceptance : Acceptance P policy db op db') {claim' : Claim}
    (hclaim' : claim' ∈ db'.claims) :
    (∃ claim ∈ db.claims, claim.SameStatement claim' ∧
      claim'.statementArtifactId = claim.statementArtifactId ∧
      (claim'.lifecycleStatus = .active → claim.lifecycleStatus = .active)) ∨
    acceptance.Registers claim' := by
  obtain ⟨accepted, hsnapshot, hmutations, -⟩ := acceptance.exists_accepted
  refine accepted.preserves (I := fun records => ∀ claim' ∈ records.claims,
    (∃ claim ∈ db.claims, claim.SameStatement claim' ∧
      claim'.statementArtifactId = claim.statementArtifactId ∧
      (claim'.lifecycleStatus = .active → claim.lifecycleStatus = .active)) ∨
    acceptance.Registers claim') ?_ ?_ claim' hclaim'
  · exact fun claim hclaim => Or.inl ⟨claim, hclaim, Claim.SameStatement.refl claim, rfl, id⟩
  · intro m before after happlies hbefore claim'' hclaim''
    rcases Projection.exists_claim_of_apply happlies.applied hclaim'' with
      ⟨claim, hclaim, hchange⟩ | hnew
    · have hsame := hchange.sameStatement
      rcases hbefore claim hclaim with ⟨old, hold, hstatement, hfile, hactive⟩ | hregisters
      · exact Or.inl ⟨old, hold, hstatement.trans hsame,
          hchange.statementArtifactId.trans hfile, fun h => hactive (hchange.active_before h)⟩
      · obtain ⟨⟨p, hhandle, hkind, hhash, hfile⟩, hid, hrun⟩ := hregisters
        refine Or.inr ⟨⟨p, hhandle, hsame.claimKind.trans hkind, hsame.statementHash.trans hhash,
          hchange.statementArtifactId.trans hfile⟩, hsame.claimId.trans hid, hsame.runId.trans hrun⟩
    · cases m with
      | registerClaim p closure =>
        obtain rfl := List.mem_singleton.mp hnew
        obtain ⟨-, -, hhandle⟩ := happlies.emitted
        have hcontext : accepted.context = op.guardContext P policy acceptance.snapshot := by
          rw [← hsnapshot]
          rfl
        rw [hcontext, hmutations] at hhandle
        exact Or.inr ⟨⟨p, hhandle, rfl, rfl, rfl⟩, rfl, rfl⟩
      | _ => cases hnew

/-- The statements of all claims are stored files. -/
def Db.StatesFiles (db : Db) : Prop := ∀ claim ∈ db.claims, db.StatesFile claim

theorem Db.StatesFile.of_same {claim claim' : Claim} (h : db.StatesFile claim)
    (hkept : ∀ artifact ∈ db.artifacts, artifact ∈ db'.artifacts)
    (hfile : claim'.statementArtifactId = claim.statementArtifactId)
    (hhash : claim'.statementHash = claim.statementHash) : db'.StatesFile claim' := by
  obtain ⟨artifact, hmem, hid, hsha⟩ := h
  exact ⟨artifact, hkept artifact hmem, hid.trans hfile.symm, hsha.trans hhash.symm⟩

theorem Claim.HostChange.statementArtifactId {a b : Claim} (h : a.HostChange b) :
    b.statementArtifactId = a.statementArtifactId := by
  rw [h.eq]

/-- Every operation keeps the statements of claims in stored files. -/
theorem statesFiles_step (op : Op) (h : db.StatesFiles) : (step P policy db op).StatesFiles := by
  have hkept : ∀ artifact ∈ db.artifacts, artifact ∈ (step P policy db op).artifacts :=
    fun artifact => artifacts_step op
  intro claim' hclaim'
  rcases @step_cases P policy db op with frame | ⟨op, rfl, haccepts, -⟩
  · obtain ⟨claim, hclaim, hchange⟩ := frame.exists_claim hclaim'
    exact (h claim hclaim).of_same hkept hchange.statementArtifactId
      hchange.sameStatement.statementHash
  · obtain ⟨acceptance⟩ := acceptance_of_accepts haccepts
    rcases acceptance.exists_claim hclaim' with ⟨claim, hclaim, hsame, hfile, -⟩ | hregisters
    · exact (h claim hclaim).of_same hkept hfile hsame.statementHash
    · obtain ⟨p, hhandle, -, hhash, hfile⟩ := hregisters.exists_payload
      obtain ⟨artifact, hmem, hid, hsha⟩ := file_of_registerClaim hhandle
      exact ⟨artifact, hkept artifact (acceptance.mem_artifacts hmem), hid.trans hfile.symm,
        hsha.trans hhash.symm⟩

end Files

/-! ## Roots -/

/-- At most one active root of a run has a given hash. -/
def Db.UniqueRoots (db : Db) : Prop :=
  ∀ a ∈ db.claims, ∀ b ∈ db.claims, a.runId = b.runId → a.claimKind = .root →
    b.claimKind = .root → a.statementHash = b.statementHash → a.lifecycleStatus = .active →
    b.lifecycleStatus = .active → a = b

section Roots

variable {P : Platform} {policy : Policy} {db db' : Db} {op : ApplyOp}

/-- A registered root has a hash that no active root of the run has. -/
theorem Acceptance.Registers.ne_hash {acceptance : Acceptance P policy db op db'} {new : Claim}
    (h : acceptance.Registers new) (hfiles : db.ledger.UniqueFiles) (hstates : db.StatesFiles)
    (hroot : new.claimKind = .root) {claim : Claim} (hclaim : claim ∈ db.claims)
    (hrun : claim.runId = new.runId) (hkind : claim.claimKind = .root)
    (hactive : claim.lifecycleStatus = .active) : claim.statementHash ≠ new.statementHash := by
  intro hsame
  obtain ⟨p, hhandle, hpayload, hhash, hfile⟩ := h.exists_payload
  obtain ⟨artifact, hmem, hid, hsha⟩ := hstates claim hclaim
  obtain ⟨stated, hstated, hstatedId, hstatedSha⟩ := file_of_registerClaim hhandle
  -- The two statements have one hash, so they are one file.
  have hone : artifact = stated := by
    refine List.inj_on_of_nodup_map hfiles hmem (acceptance.mem_artifacts hstated) ?_
    rw [hsha, hstatedSha, hsame, hhash]
  obtain ⟨accepted, hsnapshot, -⟩ := acceptance.exists_accepted
  refine no_root_of_registerRoot hhandle (hpayload.symm.trans hroot) claim ?_ hkind hactive
    (hsame.trans hhash) ?_
  · change claim ∈ acceptance.snapshot.claims
    rw [← hsnapshot, accepted.claims_eq]
    exact List.mem_filter.mpr ⟨hclaim, beq_iff_eq.mpr (hrun.trans h.runId)⟩
  · rw [← hid, hone, hstatedId]

/-- Every operation keeps active roots with one hash unique. -/
theorem uniqueRoots_step (op : Op) (hunique : (step P policy db op).records.UniqueClaims)
    (hfiles : db.ledger.UniqueFiles) (hstates : db.StatesFiles) (h : db.UniqueRoots) :
    (step P policy db op).UniqueRoots := by
  intro a' ha' b' hb' hrun hkindA hkindB hhash hactiveA hactiveB
  rcases @step_cases P policy db op with frame | ⟨op, rfl, haccepts, -⟩
  · obtain ⟨a, ha, hchangeA⟩ := frame.exists_claim ha'
    obtain ⟨b, hb, hchangeB⟩ := frame.exists_claim hb'
    rw [hchangeA.eq] at hrun hkindA hhash hactiveA
    rw [hchangeB.eq] at hrun hkindB hhash hactiveB
    have hsame : a = b := h a ha b hb hrun hkindA hkindB hhash hactiveA hactiveB
    refine hunique.eq ha' hb' ?_
    rw [hchangeA.sameStatement.claimId, hchangeB.sameStatement.claimId, hsame]
  · obtain ⟨acceptance⟩ := acceptance_of_accepts haccepts
    rcases acceptance.exists_claim ha' with ⟨a, ha, hsameA, -, hbeforeA⟩ | hnewA
    · rcases acceptance.exists_claim hb' with ⟨b, hb, hsameB, -, hbeforeB⟩ | hnewB
      · have hsame : a = b := by
          refine h a ha b hb ?_ (hsameA.claimKind.symm.trans hkindA)
            (hsameB.claimKind.symm.trans hkindB) ?_ (hbeforeA hactiveA) (hbeforeB hactiveB)
          · rw [← hsameA.runId, ← hsameB.runId, hrun]
          · rw [← hsameA.statementHash, ← hsameB.statementHash, hhash]
        refine hunique.eq ha' hb' ?_
        rw [hsameA.claimId, hsameB.claimId, hsame]
      · refine absurd ?_ (hnewB.ne_hash hfiles hstates hkindB ha ?_
          (hsameA.claimKind.symm.trans hkindA) (hbeforeA hactiveA))
        · rw [← hsameA.statementHash, hhash]
        · rw [← hsameA.runId, hrun]
    · rcases acceptance.exists_claim hb' with ⟨b, hb, hsameB, -, hbeforeB⟩ | hnewB
      · refine absurd ?_ (hnewA.ne_hash hfiles hstates hkindA hb ?_
          (hsameB.claimKind.symm.trans hkindB) (hbeforeB hactiveB))
        · rw [← hsameB.statementHash, hhash]
        · rw [← hsameB.runId, hrun]
      · exact hunique.eq ha' hb' (hnewA.claimId.trans hnewB.claimId.symm)

end Roots

/-- Active roots with one hash are unique in every reached database. -/
theorem uniqueRoots_reached (P : Platform) (policy : Policy) (ops : List Op) :
    (reached P policy ops).UniqueRoots := by
  have hrun := @runFrom_invariant Db Op (step P policy)
    (fun db => db.records.UniqueClaims ∧ db.ledger.UniqueFiles ∧ db.StatesFiles ∧ db.UniqueRoots)
    Db.empty ⟨List.nodup_nil, List.nodup_nil, List.forall_mem_nil _, List.forall_mem_nil _⟩ ?_ ops
  · exact hrun.2.2.2
  · rintro db op ⟨hunique, hfiles, hstates, hroots⟩
    have hunique' := @uniqueClaims_step P policy db op hunique
    exact ⟨hunique', (moves_step P policy db op).preserves (fun _ _ => uniqueFiles_move) hfiles,
      statesFiles_step op hstates, uniqueRoots_step op hunique' hfiles hstates hroots⟩

/-! ## The active graph of a run -/

/-- Active claims and edges of a run belong to its current contract version, active edges
join active claims of the run, and labels and the root are unique. -/
structure Db.ActiveGraphScoped (db : Db) (run : Run) : Prop where
  claims : ∀ claim ∈ db.claims, claim.runId = run.runId → claim.lifecycleStatus = .active →
    claim.contractVersion = run.currentContractVersion
  edges : ∀ edge ∈ db.claimEdges, edge.runId = run.runId → edge.status = .active →
    edge.contractVersion = run.currentContractVersion
  ends : ∀ edge ∈ db.claimEdges, edge.runId = run.runId → edge.status = .active →
    ∀ id, id = edge.fromClaimId ∨ id = edge.toClaimId → ∃ claim ∈ db.claims,
      claim.claimId = id ∧ claim.runId = run.runId ∧ claim.lifecycleStatus = .active
  labels : ∀ a ∈ db.claims, ∀ b ∈ db.claims, a.runId = run.runId → b.runId = run.runId →
    a.lifecycleStatus = .active → b.lifecycleStatus = .active →
    a.stableLabel = b.stableLabel → a = b
  roots : ∀ contract, db.currentContract? run = some contract →
    ∀ a ∈ db.claims, ∀ b ∈ db.claims, a.runId = run.runId → b.runId = run.runId →
    a.lifecycleStatus = .active → b.lifecycleStatus = .active → a.claimKind = .root →
    b.claimKind = .root → a.statementHash = contract.statementHash →
    b.statementHash = contract.statementHash → a = b

/-- In every reached database the active graph of every run is scoped. -/
theorem active_graph_scoped_of_reached (P : Platform) (policy : Policy) (ops : List Op) (run : Run)
    (hrun : run ∈ (reached P policy ops).runs) :
    (reached P policy ops).ActiveGraphScoped run := by
  obtain ⟨hroot, -, hactive⟩ := activeScoped_reached P policy ops
  have hpointer : run.pointer ∈ (reached P policy ops).records.pointers :=
    List.mem_map_of_mem hrun
  refine ⟨?_, ?_, ?_, ?_, ?_⟩
  · exact fun claim hclaim => hactive.claims run.pointer hpointer claim hclaim
  · intro edge hedge hrunId hstatus
    obtain ⟨claim, hclaim, hid, hclaimRun⟩ := hroot.edges.1 edge hedge _ (Or.inl rfl)
    have hends := hactive.ends edge hedge hstatus claim hclaim (Or.inl hid)
    rw [← hends.2]
    exact hactive.claims run.pointer hpointer claim hclaim (hclaimRun.trans hrunId) hends.1
  · intro edge hedge hrunId hstatus id hend
    obtain ⟨claim, hclaim, hid, hclaimRun⟩ := hroot.edges.1 edge hedge id hend
    refine ⟨claim, hclaim, hid, hclaimRun.trans hrunId, ?_⟩
    exact (hactive.ends edge hedge hstatus claim hclaim (by rwa [hid])).1
  · intro a ha b hb hrunA hrunB hactiveA hactiveB hlabel
    exact hactive.labels a ha b hb (hrunA.trans hrunB.symm) hlabel hactiveA hactiveB
  · intro contract _ a ha b hb hrunA hrunB hactiveA hactiveB hkindA hkindB hhashA hhashB
    exact uniqueRoots_reached P policy ops a ha b hb (hrunA.trans hrunB.symm) hkindA hkindB
      (hhashA.trans hhashB.symm) hactiveA hactiveB

theorem run_of_accepts {P : Platform} {policy : Policy} {db : Db} {op : ApplyOp}
    (h : op.Accepts P policy db) : ∃ run ∈ db.runs, run.runId = op.request.runId := by
  obtain ⟨accepted⟩ := accepted_of_accepts h
  obtain ⟨run, hrun, hpointer⟩ := List.mem_map.mp accepted.pointer_mem
  exact ⟨run, hrun, congrArg RunPointer.runId hpointer⟩

/-- The active graph of the sample run is scoped. -/
theorem active_graph_scoped_of_known :
    ∃ run ∈ (reached Sample.platform Sample.policy Sample.known).runs,
      (reached Sample.platform Sample.policy Sample.known).ActiveGraphScoped run := by
  obtain ⟨run, hrun, -⟩ := run_of_accepts Sample.outcomes.known_finalized
  exact ⟨run, hrun, active_graph_scoped_of_reached Sample.platform Sample.policy Sample.known run
    hrun⟩

end ResearchKernel
