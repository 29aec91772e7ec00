import ResearchKernel.Kernel.Ledger
import ResearchKernel.Kernel.Moves

/-!
# The files of contracts

A contract is stored as a file with its canonical text on the wire, and the digest of that
text is the hash of its statement. This holds of the first contract of a run and of every
one that replaces it, since no operation takes a file away or changes a contract.
-/

namespace ResearchKernel

open Foundation

/-- A contract is hashed as it stands on the wire, and its file is linked to its run. -/
structure ContractVersion.Filed (P : Platform) (ledger : Ledger) (contract : ContractVersion) :
    Prop where
  hashed : ∃ text, Wire.canonicalJsonBytes P (.obj contract.contract) = some text ∧
    contract.statementHash = P.sha256 text
  stored : ∃ artifact ∈ ledger.artifacts, artifact.artifactId = contract.contractArtifactId ∧
    artifact.sha256 = contract.statementHash
  linked : ∃ link ∈ ledger.runArtifacts, link.runId = contract.runId ∧
    link.artifactId = contract.contractArtifactId

/-- Two rows that state the same contract. -/
structure ContractVersion.SameFile (a b : ContractVersion) : Prop where
  runId : b.runId = a.runId
  contractArtifactId : b.contractArtifactId = a.contractArtifactId
  contract : b.contract = a.contract
  statementHash : b.statementHash = a.statementHash

/-- Artifacts have distinct identifiers. -/
def Ledger.UniqueArtifacts (ledger : Ledger) : Prop := (ledger.artifacts.map (·.artifactId)).Nodup

section Filing

variable {P : Platform} {policy : Policy} {db db' : Db}

namespace ContractVersion.Filed

variable {ledger ledger' : Ledger} {contract contract' : ContractVersion}

theorem congr (h : contract.Filed P ledger) (hsame : contract.SameFile contract') :
    contract'.Filed P ledger := by
  constructor
  · rw [hsame.contract, hsame.statementHash]
    exact h.hashed
  · rw [hsame.contractArtifactId, hsame.statementHash]
    exact h.stored
  · rw [hsame.runId, hsame.contractArtifactId]
    exact h.linked

/-- No move of the ledger takes a file or a link away. -/
theorem of_moves (h : contract.Filed P ledger) (hmoves : ledger.Moves ledger') :
    contract.Filed P ledger' := by
  refine Ledger.Moves.preserves (I := fun ledger => contract.Filed P ledger) ?_ hmoves h
  intro before after hmove hfiled
  obtain ⟨artifact, hartifact, hstored⟩ := hfiled.stored
  obtain ⟨link, hlink, hlinked⟩ := hfiled.linked
  cases hmove with
  | stored row hfresh =>
    exact ⟨hfiled.hashed, ⟨artifact, List.mem_append_left _ hartifact, hstored⟩, hfiled.linked⟩
  | linked new =>
    exact ⟨hfiled.hashed, hfiled.stored, ⟨link, List.mem_append_left _ hlink, hlinked⟩⟩
  | _ => exact ⟨hfiled.hashed, hfiled.stored, hfiled.linked⟩

end ContractVersion.Filed

variable {artifactId : Id}

/-- A stored file can be found under the identifier that comes back, and is linked. -/
theorem filed_of_storeFile {runId : Id} {file : CommittedFile} {name : String} {role : ArtifactRole}
    (h : db.storeFile runId file name role = some (db', artifactId)) :
    (∃ artifact ∈ db'.artifacts, artifact.artifactId = artifactId ∧
      artifact.sha256 = file.sha256) ∧
      ∃ link ∈ db'.runArtifacts, link.runId = runId ∧ link.artifactId = artifactId := by
  obtain ⟨⟨inserted, row⟩, hinserted, h⟩ := Option.bind_eq_some_iff.mp h
  obtain ⟨linked, hlinked, h⟩ := Option.bind_eq_some_iff.mp h
  cases Option.some.inj h
  obtain ⟨found, hfound, hinserted⟩ := Option.bind_eq_some_iff.mp hinserted
  obtain ⟨⟨⟩, hfile, hinserted⟩ := Option.bind_eq_some_iff.mp hinserted
  cases Option.some.inj hinserted
  simp only [require_eq_some, Bool.and_eq_true, beq_iff_eq] at hfile
  have hmem := List.mem_of_find?_eq_some hfound
  unfold Db.linkArtifact at hlinked
  split at hlinked
  · cases Option.some.inj hlinked
    exact ⟨⟨row, hmem, rfl, hfile.1.1.1⟩,
      ⟨_, List.mem_append_right _ (List.mem_singleton.mpr rfl), rfl, rfl⟩⟩
  · rename_i link hlink
    obtain ⟨⟨⟩, hsame, hlinked⟩ := Option.bind_eq_some_iff.mp hlinked
    cases Option.some.inj hlinked
    simp only [require_eq_some, Bool.and_eq_true, beq_iff_eq] at hsame
    have hrun := List.find?_some hlink
    simp only [Bool.and_eq_true, beq_iff_eq] at hrun
    exact ⟨⟨row, hmem, rfl, hfile.1.1.1⟩, ⟨link, List.mem_of_find?_eq_some hlink, hrun.1, hsame.1⟩⟩

/-- The contract of a new run is filed. -/
theorem filed_of_createRunAtomic {new : NewRun} {text : List Char} {id : Id}
    (hwire : Wire.canonicalJsonBytes P (.obj new.contract) = some text)
    (hfile : new.contractFile = .ofText P id text)
    (hold : ∀ contract ∈ db.contractVersions, contract.Filed P db.ledger)
    (h : db.createRunAtomic new = some db') :
    ∀ contract ∈ db'.contractVersions, contract.Filed P db'.ledger := by
  have hmoves := moves_createRunAtomic new db' h
  unfold Db.createRunAtomic at h
  split at h
  · obtain ⟨⟨⟩, -, h⟩ := Option.bind_eq_some_iff.mp h
    cases Option.some.inj h
    exact hold
  · obtain ⟨⟨stored, artifactId⟩, hstored, h⟩ := Option.bind_eq_some_iff.mp h
    obtain ⟨runs, -, h⟩ := Option.bind_eq_some_iff.mp h
    obtain ⟨filled, hfilled, h⟩ := Option.bind_eq_some_iff.mp h
    obtain ⟨contracts, hcontracts, h⟩ := Option.bind_eq_some_iff.mp h
    obtain ⟨-, rfl⟩ := insertRow_eq_some.mp hcontracts
    cases Option.some.inj h
    obtain ⟨artifacts, links, hstoredEq⟩ := storeFile_eq _ _ _ _ _ hstored
    have hfilledMoves := moves_storeCreateInputs _ _ _ _ hfilled
    obtain ⟨artifacts', links', rfl⟩ := storeCreateInputs_eq _ _ _ _ hfilled
    obtain ⟨hartifact, hlink⟩ := filed_of_storeFile hstored
    intro contract hcontract
    rcases List.mem_append.mp hcontract with hcontract | hcontract
    · have hsame := congrArg Db.contractVersions hstoredEq
      change stored.contractVersions = db.contractVersions at hsame
      rw [← hsame] at hold
      exact (hold contract hcontract).of_moves hmoves
    · obtain rfl := List.mem_singleton.mp hcontract
      refine ContractVersion.Filed.of_moves ⟨⟨text, hwire, ?_⟩, hartifact, hlink⟩ hfilledMoves
      rw [hfile]
      rfl

/-- Changes of other columns leave the contracts filed. -/
theorem filed_updateWhere {ledger : Ledger} {test : ContractVersion → Bool}
    {change : ContractVersion → ContractVersion} {contracts : List ContractVersion}
    (hchange : ∀ contract : ContractVersion, contract.SameFile (change contract))
    (h : ∀ contract ∈ contracts, contract.Filed P ledger) :
    ∀ contract ∈ updateWhere test change contracts, contract.Filed P ledger := by
  intro contract' hcontract'
  obtain ⟨contract, hcontract, rfl⟩ := mem_updateWhere.mp hcontract'
  split
  · exact (h contract hcontract).congr (hchange contract)
  · exact h contract hcontract

/-- The file of a replacement is stored before the contract is replaced. -/
theorem filed_of_storeGenerated {op : ApplyOp} {p : AmendContract} {snapshot : Snapshot}
    {generated : Option Id} {text : List Char} (hcommand : op.request.command = .amendContract p)
    (htext : Wire.canonicalJsonBytes P (.obj p.replacementContract) = some text)
    (hgenerated : generated = some artifactId)
    (h : op.storeGenerated P snapshot db = some (db', generated)) :
    (∃ artifact ∈ db'.artifacts, artifact.artifactId = artifactId ∧
      artifact.sha256 = P.sha256 text) ∧
      ∃ link ∈ db'.runArtifacts, link.runId = op.request.runId ∧ link.artifactId = artifactId := by
  unfold ApplyOp.storeGenerated ApplyOp.generatedFile at h
  rw [hcommand] at h
  simp only [htext] at h
  obtain ⟨file, hfile, h⟩ := Option.bind_eq_some_iff.mp h
  cases Option.some.inj hfile
  obtain ⟨⟨stored, storedId⟩, hstored, h⟩ := Option.bind_eq_some_iff.mp h
  cases Option.some.inj h
  cases Option.some.inj hgenerated
  exact filed_of_storeFile hstored

/-- An accepted request keeps every contract filed. -/
theorem filed_of_acceptance {op : ApplyOp} (acceptance : Acceptance P policy db op db')
    (h : ∀ contract ∈ db.contractVersions, contract.Filed P db.ledger) :
    ∀ contract ∈ db'.contractVersions, contract.Filed P db'.ledger := by
  have hrecorded := Relation.ReflTransGen.single acceptance.move_recorded
  have hstart : ∀ contract ∈ db.contractVersions, contract.Filed P db'.ledger :=
    fun contract hcontract =>
      (h contract hcontract).of_moves (acceptance.moves_written.trans hrecorded)
  refine acceptance.preserves
    (I := fun mid => ∀ contract ∈ mid.contractVersions, contract.Filed P db'.ledger) ?_ hstart ?_
  · intro mid mid' hsame hmid
    rw [hsame.sameRecords.contractVersions]
    exact hmid
  · intro m before after happlies hbefore
    have happly := happlies.applied
    have hframe := congrArg Records.contractVersions (Projection.records_of_apply happly)
    cases m with
    | setContractStatus version status defect =>
      cases defect with
      | none =>
        cases Option.some.inj happly
        exact filed_updateWhere (fun _ => by exact ⟨rfl, rfl, rfl, rfl⟩) hbefore
      | some p =>
        cases Option.some.inj happly
        exact filed_updateWhere (fun _ => by exact ⟨rfl, rfl, rfl, rfl⟩)
          (filed_updateWhere (fun _ => by exact ⟨rfl, rfl, rfl, rfl⟩) hbefore)
    | supersedeContract version =>
      cases Option.some.inj happly
      exact filed_updateWhere (fun _ => by exact ⟨rfl, rfl, rfl, rfl⟩) hbefore
    | createContractVersion version replacement =>
      obtain ⟨artifactId, hartifactId, happly⟩ := Option.bind_eq_some_iff.mp happly
      obtain ⟨text, htext, happly⟩ := Option.bind_eq_some_iff.mp happly
      obtain ⟨contracts, hcontracts, happly⟩ := Option.bind_eq_some_iff.mp happly
      obtain ⟨-, rfl⟩ := insertRow_eq_some.mp hcontracts
      cases Option.some.inj happly
      intro contract hcontract
      rcases List.mem_append.mp hcontract with hcontract | hcontract
      · exact hbefore contract hcontract
      · obtain rfl := List.mem_singleton.mp hcontract
        obtain ⟨p, affected, hcommand, hmutations⟩ := 
          Guard.emitted_of_handle acceptance.handled _ happlies.mem
        have hreplacement : replacement = p.replacementContract := by
          have hmem := happlies.mem
          rw [hmutations] at hmem
          simp only [Guard.amendment, List.mem_cons, reduceCtorEq,
            Mutation.createContractVersion.injEq, List.not_mem_nil, or_false, false_or] at hmem
          exact hmem.2
        subst hreplacement
        obtain ⟨hartifact, hlink⟩ :=
          filed_of_storeGenerated hcommand htext hartifactId acceptance.written_eq
        exact ContractVersion.Filed.of_moves ⟨⟨text, htext, rfl⟩, hartifact, hlink⟩ hrecorded
    | _ =>
      have hsame : after.contractVersions = before.contractVersions := hframe
      rw [hsame]
      exact hbefore

/-- The creation of a run keeps every contract filed. -/
theorem filed_create (op : CreateOp)
    (h : ∀ contract ∈ db.contractVersions, contract.Filed P db.ledger) :
    ∀ contract ∈ (op.apply P db).contractVersions, contract.Filed P (op.apply P db).ledger := by
  unfold CreateOp.apply
  split
  · rename_i text hinspection htext
    split
    · cases hensured : db.ensureCapability op.capability with
      | none => exact h
      | some start =>
        have hmoves := moves_ensureCapability _ _ hensured
        obtain ⟨rows, rfl⟩ := ensureCapability_eq _ _ hensured
        have hstart : ∀ contract ∈ db.contractVersions, contract.Filed P
            { db with capabilities := rows }.ledger :=
          fun contract hcontract => (h contract hcontract).of_moves hmoves
        dsimp only
        cases hcreated : Db.createRunAtomic { db with capabilities := rows } (op.newRun P text) with
        | none => exact hstart
        | some after => exact filed_of_createRunAtomic htext rfl hstart hcreated
    · exact h
  · exact h

/-- Every operation keeps every contract filed. -/
theorem filed_step (op : Op) (h : ∀ contract ∈ db.contractVersions, contract.Filed P db.ledger) :
    ∀ contract ∈ (step P policy db op).contractVersions,
      contract.Filed P (step P policy db op).ledger := by
  have hmoves := moves_step P policy db op
  have hsame : (step P policy db op).contractVersions = db.contractVersions →
      ∀ contract ∈ (step P policy db op).contractVersions,
        contract.Filed P (step P policy db op).ledger := by
    intro heq contract hcontract
    rw [heq] at hcontract
    exact (h contract hcontract).of_moves hmoves
  have hmove : Move P policy db op (step P policy db op) := move_step op
  generalize hafter : step P policy db op = after at *
  cases hmove with
  | idle _ _ same | reported _ _ _ _ _ _ same | claimed _ _ _ _ _ same
  | recorded _ _ _ _ _ _ _ _ _ same | checkerConsumed _ _ _ _ _ _ _ _ _ _ _ same =>
    exact hsame same.sameRecords.contractVersions
  | created op _ _ _ _ _ =>
    subst hafter
    exact filed_create op h
  | applied _ _ _ acceptance => exact filed_of_acceptance acceptance h
  | beaten => exact hsame rfl
  | recovered _ _ _ _ _ recoveries =>
    refine hsame (recoveries.keeps ?_ fun _ _ _ => rfl)
    exact fun _ _ same => same.sameRecords.contractVersions
  | leanConsumed _ _ _ _ _ _ _ _ _ _ _ _ verified same =>
    obtain ⟨_, _, rfl⟩ := setKernelVerified_eq _ _ _ _ verified
    exact hsame same.sameRecords.contractVersions

theorem filed_reached (P : Platform) (policy : Policy) (ops : List Op) :
    ∀ contract ∈ (reached P policy ops).contractVersions,
      contract.Filed P (reached P policy ops).ledger := by
  refine @runFrom_invariant Db Op (step P policy)
    (fun db => ∀ contract ∈ db.contractVersions, contract.Filed P db.ledger) Db.empty ?_ ?_ ops
  · exact fun _ hcontract => absurd hcontract List.not_mem_nil
  · exact fun db op h => filed_step op h

/-- In every reached database artifacts have distinct identifiers. -/
theorem uniqueArtifacts_reached (P : Platform) (policy : Policy) (ops : List Op) :
    (reached P policy ops).ledger.UniqueArtifacts := by
  refine reached_ledger (I := Ledger.UniqueArtifacts) List.nodup_nil ?_ ops
  intro before after hmove hunique
  cases hmove with
  | stored row hfresh =>
    have hnew : row.artifactId ∉ before.artifacts.map (·.artifactId) := by
      intro hmem
      obtain ⟨old, hold, heq⟩ := List.mem_map.mp hmem
      have hclash := hfresh old hold
      simp [Artifact.clash, heq] at hclash
    change ((before.artifacts ++ [row]).map _).Nodup
    rw [List.map_append, List.map_singleton, ← List.concat_eq_append]
    exact hunique.concat hnew
  | _ => exact hunique

/-- In every run each contract has its file, with the digest of its canonical text, and keeps it:
no other file has its identifier. -/
theorem contract_files_of_reached (P : Platform) (policy : Policy) (early late : List Op) :
    (∀ contract ∈ (reached P policy early).contractVersions,
      contract.Filed P (reached P policy (early ++ late)).ledger) ∧
        (reached P policy (early ++ late)).ledger.UniqueArtifacts := by
  refine ⟨fun contract hcontract => ?_, uniqueArtifacts_reached P policy _⟩
  exact runFrom_stays (I := fun db : Db => contract.Filed P db.ledger)
    (filed_reached P policy early contract hcontract)
    (fun _ op h => h.of_moves (moves_step P policy _ op)) late

end Filing

end ResearchKernel
