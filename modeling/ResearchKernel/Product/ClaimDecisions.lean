import ResearchKernel.Product.ClaimHandlers
import ResearchKernel.Product.ClaimSubgraph

/-!
# Who decides a claim

A claim is accepted on evidence with authority that names it exactly, and rejected on evidence
that names it exactly and says how to repair it. Nothing else changes where a claim is, and a
decision is final.
-/

namespace ResearchKernel.Product.Claims

open Foundation

/-! ## Evidence -/

/-- Evidence names a claim exactly, and the facts it rests on. -/
structure Names (P : Platform) (s : ClaimLedger) (evidence : ValidationEvidence)
    (claim : ProductClaim) : Prop where
  claimId : evidence.claimId = claim.claimId
  runId : evidence.runId = claim.runId
  version : evidence.contractVersion = claim.contractVersion
  statement : evidence.statementDigest = claim.statementDigest
  subgraph : ∃ graph, necessarySubgraph P s claim.claimId 200 = .ok graph ∧
    evidence.selectedSubgraphDigest = graph.digest

/-- Evidence comes from a backend that has authority, with complete checks. -/
inductive Authoritative (evidence : ValidationEvidence) : Prop where
  | machine (hbackend : evidence.backend = .lean ∨ evidence.backend = .deterministicChecker)
    (hproof : evidence.proofChecked = true) (hscope : evidence.scopeChecked = true)
    (heffect : evidence.authorityEffect = "MACHINE_CHECKED")
  | human (hbackend : evidence.backend = .managedHuman) (hproof : evidence.proofChecked = true)
    (hscope : evidence.scopeChecked = true) (hindependent : evidence.independenceVerified = true)
    (heffect : evidence.authorityEffect = "HUMAN_ATTESTED")

variable {evidence : ValidationEvidence}

theorem authoritative_of_eligible (h : eligible evidence = true) :
    Authoritative evidence := by
  unfold eligible at h
  split at h
  next hbackend =>
    simp only [Bool.and_eq_true, beq_iff_eq] at h
    exact .machine (Or.inl hbackend) h.1.1 h.1.2 h.2
  next hbackend =>
    simp only [Bool.and_eq_true, beq_iff_eq] at h
    exact .machine (Or.inr hbackend) h.1.1 h.1.2 h.2
  next hbackend =>
    simp only [Bool.and_eq_true, beq_iff_eq] at h
    exact .human hbackend h.1.1.1 h.1.1.2 h.1.2 h.2
  next => cases h

theorem Authoritative.not_soft (h : Authoritative evidence) :
    evidence.backend ≠ .softVerifier := by
  cases h with
  | machine hbackend =>
    rcases hbackend with hbackend | hbackend <;> rw [hbackend] <;> exact nofun
  | human hbackend =>
    rw [hbackend]
    exact nofun

/-- What an accepted import has checked. -/
structure Imported (P : Platform) (s : ClaimLedger) (context : CommandContext)
    (evidence : ValidationEvidence) (claim : ProductClaim) (result : ValidationResult) : Prop where
  imported : importedEvidence context = some evidence
  found : s.claims.find? (·.claimId == claim.claimId) = some claim
  names : Names P s evidence claim
  result_claim : result.claimId = claim.claimId
  result_statement : result.statementDigest = claim.statementDigest
  result_version : result.contractVersion = claim.contractVersion
  outcome : result.verdict = .accepted ∧ evidence.verdict = .accepted ∧
      result.promotionEligible = eligible evidence ∧ result.repairFeedback = none ∨
    result.verdict = .rejected ∧ evidence.verdict = .rejected ∧ result.promotionEligible = false ∧
      result.repairFeedback = evidence.repairFeedback ∧
      evidence.repairFeedback.any (· != "") = true

variable {result : ValidationResult}

theorem evaluate_spec {claim : ClaimRecord} {digest : Digest}
    (h : evaluate claim evidence digest = some result) :
    (evidence.claimId = claim.claimId ∧ evidence.runId = claim.runId ∧
      evidence.contractVersion = claim.contractVersion ∧
      evidence.statementDigest = claim.statementDigest ∧
      evidence.selectedSubgraphDigest = digest) ∧
    (evidence.verdict = .accepted ∧ result = resultOf claim evidence digest (eligible evidence) none ∨
      evidence.verdict = .rejected ∧ evidence.repairFeedback.any (· != "") = true ∧
        result = resultOf claim evidence digest false evidence.repairFeedback) := by
  obtain ⟨_, -, h⟩ := Option.bind_eq_some_iff.mp h
  obtain ⟨_, hbound, h⟩ := Option.bind_eq_some_iff.mp h
  have hnames := require_eq_some.mp hbound
  simp only [Bool.and_eq_true, beq_iff_eq, decide_eq_true_eq] at hnames
  obtain ⟨⟨⟨⟨hclaim, hrun⟩, hversion⟩, hstatement⟩, hdigest⟩ := hnames
  refine ⟨⟨hclaim, hrun, hversion, hstatement, hdigest⟩, ?_⟩
  split at h
  next hverdict =>
    obtain ⟨_, hfeedback, h⟩ := Option.bind_eq_some_iff.mp h
    cases h
    exact Or.inr ⟨hverdict, require_eq_some.mp hfeedback, rfl⟩
  next hverdict =>
    obtain ⟨_, -, h⟩ := Option.bind_eq_some_iff.mp h
    obtain ⟨_, -, h⟩ := Option.bind_eq_some_iff.mp h
    cases h
    exact Or.inl ⟨hverdict, rfl⟩

variable {P : Platform} {s : ClaimLedger} {context : CommandContext}

theorem importVerification_spec (h : importVerification P s context = .ok result) :
    ∃ evidence claim, Imported P s context evidence claim result := by
  obtain ⟨_, -, h⟩ := bind_eq_ok.mp h
  obtain ⟨_, -, h⟩ := bind_eq_ok.mp h
  have hresult := orReject_eq_ok.mp h
  obtain ⟨evidence, himported, h⟩ := Option.bind_eq_some_iff.mp hresult
  obtain ⟨record, hread, h⟩ := Option.bind_eq_some_iff.mp h
  obtain ⟨graph, hgraph, h⟩ := Option.bind_eq_some_iff.mp h
  obtain ⟨evaluated, hevaluate, h⟩ := Option.bind_eq_some_iff.mp h
  obtain ⟨_, -, h⟩ := Option.bind_eq_some_iff.mp h
  cases h
  obtain ⟨row, hrow, rfl⟩ := get_eq_ok.mp (eq_ok_of_toOption hread)
  obtain ⟨⟨hclaim, hrun, hversion, hstatement, hdigest⟩, houtcome⟩ := evaluate_spec hevaluate
  change evidence.claimId = row.claimId at hclaim
  have hfound : s.claims.find? (·.claimId == row.claimId) = some row := by
    rw [← hclaim]
    exact hrow
  have hnames : Names P s evidence row := ⟨hclaim, hrun, hversion, hstatement, graph,
    eq_ok_of_toOption hgraph, hdigest⟩
  rcases houtcome with ⟨hverdict, rfl⟩ | ⟨hverdict, hfeedback, rfl⟩
  · exact ⟨evidence, row, himported, hfound, hnames, rfl, rfl, rfl,
      Or.inl ⟨hverdict, hverdict, rfl, rfl⟩⟩
  · exact ⟨evidence, row, himported, hfound, hnames, rfl, rfl, rfl,
      Or.inr ⟨hverdict, hverdict, rfl, rfl, hfeedback⟩⟩

/-! ## What a command does to the claims -/

variable {s' : ClaimLedger}

theorem recordValidation_spec {receiptId eventId : Id} {now : Stamp}
    (h : recordValidation s result receiptId eventId now = .ok s') :
    s'.claims = s.claims ∧ s'.predecessors = s.predecessors ∧ s'.evidence = s.evidence := by
  obtain ⟨_, -, h⟩ := bind_eq_ok.mp h
  obtain ⟨_, -, h⟩ := bind_eq_ok.mp h
  split at h
  · obtain ⟨_, -, h⟩ := bind_eq_ok.mp h
    cases pure_eq_ok.mp h
    exact ⟨rfl, rfl, rfl⟩
  · obtain ⟨_, -, h⟩ := bind_eq_ok.mp h
    cases pure_eq_ok.mp h
    exact ⟨rfl, rfl, rfl⟩

/-- What a projection of a validation does: it leaves the claims, or decides the pending one that
the result is about. -/
theorem applyValidation_spec {applied : AppliedAs}
    (h : applyValidation s context applied result = .ok s') :
    s'.claims = s.claims ∨
      ¬ (result.verdict = .accepted ∧ result.promotionEligible = false) ∧
      ∃ claim, s.claims.find? (·.claimId == result.claimId) = some claim ∧
        claim.lifecycle = .pendingVerification ∧
        s'.claims = updateWhere (·.claimId == result.claimId)
          (decided (verdictOf context applied result) applied.recordedAt) s.claims := by
  obtain ⟨recorded, hrecorded, h⟩ := bind_eq_ok.mp h
  obtain ⟨hclaims, -, -⟩ := recordValidation_spec hrecorded
  rcases ite_eq_ok.mp h with ⟨-, h⟩ | ⟨hdecides, h⟩
  · cases pure_eq_ok.mp h
    exact Or.inl hclaims
  · obtain ⟨⟨record, decidedLedger⟩, hverdict, h⟩ := bind_eq_ok.mp h
    cases pure_eq_ok.mp h
    obtain ⟨claim, hfind, hpending, hupdate, -⟩ := recordKernelVerdict_spec hverdict
    rw [hclaims] at hfind hupdate
    exact Or.inr ⟨hdecides, claim, hfind, hpending, hupdate⟩

theorem applySubmit_spec {mutation : SubmitMutation} {claimId : Id} {now : Stamp}
    (h : applySubmit P s context mutation claimId now = .ok s') :
    s' = s ∨ Submitted P s mutation.submission mutation.subjectId claimId now s' := by
  obtain ⟨_, -, h⟩ := bind_eq_ok.mp h
  obtain ⟨_, -, h⟩ := bind_eq_ok.mp h
  obtain ⟨⟨record, submitted⟩, hsubmit, h⟩ := bind_eq_ok.mp h
  cases pure_eq_ok.mp h
  exact submit_spec hsubmit

/-- The lineage is about the claims and the facts they rest on. -/
theorem Lineage.of_same (hs : Lineage s) (hclaims : s'.claims = s.claims)
    (hpredecessors : s'.predecessors = s.predecessors) : Lineage s' := by
  have hrests : ∀ a b, RestsOn s' a b ↔ RestsOn s a b := by
    intro a b
    unfold RestsOn
    rw [hpredecessors]
  have hplace : ∀ id, place s' id = place s id := by
    intro id
    unfold place
    rw [hclaims]
  refine ⟨hclaims ▸ hs.ids, ?_, hclaims ▸ hs.supersedes, ?_⟩
  · intro claimId factId hpath
    rw [hclaims, hplace, hplace]
    exact hs.facts claimId factId ((hrests claimId factId).mp hpath)
  · intro old hold newId hby
    rw [hclaims] at hold ⊢
    rw [hplace, hplace]
    exact hs.superseded old hold newId hby

/-- A verdict that is applied keeps the lineage. -/
theorem Lineage.applyValidation {applied : AppliedAs} (hs : Lineage s)
    (h : applyValidation s context applied result = .ok s') : Lineage s' := by
  obtain ⟨recorded, hrecorded, h⟩ := bind_eq_ok.mp h
  obtain ⟨hclaims, hpredecessors, -⟩ := recordValidation_spec hrecorded
  have hlineage : Lineage recorded := hs.of_same hclaims hpredecessors
  rcases ite_eq_ok.mp h with ⟨-, h⟩ | ⟨-, h⟩
  · cases pure_eq_ok.mp h
    exact hlineage
  · obtain ⟨⟨record, decidedLedger⟩, hverdict, h⟩ := bind_eq_ok.mp h
    cases pure_eq_ok.mp h
    exact hlineage.verdict hverdict

/-- How a command that changes the claims was run. -/
theorem commandStep_cases (P : Platform) (s : ClaimLedger) (command : ClaimCommand) :
    commandStep P s command = s ∨
    (∃ context applied claimId mutation, command = .submitClaim context applied claimId ∧
      submitClaim P context = .ok mutation ∧
      applySubmit P s context mutation claimId applied.recordedAt =
        .ok (commandStep P s command)) ∨
    ∃ context applied result, command = .importVerification context applied ∧
      importVerification P s context = .ok result ∧
      applyValidation s context applied result = .ok (commandStep P s command) := by
  unfold commandStep
  cases hrun : command.run P s with
  | none => exact Or.inl rfl
  | some s' =>
    right
    rw [Option.getD_some]
    cases command with
    | submitClaim context applied claimId =>
      left
      obtain ⟨mutation, hmutation, happly⟩ := Option.bind_eq_some_iff.mp hrun
      exact ⟨context, applied, claimId, mutation, rfl, eq_ok_of_toOption hmutation,
        eq_ok_of_toOption happly⟩
    | importVerification context applied =>
      right
      obtain ⟨result, hresult, happly⟩ := Option.bind_eq_some_iff.mp hrun
      exact ⟨context, applied, result, rfl, eq_ok_of_toOption hresult, eq_ok_of_toOption happly⟩

theorem lineage_commandStep (P : Platform) (hs : Lineage s) (command : ClaimCommand) :
    Lineage (commandStep P s command) := by
  rcases commandStep_cases P s command with hsame | ⟨context, applied, claimId, mutation, -, -, happly⟩ |
    ⟨context, applied, result, -, -, happly⟩
  · rw [hsame]
    exact hs
  · rcases applySubmit_spec happly with hsame | hsubmitted
    · rw [hsame]
      exact hs
    · exact lineage_submitted hs hsubmitted
  · exact hs.applyValidation happly

theorem lineage_afterCommands (P : Platform) (history : List ClaimCommand) :
    Lineage (afterCommands P history) := by
  refine @runFrom_invariant _ _ (commandStep P) Lineage _ ?_
    (fun s command hs => lineage_commandStep P hs command) history
  exact lineage_reached P []

/-! ## Who changes a lifecycle -/

/-- A command changes where a claim is. -/
structure Changes (P : Platform) (s : ClaimLedger) (command : ClaimCommand)
    (claim claim' : ProductClaim) : Prop where
  before : claim ∈ s.claims
  after : claim' ∈ (commandStep P s command).claims
  same : claim'.claimId = claim.claimId
  lifecycle : claim'.lifecycle ≠ claim.lifecycle

/-- A claim that was pending is decided by an import whose evidence names it exactly: it is
accepted on authority, or rejected with what is to be repaired. -/
structure DecidedOnEvidence (P : Platform) (s : ClaimLedger) (context : CommandContext)
    (evidence : ValidationEvidence) (claim claim' : ProductClaim) : Prop where
  pending : claim.lifecycle = .pendingVerification
  imported : importedEvidence context = some evidence
  names : Names P s evidence claim
  decision : claim'.lifecycle = .accepted ∧ evidence.verdict = .accepted ∧ Authoritative evidence ∨
    claim'.lifecycle = .rejected ∧ evidence.verdict = .rejected ∧
      evidence.repairFeedback.any (· != "") = true

variable {claim : ProductClaim}

/-- A row of an updated table that has the key of an old row is what became of that row. -/
theorem eq_update_of_mem {test : ProductClaim → Bool} {change : ProductClaim → ProductClaim}
    {claims : List ProductClaim} (hnodup : (claims.map ProductClaim.claimId).Nodup)
    (hchange : ∀ row, (change row).claimId = row.claimId) {claim' : ProductClaim}
    (hclaim : claim ∈ claims) (hclaim' : claim' ∈ updateWhere test change claims)
    (hsame : claim'.claimId = claim.claimId) :
    claim' = if test claim then change claim else claim := by
  obtain ⟨row, hrow, rfl⟩ := mem_updateWhere.mp hclaim'
  have hid : (if test row then change row else row).claimId = row.claimId := by
    split
    · exact hchange row
    · rfl
  rw [List.inj_on_of_nodup_map hnodup hrow hclaim (hid.symm.trans hsame)]

/-- Only an import changes where a claim is, and only on evidence. -/
theorem decided_of_changes (hs : Lineage s) {command : ClaimCommand} {claim' : ProductClaim}
    (h : Changes P s command claim claim') :
    ∃ context applied evidence, command = .importVerification context applied ∧
      DecidedOnEvidence P s context evidence claim claim' := by
  obtain ⟨hbefore, hafter, hsame, hlifecycle⟩ := h
  have hstays : (commandStep P s command).claims = s.claims → False := by
    intro heq
    rw [heq] at hafter
    exact hlifecycle (by rw [List.inj_on_of_nodup_map hs.ids hafter hbefore hsame])
  rcases commandStep_cases P s command with heq | ⟨context, applied, claimId, mutation, -, -, happly⟩ |
    ⟨context, applied, result, rfl, himport, happly⟩
  · exact (hstays (by rw [heq])).elim
  · -- a submission adds a claim, and marks the one it repairs
    rcases applySubmit_spec happly with heq | hsubmitted
    · exact (hstays (by rw [heq])).elim
    · exfalso
      have hnodup : ((s.claims ++ [newClaim P mutation.submission mutation.subjectId claimId
          applied.recordedAt]).map ProductClaim.claimId).Nodup := by
        rw [List.map_append]
        refine nodup_concat_of_fresh hs.ids fun old hold heq => ?_
        obtain ⟨row, hrow, rfl⟩ := List.mem_map.mp hold
        exact hsubmitted.fresh row hrow heq
      rw [hsubmitted.claims] at hafter
      have hkeeps : ∀ row, (superseded claimId applied.recordedAt row).claimId = row.claimId :=
        fun _ => rfl
      have hrow := eq_update_of_mem hnodup hkeeps (List.mem_append_left _ hbefore) hafter hsame
      refine hlifecycle ?_
      rw [hrow]
      split <;> rfl
  · rcases applyValidation_spec happly with heq | ⟨hdecides, row, hfind, hpending, hupdate⟩
    · exact (hstays heq).elim
    · obtain ⟨evidence, target, himported⟩ := importVerification_spec himport
      rw [hupdate] at hafter
      have hkeeps : ∀ row, (decided (verdictOf context applied result) applied.recordedAt
          row).claimId = row.claimId := fun _ => rfl
      have hrow := eq_update_of_mem hs.ids hkeeps hbefore hafter hsame
      -- the claim that changed is the one that the evidence names
      have htest : (claim.claimId == result.claimId) = true := by
        by_contra hmiss
        rw [if_neg hmiss] at hrow
        exact hlifecycle (by rw [hrow])
      rw [if_pos htest] at hrow
      have htarget : target = claim := by
        have hfound := find?_of_nodup hs.ids hbefore
        rw [beq_iff_eq.mp htest, himported.result_claim, himported.found] at hfound
        exact Option.some.inj hfound
      subst htarget
      have hrowTarget : row = target := by
        rw [himported.result_claim, himported.found] at hfind
        exact (Option.some.inj hfind).symm
      subst hrowTarget
      refine ⟨context, applied, evidence, rfl, hpending, himported.imported, himported.names, ?_⟩
      rcases himported.outcome with ⟨hverdict, hevidence, heligible, -⟩ |
        ⟨hverdict, hevidence, -, -, hfeedback⟩
      · have haccepted : (verdictOf context applied result).accepted = true := by
          show (result.verdict == .accepted) = true
          rw [hverdict]
          rfl
        have hauthority : eligible evidence = true := by
          rw [← heligible]
          by_contra hnot
          exact hdecides ⟨hverdict, Bool.eq_false_iff.mpr hnot⟩
        refine Or.inl ⟨?_, hevidence, authoritative_of_eligible hauthority⟩
        rw [hrow]
        exact if_pos haccepted
      · have hrejected : (verdictOf context applied result).accepted = false := by
          show (result.verdict == .accepted) = false
          rw [hverdict]
          rfl
        refine Or.inr ⟨?_, hevidence, hfeedback⟩
        rw [hrow]
        exact if_neg (by rw [hrejected]; exact Bool.false_ne_true)

/-! ## The laws -/

/-- A pending claim is decided only by an import in its own run, on evidence with authority that
names it exactly; evidence of a soft verifier decides nothing; a decision is final. -/
structure OnlyAuthorityDecides (P : Platform) : Prop where
  decided : ∀ history command claim claim',
    Changes P (afterCommands P history) command claim claim' →
      claim.lifecycle = .pendingVerification ∧
      ∃ context applied evidence, command = .importVerification context applied ∧
        context.runId = claim.runId ∧ importedEvidence context = some evidence ∧
        Names P (afterCommands P history) evidence claim ∧ Authoritative evidence
  soft : ∀ history context applied claim claim' evidence,
    Changes P (afterCommands P history) (.importVerification context applied) claim claim' →
      importedEvidence context = some evidence → evidence.backend ≠ .softVerifier

/-- A claim that is accepted or rejected stays so. -/
def DecisionsAreFinal (P : Platform) : Prop :=
  ∀ history more claim, claim ∈ (afterCommands P history).claims →
    claim.lifecycle = .accepted ∨ claim.lifecycle = .rejected →
    ∃ claim' ∈ (afterCommands P (history ++ more)).claims,
      claim'.claimId = claim.claimId ∧ claim'.lifecycle = claim.lifecycle

/-- An acceptance that a soft verifier gives changes nothing. -/
def SoftAcceptanceIsIdle (P : Platform) : Prop :=
  ∀ history context applied claim claim' evidence,
    importedEvidence context = some evidence → evidence.backend = .softVerifier →
    evidence.verdict = .accepted →
    ¬ Changes P (afterCommands P history) (.importVerification context applied) claim claim'

/-- Only an import changes where a claim is, and only on evidence that names it exactly. -/
def DecidedOnlyOnEvidence (P : Platform) : Prop :=
  ∀ history command claim claim', Changes P (afterCommands P history) command claim claim' →
    ∃ context applied evidence, command = .importVerification context applied ∧
      DecidedOnEvidence P (afterCommands P history) context evidence claim claim'

/-- A command keeps every claim. -/
theorem kept_commandStep (P : Platform) (command : ClaimCommand) (h : claim ∈ s.claims) :
    ∃ claim' ∈ (commandStep P s command).claims, claim'.claimId = claim.claimId := by
  rcases commandStep_cases P s command with heq | ⟨context, applied, claimId, mutation, -, -, happly⟩ |
    ⟨context, applied, result, rfl, -, happly⟩
  · rw [heq]
    exact ⟨claim, h, rfl⟩
  · rcases applySubmit_spec happly with heq | hsubmitted
    · rw [heq]
      exact ⟨claim, h, rfl⟩
    · rw [hsubmitted.claims]
      refine ⟨_, mem_updateWhere.mpr ⟨claim, List.mem_append_left _ h, rfl⟩, ?_⟩
      split <;> rfl
  · rcases applyValidation_spec happly with heq | ⟨-, -, -, -, hupdate⟩
    · rw [heq]
      exact ⟨claim, h, rfl⟩
    · rw [hupdate]
      refine ⟨_, mem_updateWhere.mpr ⟨claim, h, rfl⟩, ?_⟩
      split <;> rfl

theorem decisionsAreFinal (P : Platform) : DecisionsAreFinal P := by
  intro history more claim hclaim hdecided
  refine runFrom_stays (I := fun s : ClaimLedger => ∃ later ∈ s.claims,
    later.claimId = claim.claimId ∧ later.lifecycle = claim.lifecycle)
    ⟨claim, hclaim, rfl, rfl⟩ ?_ more
  rintro earlier command ⟨later, hlater, hid, hsame⟩
  obtain ⟨last, hlast, hlastId⟩ := kept_commandStep P command hlater
  refine ⟨last, hlast, hlastId.trans hid, ?_⟩
  by_contra hchanged
  obtain ⟨_, _, _, -, hevidence⟩ := decided_of_changes (lineage_afterCommands P earlier)
    ⟨hlater, hlast, hlastId, fun heq => hchanged (heq.trans hsame)⟩
  have hpending := hevidence.pending
  rw [hsame] at hpending
  rcases hdecided with haccepted | hrejected
  · rw [haccepted] at hpending
    cases hpending
  · rw [hrejected] at hpending
    cases hpending

/-- A claim is decided only on evidence that names it exactly: it is accepted on authority only,
an acceptance by a soft verifier is idle, and a decision is final. -/
theorem claims_decided_on_evidence (P : Platform) :
    DecidedOnlyOnEvidence P ∧ SoftAcceptanceIsIdle P ∧ DecisionsAreFinal P := by
  have hdecided : DecidedOnlyOnEvidence P := fun history command claim claim' h =>
    decided_of_changes (lineage_afterCommands P history) h
  refine ⟨hdecided, ?_, decisionsAreFinal P⟩
  intro history context applied claim claim' evidence himported hsoft hverdict hchanges
  obtain ⟨_, _, evidence', hcommand, hevidence⟩ := hdecided history _ claim claim' hchanges
  cases hcommand
  have hsame := hevidence.imported
  rw [himported] at hsame
  cases hsame
  rcases hevidence.decision with ⟨-, -, hauthority⟩ | ⟨-, hrejected, -⟩
  · exact hauthority.not_soft hsoft
  · rw [hverdict] at hrejected
    cases hrejected

/-! ## A rejection without authority -/

/-- A platform whose digests are all the same. -/
def plainPlatform : Platform where
  nfc text := text
  sha256 _ := String.ofList (List.replicate 64 'a')
  hmacSha256 _ _ := ""
  uuid5 text := text
  repr _ := ""
  parseInt _ := none

def plainCapability (role subjectId : String) : VerifiedCapability where
  capabilityId := "capability"
  subjectId := subjectId
  issuer := "issuer"
  allowedActions := ["*"]
  runScope := ["*"]
  issuedAt := none
  expiresAt := none
  subjectRole := some role

def plainDigest : Digest := plainPlatform.sha256 []

/-- The reference to an artifact. -/
def plainArtifact : Json := .obj [("artifact_id", .str "artifact"), ("sha256", .str plainDigest)]

/-- A worker submits a claim in `run-a`. -/
def submission : ClaimCommand :=
  .submitClaim
    { runId := "run-a"
      revision := 4
      contractVersion := 2
      payload := [("statement", .str "A lemma."), ("claim_kind", .str "LEMMA"),
        ("proof_or_evidence_artifacts", .arr [plainArtifact]), ("predecessor_fact_ids", .arr []),
        ("source_binding_artifact", plainArtifact), ("work_item_id", .str "work"),
        ("worker_run_id", .str "worker-run"), ("attempt_id", .str "attempt")]
      capability := plainCapability "WORKER" "worker"
      snapshot := [("contract", .obj [("status", .str "FROZEN")])]
      evidenceSummary := [("committed_artifacts", .obj [("artifact", .obj
        [("sha256", .str plainDigest), ("ingest_state", .str "COMMITTED"), ("byte_count", .int 12),
          ("media_type", .str "text/plain")])])] }
    { commandId := "command-1", eventId := "event-1", recordedAt := "2026-08-13T18:00:00Z" } "claim"

/-- The context of an import with evidence from a backend, in a run. -/
def importContext (runId backend verdict effect : String) (more : JsonObject) :
    CommandContext where
  runId := runId
  revision := 5
  contractVersion := 2
  payload := [("review_task_id", .str "task"), ("signed_review_artifact", plainArtifact),
    ("target_digest", .str plainDigest), ("verifier_receipt_ids", .arr [])]
  capability := plainCapability "PEER_REVIEWER" "reviewer"
  snapshot := []
  evidenceSummary := [("validation_evidence_by_review_task", .obj [("task", .obj
    [("signed_review_artifact", plainArtifact), ("verifier_receipt_ids", .arr []),
      ("validation", .obj ([("validation_id", .str "validation"), ("claim_id", .str "claim"),
        ("run_id", .str "run-a"), ("contract_version", .int 2),
        ("statement_digest", .str plainDigest), ("selected_subgraph_digest", .str plainDigest),
        ("backend", .str backend), ("verdict", .str verdict), ("verifier_reference_id", .str "ref"),
        ("authority_effect", .str effect), ("proof_checked", .bool true),
        ("scope_checked", .bool true), ("independence_verified", .bool false)] ++ more))])])]

/-- What the kernel gives to the import. -/
def importedAs : AppliedAs where
  commandId := "command-2"
  eventId := "event-2"
  recordedAt := "2026-08-13T19:00:00Z"

/-- A soft verifier rejects the claim, with feedback. -/
def softRejection : CommandContext :=
  importContext "run-a" "SOFT_VERIFIER" "REJECTED" "NONE" [("repair_feedback", .str "A gap.")]

/-- A rejection by a soft verifier decides a claim. -/
theorem soft_verifier_rejects_claim : ¬ OnlyAuthorityDecides plainPlatform := by
  intro h
  have hchanges : ∃ claim claim', Changes plainPlatform (afterCommands plainPlatform [submission])
      (.importVerification softRejection importedAs) claim claim' := by
    have hbefore : ∃ claim ∈ (afterCommands plainPlatform [submission]).claims,
        ∃ claim' ∈ (commandStep plainPlatform (afterCommands plainPlatform [submission])
          (.importVerification softRejection importedAs)).claims,
        claim'.claimId = claim.claimId ∧ claim'.lifecycle ≠ claim.lifecycle := by
      decide +kernel
    obtain ⟨claim, hclaim, claim', hclaim', hsame, hlifecycle⟩ := hbefore
    exact ⟨claim, claim', hclaim, hclaim', hsame, hlifecycle⟩
  obtain ⟨claim, claim', hchanges⟩ := hchanges
  have hevidence : ∃ evidence, importedEvidence softRejection = some evidence ∧
      evidence.backend = .softVerifier := by
    have hsome : (importedEvidence softRejection).map ValidationEvidence.backend =
        some .softVerifier := by
      decide +kernel
    obtain ⟨evidence, himported, hbackend⟩ := Option.map_eq_some_iff.mp hsome
    exact ⟨evidence, himported, hbackend⟩
  obtain ⟨evidence, himported, hbackend⟩ := hevidence
  exact h.soft [submission] softRejection importedAs claim claim' evidence hchanges himported
    hbackend

end ResearchKernel.Product.Claims
