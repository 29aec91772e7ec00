import Mathlib.Data.String.Basic
import ResearchKernel.Product.ClaimLineage

/-!
# Necessary subgraphs

The necessary subgraph of a claim holds every fact the claim rests on, once, and nothing else.
Its digest says no more than which facts these are and what they rest on.
-/

namespace ResearchKernel.Product.Claims

open Foundation
open Relation

/-! ## Facts -/

/-- A fact that is current for a target, as it is read. -/
structure CurrentFact (s : ClaimLedger) (target : ClaimRecord) (factId : Id) (fact : ClaimRecord) :
    Prop where
  read : get s factId = .ok fact
  verified : Verified fact.toProductClaim
  scope : SameScope target.toProductClaim fact.toProductClaim

variable {s : ClaimLedger} {target : ClaimRecord} {factId : Id}

theorem currentFact_eq_ok {fact : ClaimRecord} :
    currentFact s target factId = .ok fact ↔ CurrentFact s target factId fact := by
  unfold currentFact
  constructor
  · intro h
    obtain ⟨record, hread, h⟩ := bind_eq_ok.mp h
    obtain ⟨_, hcheck, h⟩ := bind_eq_ok.mp h
    cases pure_eq_ok.mp h
    have hpasses := rejectIf_eq_ok.mp hcheck
    simp only [Bool.or_eq_false_iff, bne_eq_false_iff_eq, decide_eq_false_iff_not, not_not]
      at hpasses
    obtain ⟨⟨⟨haccepted, hverified⟩, hrun⟩, hversion⟩ := hpasses
    exact ⟨hread, ⟨haccepted, hverified⟩, ⟨hrun, hversion⟩⟩
  · rintro ⟨hread, ⟨haccepted, hverified⟩, ⟨hrun, hversion⟩⟩
    refine bind_eq_ok.mpr ⟨fact, hread, bind_eq_ok.mpr ⟨(), rejectIf_eq_ok.mpr ?_, rfl⟩⟩
    simp [haccepted, hverified, hrun, hversion]

variable {claimId : Id}

theorem mem_facts_of_get {record : ClaimRecord} (h : get s claimId = .ok record) :
    factId ∈ record.predecessorFactIds ↔ RestsOn s claimId factId := by
  obtain ⟨row, -, rfl⟩ := get_eq_ok.mp h
  exact mem_predecessorFactIds

theorem follows_iff {a b : Id} :
    Follows (currentFact s target) ClaimRecord.predecessorFactIds a b ↔
      (∃ fact, CurrentFact s target a fact) ∧ RestsOn s a b := by
  constructor
  · rintro ⟨fact, hfact, hmem⟩
    have hcurrent := currentFact_eq_ok.mp hfact
    exact ⟨⟨fact, hcurrent⟩, (mem_facts_of_get hcurrent.read).mp hmem⟩
  · rintro ⟨⟨fact, hcurrent⟩, hrests⟩
    exact ⟨fact, currentFact_eq_ok.mpr hcurrent, (mem_facts_of_get hcurrent.read).mpr hrests⟩

/-! ## What is collected -/

/-- The subgraph of a target within a limit. -/
structure IsClosure (P : Platform) (s : ClaimLedger) (claimId : Id) (limit : ℤ)
    (graph : NecessarySubgraph) : Prop where
  target : graph.targetClaimId = claimId
  closure : ∀ factId, factId ∈ graph.facts.map (·.claimId) ↔ TransGen (RestsOn s) claimId factId
  once : (graph.facts.map (·.claimId)).Nodup
  sorted : graph.facts.Pairwise fun a b => a.claimId ≤ b.claimId
  current : ∃ target, get s claimId = .ok target ∧
    ∀ fact ∈ graph.facts, CurrentFact s target fact.claimId fact
  bounded : (graph.facts.length : ℤ) ≤ limit
  digest : graph.digest = subgraphDigest P graph.facts

/-- Everything a claim rests on is current and there is not too much of it. -/
structure Collectable (s : ClaimLedger) (claimId : Id) (limit : ℤ) : Prop where
  limited : 1 ≤ limit ∧ limit ≤ 200
  current : ∃ target, get s claimId = .ok target ∧
    ∀ factId, TransGen (RestsOn s) claimId factId → ∃ fact, CurrentFact s target factId fact
  bounded : ∃ closure : List Id, (∀ factId, TransGen (RestsOn s) claimId factId → factId ∈ closure) ∧
    (closure.length : ℤ) ≤ limit

/-- The nodes of a collection are the identifiers of the facts that it read. -/
theorem map_claimId_of_rows {nodes : List Id} {rows : List ClaimRecord}
    (h : List.Forall₂ (fun node row => currentFact s target node = .ok row) nodes rows) :
    rows.map (·.claimId) = nodes := by
  induction h with
  | nil => rfl
  | cons hrow _ ih =>
    rw [List.map_cons, ih, (mem_of_get (currentFact_eq_ok.mp hrow).read).2]

/-- What is reached from the facts of a claim is what the claim rests on. -/
theorem transGen_iff_of_closed {nodes : List Id} {rows : List ClaimRecord}
    (hread : get s claimId = .ok target)
    (h : Collecting (currentFact s target) ClaimRecord.predecessorFactIds
      target.predecessorFactIds nodes rows []) :
    factId ∈ nodes ↔ TransGen (RestsOn s) claimId factId := by
  constructor
  · intro hmem
    obtain ⟨start, hstart, hpath⟩ := h.mem_iff.mp hmem
    have hfirst := (mem_facts_of_get hread).mp hstart
    induction hpath with
    | refl => exact .single hfirst
    | tail hbefore hstep ih =>
      exact (ih (h.mem_iff.mpr ⟨start, hstart, hbefore⟩)).tail (follows_iff.mp hstep).2
  · intro hpath
    induction hpath with
    | single hstep =>
      exact h.mem_iff.mpr ⟨_, (mem_facts_of_get hread).mpr hstep, .refl⟩
    | tail _ hstep ih =>
      -- a fact that was collected is current, so what it rests on was collected too
      obtain ⟨row, -, hrow⟩ := exists_of_forall₂ h.rows _ ih
      have hfollows := follows_iff.mpr ⟨⟨row, currentFact_eq_ok.mp hrow⟩, hstep⟩
      exact (h.closed _ ih _ hfollows).resolve_right List.not_mem_nil

variable {P : Platform} {limit : ℤ}

/-- A subgraph that is returned is the closure of its target. -/
theorem necessarySubgraph_spec {graph : NecessarySubgraph}
    (h : necessarySubgraph P s claimId limit = .ok graph) :
    IsClosure P s claimId limit graph := by
  obtain ⟨_, hlimit, h⟩ := bind_eq_ok.mp h
  obtain ⟨target, hread, h⟩ := bind_eq_ok.mp h
  obtain ⟨collected, hcollect, h⟩ := bind_eq_ok.mp h
  cases pure_eq_ok.mp h
  have hpositive : 1 ≤ limit := by
    have hrange := rejectIf_eq_ok.mp hlimit
    rw [Bool.not_eq_false', Bool.and_eq_true, decide_eq_true_iff] at hrange
    exact hrange.1
  obtain ⟨nodes, hnodes, hlength⟩ := collect_spec (Collecting.start _ _ _) hcollect
  have hids := map_claimId_of_rows hnodes.rows
  have hperm := List.perm_insertionSort (fun a b : ClaimRecord => a.claimId ≤ b.claimId) collected
  have hsize : collected.length = nodes.length := by
    rw [← hids, List.length_map]
  refine ⟨rfl, ?_, ?_, ?_, ⟨target, hread, ?_⟩, ?_, rfl⟩
  · intro factId
    rw [(hperm.map _).mem_iff, hids]
    exact transGen_iff_of_closed hread hnodes
  · rw [(hperm.map _).nodup_iff, hids]
    exact hnodes.nodup
  · exact List.pairwise_insertionSort _ _
  · intro fact hfact
    obtain ⟨node, -, hnode⟩ := exists_left_of_forall₂ hnodes.rows fact (hperm.mem_iff.mp hfact)
    have hcurrent := currentFact_eq_ok.mp hnode
    rw [(mem_of_get hcurrent.read).2]
    exact hcurrent
  · rw [hperm.length_eq, hsize]
    rw [List.length_nil, Nat.zero_add] at hlength
    omega

/-- A subgraph is returned exactly when all of it is current and it fits the limit. -/
theorem necessarySubgraph_isOk_iff :
    (∃ graph, necessarySubgraph P s claimId limit = .ok graph) ↔ Collectable s claimId limit := by
  constructor
  · rintro ⟨graph, h⟩
    have hclosure := necessarySubgraph_spec h
    obtain ⟨_, hlimit, -⟩ := bind_eq_ok.mp h
    have hrange := rejectIf_eq_ok.mp hlimit
    rw [Bool.not_eq_false', Bool.and_eq_true, decide_eq_true_iff, decide_eq_true_iff] at hrange
    obtain ⟨target, hread, hcurrent⟩ := hclosure.current
    refine ⟨hrange, ⟨target, hread, ?_⟩, graph.facts.map (·.claimId),
      fun factId hrests => (hclosure.closure factId).mpr hrests, ?_⟩
    · intro factId hrests
      obtain ⟨fact, hfact, rfl⟩ := List.mem_map.mp ((hclosure.closure factId).mpr hrests)
      exact ⟨fact, hcurrent fact hfact⟩
    · rw [List.length_map]
      exact hclosure.bounded
  · rintro ⟨⟨hlow, hhigh⟩, ⟨target, hread, hcurrent⟩, closure, hclosure, hlength⟩
    -- what the collection reaches is among what the claim rests on
    have hreached : ∀ factId, (∃ start ∈ target.predecessorFactIds,
        ReflTransGen (Follows (currentFact s target) ClaimRecord.predecessorFactIds) start
          factId) → TransGen (RestsOn s) claimId factId := by
      rintro factId ⟨start, hstart, hpath⟩
      induction hpath with
      | refl => exact .single ((mem_facts_of_get hread).mp hstart)
      | tail _ hstep ih => exact ih.tail (follows_iff.mp hstep).2
    have hvisit : ∀ factId, TransGen (RestsOn s) claimId factId →
        ∃ fact, currentFact s target factId = .ok fact := by
      intro factId hrests
      obtain ⟨fact, hfact⟩ := hcurrent factId hrests
      exact ⟨fact, currentFact_eq_ok.mpr hfact⟩
    classical
    -- only what the claim rests on counts
    have hkept : ∀ factId ∈ closure.filter fun factId => decide (TransGen (RestsOn s) claimId factId),
        ∃ fact, currentFact s target factId = .ok fact := by
      intro factId hmem
      exact hvisit factId (of_decide_eq_true (List.mem_filter.mp hmem).2)
    have hroom : (closure.filter fun factId =>
        decide (TransGen (RestsOn s) claimId factId)).length ≤ ([] : List Id).length +
          limit.toNat := by
      have hless := List.length_filter_le
        (fun factId => decide (TransGen (RestsOn s) claimId factId)) closure
      rw [List.length_nil, Nat.zero_add]
      omega
    have hsucceeds : ∃ collected, collect (currentFact s target) ClaimRecord.predecessorFactIds
        (.scope "necessary subgraph exceeds the declared node limit") limit.toNat [] []
        target.predecessorFactIds = .ok collected :=
      collect_succeeds (Collecting.start _ _ _)
        (fun factId hpath => List.mem_filter.mpr
          ⟨hclosure factId (hreached factId hpath), decide_eq_true (hreached factId hpath)⟩)
        hkept hroom
    obtain ⟨collected, hcollect⟩ := hsucceeds
    refine ⟨_, bind_eq_ok.mpr ⟨(), rejectIf_eq_ok.mpr ?_, bind_eq_ok.mpr ⟨target, hread,
      bind_eq_ok.mpr ⟨collected, hcollect, rfl⟩⟩⟩⟩
    simp [hlow, hhigh]

/-! ## The digest -/

/-- What the digest of a subgraph depends on in a fact. -/
def factSummary (fact : ClaimRecord) : Id × Digest × List Id :=
  (fact.claimId, fact.statementDigest, fact.predecessorFactIds)

/-- Two subgraphs with the same facts have the same digest. -/
theorem digest_eq_of_same_facts {s' : ClaimLedger} {claimId' : Id} {limit' : ℤ}
    {graph graph' : NecessarySubgraph} (h : IsClosure P s claimId limit graph)
    (h' : IsClosure P s' claimId' limit' graph')
    (hsame : ∀ summary, summary ∈ graph.facts.map factSummary ↔
      summary ∈ graph'.facts.map factSummary) : graph.digest = graph'.digest := by
  have hfirst : ∀ facts : List ClaimRecord,
      (facts.map factSummary).map Prod.fst = facts.map (·.claimId) := fun facts => List.map_map
  have hnodup : ((graph.facts.map factSummary).map Prod.fst).Nodup := by
    rw [hfirst]
    exact h.once
  have hnodup' : ((graph'.facts.map factSummary).map Prod.fst).Nodup := by
    rw [hfirst]
    exact h'.once
  have hperm := (List.perm_ext_iff_of_nodup hnodup.of_map hnodup'.of_map).mpr hsame
  have hsorted : (graph.facts.map factSummary).Pairwise fun a b => a.1 ≤ b.1 :=
    List.pairwise_map.mpr h.sorted
  have hsorted' : (graph'.facts.map factSummary).Pairwise fun a b => a.1 ≤ b.1 :=
    List.pairwise_map.mpr h'.sorted
  have hequal : graph.facts.map factSummary = graph'.facts.map factSummary := by
    refine hperm.eq_of_pairwise (fun a b ha hb hle hge => ?_) hsorted hsorted'
    exact List.inj_on_of_nodup_map hnodup ha (hperm.mem_iff.mpr hb) (le_antisymm hle hge)
  have hvalues : ∀ facts : List ClaimRecord, facts.map factValue =
      (facts.map factSummary).map fun summary =>
        .obj [("claim_id", .str summary.1), ("statement_digest", .str summary.2.1),
          ("predecessor_fact_ids", Json.ofTexts summary.2.2)] := by
    intro facts
    rw [List.map_map]
    rfl
  rw [h.digest, h'.digest]
  unfold subgraphDigest
  rw [hvalues, hvalues, hequal]

/-! ## Every state that is reached -/

/-- The graph of claims and the lineage of repairs are well formed. -/
structure WellFormed (P : Platform) (s : ClaimLedger) : Prop where
  acyclic : ∀ claimId, ¬ TransGen (RestsOn s) claimId claimId
  scope : ∀ claimId factId, RestsOn s claimId factId →
    ∃ claim ∈ s.claims, ∃ fact ∈ s.claims, claim.claimId = claimId ∧ fact.claimId = factId ∧
      SameScope claim fact
  supersedes_known : ∀ new ∈ s.claims, ∀ oldId, new.supersedesClaimId = some oldId →
    ∃ old ∈ s.claims, old.claimId = oldId
  superseded_known : ∀ old ∈ s.claims, ∀ newId, old.supersededByClaimId = some newId →
    ∃ new ∈ s.claims, new.claimId = newId
  inverse : ∀ old ∈ s.claims, ∀ new ∈ s.claims,
    new.supersedesClaimId = some old.claimId ↔ old.supersededByClaimId = some new.claimId
  supersedes_once : ∀ a ∈ s.claims, ∀ b ∈ s.claims, a.supersedesClaimId ≠ none →
    a.supersedesClaimId = b.supersedesClaimId → a = b
  superseded_once : ∀ a ∈ s.claims, ∀ b ∈ s.claims, a.supersededByClaimId ≠ none →
    a.supersededByClaimId = b.supersededByClaimId → a = b
  lineage_acyclic : ∀ claimId, ¬ TransGen (Supersedes s) claimId claimId
  rejected : ∀ old ∈ s.claims, old.supersededByClaimId ≠ none → old.lifecycle = .rejected
  subgraph : ∀ claimId limit graph, necessarySubgraph P s claimId limit = .ok graph →
    IsClosure P s claimId limit graph
  returned : ∀ claimId limit, (∃ graph, necessarySubgraph P s claimId limit = .ok graph) ↔
    Collectable s claimId limit

/-- The lineage makes the graph of claims and repairs well formed. -/
theorem Lineage.wellFormed (P : Platform) (hs : Lineage s) : WellFormed P s := by
  have hinverse : ∀ old ∈ s.claims, ∀ new ∈ s.claims,
      new.supersedesClaimId = some old.claimId ↔ old.supersededByClaimId = some new.claimId := by
    intro old hold new hnew
    constructor
    · intro hsupersedes
      obtain ⟨other, hother, hid, hby⟩ := hs.supersedes new hnew _ hsupersedes
      rw [← List.inj_on_of_nodup_map hs.ids hother hold hid]
      exact hby
    · intro hby
      obtain ⟨-, other, hother, hid, hsupersedes, -⟩ := hs.superseded old hold _ hby
      rw [← List.inj_on_of_nodup_map hs.ids hother hnew hid]
      exact hsupersedes
  refine ⟨?_, ?_, ?_, ?_, hinverse, ?_, ?_, ?_, ?_, fun _ _ _ h => necessarySubgraph_spec h,
    fun _ _ => necessarySubgraph_isOk_iff⟩
  · refine @acyclic_of_place _ (place s) fun a b hrests => ?_
    obtain ⟨-, -, -, -, -, -, -, -, hplace⟩ := hs.facts a b hrests
    exact hplace
  · intro claimId factId hrests
    obtain ⟨claim, hclaim, fact, hfact, hid, hid', hscope, -⟩ := hs.facts claimId factId hrests
    exact ⟨claim, hclaim, fact, hfact, hid, hid', hscope⟩
  · intro new hnew oldId hsupersedes
    obtain ⟨old, hold, hid, -⟩ := hs.supersedes new hnew oldId hsupersedes
    exact ⟨old, hold, hid⟩
  · intro old hold newId hby
    obtain ⟨-, new, hnew, hid, -⟩ := hs.superseded old hold newId hby
    exact ⟨new, hnew, hid⟩
  · intro a ha b hb hsome hequal
    obtain ⟨oldId, hold⟩ := Option.ne_none_iff_exists'.mp hsome
    obtain ⟨old, hmem, hid, hby⟩ := hs.supersedes a ha oldId hold
    have hby' := (hinverse old hmem b hb).mp (by rw [← hequal, hold, hid])
    rw [hby] at hby'
    exact List.inj_on_of_nodup_map hs.ids ha hb (Option.some.inj hby')
  · intro a ha b hb hsome hequal
    obtain ⟨newId, hnew⟩ := Option.ne_none_iff_exists'.mp hsome
    obtain ⟨-, new, hmem, hid, hsupersedes, -⟩ := hs.superseded a ha newId hnew
    have hsupersedes' := (hinverse b hb new hmem).mpr (by rw [← hequal, hnew, hid])
    rw [hsupersedes] at hsupersedes'
    exact List.inj_on_of_nodup_map hs.ids ha hb (Option.some.inj hsupersedes')
  · refine @acyclic_of_place _ (place s) fun a b => ?_
    rintro ⟨new, hnew, rfl, hsupersedes⟩
    obtain ⟨old, hold, rfl, hby⟩ := hs.supersedes new hnew b hsupersedes
    obtain ⟨-, -, -, -, -, hplace⟩ := hs.superseded old hold _ hby
    exact hplace
  · intro old hold hsome
    obtain ⟨newId, hnew⟩ := Option.ne_none_iff_exists'.mp hsome
    exact (hs.superseded old hold newId hnew).1

/-- A claim that rests on a fact after an operation did so before, or was submitted now, on a
fact that is verified. -/
theorem restsOn_step {op : ClaimOp} (h : RestsOn (step P s op) claimId factId) :
    RestsOn s claimId factId ∨
      claimId ∉ s.claims.map ProductClaim.claimId ∧
      claimId ∈ (step P s op).claims.map ProductClaim.claimId ∧
      ∃ fact ∈ s.claims, fact.claimId = factId ∧ Verified fact := by
  cases op with
  | submit submission subjectId newId now =>
    change RestsOn (((checkedSubmit P s submission subjectId newId now).map
      Prod.snd).toOption.getD s) claimId factId at h
    change _ ∨ _ ∧ claimId ∈ (((checkedSubmit P s submission subjectId newId now).map
      Prod.snd).toOption.getD s).claims.map _ ∧ _
    cases hcheck : checkedSubmit P s submission subjectId newId now with
    | error error =>
      rw [hcheck] at h
      exact Or.inl h
    | ok result =>
      rw [hcheck] at h
      obtain ⟨row, hrow, rfl, rfl⟩ := h
      change row ∈ result.2.predecessors at hrow
      rcases submit_spec (checkedSubmit_eq_ok hcheck) with heq | hsubmitted
      · rw [heq] at hrow
        exact Or.inl ⟨row, hrow, rfl, rfl⟩
      · rcases (hsubmitted.predecessors row).mp hrow with hold | ⟨hid, hnamed⟩
        · exact Or.inl ⟨row, hold, rfl, rfl⟩
        · right
          obtain ⟨fact, hfact, hfactId, hnamedFact⟩ :=
            hsubmitted.facts row.factId (List.mem_of_getElem? hnamed)
          refine ⟨?_, ?_, fact, hfact, hfactId, hnamedFact.verified⟩
          · intro hin
            obtain ⟨old, hold, heq⟩ := List.mem_map.mp hin
            exact hsubmitted.fresh old hold (heq.trans hid)
          · show row.claimId ∈ result.2.claims.map ProductClaim.claimId
            rw [hsubmitted.claims, hid]
            refine List.mem_map.mpr ⟨_, mem_updateWhere.mpr
              ⟨_, List.mem_append_right _ (List.mem_singleton_self _), rfl⟩, ?_⟩
            split <;> rfl
  | verdict receipt now =>
    change RestsOn (((recordKernelVerdict s receipt now).map Prod.snd).toOption.getD s)
      claimId factId at h
    left
    cases hverdict : recordKernelVerdict s receipt now with
    | error error =>
      rw [hverdict] at h
      exact h
    | ok result =>
      rw [hverdict] at h
      obtain ⟨row, hrow, hboth⟩ := h
      obtain ⟨-, -, -, -, hpredecessors, -⟩ := recordKernelVerdict_spec hverdict
      change row ∈ result.2.predecessors at hrow
      rw [hpredecessors] at hrow
      exact ⟨row, hrow, hboth⟩

def SubmittedOnFacts (P : Platform) (history : List ClaimOp) : Prop :=
  ∀ claimId factId, RestsOn (reached P history) claimId factId →
    ∃ before op after, history = before ++ op :: after ∧
      claimId ∉ (reached P before).claims.map ProductClaim.claimId ∧
      claimId ∈ (reached P (before ++ [op])).claims.map ProductClaim.claimId ∧
      ∃ fact ∈ (reached P before).claims, fact.claimId = factId ∧ Verified fact

theorem submittedOnFacts (P : Platform) (history : List ClaimOp) : SubmittedOnFacts P history := by
  induction history using List.reverseRecOn with
  | nil =>
    rintro claimId factId ⟨row, hrow, -⟩
    cases hrow
  | append_singleton history op ih =>
    intro claimId factId hrests
    have hstep : reached P (history ++ [op]) = step P (reached P history) op :=
      runFrom_concat _ _ _ _
    rw [hstep] at hrests
    rcases restsOn_step hrests with hold | ⟨hfresh, hadded, hfact⟩
    · obtain ⟨before, earlier, after, rfl, hbefore⟩ := ih claimId factId hold
      exact ⟨before, earlier, after ++ [op], by rw [List.append_assoc, List.cons_append], hbefore⟩
    · refine ⟨history, op, [], rfl, hfresh, ?_, hfact⟩
      rw [hstep]
      exact hadded

/-- The digest of a subgraph depends only on the facts in it, whatever states they are read in. -/
def DigestOfFacts (P : Platform) : Prop :=
  ∀ s s' claimId claimId' limit limit' graph graph',
    necessarySubgraph P s claimId limit = .ok graph →
    necessarySubgraph P s' claimId' limit' = .ok graph' →
    (∀ summary, summary ∈ graph.facts.map factSummary ↔ summary ∈ graph'.facts.map factSummary) →
    graph.digest = graph'.digest

/-- The graph of claims, the lineage of repairs and the necessary subgraphs are well formed. -/
theorem claim_graph_well_formed (P : Platform) :
    (∀ history, WellFormed P (reached P history) ∧ SubmittedOnFacts P history) ∧
      DigestOfFacts P := by
  refine ⟨fun history => ⟨(lineage_reached P history).wellFormed P, submittedOnFacts P history⟩, ?_⟩
  intro s s' claimId claimId' limit limit' graph graph' h h'
  exact digest_eq_of_same_facts (necessarySubgraph_spec h) (necessarySubgraph_spec h')

end ResearchKernel.Product.Claims
