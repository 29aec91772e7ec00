import ResearchKernel.ClaimGraph.Failure

/-!
# Closures after a new edge

A new logical edge is a new dependency of every claim at the head of one of its arcs, and
these claims have to be closed again. The command withdraws the closure of the claim at
which the edge ends, whatever its direction. So an edge in reverse and an edge in both
directions leave the claim at which they start as closed as it was, and an edge in reverse
also withdraws the closure of a claim that it is no dependency of.
-/

namespace ResearchKernel

open Foundation

/-- The arcs of the edge that a command registers. -/
def RegisterClaimEdge.arcs (p : RegisterClaimEdge) : List (Id × Id) :=
  directedArcs (.str p.fromClaimId) (.str p.toClaimId) (.str p.direction.wire)

/-- The claim is the head of an arc of the new edge. -/
def RegisterClaimEdge.IsHead (p : RegisterClaimEdge) (id : Id) : Prop :=
  ∃ arc ∈ p.arcs, arc.2 = id

/-- After the command no head of the new edge is closed, and no other claim has another
closure than before. -/
structure ReopensDependents (p : RegisterClaimEdge) (db db' : Db) : Prop where
  heads_open : ∀ claim ∈ db'.claims, p.IsHead claim.claimId → claim.closureState.isClosed = false
  others_kept : ∀ claim ∈ db.claims, ¬ p.IsHead claim.claimId → ∀ claim' ∈ db'.claims,
    claim'.claimId = claim.claimId → claim'.closureState = claim.closureState

/-- The closures of the ends of the edge are such that it does not matter which one of them
the command withdraws. -/
structure ClosuresSettled (p : RegisterClaimEdge) (db : Db) : Prop where
  source_open : p.direction ≠ .forward → ∀ claim ∈ db.claims, claim.claimId = p.fromClaimId →
    claim.closureState.isClosed = false
  target_fallen : p.direction = .reverse → ∀ claim ∈ db.claims, claim.claimId = p.toClaimId →
    claim.closureState = .notRequired ∨ claim.closureState = .invalidated

section Heads

variable {p : RegisterClaimEdge} {id : Id}

theorem RegisterClaimEdge.isHead_iff : p.IsHead id ↔
    p.direction ≠ .reverse ∧ id = p.toClaimId ∨ p.direction ≠ .forward ∧ id = p.fromClaimId := by
  unfold RegisterClaimEdge.IsHead RegisterClaimEdge.arcs
  cases hdirection : p.direction with
  | forward | reverse | bidirectional => simp [Direction.wire, directedArcs, Json.isText, eq_comm]

end Heads

section Effects

variable {P : Platform} {policy : Policy} {db db' : Db} {op : ApplyOp} {p : RegisterClaimEdge}

/-- The claims after a new edge: that at which it ends has lost its closure. -/
theorem Accepted.claims_of_registerClaimEdge (accepted : Accepted P policy db op db')
    (hcommand : op.request.command = .registerClaimEdge p) :
    db'.claims = updateWhere
      (fun claim => claim.claimId == p.toClaimId && claim.closureState != .notRequired)
      Claim.unclosed db.claims := by
  have hhandle := accepted.handled
  rw [hcommand] at hhandle
  obtain ⟨before, hbefore, hlast⟩ :=
    accepted.projected_pair (Guard.emits_registerClaimEdge p _ hhandle)
  have hclaims : before.claims = db.claims :=
    (congrArg Records.claims (Projection.records_of_apply hbefore)).trans
      (congrArg Records.claims accepted.mid_same)
  rw [← hclaims, accepted.last_same.claims, ← Option.some.inj hlast]
  rfl

theorem ends_ne_of_registerClaimEdge {context : GuardContext} {mutations : List Mutation}
    (h : Guard.handleRegisterClaimEdge context p = .ok mutations) :
    p.fromClaimId ≠ p.toClaimId := by
  obtain ⟨⟨⟩, hscope, -⟩ := bind_eq_ok.mp h
  simp only [rejectIf_eq_ok, Bool.or_eq_false_iff, beq_eq_false_iff_ne] at hscope
  exact hscope.2

theorem Accepted.ends_of_registerClaimEdge (accepted : Accepted P policy db op db')
    (hcommand : op.request.command = .registerClaimEdge p) : p.fromClaimId ≠ p.toClaimId := by
  have hhandle := accepted.handled
  rw [hcommand] at hhandle
  exact ends_ne_of_registerClaimEdge hhandle

/-- An accepted edge reopens its dependents exactly when the closures of its ends are settled. -/
theorem Accepted.reopensDependents_iff (accepted : Accepted P policy db op db')
    (hunique : db.records.UniqueClaims) (hcommand : op.request.command = .registerClaimEdge p) :
    ReopensDependents p db db' ↔ ClosuresSettled p db := by
  have hclaims := accepted.claims_of_registerClaimEdge hcommand
  have hne := accepted.ends_of_registerClaimEdge hcommand
  constructor
  · rintro ⟨hheads, hothers⟩
    refine ⟨fun hdirection claim hclaim hid => ?_, fun hdirection claim hclaim hid => ?_⟩
    · -- The claim at the start of the edge is left as it is.
      refine hheads claim ?_ (RegisterClaimEdge.isHead_iff.mpr (Or.inr ⟨hdirection, hid⟩))
      rw [hclaims]
      exact mem_updateWhere.mpr ⟨claim, hclaim, if_neg (by simp [hid, hne])⟩
    · by_contra hfallen
      rw [not_or] at hfallen
      have hother : ¬ p.IsHead claim.claimId := by
        rw [RegisterClaimEdge.isHead_iff, hid]
        simp [hdirection, hne.symm]
      have hkept := hothers claim hclaim hother claim.unclosed (by
        rw [hclaims]
        exact mem_updateWhere.mpr ⟨claim, hclaim, if_pos (by simp [hid, hfallen.1])⟩) rfl
      exact hfallen.2 hkept.symm
  · rintro ⟨hsource, htarget⟩
    refine ⟨fun claim' hclaim' hhead => ?_, fun claim hclaim hother claim' hclaim' hid => ?_⟩
    · rw [hclaims] at hclaim'
      obtain ⟨claim, hclaim, rfl⟩ := mem_updateWhere.mp hclaim'
      split
      · rfl
      · rename_i htest
        rw [if_neg htest] at hhead
        rcases RegisterClaimEdge.isHead_iff.mp hhead with ⟨-, hid⟩ | ⟨hdirection, hid⟩
        · have hneeded : claim.closureState = .notRequired := by simpa [hid] using htest
          rw [hneeded]
          rfl
        · exact hsource hdirection claim hclaim hid
    · rw [hclaims] at hclaim'
      obtain ⟨old, hold, rfl⟩ := mem_updateWhere.mp hclaim'
      have hsame : old = claim := by
        refine hunique.eq hold hclaim (Eq.trans ?_ hid)
        split <;> rfl
      subst hsame
      split
      · rename_i htest
        simp only [Bool.and_eq_true, beq_iff_eq, bne_iff_ne] at htest
        have hdirection : p.direction = .reverse := by
          by_contra hdirection
          exact hother (RegisterClaimEdge.isHead_iff.mpr (Or.inl ⟨hdirection, htest.1⟩))
        exact ((htarget hdirection old hold htest.1).resolve_left htest.2).symm
      · rfl

end Effects

/-- In every reachable state an accepted edge reopens its dependents, and nothing else,
exactly when the closures of its ends are settled. -/
theorem edge_reopens_dependents_iff (P : Platform) (policy : Policy) (ops : List Op)
    (op : ApplyOp) (haccepts : op.Accepts P policy (reached P policy ops))
    (p : RegisterClaimEdge) (hcommand : op.request.command = .registerClaimEdge p) :
    ReopensDependents p (reached P policy ops) (op.apply P policy (reached P policy ops)) ↔
      ClosuresSettled p (reached P policy ops) := by
  obtain ⟨accepted⟩ := accepted_of_accepts haccepts
  exact accepted.reopensDependents_iff (rootInvariant_reached P policy ops).uniqueClaims hcommand

namespace Sample

/-- The edge between the lemma and the root, after the lemma has been closed. -/
def closedEdge (direction : Direction) : ApplyOp := request 5 (registerEdge direction) [edge]

/-- What becomes of the edges of the lemma that is closed. -/
theorem closedEdge_outcomes :
    (closedEdge .forward).Accepts platform policy (reached platform policy closed) ∧
      (closedEdge .reverse).Accepts platform policy (reached platform policy closed) ∧
      ∃ claim ∈ ((closedEdge .reverse).apply platform policy
        (reached platform policy closed)).claims,
        claim.claimId = lemmaId ∧ claim.closureState.isClosed = true := by decide +kernel

end Sample

/-- The edge that goes forward from the closed lemma reopens the root alone. -/
theorem edge_reopens_dependents_forward :
    ∃ p, (Sample.closedEdge .forward).request.command = .registerClaimEdge p ∧
      ReopensDependents p (reached Sample.platform Sample.policy Sample.closed)
        ((Sample.closedEdge .forward).apply Sample.platform Sample.policy
          (reached Sample.platform Sample.policy Sample.closed)) :=
  ⟨_, rfl, (edge_reopens_dependents_iff Sample.platform Sample.policy Sample.closed
    (Sample.closedEdge .forward) Sample.closedEdge_outcomes.1 _ rfl).mpr
      ⟨fun hforward => absurd rfl hforward, fun hreverse => by cases hreverse⟩⟩

/-- The edge in reverse makes the closed lemma depend on the root and leaves it closed. -/
theorem edge_in_reverse_leaves_closed :
    (Sample.closedEdge .reverse).Accepts Sample.platform Sample.policy
        (reached Sample.platform Sample.policy Sample.closed) ∧
      ∃ p, (Sample.closedEdge .reverse).request.command = .registerClaimEdge p ∧
        p.edgeKind.isLogical = true ∧
        ¬ ReopensDependents p (reached Sample.platform Sample.policy Sample.closed)
          ((Sample.closedEdge .reverse).apply Sample.platform Sample.policy
            (reached Sample.platform Sample.policy Sample.closed)) := by
  obtain ⟨-, haccepts, claim, hclaim, hid, hclosed⟩ := Sample.closedEdge_outcomes
  refine ⟨haccepts, _, rfl, rfl, fun hreopens => ?_⟩
  have hopen := hreopens.heads_open claim hclaim
    (RegisterClaimEdge.isHead_iff.mpr (Or.inr ⟨by decide, hid⟩))
  rw [hclosed] at hopen
  cases hopen

end ResearchKernel
