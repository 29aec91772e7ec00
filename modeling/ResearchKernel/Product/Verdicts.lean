import ResearchKernel.Product.Restoration

/-!
# Two verdicts on one object

The engine gives an object to a consumer as long as its binding is not withdrawn, and never
withdraws a withdrawal. The revocation service reports an object as restored when a recovery is
above all events that list it. In a run that is caught up the two verdicts on an object differ
exactly when it has such a recovery, or when the run has no watermark yet.
-/

namespace ResearchKernel.Product

open Foundation Store

section Verdicts

variable {tables : RevocationStore} {kind : AuthorityObjectKind} {objectId : Id}
  {binding : BindingRow} {required : ℤ}

/-- The engine gives the object of a caught-up run to its consumers while it is not withdrawn. -/
theorem consumable_iff (hfind : tables.engine.getBinding? kind objectId = some binding)
    {row : WatermarkRow} (hrow : tables.engine.watermark? binding.runId = some row)
    (hcaught : row.caughtUp = true) (hrequired : required ≤ row.processedRevision) :
    (∃ found, assertConsumable tables.engine tables.engine binding.runId kind objectId required =
      .ok found) ↔ binding.state = .valid := by
  have hrecorded := recorded_le_of_caughtUp hcaught
  have hlag : (decide ((row.processedRevision : ℤ) < required) ||
      decide (row.processedSequence < row.recordedSequence)) = false := by
    rw [Bool.or_eq_false_iff, decide_eq_false_iff_not, decide_eq_false_iff_not]
    constructor <;> omega
  unfold assertConsumable
  rw [hrow, orReject_bind_of_some rfl, rejectIf_bind_of_passes hlag, hfind,
    orReject_bind_of_some rfl, rejectIf_bind_of_passes (by simp)]
  constructor
  · rintro ⟨found, hok⟩
    obtain ⟨⟨⟩, hvalid, -⟩ := bind_eq_ok.mp hok
    rwa [rejectIf_eq_ok, bne_eq_false_iff_eq] at hvalid
  · intro hvalid
    refine ⟨binding, ?_⟩
    rw [rejectIf_bind_of_passes (by simp [hvalid])]
    rfl

/-- The revocation service calls an object valid while it is not withdrawn. -/
theorem effectiveState_valid (hfind : tables.engine.getBinding? kind objectId = some binding) :
    tables.effectiveState binding.runId kind objectId = .ok .valid ↔ binding.state = .valid := by
  unfold RevocationStore.effectiveState
  rw [hfind, orReject_bind_of_some rfl, rejectIf_bind_of_passes (by simp)]
  constructor
  · intro hok
    split at hok
    · next hstate => exact beq_iff_eq.mp hstate
    · split at hok <;> cases hok
  · intro hstate
    rw [hstate, if_pos (by decide)]
    rfl

theorem invalidated_of_recovers (h : tables.Restorable)
    (hfind : tables.engine.getBinding? kind objectId = some binding) {row : RecoveryRow}
    (hrow : tables.Recovers binding.runId kind objectId row) : binding.state = .invalidated := by
  obtain ⟨hmem, hkey⟩ := (RevocationStore.getBinding?_eq_some h.recorded).mp hfind
  obtain ⟨hrecovery, -, hkind, hid⟩ := hrow
  obtain ⟨other, hother, hkey', -, hstate⟩ := h.withdrawn row hrecovery
  rw [hkind, hid] at hkey'
  have hsame : other = binding :=
    List.inj_on_of_nodup_map h.recorded.keys hother hmem (hkey'.trans hkey.symm)
  exact hsame ▸ hstate

theorem valid_of_no_watermark (h : tables.Restorable)
    (hfind : tables.engine.getBinding? kind objectId = some binding)
    (hnone : tables.engine.watermark? binding.runId = none) : binding.state = .valid := by
  obtain ⟨hmem, -⟩ := (RevocationStore.getBinding?_eq_some h.recorded).mp hfind
  obtain ⟨processedAt, hview⟩ := h.view
  rw [hview.bindings binding hmem, state_of_view]
  intro event hfirst _
  obtain ⟨hevent, hlists, -⟩ := firstListing_spec h.recorded hfirst
  have hrun := runId_of_lists h.recorded hmem hevent hlists
  have hsome := h.recorded.watermark?_eq hevent
  rw [hrun, hnone] at hsome
  cases hsome

end Verdicts

/-- The verdicts on a registered object of a caught-up run agree exactly if the run has a
watermark and every recovery of the object is followed by an event, at its revision or a later
one, that lists the object again. -/
theorem verdicts_agree_iff {P : Platform} {ops : List RevocationOp} {kind : AuthorityObjectKind}
    {objectId : Id} {binding : BindingRow} {required : ℤ}
    (hfind : (revocationsReached P ops).engine.getBinding? kind objectId = some binding)
    (hcaught : ((revocationsReached P ops).engine.watermark binding.runId).caughtUp = true)
    (hrequired : required ≤
      ((revocationsReached P ops).engine.watermark binding.runId).processedRevision) :
    ((∃ found, assertConsumable (revocationsReached P ops).engine
        (revocationsReached P ops).engine binding.runId kind objectId required = .ok found) ↔
      (revocationsReached P ops).effectiveState binding.runId kind objectId = .ok .valid ∨
        (revocationsReached P ops).effectiveState binding.runId kind objectId = .ok .restored) ↔
    (revocationsReached P ops).engine.watermark? binding.runId ≠ none ∧
      ∀ row ∈ (revocationsReached P ops).recoveries, row.runId = binding.runId →
        row.restoredObjectKind = kind → row.restoredObjectId = objectId →
        ∃ event ∈ (revocationsReached P ops).engine.ledger, event.runId = binding.runId ∧
          event.intent.lists kind objectId = true ∧
          row.kernelRevision ≤ event.researchRevision := by
  have h := restorable_revocationsReached P ops
  generalize revocationsReached P ops = tables at h hfind hcaught hrequired ⊢
  rw [effectiveState_valid hfind, RevocationStore.effectiveState_restored h]
  cases hwatermark : tables.engine.watermark? binding.runId with
  | none =>
    -- nothing is withdrawn, but the consumer is refused for want of a watermark
    refine iff_of_false ?_ fun hboth => hboth.1 rfl
    intro hagree
    obtain ⟨found, hok⟩ := hagree.mpr (Or.inl (valid_of_no_watermark h hfind hwatermark))
    unfold assertConsumable at hok
    rw [hwatermark, orReject_bind_of_none rfl] at hok
    cases hok
  | some row =>
    have hrow : tables.engine.watermark binding.runId = row := by
      unfold Store.watermark
      rw [hwatermark]
      rfl
    rw [hrow] at hcaught hrequired
    rw [consumable_iff hfind hwatermark hcaught hrequired]
    have hcarried := carried_of_caughtUp h.recorded
      (by rw [hrow]; exact recorded_le_of_caughtUp hcaught)
    constructor
    · intro hagree
      refine ⟨by simp, ?_⟩
      intro recovery hrecovery hrun hkind hid
      by_contra hnone
      have houtlives : tables.Outlives binding.runId kind objectId := by
        refine ⟨recovery, ⟨hrecovery, hrun, hkind, hid⟩, ?_⟩
        rintro event ⟨hevent, -, hscope, hlists⟩
        by_contra hle
        exact hnone ⟨event, hevent, hscope, hlists, not_lt.mp hle⟩
      have hvalid := hagree.mpr (Or.inr houtlives)
      rw [invalidated_of_recovers h hfind ⟨hrecovery, hrun, hkind, hid⟩] at hvalid
      cases hvalid
    · rintro ⟨-, hfollowed⟩
      refine ⟨Or.inl, ?_⟩
      rintro (hvalid | ⟨recovery, ⟨hrecovery, hrun, hkind, hid⟩, habove⟩)
      · exact hvalid
      · obtain ⟨event, hevent, hscope, hlists, hle⟩ :=
          hfollowed recovery hrecovery hrun hkind hid
        have hlt := habove event ⟨hevent, hcarried event hevent hscope, hscope, hlists⟩
        omega

namespace Sample

/-- The review is bound, its run is caught up, and the recovered review is refused to consumers. -/
theorem verdict_states :
    (revocationsReached targetPlatform halfReplaced).engine.getBinding? .review "review" ≠ none ∧
      ((revocationsReached targetPlatform halfReplaced).engine.bindings.map fun row =>
        (row.runId, row.state)) = [("run", BindingState.invalidated)] ∧
      ((revocationsReached targetPlatform halfReplaced).engine.watermark "run").caughtUp = true ∧
      ((revocationsReached targetPlatform halfReplaced).engine.watermark
        "run").processedRevision = 6 := by
  decide +kernel

theorem bound_states :
    ((revocationsReached platform ((bound 2).map .engine)).engine.getBinding? .review "review") =
        some (review 2).row ∧
      (revocationsReached platform ((bound 2).map .engine)).recoveries.length = 0 ∧
      ((revocationsReached platform ((bound 2).map .engine)).engine.watermark "run").caughtUp =
        true ∧
      ((revocationsReached platform ((bound 2).map .engine)).engine.watermark
        "run").processedRevision = 2 ∧
      ((revocationsReached platform ((bound 2).map .engine)).engine.watermark? "run").isSome =
        true := by
  decide +kernel

end Sample

/-- A review with a recovery above all events that list it is reported restored, and refused to
its consumers. -/
theorem restored_but_refused : ¬ ∀ P ops kind objectId binding required,
    (revocationsReached P ops).engine.getBinding? kind objectId = some binding →
    ((revocationsReached P ops).engine.watermark binding.runId).caughtUp = true →
    required ≤ (((revocationsReached P ops).engine.watermark binding.runId).processedRevision : ℤ) →
    ((∃ found, assertConsumable (revocationsReached P ops).engine
        (revocationsReached P ops).engine binding.runId kind objectId required = .ok found) ↔
      (revocationsReached P ops).effectiveState binding.runId kind objectId = .ok .valid ∨
        (revocationsReached P ops).effectiveState binding.runId kind objectId =
          .ok .restored) := by
  intro h
  obtain ⟨hbound, hbindings, hcaught, hrevision⟩ := Sample.verdict_states
  obtain ⟨binding, hfind⟩ := Option.ne_none_iff_exists'.mp hbound
  obtain ⟨hmem, -⟩ := (RevocationStore.getBinding?_eq_some
    (restorable_revocationsReached _ _).recorded).mp hfind
  have hrow := List.mem_map_of_mem (f := fun row : BindingRow => (row.runId, row.state)) hmem
  rw [hbindings, List.mem_singleton, Prod.mk.injEq] at hrow
  obtain ⟨hrun, hstate⟩ := hrow
  have hagree := h Sample.targetPlatform Sample.halfReplaced .review "review" binding 6 hfind
  rw [hrun] at hagree
  obtain ⟨found, hok⟩ := (hagree hcaught (by rw [hrevision]; decide)).mpr
    (Or.inr (eq_ok_of_toOption Sample.halfReplaced_states.1))
  obtain ⟨-, hfound, hkey, -, hvalid⟩ := assertConsumable_spec hok
  have hrow := List.mem_map_of_mem (f := fun row : BindingRow => (row.runId, row.state)) hfound
  rw [hbindings, List.mem_singleton, Prod.mk.injEq, hvalid] at hrow
  exact absurd hrow.2 (by decide)

/-- The verdicts on a review that was bound at revision 2 agree. -/
theorem verdicts_agree_of_bound :
    (∃ found, assertConsumable
        (revocationsReached Sample.platform ((Sample.bound 2).map .engine)).engine
        (revocationsReached Sample.platform ((Sample.bound 2).map .engine)).engine "run" .review
        "review" 2 = .ok found) ↔
      (revocationsReached Sample.platform ((Sample.bound 2).map .engine)).effectiveState "run"
          .review "review" = .ok .valid ∨
        (revocationsReached Sample.platform ((Sample.bound 2).map .engine)).effectiveState "run"
          .review "review" = .ok .restored := by
  obtain ⟨hfind, hrecoveries, hcaught, hrevision, hwatermark⟩ := Sample.bound_states
  refine (verdicts_agree_iff hfind hcaught ?_).mpr ⟨Option.isSome_iff_ne_none.mp hwatermark, ?_⟩
  · exact_mod_cast hrevision.ge
  · intro row hrow
    rw [List.length_eq_zero_iff.mp hrecoveries] at hrow
    cases hrow

end ResearchKernel.Product
