import ResearchKernel.Authority.Machine
import ResearchKernel.Composition.Validated

/-!
# Accepted witnesses and the registered graph

The validator compares the arcs, the kinds and the rules of a selected subgraph with the
registered rows, but reads justifications and the statuses of parts from the subgraph
itself. An accepted witness is judged on the registered graph exactly when the subgraph
repeats what is registered where this matters.
-/

namespace ResearchKernel

open Foundation

/-- A selected edge repeats the justification of a registered one. -/
def RepeatsJustification (selected : JsonObject) (edge : ClaimEdge) : Prop :=
  selected.get "justification_kind" = .str edge.justificationKind.wire ∧
    selected.get "justification_ref" = .str edge.justificationRef

/-- A registered edge crosses the bridge it rests on only as the bridge allows. -/
def CrossesValidly (snapshot : Snapshot) (edge : ClaimEdge) : Prop :=
  ∃ bridge, snapshot.bridge? edge.justificationRef = some bridge ∧
    ∀ arc ∈ edge.arcs, bridgeDirectionValid bridge arc = true

/-- A closure witness that is judged on the registered graph. -/
structure JudgedOnRegistered (snapshot : Snapshot) (payload : SubmitClosureWitness) : Prop where
  /-- Selected logical edges carry the registered justification. -/
  justified : ∀ entry ∈ payload.selected.edges, selectedIsLogical entry.2 = true →
    ∀ edge, snapshot.edge? entry.1 = some edge → RepeatsJustification entry.2 edge
  /-- The bridges of selected edges are declared and crossed validly. -/
  bridged : ∀ entry ∈ payload.selected.edges, ∀ edge, snapshot.edge? entry.1 = some edge →
    edge.justificationKind = .bridge →
    edge.justificationRef ∈ payload.bridgeDependencyIds ∧ CrossesValidly snapshot edge
  /-- A closure by machine rests on no registered part that is attested by humans. -/
  machine : payload.compositionMode = .machine →
    ∀ id ∈ requiredObligationIds snapshot payload.parentClaimId payload.contractVersion,
    ∀ obligation, snapshot.obligation? id = some obligation →
    ∀ part ∈ obligation.parts.named, part.2.status ≠ .humanAttested
  /-- No closure rests on a registered part that is open. -/
  noOpen : ∀ id ∈ requiredObligationIds snapshot payload.parentClaimId payload.contractVersion,
    ∀ obligation, snapshot.obligation? id = some obligation →
    ∀ part ∈ obligation.parts.named, part.2.status ≠ .isOpen

/-- A subgraph that repeats what is registered where the validator does not look it up. -/
structure RepeatsRegistered (snapshot : Snapshot) (payload : SubmitClosureWitness) : Prop where
  /-- Logical edges repeat the registered justification. -/
  justified : ∀ entry ∈ payload.selected.edges, selectedIsLogical entry.2 = true →
    ∀ edge, snapshot.edge? entry.1 = some edge → RepeatsJustification entry.2 edge
  /-- Bridges of registered edges are listed, and an edge that is not logical names its
  bridge or crosses it validly anyway. -/
  bridges : ∀ entry ∈ payload.selected.edges, ∀ edge, snapshot.edge? entry.1 = some edge →
    edge.justificationKind = .bridge →
    edge.justificationRef ∈ payload.selected.bridges.map Prod.fst ∧
      (selectedIsLogical entry.2 = false →
        RepeatsJustification entry.2 edge ∨ CrossesValidly snapshot edge)
  /-- Parts that are open, or attested by humans in a closure by machine, keep their status. -/
  statuses : ∀ entry ∈ payload.selected.obligations,
    ∀ obligation, snapshot.obligation? entry.1 = some obligation →
    ∀ part ∈ obligation.parts.named,
      part.2.status = .isOpen ∨
        payload.compositionMode = .machine ∧ part.2.status = .humanAttested →
      (obligationPart entry.2 part.1 part.2).get "status" = .str part.2.status.wire

namespace Validated

variable {P : Platform} {snapshot : Snapshot} {payload : SubmitClosureWitness} {policy : Policy}
  {closure : ClosureState} (v : Validated P snapshot payload policy closure)

include v

variable {entry : Id × JsonObject}

theorem arcs_eq (hentry : entry ∈ payload.selected.edges) {edge : ClaimEdge}
    (hedge : snapshot.edge? entry.1 = some edge) :
    selectedArcs entry.2 = edge.arcs := by
  have hcheck := checkAll_eq_ok.mp v.edges entry hentry
  obtain ⟨registered, hregistered, h⟩ := bind_eq_ok.mp hcheck
  obtain ⟨⟨⟩, harcs, -⟩ := bind_eq_ok.mp h
  have hfound := (Option.filter_eq_some_iff.mp (orReject_eq_ok.mp hregistered)).1
  obtain rfl : registered = edge := Option.some.inj (hfound.symm.trans hedge)
  simp only [rejectIf_eq_ok, Bool.or_eq_false_iff, bne_eq_false_iff_eq] at harcs
  exact harcs.1

/-- The declared bridges are the selected ones. -/
theorem mem_bridges (id : Id) :
    id ∈ payload.bridgeDependencyIds ↔ id ∈ payload.selected.bridges.map Prod.fst := by
  obtain ⟨⟨⟩, hsame, -⟩ := bind_eq_ok.mp v.bridges
  rw [rejectIf_eq_ok, Bool.not_eq_false'] at hsame
  exact sameSet_iff.mp hsame id

/-- An edge that names a selected bridge crosses it validly. -/
theorem crossesValidly (hentry : entry ∈ payload.selected.edges) {edge : ClaimEdge}
    (hedge : snapshot.edge? entry.1 = some edge) (hkind : edge.justificationKind = .bridge)
    (hlisted : edge.justificationRef ∈ payload.selected.bridges.map Prod.fst)
    (hrepeats : RepeatsJustification entry.2 edge) : CrossesValidly snapshot edge := by
  obtain ⟨⟨id, fields⟩, hbridge, hid⟩ := List.mem_map.mp hlisted
  obtain ⟨⟨⟩, -, h⟩ := bind_eq_ok.mp v.bridges
  have hcheck := checkAll_eq_ok.mp h (id, fields) hbridge
  obtain ⟨bridge, hfound, h⟩ := bind_eq_ok.mp hcheck
  have hlookup := (Option.filter_eq_some_iff.mp (orReject_eq_ok.mp hfound)).1
  simp only [rejectIf_eq_ok, Bool.or_eq_false_iff, Bool.not_eq_false', List.all_eq_true] at h
  have hid : id = edge.justificationRef := hid
  subst hid
  refine ⟨bridge, hlookup, fun arc harc => h.2 arc ?_⟩
  refine List.mem_flatMap.mpr ⟨entry, hentry, ?_⟩
  obtain ⟨hnamesKind, hnamesRef⟩ := hrepeats
  rw [hkind] at hnamesKind
  rw [hnamesKind, hnamesRef, v.arcs_eq hentry hedge]
  simpa [JustificationKind.wire, Json.isText] using harc

theorem required_selected {id : Id}
    (hid : id ∈ requiredObligationIds snapshot payload.parentClaimId payload.contractVersion) :
    ∃ fields, (id, fields) ∈ payload.selected.obligations := by
  obtain ⟨⟨⟩, hsame, -⟩ := bind_eq_ok.mp v.obligationIds
  rw [rejectIf_eq_ok, Bool.not_eq_false'] at hsame
  obtain ⟨⟨key, fields⟩, hentry, rfl⟩ := List.mem_map.mp ((sameSet_iff.mp hsame id).mpr hid)
  exact ⟨fields, hentry⟩

/-- The statuses that the validator collects are those of the submitted parts. -/
theorem status_mem (hentry : entry ∈ payload.selected.obligations) {obligation : Obligation}
    (hfound : snapshot.obligation? entry.1 = some obligation) {part : String × Part}
    (hpart : part ∈ obligation.parts.named) :
    (obligationPart entry.2 part.1 part.2).get "status" ∈ v.statuses := by
  obtain ⟨all, hall, h⟩ := bind_eq_ok.mp v.statuses_eq
  obtain ⟨⟨⟩, -, h⟩ := bind_eq_ok.mp h
  have hcollected := pure_eq_ok.mp h
  obtain ⟨statuses, hstatuses, hsubset⟩ := exists_of_collect hall hentry
  obtain ⟨registered, hregistered, h⟩ := bind_eq_ok.mp hstatuses
  obtain ⟨⟨⟩, -, h⟩ := bind_eq_ok.mp h
  obtain ⟨given, hgiven, h⟩ := bind_eq_ok.mp h
  obtain ⟨⟨⟩, -, h⟩ := bind_eq_ok.mp h
  obtain rfl := pure_eq_ok.mp h
  obtain rfl : registered = obligation :=
    Option.some.inj ((orReject_eq_ok.mp hregistered).symm.trans hfound)
  have hmem : (part.1, obligationPart entry.2 part.1 part.2) ∈
      obligationParts entry.2 registered := List.mem_map.mpr ⟨part, hpart, rfl⟩
  obtain ⟨single, hsingle, hpartSubset⟩ := exists_of_collect hgiven hmem
  obtain ⟨⟨⟩, -, h⟩ := bind_eq_ok.mp hsingle
  obtain ⟨known, -, h⟩ := bind_eq_ok.mp h
  obtain ⟨⟨⟩, -, h⟩ := bind_eq_ok.mp h
  obtain rfl := pure_eq_ok.mp h
  rw [← hcollected]
  exact hsubset (hpartSubset (List.mem_singleton.mpr rfl))

/-- No submitted part is open. -/
theorem statuses_not_open : .str "OPEN" ∉ v.statuses := by
  intro hopen
  obtain ⟨all, -, h⟩ := bind_eq_ok.mp v.statuses_eq
  obtain ⟨⟨⟩, hnone, h⟩ := bind_eq_ok.mp h
  rw [pure_eq_ok.mp h, rejectIf_eq_ok, List.any_eq_false] at hnone
  exact hnone _ hopen rfl

/-- In a closure by machine no submitted part is attested by humans. -/
theorem statuses_not_human (hmode : payload.compositionMode = .machine) :
    .str "HUMAN_ATTESTED" ∉ v.statuses := by
  intro hhuman
  have h := v.closed
  unfold closeByMode at h
  rw [hmode] at h
  obtain ⟨direct, -, h⟩ := bind_eq_ok.mp h
  obtain ⟨⟨⟩, hnone, -⟩ := bind_eq_ok.mp h
  rw [rejectIf_eq_ok, Bool.or_eq_false_iff, List.any_eq_false] at hnone
  exact hnone.1 _ hhuman rfl

end Validated

/-- An accepted witness is judged on the registered graph exactly when the submitted
subgraph repeats what is registered. -/
theorem judged_on_registered_iff (P : Platform) (snapshot : Snapshot)
    (payload : SubmitClosureWitness) (policy : Policy) (closure : ClosureState)
    (h : validateClosureWitness P snapshot payload policy = .ok closure) :
    JudgedOnRegistered snapshot payload ↔ RepeatsRegistered snapshot payload := by
  obtain ⟨v⟩ := validated_of_validate h
  constructor
  · intro hjudged
    refine ⟨hjudged.justified, ?_, ?_⟩
    · intro entry hentry edge hedge hkind
      obtain ⟨hdeclared, hvalid⟩ := hjudged.bridged entry hentry edge hedge hkind
      exact ⟨(v.mem_bridges _).mp hdeclared, fun _ => Or.inr hvalid⟩
    · intro entry hentry obligation hfound part hpart hstatus
      have hrequired : entry.1 ∈
          requiredObligationIds snapshot payload.parentClaimId payload.contractVersion := by
        obtain ⟨⟨⟩, hsame, -⟩ := bind_eq_ok.mp v.obligationIds
        rw [rejectIf_eq_ok, Bool.not_eq_false'] at hsame
        exact (sameSet_iff.mp hsame entry.1).mp (List.mem_map_of_mem hentry)
      rcases hstatus with hopen | ⟨hmode, hhuman⟩
      · exact absurd hopen (hjudged.noOpen entry.1 hrequired obligation hfound part hpart)
      · exact absurd hhuman (hjudged.machine hmode entry.1 hrequired obligation hfound part hpart)
  · intro hrepeats
    refine ⟨hrepeats.justified, ?_, ?_, ?_⟩
    · intro entry hentry edge hedge hkind
      obtain ⟨hlisted, hother⟩ := hrepeats.bridges entry hentry edge hedge hkind
      refine ⟨(v.mem_bridges _).mpr hlisted, ?_⟩
      cases hlogical : selectedIsLogical entry.2 with
      | true =>
        exact v.crossesValidly hentry hedge hkind hlisted
          (hrepeats.justified entry hentry hlogical edge hedge)
      | false =>
        rcases hother hlogical with hnames | hvalid
        · exact v.crossesValidly hentry hedge hkind hlisted hnames
        · exact hvalid
    · intro hmode id hid obligation hfound part hpart hhuman
      obtain ⟨fields, hentry⟩ := v.required_selected hid
      have hstatus := hrepeats.statuses (id, fields) hentry obligation hfound part hpart
        (Or.inr ⟨hmode, hhuman⟩)
      have hmem := v.status_mem hentry hfound hpart
      rw [hstatus, hhuman] at hmem
      exact v.statuses_not_human hmode hmem
    · intro id hid obligation hfound part hpart hopen
      obtain ⟨fields, hentry⟩ := v.required_selected hid
      have hstatus := hrepeats.statuses (id, fields) hentry obligation hfound part hpart
        (Or.inl hopen)
      have hmem := v.status_mem hentry hfound hpart
      rw [hstatus, hopen] at hmem
      exact v.statuses_not_open hmem

namespace Sample

/-- The witness without obligations is accepted in the run in which its subgraph is reviewed. -/
theorem plainWitness_valid :
    ∃ snapshot closure, (reached platform policy plainReviewed).guardSnapshot run = some snapshot ∧
      validateClosureWitness platform snapshot plainWitness policy = .ok closure := by
  obtain ⟨snapshot, hsnapshot, hvalid⟩ := (Option.any_eq_true _ _).mp outcomes.plain_valid
  obtain ⟨closure, hclosure⟩ := exists_ok_of_toBool hvalid
  exact ⟨snapshot, closure, hsnapshot, hclosure⟩

theorem relabellingWitness_valid :
    ∃ snapshot closure registered,
      (reached platform policy obliged).guardSnapshot run = some snapshot ∧
      validateClosureWitness platform snapshot relabellingWitness policy = .ok closure ∧
      obligation ∈ requiredObligationIds snapshot lemmaId 1 ∧
      snapshot.obligation? obligation = some registered ∧
      registered.parts.coverage.status = .isOpen ∧ registered.childClaimIds = [root] := by
  obtain ⟨snapshot, hsnapshot, hvalid⟩ := (Option.any_eq_true _ _).mp outcomes.relabelling_valid
  simp only [Bool.and_eq_true, List.contains_iff_mem, Option.any_eq_true, beq_iff_eq] at hvalid
  obtain ⟨⟨haccepted, hrequired⟩, registered, hfound, hopen, hchild⟩ := hvalid
  obtain ⟨closure, hclosure⟩ := exists_ok_of_toBool haccepted
  exact ⟨snapshot, closure, registered, hsnapshot, hclosure, hrequired, hfound, hopen, hchild⟩

end Sample

/-- The witness of the sample without obligations is judged on the registered graph. -/
theorem judged_on_registered_of_plain :
    ∃ snapshot, (reached Sample.platform Sample.policy Sample.plainReviewed).guardSnapshot
        Sample.run = some snapshot ∧ JudgedOnRegistered snapshot Sample.plainWitness := by
  obtain ⟨snapshot, closure, hsnapshot, hclosure⟩ := Sample.plainWitness_valid
  have hrepeats : RepeatsRegistered snapshot Sample.plainWitness := by
    refine ⟨?_, ?_, ?_⟩
    · exact fun entry hentry => absurd hentry List.not_mem_nil
    · exact fun entry hentry => absurd hentry List.not_mem_nil
    · exact fun entry hentry => absurd hentry List.not_mem_nil
  exact ⟨snapshot, hsnapshot,
    (judged_on_registered_iff Sample.platform snapshot _ Sample.policy closure hclosure).mpr
      hrepeats⟩

/-- The witness of the sample relabels an open part of a required obligation. -/
theorem judged_on_relabelled_part :
    ∃ snapshot closure, (reached Sample.platform Sample.policy Sample.obliged).guardSnapshot
        Sample.run = some snapshot ∧
      validateClosureWitness Sample.platform snapshot Sample.relabellingWitness Sample.policy =
        .ok closure ∧ ¬ JudgedOnRegistered snapshot Sample.relabellingWitness := by
  obtain ⟨snapshot, closure, obligation, hsnapshot, hclosure, hrequired, hfound, hopen, -⟩ :=
    Sample.relabellingWitness_valid
  refine ⟨snapshot, closure, hsnapshot, hclosure, fun hjudged => ?_⟩
  exact hjudged.noOpen _ hrequired obligation hfound ("coverage", obligation.parts.coverage)
    (List.mem_cons_self ..) hopen

end ResearchKernel
