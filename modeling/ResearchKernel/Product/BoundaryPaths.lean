import Mathlib.Data.List.Chain
import ResearchKernel.Product.Slices

/-!
# Paths to the boundary of a slice

The path to a claim is made of the steps that found it, a predecessor before the path and a
successor after it, whichever claim of the path the step started from. The path follows the arcs
of the graph exactly when every step starts at the end that it extends, or an arc joins its claim
to that end anyway. Where all steps go one way they do; a request for both directions can turn.
-/

namespace ResearchKernel.Product.Slices

open Foundation

/-! ## Paths that grow at both ends -/

section Paths

def extendBy (path : List Id) (step : Transition) : List Id :=
  match step.relationship with
  | .predecessor => step.neighbor :: path
  | .successor => path ++ [step.neighbor]

/-- The path that steps make from a seed. -/
def pathAlong (seed : Id) (steps : List Transition) : List Id := steps.foldl extendBy [seed]

theorem extendPath_eq (state : Traversal) (step : Transition) :
    extendPath state step = extendBy (state.path step.current) step := rfl

theorem pathAlong_append (seed : Id) (steps : List Transition) (step : Transition) :
    pathAlong seed (steps ++ [step]) = extendBy (pathAlong seed steps) step := by
  rw [pathAlong, List.foldl_append]
  rfl

variable (R : Id → Id → Prop)

/-- A step is along an arc. -/
def Along (step : Transition) : Prop :=
  match step.relationship with
  | .predecessor => R step.neighbor step.current
  | .successor => R step.current step.neighbor

/-- Every step starts at the end of the path that it extends, or an arc joins its neighbor to that
end anyway. -/
def Straight : Id → Id → List Transition → Prop
  | _, _, [] => True
  | first, last, step :: steps =>
    match step.relationship with
    | .predecessor =>
      (step.current = first ∨ R step.neighbor first) ∧ Straight step.neighbor last steps
    | .successor =>
      (step.current = last ∨ R last step.neighbor) ∧ Straight first step.neighbor steps

variable {R}

variable {steps : List Transition}

/-- A path that steps along arcs have made is one of arcs when the steps are straight. -/
theorem isChain_foldl_iff {path : List Id} {first last : Id} (hfirst : path.head? = some first)
    (hlast : path.getLast? = some last) (halong : ∀ step ∈ steps, Along R step) :
    (steps.foldl extendBy path).IsChain R ↔ path.IsChain R ∧ Straight R first last steps := by
  induction steps generalizing path first last with
  | nil => simp [Straight]
  | cons step steps ih =>
    have hstep := halong step List.mem_cons_self
    have hsteps : ∀ other ∈ steps, Along R other := fun other hother =>
      halong other (List.mem_cons_of_mem _ hother)
    obtain ⟨current, neighbor, relationship⟩ := step
    rw [List.foldl_cons, Straight]
    cases relationship with
    | predecessor =>
      have hlast' : (neighbor :: path).getLast? = some last := by
        rw [List.getLast?_cons, hlast]
        rfl
      have hjoined : (current = first ∨ R neighbor first) ↔ R neighbor first :=
        ⟨fun h => h.elim (fun heq => heq ▸ hstep) id, Or.inr⟩
      have hchain : (neighbor :: path).IsChain R ↔ path.IsChain R ∧ R neighbor first := by
        rw [List.isChain_cons, hfirst]
        simp [and_comm]
      have hrest : (steps.foldl extendBy (neighbor :: path)).IsChain R ↔
          (neighbor :: path).IsChain R ∧ Straight R neighbor last steps := ih rfl hlast' hsteps
      rw [extendBy, hrest, hchain]
      dsimp only
      rw [hjoined, and_assoc]
    | successor =>
      have hfirst' : (path ++ [neighbor]).head? = some first := by
        rw [List.head?_append, hfirst]
        rfl
      have hjoined : (current = last ∨ R last neighbor) ↔ R last neighbor :=
        ⟨fun h => h.elim (fun heq => heq ▸ hstep) id, Or.inr⟩
      have hchain : (path ++ [neighbor]).IsChain R ↔ path.IsChain R ∧ R last neighbor := by
        rw [List.isChain_append, hlast]
        simp
      have hrest : (steps.foldl extendBy (path ++ [neighbor])).IsChain R ↔
          (path ++ [neighbor]).IsChain R ∧ Straight R first neighbor steps :=
        ih hfirst' (by simp) hsteps
      rw [extendBy, hrest, hchain]
      dsimp only
      rw [hjoined, and_assoc]

theorem isChain_pathAlong_iff {seed : Id} (halong : ∀ step ∈ steps, Along R step) :
    (pathAlong seed steps).IsChain R ↔ Straight R seed seed steps := by
  rw [pathAlong, isChain_foldl_iff rfl rfl halong]
  simp

/-- Steps one after another, in one direction, are straight. -/
theorem straight_append_of_one_way {step : Transition} {first last : Id}
    {relationship : Relationship} (hstep : step.relationship = relationship)
    (hsteps : ∀ other ∈ steps, other.relationship = relationship)
    (hstraight : Straight R first last steps)
    (hcurrent : step.current = (steps.getLast?.map (·.neighbor)).getD
      (match relationship with
        | .predecessor => first
        | .successor => last)) : Straight R first last (steps ++ [step]) := by
  induction steps generalizing first last with
  | nil =>
    rw [List.nil_append, Straight, hstep]
    cases relationship with
    | predecessor | successor => exact ⟨Or.inl hcurrent, trivial⟩
  | cons other steps ih =>
    have hother := hsteps other List.mem_cons_self
    have hrest : ∀ step ∈ steps, step.relationship = relationship := fun step hmem =>
      hsteps step (List.mem_cons_of_mem _ hmem)
    have hnext : (steps.getLast?.map (·.neighbor)).getD other.neighbor =
        ((other :: steps).getLast?.map (·.neighbor)).getD other.neighbor := by
      rw [List.getLast?_cons]
      cases steps.getLast? <;> rfl
    rw [List.cons_append, Straight]
    rw [Straight] at hstraight
    cases relationship with
    | predecessor | successor =>
      rw [hother] at hstraight ⊢
      refine ⟨hstraight.1, ih hrest hstraight.2 ?_⟩
      rw [hcurrent, hnext, List.getLast?_cons]
      rfl

end Paths

/-! ## The way to a claim -/

section Ways

variable (index : GraphIndex) (request : GraphSliceRequest)

/-- The first of the steps to a claim that is admitted. -/
structure First (step : Transition) : Prop where
  reached : ∃ m, Distant index request m step.current
  offered : Offered index request step
  admitted : Admitted index request step.neighbor
  fresh : step.neighbor ∉ request.seedIds
  earliest : ∀ other, other.neighbor = step.neighbor → Offered index request other →
    Earlier index request step other

/-- The last of the steps that meet a claim of another route in a relationship. -/
structure Last (step : Transition) : Prop where
  reached : ∃ m < request.depth, Distant index request m step.current
  offered : Offered index request step
  elsewhere : Elsewhere index request step.neighbor
  latest : ∀ other, other.neighbor = step.neighbor → other.relationship = step.relationship →
    Offered index request other → (∃ m < request.depth, Distant index request m other.current) →
      Earlier index request other step

/-- The way from a seed to a claim, each claim on it by the first step to it. -/
inductive Way (seed : Id) : List Transition → Id → Prop
  | seed (h : seed ∈ request.seedIds) : Way seed [] seed
  | step {steps : List Transition} {step : Transition} {a : Id} (h : Way seed steps step.current)
      (hfirst : First index request step) (hneighbor : step.neighbor = a) :
      Way seed (steps ++ [step]) a

/-- No way to a claim of another route turns where no arc joins its ends. -/
def Unbent : Prop :=
  ∀ seed steps step, Way index request seed steps step.current → Last index request step →
    Straight (Precedes index request.runId) seed seed (steps ++ [step])

end Ways

section Found

variable {P : Platform} {index : GraphIndex} {request : GraphSliceRequest}
  {log : List Transition} {frontier : List Id} {state : Traversal} {n : ℕ}

variable {step : Transition}

theorem Offered.along (h : Offered index request step) :
    Along (Precedes index request.runId) step := by
  obtain ⟨current, neighbor, relationship⟩ := step
  cases relationship with
  | predecessor | successor => exact h.2

variable {other : Transition}

/-- Steps of which each is before the other are one. -/
theorem eq_of_earlier {m k : ℕ} (hstep : Distant index request m step.current)
    (hother : Distant index request k other.current) (h : Earlier index request step other)
    (h' : Earlier index request other step) : step = other := by
  rcases h k hother with ⟨j, hj, hdistant⟩ | ⟨hdistant, hle⟩
  · rcases h' m hstep with ⟨i, hi, hdistant'⟩ | ⟨hdistant', -⟩
    · have hmj := hstep.unique hdistant
      have hki := hother.unique hdistant'
      omega
    · have hmj := hstep.unique hdistant
      have hkm := hother.unique hdistant'
      omega
  · rcases h' m hstep with ⟨i, hi, hdistant'⟩ | ⟨-, hle'⟩
    · have hmk := hstep.unique hdistant
      have hki := hother.unique hdistant'
      omega
    · exact step_le_antisymm hle hle'

theorem First.unique (h : First index request step) (h' : First index request other)
    (hneighbor : step.neighbor = other.neighbor) :
    step = other := by
  obtain ⟨m, hm⟩ := h.reached
  obtain ⟨k, hk⟩ := h'.reached
  exact eq_of_earlier hm hk (h.earliest other hneighbor.symm h'.offered)
    (h'.earliest step hneighbor h.offered)

theorem Last.unique (h : Last index request step) (h' : Last index request other)
    (hneighbor : step.neighbor = other.neighbor)
    (hrelationship : step.relationship = other.relationship) : step = other := by
  obtain ⟨m, -, hm⟩ := h.reached
  obtain ⟨k, -, hk⟩ := h'.reached
  exact eq_of_earlier hm hk (h'.latest step hneighbor hrelationship h.offered h.reached)
    (h.latest other hneighbor.symm hrelationship.symm h'.offered h'.reached)

/-- There is one way to a claim. -/
theorem Way.unique {seed a : Id} {steps : List Transition} (h : Way index request seed steps a) :
    ∀ {seed' : Id} {steps' : List Transition}, Way index request seed' steps' a →
      seed' = seed ∧ steps' = steps := by
  induction h with
  | seed hseed =>
    intro seed' steps' h'
    cases h' with
    | seed => exact ⟨rfl, rfl⟩
    | step h hfirst hneighbor => exact absurd (hneighbor ▸ hseed) hfirst.fresh
  | step h hfirst hneighbor ih =>
    intro seed' steps' h'
    cases h' with
    | seed hseed => exact absurd (hneighbor ▸ hseed) hfirst.fresh
    | step h' hfirst' hneighbor' =>
      obtain rfl := hfirst.unique hfirst' (hneighbor.trans hneighbor'.symm)
      obtain ⟨rfl, rfl⟩ := ih h'
      exact ⟨rfl, rfl⟩

theorem Way.along {seed a : Id} {steps : List Transition} (h : Way index request seed steps a) :
    ∀ step ∈ steps, Along (Precedes index request.runId) step := by
  induction h with
  | seed => simp
  | step h hfirst hneighbor ih =>
    intro other hother
    rcases List.mem_append.mp hother with hother | hother
    · exact ih other hother
    · exact List.mem_singleton.mp hother ▸ hfirst.offered.along

/-- The step that a claim was found by is the first to it. -/
theorem Searched.first (h : Searched index request n log frontier state) {b : Id}
    (hb : b ∈ state.orderedIds) (hseed : b ∉ request.seedIds)
    (hfind : log.find? (·.neighbor == b) = some step) :
    First index request step ∧ step.neighbor = b := by
  obtain ⟨hneighbor, before, after, hlog, hbefore⟩ := List.find?_eq_some_iff_append.mp hfind
  rw [beq_iff_eq] at hneighbor
  have hstep : step ∈ log := List.mem_of_find?_eq_some hfind
  obtain ⟨⟨k, hk, hcurrent⟩, hoffered⟩ := (h.mem_log step).mp hstep
  refine ⟨⟨⟨k, hcurrent⟩, hoffered, hneighbor ▸ h.replayed.admitted b hb, hneighbor ▸ hseed, ?_⟩,
    hneighbor⟩
  intro other hother hotherOffered m hm
  rcases Nat.lt_or_ge m n with hlt | hge
  · have hmem := (h.mem_log other).mpr ⟨⟨m, hlt, hm⟩, hotherOffered⟩
    have horder := h.log_order
    rw [hlog] at hmem horder
    rcases List.mem_append.mp hmem with hmem | hmem
    · have hnot := hbefore other hmem
      rw [hother, hneighbor] at hnot
      simp at hnot
    · rcases List.mem_cons.mp hmem with rfl | hmem
      · exact Or.inr ⟨hm, step_le_refl other⟩
      · exact (List.pairwise_cons.mp (List.pairwise_append.mp horder).2.1).1 other hmem m hm
  · exact Or.inl ⟨k, Nat.lt_of_lt_of_le hk hge, hcurrent⟩

/-- The path to a claim is along the way to it. -/
theorem Searched.way (h : Searched index request n log frontier state) {m : ℕ} {a : Id}
    (ha : Distant index request m a) (hmem : a ∈ state.orderedIds) :
    ∃ seed steps, Way index request seed steps a ∧ state.path a = pathAlong seed steps := by
  induction m using Nat.strongRecOn generalizing a with
  | ind m ih =>
    by_cases hseed : a ∈ request.seedIds
    · exact ⟨a, [], .seed hseed, h.replayed.seeds a hseed⟩
    obtain ⟨step, hfind, hpath⟩ := h.replayed.found a hmem hseed
    obtain ⟨hfirst, hneighbor⟩ := h.first hmem hseed hfind
    -- The claim is joined to one that is nearer, and its first step starts no further away.
    have hnearer : ∃ k < m, Distant index request k step.current := by
      rcases near_iff.mp ha.near with hseed' | ⟨k, hk, b, hb, ⟨relationship, hoffered⟩, -⟩
      · exact absurd hseed' hseed
      rcases hfirst.earliest ⟨b, a, relationship⟩ hneighbor.symm hoffered k hb with
        ⟨j, hj, hdistant⟩ | ⟨hdistant, -⟩
      · exact ⟨j, hj.trans hk, hdistant⟩
      · exact ⟨k, hk, hdistant⟩
    obtain ⟨k, hk, hcurrent⟩ := hnearer
    have hstep := h.replayed.currents step (List.mem_of_find?_eq_some hfind)
    obtain ⟨seed, steps, hway, hsteps⟩ := ih k hk hcurrent hstep
    refine ⟨seed, steps ++ [step], .step hway hfirst hneighbor, ?_⟩
    rw [hpath, extendPath_eq, hsteps, pathAlong_append]

/-- The step that a boundary was met by last is the last that meets it. -/
theorem Searched.last (h : Searched index request request.depth log frontier state)
    {key : Id × Relationship} (hkey : Elsewhere index request key.1)
    (hlast : (log.filter (meets key)).getLast? = some step) :
    Last index request step ∧ step.neighbor = key.1 ∧ step.relationship = key.2 := by
  obtain ⟨before, hfilter⟩ := List.getLast?_eq_some_iff.mp hlast
  have hmem : step ∈ log.filter (meets key) := by simp [hfilter]
  obtain ⟨hstep, hmeets⟩ := List.mem_filter.mp hmem
  rw [meets, Bool.and_eq_true, beq_iff_eq, beq_iff_eq] at hmeets
  obtain ⟨hreached, hoffered⟩ := (h.mem_log step).mp hstep
  refine ⟨⟨hreached, hoffered, hmeets.1 ▸ hkey, ?_⟩, hmeets⟩
  intro other hneighbor hrelationship hother hotherReached
  have hotherMem : other ∈ log.filter (meets key) := by
    refine List.mem_filter.mpr ⟨(h.mem_log other).mpr ⟨hotherReached, hother⟩, ?_⟩
    simp [meets, hneighbor, hrelationship, hmeets.1, hmeets.2]
  have horder := h.log_order.filter (meets key)
  rw [hfilter] at hotherMem horder
  rcases List.mem_append.mp hotherMem with hbefore | hself
  · exact (List.pairwise_append.mp horder).2.2 other hbefore step (by simp)
  · obtain rfl := List.mem_singleton.mp hself
    exact fun m hm => Or.inr ⟨hm, step_le_refl _⟩

end Found

/-! ## What a traversal returns -/

section Exact

variable (P : Platform) (index : GraphIndex) (request : GraphSliceRequest)

/-- A traversal is a bounded search by breadth, whose boundaries say how they were reached. -/
structure Exact (result : Traversal) : Prop where
  /-- What is reachable within the depth is returned, and nothing else. -/
  members : ∀ a, a ∈ result.orderedIds ↔ Reached index request request.depth a
  /-- Each claim is returned once. -/
  once : result.orderedIds.Nodup
  nodes : (result.nodes.map (·.claimId)).Perm result.orderedIds
  /-- Nearer claims come before those further away. -/
  nearer : result.orderedIds.Pairwise fun a b =>
    ∀ m, Reached index request m b → Reached index request m a
  /-- The order of the edges does not matter. -/
  independent : ∀ other : GraphIndex, other.nodes = index.nodes → other.edges.Perm index.edges →
    traverse P request other = .ok result
  /-- The path to a boundary follows the arcs. -/
  directed : ∀ hit ∈ result.boundaries,
    hit.2.2.pathToTarget.IsChain (Precedes index request.runId)
  /-- The claims from which a boundary was reached are counted. -/
  folded : ∀ hit ∈ result.boundaries, ∃ sources : List Id, sources.Nodup ∧
    sources.length = hit.2.2.foldedCount ∧ ∀ a, a ∈ sources ↔
      (∃ m < request.depth, Reached index request m a) ∧
        Offered index request ⟨a, hit.2.2.claimId, hit.2.2.direction⟩

variable {P : Platform} {index : GraphIndex} {request : GraphSliceRequest}
  {log : List Transition} {frontier : List Id} {result : Traversal}

theorem Searched.noted {n : ℕ} (h : Searched index request n log frontier result)
    {hit : (Id × Relationship) × Id × CrossRouteBoundary} (hhit : hit ∈ result.boundaries) :
    Elsewhere index request hit.1.1 ∧ Noted log result hit.1 hit.2 :=
  h.replayed.noted hit.1 hit.2 ((mem_iff_lookup h.replayed.distinct).mp hhit)

variable {hit : (Id × Relationship) × Id × CrossRouteBoundary}

theorem Searched.boundary_path (h : Searched index request request.depth log frontier result)
    (hhit : hit ∈ result.boundaries) :
    ∃ seed steps step, Way index request seed steps step.current ∧ Last index request step ∧
      (step.neighbor = hit.1.1 ∧ step.relationship = hit.1.2) ∧
        hit.2.2.pathToTarget = pathAlong seed (steps ++ [step]) := by
  obtain ⟨hkey, hnoted⟩ := h.noted hhit
  obtain ⟨step, hlast, hpath⟩ := hnoted.last
  obtain ⟨hlastStep, hmet⟩ := h.last hkey hlast
  obtain ⟨m, -, hm⟩ := hlastStep.reached
  have hmem := h.replayed.currents step (mem_of_getLast?_filter hlast)
  obtain ⟨seed, steps, hway, hsteps⟩ := h.way hm hmem
  refine ⟨seed, steps, step, hway, hlastStep, hmet, ?_⟩
  rw [hpath, extendPath_eq, hsteps, pathAlong_append]

/-- The steps that met a boundary are counted, one for each claim that they started from. -/
theorem Searched.sources (h : Searched index request request.depth log frontier result)
    (hhit : hit ∈ result.boundaries) :
    ∃ sources : List Id, sources.Nodup ∧ sources.length = hit.2.2.foldedCount ∧
      ∀ a, a ∈ sources ↔ (∃ m < request.depth, Reached index request m a) ∧
        Offered index request ⟨a, hit.2.2.claimId, hit.2.2.direction⟩ := by
  obtain ⟨-, hnoted⟩ := h.noted hhit
  have hmeets : ∀ step : Transition, meets hit.1 step = true ↔
      step.neighbor = hit.1.1 ∧ step.relationship = hit.1.2 := by
    intro step
    rw [meets, Bool.and_eq_true, beq_iff_eq, beq_iff_eq]
  refine ⟨(log.filter (meets hit.1)).map (·.current), ?_, ?_, ?_⟩
  · refine (h.nodup_log.filter _).map_on ?_
    rintro ⟨a, b, r⟩ hstep ⟨a', b', r'⟩ hother hcurrent
    obtain ⟨hb, hr⟩ := (hmeets _).mp (List.mem_filter.mp hstep).2
    obtain ⟨hb', hr'⟩ := (hmeets _).mp (List.mem_filter.mp hother).2
    dsimp only at hcurrent hb hr hb' hr'
    rw [hcurrent, hb, hr, hb', hr']
  · rw [List.length_map, hnoted.folded]
  · intro a
    rw [hnoted.claim, hnoted.direction, List.mem_map]
    constructor
    · rintro ⟨step, hstep, rfl⟩
      obtain ⟨hmem, hmet⟩ := List.mem_filter.mp hstep
      obtain ⟨hneighbor, hrelationship⟩ := (hmeets step).mp hmet
      obtain ⟨⟨m, hm, hdistant⟩, hoffered⟩ := (h.mem_log step).mp hmem
      rw [← hneighbor, ← hrelationship]
      exact ⟨⟨m, hm, hdistant.near⟩, hoffered⟩
    · rintro ⟨⟨m, hm, hnear⟩, hoffered⟩
      obtain ⟨k, hk, hdistant⟩ := hnear.exists_distance
      refine ⟨⟨a, hit.1.1, hit.1.2⟩, List.mem_filter.mpr ⟨?_, (hmeets _).mpr ⟨rfl, rfl⟩⟩, rfl⟩
      exact (h.mem_log _).mpr ⟨⟨k, Nat.lt_of_le_of_lt hk hm, hdistant⟩, hoffered⟩

/-- A claim of another route that is met is a boundary. -/
theorem Searched.exists_boundary (h : Searched index request request.depth log frontier result)
    {step : Transition} (hstep : Last index request step) :
    ∃ hit ∈ result.boundaries, hit.1 = (step.neighbor, step.relationship) := by
  have hmem := (h.mem_log step).mpr ⟨hstep.reached, hstep.offered⟩
  cases hlookup : result.boundaries.lookup (step.neighbor, step.relationship) with
  | none =>
    have hnone := h.replayed.unmet _ hlookup hstep.elsewhere
    have hfilter : step ∈ log.filter (meets (step.neighbor, step.relationship)) :=
      List.mem_filter.mpr ⟨hmem, by simp [meets]⟩
    rw [hnone] at hfilter
    cases hfilter
  | some hit => exact ⟨(_, hit), (mem_iff_lookup h.replayed.distinct).mpr hlookup, rfl⟩

/-- The paths to the boundaries follow the arcs exactly when no way to a boundary turns where no
arc joins its ends. -/
theorem Searched.directed_iff (h : Searched index request request.depth log frontier result) :
    (∀ hit ∈ result.boundaries, hit.2.2.pathToTarget.IsChain (Precedes index request.runId)) ↔
      Unbent index request := by
  have halong : ∀ {seed steps step}, Way index request seed steps step.current →
      Last index request step → ∀ other ∈ steps ++ [step],
        Along (Precedes index request.runId) other := by
    intro seed steps step hway hlast other hother
    rcases List.mem_append.mp hother with hother | hother
    · exact hway.along other hother
    · exact List.mem_singleton.mp hother ▸ hlast.offered.along
  constructor
  · intro hdirected seed steps step hway hlast
    obtain ⟨hit, hhit, hkey⟩ := h.exists_boundary hlast
    obtain ⟨seed', steps', step', hway', hlast', ⟨hneighbor, hrelationship⟩, hpath⟩ :=
      h.boundary_path hhit
    rw [hkey] at hneighbor hrelationship
    obtain rfl := hlast'.unique hlast hneighbor hrelationship
    obtain ⟨rfl, rfl⟩ := hway.unique hway'
    rw [← isChain_pathAlong_iff (halong hway' hlast'), ← hpath]
    exact hdirected hit hhit
  · intro hunbent hit hhit
    obtain ⟨seed, steps, step, hway, hlast, -, hpath⟩ := h.boundary_path hhit
    rw [hpath, isChain_pathAlong_iff (halong hway hlast)]
    exact hunbent seed steps step hway hlast

/-- A traversal is exact if and only if no way to a boundary turns where no arc joins its ends. -/
theorem exact_iff (hok : traverse P request index = .ok result) :
    Exact P index request result ↔ Unbent index request := by
  obtain ⟨log, frontier, h⟩ := searched_traverse hok
  rw [← h.directed_iff]
  constructor
  · exact fun hexact => hexact.directed
  · intro hdirected
    refine ⟨h.mem_ordered, h.replayed.once, h.replayed.nodes, h.nearer, ?_, hdirected,
      fun hit hhit => h.sources hhit⟩
    intro other hnodes hedges
    rw [traverse_congr hnodes hedges, hok]

theorem Way.ends {seed a : Id} {steps : List Transition} (h : Way index request seed steps a) :
    (steps.getLast?.map (·.neighbor)).getD seed = a := by
  cases h with
  | seed => rfl
  | step h hfirst hneighbor =>
    rw [List.getLast?_append]
    exact hneighbor

/-- A way in one direction does not turn. -/
theorem unbent_of_one_way {relationship : Relationship}
    (hone : ∀ step, Offered index request step → step.relationship = relationship) :
    Unbent index request := by
  intro seed steps step hway hlast
  have hsteps : ∀ {a steps}, Way index request seed steps a →
      (∀ other ∈ steps, other.relationship = relationship) ∧
        Straight (Precedes index request.runId) seed seed steps := by
    intro a steps hway
    induction hway with
    | seed => exact ⟨by simp, trivial⟩
    | step h hfirst hneighbor ih =>
      refine ⟨?_, straight_append_of_one_way (hone _ hfirst.offered) ih.1 ih.2 ?_⟩
      · intro other hother
        rcases List.mem_append.mp hother with hother | hother
        · exact ih.1 other hother
        · exact List.mem_singleton.mp hother ▸ hone _ hfirst.offered
      · cases relationship with
        | predecessor | successor => exact h.ends.symm
  obtain ⟨hway', hstraight⟩ := hsteps hway
  refine straight_append_of_one_way (hone step hlast.offered) hway' hstraight ?_
  cases relationship with
  | predecessor | successor => exact hway.ends.symm

/-- A request for one direction takes steps of one kind. -/
theorem unbent_of_direction (hdirection : request.direction ≠ .both) : Unbent index request := by
  cases hrequest : request.direction with
  | predecessors =>
    refine @unbent_of_one_way index request .predecessor ?_
    rintro ⟨a, b, relationship⟩ hoffered
    cases relationship with
    | predecessor => rfl
    | successor => exact absurd hrequest hoffered.1
  | successors =>
    refine @unbent_of_one_way index request .successor ?_
    rintro ⟨a, b, relationship⟩ hoffered
    cases relationship with
    | predecessor => exact absurd hrequest hoffered.1
    | successor => rfl
  | both => exact absurd hrequest hdirection

end Exact

/-! ## A claim with two successors -/

section Samples

open Sample (platform)

def forkNode (claimId routeId : Id) : GraphNodeRow where
  runId := "run"
  claimId := claimId
  lifecycle := "VERIFIED"
  dependable := true
  claimType := "LEMMA"
  authorityAxes := .obj [("machine", .str "VERIFIED")]
  verificationMethod := "LEAN"
  routeId := some routeId

/-- A claim, and its two successors on different routes. -/
def fork : GraphIndex where
  nodes := [forkNode "lemma" "here", forkNode "goal" "here", forkNode "other" "there"]
  edges := [⟨"run", "edge-1", "lemma", "goal", .forward⟩,
    ⟨"run", "edge-2", "lemma", "other", .forward⟩]
  watermarks := [⟨"run", 4, 3⟩]
  unique := by decide +kernel
  joined := by decide +kernel

/-- A slice of one route around a claim. -/
def forkSlice (seed : Id) (direction : SliceDirection) : GraphSliceRequest where
  runId := "run"
  atCursor := 4
  atRevision := 3
  contractVersion := 1
  mode := .verified
  seedIds := [seed]
  direction := direction
  depth := 2
  filters := { routeIds := ["here"] }
  nodeLimit := 200

def boundaryPaths (request : GraphSliceRequest) : Option (List (List Id)) :=
  (traverse platform request fork).toOption.map fun result =>
    result.boundaries.map fun hit => hit.2.2.pathToTarget

theorem exists_boundaryPaths {request : GraphSliceRequest} {paths : List (List Id)}
    (h : boundaryPaths request = some paths) :
    ∃ result, traverse platform request fork = .ok result ∧
      (result.boundaries.map fun hit => hit.2.2.pathToTarget) = paths := by
  unfold boundaryPaths at h
  cases hok : traverse platform request fork with
  | error e => rw [hok] at h; cases h
  | ok result =>
    rw [hok] at h
    exact ⟨result, rfl, Option.some.inj h⟩

/-- The slice of the successors is exact. -/
theorem exact_of_successors : ∃ result,
    traverse platform (forkSlice "lemma" .successors) fork = .ok result ∧
      (result.boundaries.map fun hit => hit.2.2.pathToTarget) = [["lemma", "other"]] ∧
        Exact platform fork (forkSlice "lemma" .successors) result := by
  have hpaths : boundaryPaths (forkSlice "lemma" .successors) = some [["lemma", "other"]] := by
    decide +kernel
  obtain ⟨result, hok, hresult⟩ := exists_boundaryPaths hpaths
  exact ⟨result, hok, hresult, (exact_iff hok).mpr (unbent_of_direction (by decide))⟩

/-- In both directions, the path from one successor to the other ends with a pair that is joined
by no arc. -/
theorem path_turns_at_predecessor : ∃ result,
    (forkSlice "goal" .both).validate = .ok () ∧
      traverse platform (forkSlice "goal" .both) fork = .ok result ∧
        (result.boundaries.map fun hit => hit.2.2.pathToTarget) = [["lemma", "goal", "other"]] ∧
          ¬ Exact platform fork (forkSlice "goal" .both) result := by
  have hpaths : boundaryPaths (forkSlice "goal" .both) = some [["lemma", "goal", "other"]] := by
    decide +kernel
  obtain ⟨result, hok, hresult⟩ := exists_boundaryPaths hpaths
  refine ⟨result, by rfl, hok, hresult, fun hexact => ?_⟩
  have hmem : ["lemma", "goal", "other"] ∈ result.boundaries.map fun hit =>
      hit.2.2.pathToTarget := by simp [hresult]
  obtain ⟨hit, hhit, hpath⟩ := List.mem_map.mp hmem
  have hchain := hexact.directed hit hhit
  rw [hpath, List.isChain_cons_cons, List.isChain_cons_cons] at hchain
  obtain ⟨edge, hedge, -, harc⟩ := hchain.2.1
  have hnone : ∀ edge ∈ fork.edges, ("goal", "other") ∉ edgeArcs edge := by decide +kernel
  exact hnone edge hedge harc

end Samples

end ResearchKernel.Product.Slices
