import ResearchKernel.Foundation.Checks

/-!
# Reading a listing page by page

A server cuts a listing into pages of a fixed size. With every page but the last it gives a token
for the next one, and it keeps a state from request to request. A client that starts without a
token and follows the tokens reads the listing: every entry once, in order.
-/

namespace Foundation

variable {σ τ ε α β π : Type}

/-- The pages from a token on, with the state after the last request; none when the number of
requests was not enough. -/
def followPages (fetch : σ → Option τ → Except ε π × σ) (next : π → Option τ) :
    ℕ → σ → Option τ → Option (Except ε (List π) × σ)
  | 0, _, _ => none
  | fuel + 1, state, token =>
    match fetch state token with
    | (.error error, state) => some (.error error, state)
    | (.ok page, state) =>
      match next page with
      | none => some (.ok [page], state)
      | some token =>
        (followPages fetch next fuel state (some token)).map fun read =>
          (read.1.map (page :: ·), read.2)

/-- When the first request fails, the pages end in its error. -/
theorem followPages_error {fetch : σ → Option τ → Except ε π × σ} {next : π → Option τ}
    {content : π → List β} {full : Except ε (List β)} {state : σ} {token : Option τ} {e : ε}
    (h : (fetch state token).1 = .error e) (hfull : full = .error e) :
    ∃ enough, ∀ fuel, enough ≤ fuel → ∃ pages last,
      followPages fetch next fuel state token = some (pages, last) ∧
        pages.map (·.flatMap content) = full := by
  refine ⟨1, fun fuel hfuel => ⟨.error e, (fetch state token).2, ?_, hfull.symm⟩⟩
  obtain ⟨fuel, rfl⟩ := Nat.exists_eq_succ_of_ne_zero (Nat.ne_of_gt hfuel)
  have hfetch : fetch state token = (.error e, (fetch state token).2) := by rw [← h]
  rw [followPages, hfetch]

/-- A server of a listing: in every good state a request from a place in the listing reads the
entries of one page there, gives the page with them and the token of the next place, or the error
of the first entry that cannot be read, and leaves a good state. -/
structure ServesPages (fetch : σ → Option τ → Except ε π × σ) (next : π → Option τ)
    (content : π → List β) (read : α → Except ε β) (listing : List α) (limit : ℕ)
    (token : ℕ → Option τ) (Good : σ → Prop) : Prop where
  positive : 0 < limit
  live : ∀ place, 0 < place → place < listing.length → (token place).isSome = true
  good : ∀ state place, Good state → place = 0 ∨ place < listing.length →
    Good (fetch state (token place)).2
  page : ∀ state place page, Good state → place = 0 ∨ place < listing.length →
    (fetch state (token place)).1 = .ok page →
      ((listing.drop place).take limit).mapM read = .ok (content page) ∧
        next page = if place + limit < listing.length then token (place + limit) else none
  error : ∀ state place error, Good state → place = 0 ∨ place < listing.length →
    (fetch state (token place)).1 = .error error →
      ((listing.drop place).take limit).mapM read = .error error

namespace ServesPages

variable {fetch : σ → Option τ → Except ε π × σ} {next : π → Option τ} {content : π → List β}
  {read : α → Except ε β} {listing : List α} {limit : ℕ} {token : ℕ → Option τ} {Good : σ → Prop}

theorem mapM_drop (read : α → Except ε β) (listing : List α) (place limit : ℕ) :
    (listing.drop place).mapM read = (do
      let page ← ((listing.drop place).take limit).mapM read
      let rest ← (listing.drop (place + limit)).mapM read
      return page ++ rest) := by
  have hsplit : listing.drop place =
      (listing.drop place).take limit ++ listing.drop (place + limit) := by
    rw [← List.drop_drop, List.take_append_drop]
  conv_lhs => rw [hsplit]
  rw [List.mapM_append]

variable {fuel : ℕ} {state : σ}

/-- From any place on, the pages hold the rest of the listing, or end in the error that reading
the rest gives. -/
theorem followPages_from (h : ServesPages fetch next content read listing limit token Good)
    {place : ℕ} (hgood : Good state) (hplace : place = 0 ∨ place < listing.length)
    (hfuel : listing.length - place < fuel) :
    ∃ pages state', followPages fetch next fuel state (token place) = some (pages, state') ∧
      Good state' ∧ pages.map (·.flatMap content) = (listing.drop place).mapM read := by
  induction fuel generalizing place state with
  | zero => omega
  | succ fuel ih =>
    have hnext := h.good state place hgood hplace
    have hfetch : fetch state (token place) =
        ((fetch state (token place)).1, (fetch state (token place)).2) := rfl
    rw [followPages, mapM_drop read listing place limit]
    cases hresult : (fetch state (token place)).1 with
    | error error =>
      rw [hresult] at hfetch
      rw [hfetch, h.error state place error hgood hplace hresult]
      exact ⟨_, _, rfl, hnext, rfl⟩
    | ok page =>
      obtain ⟨hcontent, htoken⟩ := h.page state place page hgood hplace hresult
      rw [hresult] at hfetch
      rw [hfetch, hcontent]
      dsimp only
      by_cases hmore : place + limit < listing.length
      · rw [if_pos hmore] at htoken
        obtain ⟨after, hafter⟩ := Option.isSome_iff_exists.mp
          (h.live (place + limit) (by have := h.positive; omega) hmore)
        obtain ⟨pages, state', hpages, hgood', hrest⟩ := ih hnext (Or.inr hmore)
          (by have := h.positive; omega)
        rw [hafter] at hpages
        rw [htoken, hafter]
        dsimp only
        rw [hpages]
        refine ⟨_, _, rfl, hgood', ?_⟩
        rw [← hrest]
        cases pages <;> rfl
      · rw [if_neg hmore] at htoken
        have hdone : listing.drop (place + limit) = [] := List.drop_eq_nil_of_le (by omega)
        rw [htoken, hdone]
        refine ⟨_, _, rfl, hnext, ?_⟩
        simp [Except.map, bind, Except.bind, pure, Except.pure]

/-- The pages hold the listing, or end in the error that reading it gives. -/
theorem followPages_eq (h : ServesPages fetch next content read listing limit token Good)
    (hfirst : token 0 = none) (hgood : Good state) (hfuel : listing.length < fuel) :
    ∃ pages state', followPages fetch next fuel state none = some (pages, state') ∧
      Good state' ∧ pages.map (·.flatMap content) = listing.mapM read := by
  have hread := h.followPages_from hgood (Or.inl rfl) (show listing.length - 0 < fuel by omega)
  rwa [hfirst, List.drop_zero] at hread

/-- The pages that are read are those at the multiples of the size of a page, from a multiple
on. -/
theorem mem_followPages_from (h : ServesPages fetch next content read listing limit token Good)
    {k : ℕ} {state' : σ} {pages : List π} (hgood : Good state)
    (hplace : k = 0 ∨ k * limit < listing.length)
    (hread : followPages fetch next fuel state (token (k * limit)) = some (.ok pages, state')) :
    (∀ page ∈ pages, ∃ i, k ≤ i ∧ (i = 0 ∨ i * limit < listing.length) ∧ ∃ prior,
      Good prior ∧ (fetch prior (token (i * limit))).1 = .ok page) ∧
    ∀ i, k ≤ i → (i = k ∨ i * limit < listing.length) → ∃ page ∈ pages, ∃ prior,
      Good prior ∧ (fetch prior (token (i * limit))).1 = .ok page := by
  induction fuel generalizing k state state' pages with
  | zero => cases hread
  | succ fuel ih =>
    have hplace' : k * limit = 0 ∨ k * limit < listing.length :=
      hplace.imp (fun hk => by rw [hk, Nat.zero_mul]) id
    have hnext := h.good state _ hgood hplace'
    have hfetch : fetch state (token (k * limit)) =
        ((fetch state (token (k * limit))).1, (fetch state (token (k * limit))).2) := rfl
    rw [followPages] at hread
    cases hresult : (fetch state (token (k * limit))).1 with
    | error error =>
      rw [hresult] at hfetch
      rw [hfetch] at hread
      simp at hread
    | ok page =>
      obtain ⟨-, htoken⟩ := h.page state _ page hgood hplace' hresult
      rw [hresult] at hfetch
      rw [hfetch] at hread
      dsimp only at hread
      have hsucc : k * limit + limit = (k + 1) * limit := (Nat.succ_mul k limit).symm
      rw [hsucc] at htoken
      by_cases hmore : (k + 1) * limit < listing.length
      · rw [if_pos hmore] at htoken
        obtain ⟨after, hafter⟩ := Option.isSome_iff_exists.mp
          (h.live ((k + 1) * limit) (Nat.mul_pos (Nat.succ_pos k) h.positive) hmore)
        rw [htoken, hafter] at hread
        dsimp only at hread
        obtain ⟨⟨others, last⟩, hothers, heq⟩ := Option.map_eq_some_iff.mp hread
        cases others with
        | error error => simp [Except.map] at heq
        | ok others =>
          obtain ⟨hpages, -⟩ := Prod.mk.inj heq
          have hpages : page :: others = pages := Except.ok.inj hpages
          rw [← hafter] at hothers
          obtain ⟨hall, hcover⟩ := ih hnext (Or.inr hmore) hothers
          rw [← hpages]
          constructor
          · intro other hother
            rcases List.mem_cons.mp hother with rfl | hother
            · exact ⟨k, Nat.le_refl k, hplace, state, hgood, hresult⟩
            · obtain ⟨i, hki, hi⟩ := hall other hother
              exact ⟨i, by omega, hi⟩
          · intro i hki hi
            rcases Nat.eq_or_lt_of_le hki with rfl | hlt
            · exact ⟨page, List.mem_cons_self .., state, hgood, hresult⟩
            · have hi' : i = k + 1 ∨ i * limit < listing.length := by
                rcases hi with rfl | hi
                · omega
                · exact Or.inr hi
              obtain ⟨other, hother, hat⟩ := hcover i hlt hi'
              exact ⟨other, List.mem_cons_of_mem _ hother, hat⟩
      · rw [if_neg hmore] at htoken
        rw [htoken] at hread
        obtain ⟨hpages, -⟩ := Prod.mk.inj (Option.some.inj hread)
        have hpages : [page] = pages := Except.ok.inj hpages
        rw [← hpages]
        constructor
        · intro other hother
          rw [List.mem_singleton.mp hother]
          exact ⟨k, Nat.le_refl k, hplace, state, hgood, hresult⟩
        · intro i hki hi
          refine ⟨page, List.mem_singleton.mpr rfl, state, hgood, ?_⟩
          -- no place beyond this page lies in the listing
          have hik : i = k := by
            rcases hi with rfl | hi
            · rfl
            · by_contra hne
              have hle : (k + 1) * limit ≤ i * limit := Nat.mul_le_mul_right _ (by omega)
              omega
          rw [hik]
          exact hresult

theorem mem_followPages (h : ServesPages fetch next content read listing limit token Good)
    (hfirst : token 0 = none) {state' : σ} {pages : List π} (hgood : Good state)
    (hread : followPages fetch next fuel state none = some (.ok pages, state')) :
    (∀ page ∈ pages, ∃ i, (i = 0 ∨ i * limit < listing.length) ∧ ∃ prior,
      Good prior ∧ (fetch prior (token (i * limit))).1 = .ok page) ∧
    ∀ i, (i = 0 ∨ i * limit < listing.length) → ∃ page ∈ pages, ∃ prior,
      Good prior ∧ (fetch prior (token (i * limit))).1 = .ok page := by
  have hstart : token (0 * limit) = none := by rw [Nat.zero_mul, hfirst]
  rw [← hstart] at hread
  obtain ⟨hall, hcover⟩ := h.mem_followPages_from hgood (Or.inl rfl) hread
  refine ⟨fun page hpage => ?_, fun i hi => hcover i (Nat.zero_le i) hi⟩
  obtain ⟨i, -, hi⟩ := hall page hpage
  exact ⟨i, hi⟩

end ServesPages

end Foundation
