import ResearchKernel.Foundation.Runs
import ResearchKernel.Product.Sessions

/-!
# Earned capabilities

A capability is given for an enabled identity that has logged in to the session with its own
secret. The session that is presented names that identity as long as both resolutions of the
check find the same identity active; a switch between the two gives the capability of an
identity that the session does not name.
-/

namespace ResearchKernel.Product.Sessions

open Foundation

variable {R : Runtime} {organizationId : Id} {accounts accounts' : Accounts}

/-! ## What the claim says -/

/-- The tables without a call that was under way. -/
def Accounts.without (accounts : Accounts) (call : ℕ) : Accounts :=
  { accounts with calls := accounts.calls.eraseP (·.1 == call) }

/-- In the history an identity has logged in to a session: it was found by its secret, and the
transaction of this login, which was under way, has entered it into the session. -/
def LoggedIn (R : Runtime) (organizationId : Id) (history : List SessionStep)
    (sessionId identityId : Id) : Prop :=
  ∃ first call secret now expiresAt requested between generated last identity accounts,
    history = first ++ .login call identityId secret now expiresAt requested :: between ++
      .resume call generated :: last ∧
    authenticate R identityId secret (reached R organizationId first) = .ok identity ∧
    accounts = reached R organizationId
      (first ++ .login call identityId secret now expiresAt requested :: between) ∧
    accounts.calls.find? (·.1 == call) =
      some (call, .enter identity now expiresAt (requested.filter (!isShared ·)) false) ∧
    ∃ accounts', enterIdentity R organizationId generated identity now expiresAt
      (requested.filter (!isShared ·)) false (accounts.without call) = .ok (accounts', sessionId)

/-- When the reads of a check take place, in numbers of steps of the history. -/
structure ReadTimes where
  row : ℕ
  link : ℕ
  identity : ℕ
  rowAgain : ℕ
  linkAgain : ℕ
  identityAgain : ℕ
  ordered : row ≤ link ∧ link ≤ identity ∧ identity ≤ rowAgain ∧ rowAgain ≤ linkAgain ∧
    linkAgain ≤ identityAgain

/-- The tables after so many steps of a history. -/
def moment (R : Runtime) (organizationId : Id) (history : List SessionStep) (time : ℕ) :
    Accounts :=
  reached R organizationId (history.take time)

/-- What the first resolution of a check reads. -/
def ReadTimes.first (times : ReadTimes) (R : Runtime) (organizationId : Id)
    (history : List SessionStep) : Reads where
  row := moment R organizationId history times.row
  link := moment R organizationId history times.link
  identity := moment R organizationId history times.identity

/-- What the second resolution of a check reads. -/
def ReadTimes.second (times : ReadTimes) (R : Runtime) (organizationId : Id)
    (history : List SessionStep) : Reads where
  row := moment R organizationId history times.rowAgain
  link := moment R organizationId history times.linkAgain
  identity := moment R organizationId history times.identityAgain

/-- The capability of a session has been earned: the session is not shared, belongs to the
organization, is not logged out and has not expired; its active identity is enabled, has logged
in to it, is named by what is presented and may take the action. -/
structure Earned (R : Runtime) (organizationId : Id) (history : List SessionStep)
    (times : ReadTimes) (session : ProductSession) (action : String) (now : Stamp)
    (capability : SessionCapability) (row : SessionRow) (identity : IdentityRow) : Prop where
  notShared : isShared session.sessionId = false
  row_mem : row ∈ (moment R organizationId history times.rowAgain).sessions
  of_session : row.sessionId = session.sessionId
  organization : row.organizationId = organizationId
  notRevoked : row.revokedAt = none
  unexpired : ∃ expires moment, R.parseUtc row.expiresAt = some expires ∧
    R.parseUtc now = some moment ∧ moment < expires
  identity_mem : identity ∈ (moment R organizationId history times.identityAgain).identities
  active : identity.identityId = row.activeIdentityId
  enabled : identity.enabled = true
  loggedIn : LoggedIn R organizationId (history.take times.linkAgain) session.sessionId
    identity.identityId
  named : session.principalSubjectId = identity.subjectId ∧
    session.capabilityIds = [identity.capabilityId]
  given : capability.capabilityId = identity.capabilityId ∧
    capability.subjectId = identity.subjectId
  allowed : action ∈ identity.allowedActions

def activeIdentity (sessionId : Id) (accounts : Accounts) : Option Id :=
  (accounts.sessions.find? (·.sessionId == sessionId)).map (·.activeIdentityId)

/-- Between the two reads of the session no other identity has become active. -/
def SameIdentity (R : Runtime) (organizationId : Id) (history : List SessionStep)
    (times : ReadTimes) (session : ProductSession) : Prop :=
  activeIdentity session.sessionId (moment R organizationId history times.rowAgain) =
    activeIdentity session.sessionId (moment R organizationId history times.row)

/-! ## Identities are what they were -/

/-- An identity at a later time: it may have been disabled. -/
def IdentityRow.Persists (row row' : IdentityRow) : Prop :=
  row'.identityId = row.identityId ∧ row'.subjectId = row.subjectId ∧
    row'.capabilityId = row.capabilityId

/-- What a step does to the identities: none, it registers one, or it disables one. -/
inductive IdentitiesMove (identities : List IdentityRow) : List IdentityRow → Prop
  | same : IdentitiesMove identities identities
  | registered (row : IdentityRow) (hfresh : ∀ old ∈ identities, row.clash old = false) :
      IdentitiesMove identities (identities ++ [row])
  | disabled (test : IdentityRow → Bool) (now : Stamp) :
      IdentitiesMove identities (updateWhere test
        (fun row => { row with enabled := false, disabledAt := some now }) identities)

/-- Noting a call leaves the tables. -/
theorem begin_tables (call : ℕ) (rest : Except SessionError Continuation) (accounts : Accounts) :
    (begin call rest accounts).identities = accounts.identities ∧
      (begin call rest accounts).links = accounts.links := by
  unfold begin
  split <;> exact ⟨rfl, rfl⟩

variable {generated : Id} {identity : ProductIdentity} {now expiresAt : Stamp}

/-- What entering an identity makes of the tables: the identity is linked to the session. -/
theorem enterIdentity_spec {id : Id} {sessionId : Option Id} {sharedReadOnly : Bool}
    (h : enterIdentity R organizationId generated identity now expiresAt sessionId sharedReadOnly
      accounts = .ok (accounts', id)) :
    accounts'.identities = accounts.identities ∧ accounts'.calls = accounts.calls ∧
      accounts'.links = link id identity.identityId now accounts.links ∧
      id = sessionId.getD (if sharedReadOnly then "shared." ++ generated else generated) := by
  unfold enterIdentity at h
  obtain ⟨_, -, h⟩ := bind_eq_ok.mp h
  obtain ⟨_, -, h⟩ := bind_eq_ok.mp h
  obtain ⟨_, -, h⟩ := bind_eq_ok.mp h
  cases sessionId with
  | none =>
    dsimp only at h
    obtain ⟨_, -, h⟩ := bind_eq_ok.mp h
    obtain ⟨sessions, -, h⟩ := bind_eq_ok.mp h
    have heq := pure_eq_ok.mp h
    exact (Prod.mk.inj heq).1 ▸ (Prod.mk.inj heq).2 ▸ ⟨rfl, rfl, rfl, rfl⟩
  | some given =>
    dsimp only at h
    obtain ⟨_, -, h⟩ := bind_eq_ok.mp h
    have heq := pure_eq_ok.mp h
    exact (Prod.mk.inj heq).1 ▸ (Prod.mk.inj heq).2 ▸ ⟨rfl, rfl, rfl, rfl⟩

variable {sessionId identityId : Id}

/-- What the transaction of a switch leaves. -/
theorem switchIdentity_spec
    (h : switchIdentity R organizationId sessionId identityId now accounts = .ok accounts') :
    accounts'.identities = accounts.identities ∧ accounts'.calls = accounts.calls ∧
      accounts'.links = accounts.links := by
  obtain ⟨_, -, h⟩ := bind_eq_ok.mp h
  obtain ⟨_, -, h⟩ := bind_eq_ok.mp h
  cases h
  exact ⟨rfl, rfl, rfl⟩

/-- The transaction of a call leaves the identities. -/
theorem run_identities {continuation : Continuation}
    (h : continuation.run R organizationId generated accounts = .ok accounts') :
    accounts'.identities = accounts.identities := by
  cases continuation with
  | enter identity now expiresAt sessionId sharedReadOnly =>
    obtain ⟨id, h⟩ := map_fst_eq_ok.mp h
    exact (enterIdentity_spec h).1
  | switch sessionId identityId now => exact (switchIdentity_spec h).1

/-- Taking up a call carries out the transaction of the call, or raises and takes the call away,
or finds no such call. -/
theorem resume_cases (R : Runtime) (organizationId : Id) (call : ℕ) (generated : Id)
    (accounts : Accounts) :
    resume R organizationId call generated accounts = accounts ∨
      resume R organizationId call generated accounts = accounts.without call ∨
      ∃ continuation accounts', accounts.calls.find? (·.1 == call) = some (call, continuation) ∧
        continuation.run R organizationId generated (accounts.without call) = .ok accounts' ∧
        resume R organizationId call generated accounts = accounts' := by
  cases hfound : accounts.calls.find? (·.1 == call) with
  | none =>
    left
    simp only [resume, hfound]
  | some entry =>
    obtain ⟨other, continuation⟩ := entry
    have hcall : other = call := by simpa using List.find?_some hfound
    subst hcall
    have hresume : resume R organizationId other generated accounts =
        orKeep (accounts.without other)
          (continuation.run R organizationId generated (accounts.without other)) := by
      simp only [resume, hfound]
      rfl
    right
    rw [hresume]
    cases hrun : continuation.run R organizationId generated (accounts.without other) with
    | ok accounts' => exact Or.inr ⟨continuation, accounts', rfl, hrun, rfl⟩
    | error error => exact Or.inl rfl

/-- Taking up a call leaves the identities. -/
theorem resume_identities (call : ℕ) (generated : Id) :
    (resume R organizationId call generated accounts).identities = accounts.identities := by
  rcases resume_cases R organizationId call generated accounts with
    h | h | ⟨continuation, accounts', -, hrun, h⟩
  · rw [h]
  · rw [h]
    rfl
  · have hsame := run_identities hrun
    rw [h, hsame]
    rfl

/-- Every step moves the identities in one of these ways. -/
theorem identitiesMove_step (op : SessionStep) :
    IdentitiesMove accounts.identities (step R organizationId accounts op).identities := by
  cases op with
  | register identityId subjectId displayName role capabilityId loginSecret salt now =>
    show IdentitiesMove _ (orKeep accounts _).identities
    unfold orKeep
    split
    · rename_i h
      obtain ⟨_, -, h⟩ := bind_eq_ok.mp h
      obtain ⟨_, -, h⟩ := bind_eq_ok.mp h
      obtain ⟨_, -, h⟩ := bind_eq_ok.mp h
      obtain ⟨identities, hinsert, h⟩ := bind_eq_ok.mp h
      cases h
      obtain ⟨hfresh, rfl⟩ := insertRow_eq_some.mp (orReject_eq_ok.mp hinsert)
      exact .registered _ hfresh
    · exact .same
  | disable identityId now =>
    show IdentitiesMove _ (orKeep accounts _).identities
    unfold orKeep
    split
    · rename_i h
      obtain ⟨_, -, h⟩ := bind_eq_ok.mp h
      cases h
      exact .disabled _ now
    · exact .same
  | login call | enterShared call | switch call =>
    show IdentitiesMove _ (begin call _ accounts).identities
    rw [(begin_tables _ _ _).1]
    exact .same
  | resume call generated =>
    show IdentitiesMove _ (resume R organizationId call generated accounts).identities
    rw [resume_identities]
    exact .same
  | logout sessionId now =>
    show IdentitiesMove _ (orKeep accounts _).identities
    unfold orKeep
    split
    · rename_i h
      obtain ⟨_, -, h⟩ := bind_eq_ok.mp h
      obtain ⟨_, -, h⟩ := bind_eq_ok.mp h
      cases h
      exact .same
    · exact .same

variable {identities identities' : List IdentityRow}

/-- Identities persist across a step. -/
theorem IdentitiesMove.kept (h : IdentitiesMove identities identities') :
    Kept IdentityRow.Persists identities identities' := by
  have hrefl : ∀ row : IdentityRow, row.Persists row := fun row => ⟨rfl, rfl, rfl⟩
  cases h with
  | same => exact Kept.refl hrefl _
  | registered row hfresh => exact Kept.append hrefl _ _
  | disabled test now => exact Kept.updateWhere hrefl (by exact fun row _ => ⟨rfl, rfl, rfl⟩) _

/-- Identities and subjects have one row each. -/
structure UniqueIdentities (identities : List IdentityRow) : Prop where
  ids : (identities.map (·.identityId)).Nodup
  subjects : (identities.map (·.subjectId)).Nodup

/-- A step keeps the rows of identities and of subjects unique. -/
theorem IdentitiesMove.unique (h : IdentitiesMove identities identities')
    (hunique : UniqueIdentities identities) :
    UniqueIdentities identities' := by
  cases h with
  | same => exact hunique
  | registered row hfresh =>
    have hne : ∀ old ∈ identities, old.identityId ≠ row.identityId ∧
        old.subjectId ≠ row.subjectId := by
      intro old hold
      have hclash := hfresh old hold
      simp only [IdentityRow.clash, Bool.or_eq_false_iff, beq_eq_false_iff_ne] at hclash
      exact ⟨Ne.symm hclash.1.1, Ne.symm hclash.1.2⟩
    constructor
    · rw [List.map_append]
      refine nodup_concat_of_fresh hunique.ids fun id hid => ?_
      obtain ⟨old, hold, rfl⟩ := List.mem_map.mp hid
      exact (hne old hold).1
    · rw [List.map_append]
      refine nodup_concat_of_fresh hunique.subjects fun id hid => ?_
      obtain ⟨old, hold, rfl⟩ := List.mem_map.mp hid
      exact (hne old hold).2
  | disabled test now =>
    exact ⟨nodup_map_updateWhere (by exact fun _ => rfl) hunique.ids,
      nodup_map_updateWhere (by exact fun _ => rfl) hunique.subjects⟩

/-- Identities and subjects have one row each after every history. -/
theorem uniqueIdentities_reached (R : Runtime) (organizationId : Id)
    (history : List SessionStep) :
    UniqueIdentities (reached R organizationId history).identities := by
  refine @runFrom_invariant _ _ (step R organizationId)
    (fun accounts => UniqueIdentities accounts.identities) _ ?_ ?_ history
  · exact ⟨List.nodup_nil, List.nodup_nil⟩
  · exact fun accounts op hunique => (identitiesMove_step op).unique hunique

/-- The tables after a history and further steps. -/
theorem reached_append (R : Runtime) (organizationId : Id) (first second : List SessionStep) :
    reached R organizationId (first ++ second) =
      runFrom (step R organizationId) (reached R organizationId first) second :=
  runFrom_append (step R organizationId) {} first second

/-- Identities persist along a history. -/
theorem kept_reached (R : Runtime) (organizationId : Id) (first second : List SessionStep) :
    Kept IdentityRow.Persists (reached R organizationId first).identities
      (reached R organizationId (first ++ second)).identities := by
  refine runFrom_stays (I := fun accounts : Accounts =>
    Kept IdentityRow.Persists (reached R organizationId first).identities accounts.identities)
    (Kept.refl (fun row => ⟨rfl, rfl, rfl⟩) _) (fun _ op ih => ?_) second
  refine ih.trans ?_ (identitiesMove_step op).kept
  rintro a b c ⟨hid, hsubject, hcapability⟩ ⟨hid', hsubject', hcapability'⟩
  exact ⟨hid'.trans hid, hsubject'.trans hsubject, hcapability'.trans hcapability⟩

theorem kept_moment (R : Runtime) (organizationId : Id) (history : List SessionStep)
    {earlier later : ℕ} (h : earlier ≤ later) :
    Kept IdentityRow.Persists (moment R organizationId history earlier).identities
      (moment R organizationId history later).identities := by
  have hsplit : history.take later =
      history.take earlier ++ (history.take later).drop earlier := by
    have htake := List.take_append_drop earlier (history.take later)
    rw [List.take_take, Nat.min_eq_left h] at htake
    exact htake.symm
  unfold moment
  rw [hsplit]
  exact kept_reached R organizationId _ _

/-! ## Links of sessions that are not shared -/

/-- A call under way that enters an identity with a secret: in the history the identity was found
by its secret when the call began. -/
def Begun (R : Runtime) (organizationId : Id) (history : List SessionStep) (call : ℕ)
    (identity : ProductIdentity) (now expiresAt : Stamp) (target : Option Id) : Prop :=
  ∃ first secret requested between,
    history = first ++ .login call identity.identityId secret now expiresAt requested :: between ∧
    authenticate R identity.identityId secret (reached R organizationId first) = .ok identity ∧
    target = requested.filter (!isShared ·)

/-- What a history has brought about: calls that enter an identity have authenticated it or
enter it into a new shared session, and identities of other sessions have logged in to them. -/
structure Genuine (R : Runtime) (organizationId : Id) (history : List SessionStep)
    (accounts : Accounts) : Prop where
  logins : ∀ call identity now expiresAt target,
    (call, .enter identity now expiresAt target false) ∈ accounts.calls →
      Begun R organizationId history call identity now expiresAt target
  shared : ∀ call identity now expiresAt target,
    (call, .enter identity now expiresAt target true) ∈ accounts.calls → target = none
  links : ∀ row ∈ accounts.links, isShared row.sessionId = false →
    LoggedIn R organizationId history row.sessionId row.identityId

theorem Begun.concat {history : List SessionStep} {call : ℕ} {identity : ProductIdentity}
    {now expiresAt : Stamp} {target : Option Id}
    (h : Begun R organizationId history call identity now expiresAt target) (op : SessionStep) :
    Begun R organizationId (history ++ [op]) call identity now expiresAt target := by
  obtain ⟨first, secret, requested, between, rfl, hfound, htarget⟩ := h
  exact ⟨first, secret, requested, between ++ [op], by simp, hfound, htarget⟩

theorem LoggedIn.concat {history : List SessionStep} {sessionId identityId : Id}
    (h : LoggedIn R organizationId history sessionId identityId) (op : SessionStep) :
    LoggedIn R organizationId (history ++ [op]) sessionId identityId := by
  obtain ⟨first, call, secret, now, expiresAt, requested, between, generated, last, identity,
    accounts, rfl, h⟩ := h
  exact ⟨first, call, secret, now, expiresAt, requested, between, generated, last ++ [op],
    identity, accounts, by simp, h⟩

/-- An identity that is found by its secret has the identifier under which it was sought. -/
theorem identityId_of_authenticate {secret : String}
    (h : authenticate R identityId secret accounts = .ok identity) :
    identity.identityId = identityId := by
  obtain ⟨row, hrow, h⟩ := bind_eq_ok.mp h
  obtain ⟨_, -, h⟩ := bind_eq_ok.mp h
  obtain ⟨_, -, h⟩ := bind_eq_ok.mp h
  rw [← pure_eq_ok.mp h]
  simpa using List.find?_some (orReject_eq_ok.mp hrow)

variable {history : List SessionStep}

/-- A step that keeps the links and the calls brings nothing about. -/
theorem Genuine.same (h : Genuine R organizationId history accounts) (op : SessionStep)
    (hcalls : ∀ entry ∈ accounts'.calls, entry ∈ accounts.calls)
    (hlinks : accounts'.links = accounts.links) :
    Genuine R organizationId (history ++ [op]) accounts' := by
  refine ⟨?_, ?_, ?_⟩
  · intro call identity now expiresAt target hmem
    exact (h.logins call identity now expiresAt target (hcalls _ hmem)).concat op
  · intro call identity now expiresAt target hmem
    exact h.shared call identity now expiresAt target (hcalls _ hmem)
  · intro row hrow hnot
    exact (h.links row (hlinks ▸ hrow) hnot).concat op

/-- A call that begins keeps everything genuine when it begins in one of the ways. -/
theorem Genuine.begin (h : Genuine R organizationId history accounts) (op : SessionStep) (call : ℕ)
    (rest : Except SessionError Continuation) (hlogin : ∀ identity now expiresAt target,
      rest = .ok (.enter identity now expiresAt target false) →
        Begun R organizationId (history ++ [op]) call identity now expiresAt target)
    (hshared : ∀ identity now expiresAt target,
      rest = .ok (.enter identity now expiresAt target true) → target = none) :
    Genuine R organizationId (history ++ [op]) (begin call rest accounts) := by
  cases rest with
  | error error => exact h.same op (fun _ hentry => hentry) rfl
  | ok continuation =>
    refine ⟨?_, ?_, ?_⟩
    · intro call' identity now expiresAt target hmem
      rcases List.mem_append.mp hmem with hold | hnew
      · exact (h.logins call' identity now expiresAt target hold).concat op
      · obtain ⟨rfl, rfl⟩ := Prod.mk.inj (List.mem_singleton.mp hnew)
        exact hlogin identity now expiresAt target rfl
    · intro call' identity now expiresAt target hmem
      rcases List.mem_append.mp hmem with hold | hnew
      · exact h.shared call' identity now expiresAt target hold
      · obtain ⟨rfl, rfl⟩ := Prod.mk.inj (List.mem_singleton.mp hnew)
        exact hshared identity now expiresAt target rfl
    · intro row hrow hnot
      exact (h.links row hrow hnot).concat op

theorem mem_link {links : List SessionIdentityRow} {row : SessionIdentityRow}
    (h : row ∈ link sessionId identityId now links) :
    (row.sessionId = sessionId ∧ row.identityId = identityId) ∨
      ∃ old ∈ links, old.sessionId = row.sessionId ∧ old.identityId = row.identityId := by
  unfold link at h
  split at h
  · obtain ⟨old, hold, rfl⟩ := mem_updateWhere.mp h
    right
    refine ⟨old, hold, ?_⟩
    split <;> exact ⟨rfl, rfl⟩
  · rcases List.mem_append.mp h with hold | hnew
    · exact Or.inr ⟨row, hold, rfl, rfl⟩
    · rw [List.mem_singleton.mp hnew]
      exact Or.inl ⟨rfl, rfl⟩

/-- The identifier of a new shared session says that it is shared. -/
theorem isShared_append (generated : Id) : isShared ("shared." ++ generated) = true := by
  unfold isShared
  rw [String.toList_append, List.isPrefixOf_iff_prefix]
  exact List.prefix_append _ _

/-- A call that was under way is still so without another one. -/
theorem mem_calls_without {call : ℕ} {entry : ℕ × Continuation}
    (h : entry ∈ (accounts.without call).calls) : entry ∈ accounts.calls :=
  List.mem_of_mem_eraseP h

/-- Taking up a call keeps everything genuine. -/
theorem Genuine.resume {history : List SessionStep} {call : ℕ} {generated : Id}
    (h : Genuine R organizationId history accounts)
    (haccounts : accounts = reached R organizationId history) :
    Genuine R organizationId (history ++ [.resume call generated])
      (resume R organizationId call generated accounts) := by
  rcases resume_cases R organizationId call generated accounts with
    hsame | hraises | ⟨continuation, accounts', hfound, hrun, hdone⟩
  · rw [hsame]
    exact h.same _ (fun _ hentry => hentry) rfl
  · rw [hraises]
    exact h.same _ (fun _ => mem_calls_without) rfl
  · rw [hdone]
    have hmem := List.mem_of_find?_eq_some hfound
    cases continuation with
    | switch sessionId identityId now =>
      obtain ⟨-, hcalls, hlinks⟩ := switchIdentity_spec hrun
      exact h.same _ (fun entry hentry => mem_calls_without (hcalls ▸ hentry)) hlinks
    | enter identity now expiresAt target sharedReadOnly =>
      obtain ⟨id, hrun⟩ := map_fst_eq_ok.mp hrun
      obtain ⟨-, hcalls, hlinks, hid⟩ := enterIdentity_spec hrun
      have hkept : Genuine R organizationId (history ++ [.resume call generated])
          { accounts' with links := accounts.links } :=
        h.same _ (fun entry hentry => mem_calls_without (hcalls ▸ hentry)) rfl
      refine ⟨hkept.logins, hkept.shared, fun row hrow hnot => ?_⟩
      rw [hlinks] at hrow
      rcases mem_link hrow with ⟨hsession, hidentity⟩ | ⟨old, hold, hsession, hidentity⟩
      · -- The new link: the session is not shared, so the call is a login.
        have hlogin : sharedReadOnly = false := by
          by_contra hshared
          have hshared : sharedReadOnly = true := by simpa using hshared
          subst hshared
          have htarget := h.shared call identity now expiresAt target hmem
          subst htarget
          rw [hsession, hid] at hnot
          have htrue := isShared_append generated
          simp only [Option.getD_none, ↓reduceIte] at hnot
          rw [htrue] at hnot
          cases hnot
        subst hlogin
        obtain ⟨first, secret, requested, between, hhistory, hauthenticated, rfl⟩ :=
          h.logins call identity now expiresAt target hmem
        refine ⟨first, call, secret, now, expiresAt, requested, between, generated, [], identity,
          accounts, by rw [hidentity, ← hhistory], ?_, ?_, ?_, accounts', ?_⟩
        · rw [hidentity]
          exact hauthenticated
        · rw [hidentity, ← hhistory]
          exact haccounts
        · exact hfound
        · rw [hsession]
          exact hrun
      · have hlogged := h.links old hold (hsession ▸ hnot)
        rw [hsession, hidentity] at hlogged
        exact hlogged.concat _

/-- Where a transaction keeps the links and the calls, so does the step that tries it. -/
theorem orKeep_same (accounts : Accounts) (result : Except SessionError Accounts)
    (h : ∀ accounts', result = .ok accounts' → accounts'.calls = accounts.calls ∧
      accounts'.links = accounts.links) :
    (orKeep accounts result).calls = accounts.calls ∧
      (orKeep accounts result).links = accounts.links := by
  cases result with
  | ok accounts' => exact h accounts' rfl
  | error error => exact ⟨rfl, rfl⟩

theorem register_spec {subjectId capabilityId : Id} {displayName loginSecret : String}
    {role : ProductRole} {salt : List ℕ}
    (h : register R identityId subjectId displayName role capabilityId loginSecret salt now
      accounts = .ok accounts') :
    accounts'.calls = accounts.calls ∧ accounts'.links = accounts.links := by
  obtain ⟨_, -, h⟩ := bind_eq_ok.mp h
  obtain ⟨_, -, h⟩ := bind_eq_ok.mp h
  obtain ⟨_, -, h⟩ := bind_eq_ok.mp h
  obtain ⟨_, -, h⟩ := bind_eq_ok.mp h
  cases h
  exact ⟨rfl, rfl⟩

theorem disable_spec (h : disable identityId now accounts = .ok accounts') :
    accounts'.calls = accounts.calls ∧ accounts'.links = accounts.links := by
  obtain ⟨_, -, h⟩ := bind_eq_ok.mp h
  cases h
  exact ⟨rfl, rfl⟩

/-- Logging out keeps the links and the calls. -/
theorem logout_spec (h : logout R organizationId sessionId now accounts = .ok accounts') :
    accounts'.calls = accounts.calls ∧ accounts'.links = accounts.links := by
  obtain ⟨_, -, h⟩ := bind_eq_ok.mp h
  obtain ⟨_, -, h⟩ := bind_eq_ok.mp h
  cases h
  exact ⟨rfl, rfl⟩

variable {expiresAt' : Stamp}

/-- What a login has read before its transaction. -/
theorem login_spec {secret : String} {now' : Stamp} {sessionId target : Option Id} {shared : Bool}
    (h : login R identityId secret now expiresAt sessionId accounts =
      .ok (.enter identity now' expiresAt' target shared)) :
    shared = false ∧ now' = now ∧ expiresAt' = expiresAt ∧
      target = sessionId.filter (!isShared ·) ∧
      authenticate R identityId secret accounts = .ok identity := by
  obtain ⟨found, hfound, h⟩ := bind_eq_ok.mp h
  cases pure_eq_ok.mp h
  exact ⟨rfl, rfl, rfl, rfl, hfound⟩

/-- What the entry into a shared session has read before its transaction. -/
theorem enterShared_spec {now' : Stamp} {sessionId target : Option Id} {shared : Bool}
    (h : enterShared now expiresAt sessionId accounts =
      .ok (.enter identity now' expiresAt' target shared)) : shared = true ∧ target = none := by
  obtain ⟨_, hnone, h⟩ := bind_eq_ok.mp h
  obtain ⟨found, -, h⟩ := bind_eq_ok.mp h
  cases pure_eq_ok.mp h
  exact ⟨rfl, by simpa using hnone⟩

/-- Every step keeps everything genuine. -/
theorem Genuine.step {history : List SessionStep}
    (h : Genuine R organizationId history (reached R organizationId history)) (op : SessionStep) :
    Genuine R organizationId (history ++ [op])
      (step R organizationId (reached R organizationId history) op) := by
  cases op with
  | register identityId subjectId displayName role capabilityId loginSecret salt now =>
    obtain ⟨hcalls, hlinks⟩ := orKeep_same (reached R organizationId history)
      (Sessions.register R identityId subjectId displayName role capabilityId loginSecret salt now
        (reached R organizationId history)) fun _ hregister => register_spec hregister
    exact h.same _ (fun _ hentry => hcalls ▸ hentry) hlinks
  | disable identityId now =>
    obtain ⟨hcalls, hlinks⟩ := orKeep_same (reached R organizationId history)
      (Sessions.disable identityId now (reached R organizationId history))
      fun _ hdisable => disable_spec hdisable
    exact h.same _ (fun _ hentry => hcalls ▸ hentry) hlinks
  | logout sessionId now =>
    obtain ⟨hcalls, hlinks⟩ := orKeep_same (reached R organizationId history)
      (Sessions.logout R organizationId sessionId now (reached R organizationId history))
      fun _ hlogout => logout_spec hlogout
    exact h.same _ (fun _ hentry => hcalls ▸ hentry) hlinks
  | login call identityId loginSecret now expiresAt sessionId =>
    refine h.begin _ call _ ?_ ?_
    · intro identity now' expiresAt' target hlogin
      obtain ⟨-, rfl, rfl, rfl, hfound⟩ := login_spec hlogin
      have hid := identityId_of_authenticate hfound
      subst hid
      exact ⟨history, loginSecret, sessionId, [], rfl, hfound, rfl⟩
    · intro identity now' expiresAt' target hlogin
      cases (login_spec hlogin).1
  | enterShared call now expiresAt sessionId =>
    refine h.begin _ call _ ?_ ?_
    · intro identity now' expiresAt' target hshared
      cases (enterShared_spec hshared).1
    · intro identity now' expiresAt' target hshared
      exact (enterShared_spec hshared).2
  | switch call sessionId identityId now =>
    refine h.begin _ call _ ?_ ?_ <;>
    · intro identity now' expiresAt' target hswitch
      obtain ⟨_, -, hswitch⟩ := bind_eq_ok.mp hswitch
      obtain ⟨_, -, hswitch⟩ := bind_eq_ok.mp hswitch
      cases hswitch
  | resume call generated => exact h.resume rfl

/-- Everything in the tables after a history is genuine. -/
theorem genuine_reached (R : Runtime) (organizationId : Id) (history : List SessionStep) :
    Genuine R organizationId history (reached R organizationId history) := by
  induction history using List.reverseRecOn with
  | nil =>
    refine ⟨?_, ?_, ?_⟩
    · intro call identity now expiresAt target hmem
      cases hmem
    · intro call identity now expiresAt target hmem
      cases hmem
    · intro row hrow
      cases hrow
  | append_singleton history op ih =>
    rw [reached_append]
    exact ih.step op

/-! ## The check -/

/-- What an active session is. -/
theorem activeRow_spec {row : SessionRow}
    (h : activeRow R organizationId sessionId now accounts = .ok row) :
    accounts.sessions.find? (·.sessionId == sessionId) = some row ∧
      row.organizationId = organizationId ∧ row.revokedAt = none ∧
      ∃ expires moment, R.parseUtc row.expiresAt = some expires ∧
        R.parseUtc now = some moment ∧ moment < expires := by
  obtain ⟨found, hfound, h⟩ := bind_eq_ok.mp h
  obtain ⟨_, hcheck, h⟩ := bind_eq_ok.mp h
  obtain ⟨expires, hexpires, h⟩ := bind_eq_ok.mp h
  obtain ⟨moment, hmoment, h⟩ := bind_eq_ok.mp h
  obtain ⟨_, hlater, h⟩ := bind_eq_ok.mp h
  cases pure_eq_ok.mp h
  have hcheck := rejectIf_eq_ok.mp hcheck
  simp only [Bool.or_eq_false_iff, bne_eq_false_iff_eq, Option.isSome_eq_false_iff,
    Option.isNone_iff_eq_none] at hcheck
  have hlater := rejectIf_eq_ok.mp hlater
  exact ⟨orReject_eq_ok.mp hfound, hcheck.1, hcheck.2, expires, moment,
    orReject_eq_ok.mp hexpires, orReject_eq_ok.mp hmoment, by simpa using hlater⟩

/-- What a resolved session is. -/
structure Resolved (R : Runtime) (organizationId : Id) (reads : Reads) (sessionId : Id)
    (now : Stamp) (row : SessionRow) (identity : IdentityRow) : Prop where
  found : reads.row.sessions.find? (·.sessionId == sessionId) = some row
  organization : row.organizationId = organizationId
  notRevoked : row.revokedAt = none
  unexpired : ∃ expires moment, R.parseUtc row.expiresAt = some expires ∧
    R.parseUtc now = some moment ∧ moment < expires
  linked : isLinked sessionId row.activeIdentityId reads.link = true
  identity_mem : identity ∈ reads.identity.identities
  active : identity.identityId = row.activeIdentityId
  enabled : identity.enabled = true

/-- A resolution finds an active session with an enabled identity. -/
theorem resolved_spec {reads : Reads} {row : SessionRow} {found : ProductIdentity}
    (h : resolved R organizationId reads sessionId now = .ok (row, found)) :
    ∃ identity : IdentityRow, found = identity.toProductIdentity ∧
      Resolved R organizationId reads sessionId now row identity := by
  obtain ⟨active, hactive, h⟩ := bind_eq_ok.mp h
  obtain ⟨_, hlinked, h⟩ := bind_eq_ok.mp h
  obtain ⟨identity, hidentity, h⟩ := bind_eq_ok.mp h
  obtain ⟨_, henabled, h⟩ := bind_eq_ok.mp h
  obtain ⟨rfl, rfl⟩ := Prod.mk.inj (pure_eq_ok.mp h)
  obtain ⟨hfound, horganization, hnot, hexpires⟩ := activeRow_spec hactive
  have hidentity := orReject_eq_ok.mp hidentity
  exact ⟨identity, rfl, hfound, horganization, hnot, hexpires,
    by simpa using rejectIf_eq_ok.mp hlinked, List.mem_of_find?_eq_some hidentity,
    by simpa using List.find?_some hidentity, by simpa using rejectIf_eq_ok.mp henabled⟩

/-- What a check that gives a capability has found: the session names the identity of the first
resolution, and the capability is that of the second one. -/
theorem verifiedCapability_spec {first second : Reads} {session : ProductSession} {action : String}
    {runId : Option Id} {capability : SessionCapability}
    (h : verifiedCapability R organizationId first second session action runId now =
      .ok capability) :
    isShared session.sessionId = false ∧
      ∃ row named row' given,
        Resolved R organizationId first session.sessionId now row named ∧
        Resolved R organizationId second session.sessionId now row' given ∧
        (session.principalSubjectId = named.subjectId ∧
          session.capabilityIds = [named.capabilityId]) ∧
        (capability.capabilityId = given.capabilityId ∧
          capability.subjectId = given.subjectId) ∧ action ∈ given.allowedActions := by
  obtain ⟨_, hshared, h⟩ := bind_eq_ok.mp h
  obtain ⟨current, hcurrent, h⟩ := bind_eq_ok.mp h
  obtain ⟨_, hsame, h⟩ := bind_eq_ok.mp h
  obtain ⟨⟨row', found⟩, hsecond, h⟩ := bind_eq_ok.mp h
  obtain ⟨_, hallowed, h⟩ := bind_eq_ok.mp h
  obtain ⟨⟨row, found'⟩, hfirst, hcurrent⟩ := bind_eq_ok.mp hcurrent
  obtain ⟨given, rfl, hgiven⟩ := resolved_spec hsecond
  obtain ⟨named, rfl, hnamed⟩ := resolved_spec hfirst
  have hcurrent := pure_eq_ok.mp hcurrent
  have hsame : current = session := by simpa using rejectIf_eq_ok.mp hsame
  have hcapability := pure_eq_ok.mp h
  refine ⟨rejectIf_eq_ok.mp hshared, row, named, row', given, hnamed, hgiven, ?_, ?_, ?_⟩
  · rw [← hsame, ← hcurrent]
    exact ⟨rfl, rfl⟩
  · rw [← hcapability]
    exact ⟨rfl, rfl⟩
  · simpa using rejectIf_eq_ok.mp hallowed

theorem Resolved.activeIdentity {reads : Reads} {sessionId : Id} {now : Stamp} {row : SessionRow}
    {identity : IdentityRow} (h : Resolved R organizationId reads sessionId now row identity) :
    activeIdentity sessionId reads.row = some identity.identityId := by
  unfold Sessions.activeIdentity
  rw [h.found, h.active]
  rfl

/-- Of two moments of a history, an identity of the earlier one is the identity with the same
subject of the later one. -/
theorem named_iff_same {earlier later : ℕ} (hle : earlier ≤ later) {named given : IdentityRow}
    (hnamed : named ∈ (moment R organizationId history earlier).identities)
    (hgiven : given ∈ (moment R organizationId history later).identities) :
    (named.subjectId = given.subjectId ∧ named.capabilityId = given.capabilityId) ↔
      given.identityId = named.identityId := by
  obtain ⟨row, hrow, hid, hsubject, hcapability⟩ :=
    kept_moment R organizationId history hle named hnamed
  have hunique := uniqueIdentities_reached R organizationId (history.take later)
  constructor
  · rintro ⟨heq, -⟩
    have hsame := List.inj_on_of_nodup_map hunique.subjects hrow hgiven (hsubject.trans heq)
    rw [← hsame, hid]
  · intro heq
    have hsame := List.inj_on_of_nodup_map hunique.ids hrow hgiven (hid.trans heq.symm)
    rw [← hsame]
    exact ⟨hsubject.symm, hcapability.symm⟩

/-- A capability that a check gives has been earned exactly when no other identity became active
in the session between the two resolutions of the check. -/
theorem capability_earned_iff {history : List SessionStep} {times : ReadTimes}
    {session : ProductSession} {action : String} {runId : Option Id} {now : Stamp}
    {capability : SessionCapability}
    (h : verifiedCapability R organizationId (times.first R organizationId history)
      (times.second R organizationId history) session action runId now = .ok capability) :
    (∃ row identity, Earned R organizationId history times session action now capability row
      identity) ↔ SameIdentity R organizationId history times session := by
  obtain ⟨hshared, row, named, row', given, hfirst, hsecond, hnames, hgives, hallowed⟩ :=
    verifiedCapability_spec h
  have hle : times.identity ≤ times.identityAgain := by
    have hordered := times.ordered
    omega
  have hsame := named_iff_same hle hfirst.identity_mem hsecond.identity_mem
  have hactive := hfirst.activeIdentity
  have hactive' := hsecond.activeIdentity
  unfold SameIdentity
  rw [show activeIdentity session.sessionId (moment R organizationId history times.row) =
      some named.identityId from hactive,
    show activeIdentity session.sessionId (moment R organizationId history times.rowAgain) =
      some given.identityId from hactive', Option.some.injEq]
  constructor
  · rintro ⟨other, identity, hearned⟩
    -- The capability names one identity, the one that the second resolution has found.
    have hunique := uniqueIdentities_reached R organizationId (history.take times.identityAgain)
    have hgiven : identity = given :=
      List.inj_on_of_nodup_map hunique.subjects hearned.identity_mem hsecond.identity_mem
        (hearned.given.2.symm.trans hgives.2)
    subst hgiven
    refine hsame.mp ⟨hnames.1.symm.trans hearned.named.1, ?_⟩
    have hcapabilities := hnames.2.symm.trans hearned.named.2
    simpa using hcapabilities
  · intro heq
    obtain ⟨hsubject, hcapability⟩ := hsame.mpr heq
    obtain ⟨link, hlink, htest⟩ := List.any_eq_true.mp hsecond.linked
    simp only [Bool.and_eq_true, beq_iff_eq] at htest
    have hlogged := (genuine_reached R organizationId (history.take times.linkAgain)).links link
      hlink (htest.1.symm ▸ hshared)
    refine ⟨row', given, hshared, List.mem_of_find?_eq_some hsecond.found,
      by simpa using List.find?_some hsecond.found, hsecond.organization, hsecond.notRevoked,
      hsecond.unexpired, hsecond.identity_mem, hsecond.active, hsecond.enabled, ?_, ?_, hgives,
      hallowed⟩
    · rw [hsecond.active, ← htest.2, ← htest.1]
      exact hlogged
    · exact ⟨hnames.1.trans hsubject, by rw [hnames.2, hcapability]⟩

namespace LoginSample

/-- A runtime that knows one secret and two moments. -/
def runtime : Runtime where
  credentialDigest secret salt :=
    if secret = "sixteen characters" ∧ salt = List.replicate 16 0 then
      [1, 159, 67, 136, 151, 242, 59, 52, 35, 41, 35, 243, 158, 120, 223, 16, 17, 141, 156, 154,
        38, 78, 25, 207, 119, 19, 98, 75, 68, 129, 190, 200]
    else []
  parseUtc text :=
    if text = "2025-01-01T00:00:00.000Z" then some 1735689600
    else if text = "2026-01-01T00:00:00.000Z" then some 1767225600
    else none

/-- Now. -/
def today : Stamp := "2025-01-01T00:00:00.000Z"

/-- When the sessions expire. -/
def nextYear : Stamp := "2026-01-01T00:00:00.000Z"

/-- Two identities log in to one session, and the second is switched back to the first. -/
def loggedIn : List SessionStep :=
  [.register "main" "subject-main" "Main" .main "capability-main" "sixteen characters"
      (List.replicate 16 0) today,
    .register "worker" "subject-worker" "Worker" .worker "capability-worker" "sixteen characters"
      (List.replicate 16 0) today,
    .login 1 "worker" "sixteen characters" today nextYear none,
    .resume 1 "session",
    .login 2 "main" "sixteen characters" today nextYear (some "session"),
    .resume 2 "unused"]

/-- A switch that takes place between the two resolutions of a check. -/
def switched : List SessionStep :=
  loggedIn ++ [.switch 3 "session" "worker" today, .resume 3 "unused"]

/-- The session as it is presented, by the identity that is active before the switch. -/
def presented : ProductSession := ⟨"session", "subject-main", ["capability-main"]⟩

/-- All reads take place before the switch. -/
def before : ReadTimes := ⟨6, 6, 6, 6, 6, 6, by decide⟩

/-- The second resolution takes place after the switch. -/
def across : ReadTimes := ⟨6, 6, 6, 8, 8, 8, by decide⟩

end LoginSample

open LoginSample in
/-- A session that presents the active identity is given its capability. -/
theorem capability_earned_of_active :
    ∃ capability, verifiedCapability runtime "organization"
        (before.first runtime "organization" switched)
        (before.second runtime "organization" switched) presented "SUBMIT_GUIDANCE" none today =
          .ok capability ∧
      ∃ row identity, Earned runtime "organization" switched before presented "SUBMIT_GUIDANCE"
        today capability row identity := by
  have h : verifiedCapability runtime "organization"
      (before.first runtime "organization" switched)
      (before.second runtime "organization" switched) presented "SUBMIT_GUIDANCE" none today =
        .ok ⟨"capability-main", "subject-main", "rk-product:organization", roleActions .main,
          ["*"], today, nextYear, .main⟩ := by decide +kernel
  exact ⟨_, h, (capability_earned_iff h).mpr rfl⟩

open LoginSample in
/-- A switch between the two resolutions: the session names the identity that was active, and
the capability is that of the other one, for an action that only the other one may take. -/
theorem unnamed_capability_given :
    ¬ ∀ (R : Runtime) (organizationId : Id) (history : List SessionStep) (times : ReadTimes)
      (session : ProductSession) (action : String) (runId : Option Id) (now : Stamp)
      (capability : SessionCapability),
      verifiedCapability R organizationId (times.first R organizationId history)
        (times.second R organizationId history) session action runId now = .ok capability →
      ∃ row identity, Earned R organizationId history times session action now capability row
        identity := by
  intro hall
  have h : verifiedCapability runtime "organization"
      (across.first runtime "organization" switched)
      (across.second runtime "organization" switched) presented "RUN_TOOL" none today =
        .ok ⟨"capability-worker", "subject-worker", "rk-product:organization",
          roleActions .worker, ["*"], today, nextYear, .worker⟩ := by decide +kernel
  obtain ⟨row, identity, hearned⟩ := hall _ _ _ _ _ _ _ _ _ h
  have hgiven : "subject-worker" = identity.subjectId := hearned.given.2
  have hnamed : "subject-main" = identity.subjectId := hearned.named.1
  exact absurd (hgiven.trans hnamed.symm) (by decide)

end ResearchKernel.Product.Sessions
