import ResearchKernel.Product.Jobs

/-!
# Identities and sessions

An organization keeps identities with a role and a secret each. A browser session may switch
among the identities that have logged in to it; a shared session shows the product without a
secret. Before a product command is carried out, the session that it presents is resolved to
the capability of its active identity. A login, a switch and this check read the tables in
several steps, between which other calls may come.
-/

namespace ResearchKernel.Product.Sessions

open Foundation

/-! ## Identities -/

/-- What the stores take from the runtime: the credential digest of a secret under a salt, and
the moment that a text denotes, if it denotes one. -/
structure Runtime where
  credentialDigest : String → List ℕ → List ℕ
  parseUtc : Stamp → Option ℤ

/-- Role of an identity. -/
inductive ProductRole where
  | main | literatureReviewer | worker | machineVerifier | peerReviewer | paperReviewer
  | publicationWorker | admin
deriving DecidableEq

/-- The actions that a role allows. -/
def roleActions : ProductRole → List String
  | .main => ["AMEND_CONTRACT", "APPLY_ROUTE_PLAN", "ASSIGN_ABLATION", "BATCH_CREATE_RESEARCH",
      "CANCEL_JOB", "CANCEL_RESEARCH", "CONFIRM_CONTRACT", "CONFIRM_MATERIAL_EXTRACTION",
      "CONFIRM_REVOKE", "CREATE_RESEARCH", "CREATE_REVIEW_TASK", "FINALIZE_RESEARCH",
      "FREEZE_PROBLEM_POOL", "IMPORT_RESEARCH_LINEAGE", "PAUSE_RESEARCH",
      "REGISTER_BRIDGE_OPPORTUNITY", "REGISTER_BRIDGE_SPEC", "REPLAY_SOURCE_SNAPSHOT",
      "RESUME_RESEARCH", "RUN_LITERATURE_QUERY", "START_RESEARCH", "SUBMIT_CLOSURE_WITNESS",
      "SUBMIT_GUIDANCE", "WITHDRAW_GUIDANCE"]
  | .literatureReviewer => ["REVIEW_THEOREM_APPLICABILITY"]
  | .worker => ["CANCEL_JOB", "CREATE_COMPUTE_TASK", "REGISTER_BRIDGE_OPPORTUNITY",
      "RETRY_UNKNOWN_OUTCOME", "RUN_TOOL", "SUBMIT_CLAIM"]
  | .machineVerifier => ["IMPORT_VERIFICATION"]
  | .peerReviewer => ["CLAIM_REVIEW_TASK", "SUBMIT_REVIEW"]
  | .paperReviewer => ["CLAIM_REVIEW_TASK", "SUBMIT_PAPER_REVIEW"]
  | .publicationWorker => ["COMPILE_FINAL_PDF", "GENERATE_CANDIDATE_TEX"]
  | .admin => ["CANCEL_JOB", "DEPLOYMENT_OPERATION"]

/-- An identity as the other stores see it. -/
structure ProductIdentity where
  identityId : Id
  subjectId : Id
  displayName : String
  role : ProductRole
  capabilityId : Id
  enabled : Bool
  createdAt : Stamp
  disabledAt : Option Stamp

/-- The actions that an identity may take. -/
def ProductIdentity.allowedActions (identity : ProductIdentity) : List String :=
  roleActions identity.role

/-- A row of `product_identities`. -/
structure IdentityRow extends ProductIdentity where
  credentialSalt : List ℕ
  credentialDigest : List ℕ

/-- Unique columns of `product_identities`. -/
def IdentityRow.clash (a b : IdentityRow) : Bool :=
  a.identityId == b.identityId || a.subjectId == b.subjectId || a.capabilityId == b.capabilityId

/-- What the functions of the stores raise. -/
inductive SessionError where
  /-- `CapabilityError`. -/
  | capability (code : String)
  /-- `SessionAuthenticationError`. -/
  | session (code : String)
  /-- `IdentityAuthenticationError`. -/
  | authentication (code : String)
  /-- `IdentityConflict`. -/
  | conflict (message : String)
  /-- `ValueError`. -/
  | value (message : String)
  /-- `KeyError`. -/
  | key (id : Id)
  /-- `sqlite3.IntegrityError`. -/
  | integrity
deriving DecidableEq

/-! ## Tables -/

/-- A row of `product_sessions`. -/
structure SessionRow where
  sessionId : Id
  organizationId : Id
  activeIdentityId : Id
  sessionVersion : ℕ := 1
  issuedAt : Stamp
  expiresAt : Stamp
  revokedAt : Option Stamp := none

/-- A row of `product_session_identities`. -/
structure SessionIdentityRow where
  sessionId : Id
  identityId : Id
  authenticatedAt : Stamp

/-- The rest of a call that has read an identity and has its transaction before it. -/
inductive Continuation where
  /-- `_enter_identity`, called by `login` and by `enter_shared`. -/
  | enter (identity : ProductIdentity) (now expiresAt : Stamp) (sessionId : Option Id)
      (sharedReadOnly : Bool)
  /-- The transaction of `switch`. -/
  | switch (sessionId identityId : Id) (now : Stamp)

/-- The tables, and the calls that are under way. -/
structure Accounts where
  identities : List IdentityRow := []
  sessions : List SessionRow := []
  links : List SessionIdentityRow := []
  calls : List (ℕ × Continuation) := []

/-! ## The identity store -/

/-- Register an identity with its secret, under the salt that was generated for it. -/
def register (R : Runtime) (identityId subjectId : Id) (displayName : String) (role : ProductRole)
    (capabilityId : Id) (loginSecret : String) (salt : List ℕ) (now : Stamp)
    (accounts : Accounts) : Except SessionError Accounts := do
  rejectIf ([identityId, subjectId, displayName, capabilityId].any (· == ""))
    (.value "identity strings must be non-empty")
  rejectIf (decide (loginSecret.length < 16))
    (.value "login secret must contain at least 16 characters")
  rejectIf (salt.length != 16) (.value "identity salt generator must return exactly 16 bytes")
  let identities ← orReject (insertRow IdentityRow.clash
    { identityId := identityId
      subjectId := subjectId
      displayName := displayName
      role := role
      capabilityId := capabilityId
      enabled := true
      createdAt := now
      disabledAt := none
      credentialSalt := salt
      credentialDigest := R.credentialDigest loginSecret salt } accounts.identities)
    (.conflict "identity, subject, or capability already exists")
  return { accounts with identities := identities }

def identityRow? (identityId : Id) (accounts : Accounts) : Option IdentityRow :=
  accounts.identities.find? (·.identityId == identityId)

/-- Read an identity. -/
def getIdentity (identityId : Id) (accounts : Accounts) : Except SessionError ProductIdentity :=
  (·.toProductIdentity) <$> orReject (identityRow? identityId accounts) (.key identityId)

/-- The enabled identities of a role, the oldest first. -/
def enabledByRole (role : ProductRole) (accounts : Accounts) : List IdentityRow :=
  (accounts.identities.filter fun row => row.role == role && row.enabled).insertionSort
    fun a b => a.createdAt < b.createdAt ∨ a.createdAt = b.createdAt ∧ a.identityId ≤ b.identityId

def firstEnabledByRole (role : ProductRole) (accounts : Accounts) :
    Except SessionError ProductIdentity :=
  (·.toProductIdentity) <$> orReject (enabledByRole role accounts).head? (.key "MAIN")

/-- Find an enabled identity by its secret. -/
def authenticate (R : Runtime) (identityId : Id) (loginSecret : String) (accounts : Accounts) :
    Except SessionError ProductIdentity := do
  let row ← orReject (identityRow? identityId accounts)
    (.authentication "IDENTITY_AUTHENTICATION_FAILED")
  rejectIf (!row.enabled) (.authentication "IDENTITY_AUTHENTICATION_FAILED")
  rejectIf (R.credentialDigest loginSecret row.credentialSalt != row.credentialDigest)
    (.authentication "IDENTITY_AUTHENTICATION_FAILED")
  return row.toProductIdentity

def disable (identityId : Id) (now : Stamp) (accounts : Accounts) :
    Except SessionError Accounts := do
  let test : IdentityRow → Bool := fun row => row.identityId == identityId && row.enabled
  rejectIf (accounts.identities.countP test != 1) (.key identityId)
  return { accounts with
    identities := updateWhere test
      (fun row => { row with enabled := false, disabledAt := some now }) accounts.identities }

/-! ## The session store -/

/-- Whether an identifier is that of a shared session. -/
def isShared (sessionId : Id) : Bool := "shared.".toList.isPrefixOf sessionId.toList

/-- The moment that a text denotes. -/
def parseUtc (R : Runtime) (text : Stamp) : Except SessionError ℤ :=
  orReject (R.parseUtc text) (.value "timestamps must include a timezone")

/-- The row of a session of the organization that is neither logged out nor expired. -/
def activeRow (R : Runtime) (organizationId sessionId : Id) (now : Stamp) (accounts : Accounts) :
    Except SessionError SessionRow := do
  let row ← orReject (accounts.sessions.find? (·.sessionId == sessionId))
    (.session "SESSION_NOT_ACTIVE")
  rejectIf (row.organizationId != organizationId || row.revokedAt.isSome)
    (.session "SESSION_NOT_ACTIVE")
  let expires ← parseUtc R row.expiresAt
  let moment ← parseUtc R now
  rejectIf (decide (expires ≤ moment)) (.session "SESSION_NOT_ACTIVE")
  return row

/-- Make an identity the active one of a session. -/
def activate (sessionId identityId : Id) (sessions : List SessionRow) : List SessionRow :=
  updateWhere (·.sessionId == sessionId)
    (fun row => { row with
      activeIdentityId := identityId, sessionVersion := row.sessionVersion + 1 }) sessions

/-- Link an identity to a session, or note that it was authenticated again. -/
def link (sessionId identityId : Id) (now : Stamp) (links : List SessionIdentityRow) :
    List SessionIdentityRow :=
  if links.any fun row => row.sessionId == sessionId && row.identityId == identityId then
    updateWhere (fun row => row.sessionId == sessionId && row.identityId == identityId)
      (fun row => { row with authenticatedAt := now }) links
  else
    links ++ [{ sessionId := sessionId, identityId := identityId, authenticatedAt := now }]

/-- Enter an identity into a session, a new one when none is given. Returns the identifier of
the session. -/
def enterIdentity (R : Runtime) (organizationId generated : Id) (identity : ProductIdentity)
    (now expiresAt : Stamp) (sessionId : Option Id) (sharedReadOnly : Bool)
    (accounts : Accounts) : Except SessionError (Accounts × Id) := do
  let expires ← parseUtc R expiresAt
  let moment ← parseUtc R now
  rejectIf (decide (expires ≤ moment)) (.value "session expiry must be after login time")
  match sessionId with
  | none =>
    let id := if sharedReadOnly then "shared." ++ generated else generated
    rejectIf (!decide (now < expiresAt)) .integrity
    let sessions ← orReject (insertRow (fun a b => a.sessionId == b.sessionId)
      { sessionId := id
        organizationId := organizationId
        activeIdentityId := identity.identityId
        issuedAt := now
        expiresAt := expiresAt } accounts.sessions) .integrity
    return ({ accounts with
      sessions := sessions
      links := link id identity.identityId now accounts.links }, id)
  | some id =>
    let _ ← activeRow R organizationId id now accounts
    return ({ accounts with
      sessions := activate id identity.identityId accounts.sessions
      links := link id identity.identityId now accounts.links }, id)

/-- The first step of a login: the secret is checked, and a shared session is replaced. -/
def login (R : Runtime) (identityId : Id) (loginSecret : String) (now expiresAt : Stamp)
    (sessionId : Option Id) (accounts : Accounts) : Except SessionError Continuation := do
  let identity ← authenticate R identityId loginSecret accounts
  return .enter identity now expiresAt (sessionId.filter fun id => !isShared id) false

/-- The first step of entering a shared session. -/
def enterShared (now expiresAt : Stamp) (sessionId : Option Id) (accounts : Accounts) :
    Except SessionError Continuation := do
  rejectIf sessionId.isSome (.session "SHARED_SESSION_REQUIRES_ROTATION")
  let identity ← firstEnabledByRole .main accounts
  return .enter identity now expiresAt sessionId true

/-- The first step of a switch. -/
def switch (sessionId identityId : Id) (now : Stamp) (accounts : Accounts) :
    Except SessionError Continuation := do
  let identity ← getIdentity identityId accounts
  rejectIf (!identity.enabled) (.session "SESSION_IDENTITY_DISABLED")
  return .switch sessionId identityId now

/-- Whether an identity is linked to a session. -/
def isLinked (sessionId identityId : Id) (accounts : Accounts) : Bool :=
  accounts.links.any fun row => row.sessionId == sessionId && row.identityId == identityId

/-- The transaction of a switch. -/
def switchIdentity (R : Runtime) (organizationId sessionId identityId : Id) (now : Stamp)
    (accounts : Accounts) : Except SessionError Accounts := do
  let _ ← activeRow R organizationId sessionId now accounts
  rejectIf (!isLinked sessionId identityId accounts) (.session "SESSION_IDENTITY_NOT_AUTHENTICATED")
  return { accounts with sessions := activate sessionId identityId accounts.sessions }

/-- Log a session out. -/
def logout (R : Runtime) (organizationId sessionId : Id) (now : Stamp) (accounts : Accounts) :
    Except SessionError Accounts := do
  let _ ← activeRow R organizationId sessionId now accounts
  let test : SessionRow → Bool := fun row => row.sessionId == sessionId && row.revokedAt.isNone
  rejectIf (accounts.sessions.countP test != 1) (.session "SESSION_NOT_ACTIVE")
  return { accounts with
    sessions := updateWhere test (fun row => { row with
      revokedAt := some now, sessionVersion := row.sessionVersion + 1 }) accounts.sessions }

/-! ## Resolution -/

/-- The tables as the three reads of a resolution find them. -/
structure Reads where
  row : Accounts
  link : Accounts
  identity : Accounts

def resolved (R : Runtime) (organizationId : Id) (reads : Reads) (sessionId : Id) (now : Stamp) :
    Except SessionError (SessionRow × ProductIdentity) := do
  let row ← activeRow R organizationId sessionId now reads.row
  rejectIf (!isLinked sessionId row.activeIdentityId reads.link)
    (.session "SESSION_IDENTITY_NOT_AUTHENTICATED")
  let identity ← orReject (identityRow? row.activeIdentityId reads.identity)
    (.session "SESSION_IDENTITY_MISSING")
  rejectIf (!identity.enabled) (.session "SESSION_IDENTITY_DISABLED")
  return (row, identity.toProductIdentity)

/-- A session as a command presents it. -/
structure ProductSession where
  sessionId : Id
  principalSubjectId : Id
  capabilityIds : List Id
deriving DecidableEq

/-- The session that names the active identity. -/
def derive (R : Runtime) (organizationId : Id) (reads : Reads) (sessionId : Id) (now : Stamp) :
    Except SessionError ProductSession := do
  let (_, identity) ← resolved R organizationId reads sessionId now
  return { sessionId := sessionId
           principalSubjectId := identity.subjectId
           capabilityIds := [identity.capabilityId] }

/-- A capability of a product session. -/
structure SessionCapability where
  capabilityId : Id
  subjectId : Id
  issuer : String
  allowedActions : List String
  runScope : List String
  issuedAt : Stamp
  expiresAt : Stamp
  subjectRole : ProductRole
deriving DecidableEq

/-- The capability of the active identity of a presented session. The session is resolved twice:
to compare it with what is presented, and for the capability. -/
def verifiedCapability (R : Runtime) (organizationId : Id) (first second : Reads)
    (session : ProductSession) (action : String) (runId : Option Id) (now : Stamp) :
    Except SessionError SessionCapability := do
  rejectIf (isShared session.sessionId) (.capability "CAPABILITY_DENIED")
  let current ← derive R organizationId first session.sessionId now
  rejectIf (current != session) (.capability "CAPABILITY_DENIED")
  let (row, identity) ← resolved R organizationId second session.sessionId now
  rejectIf (!identity.allowedActions.contains action) (.capability "CAPABILITY_DENIED")
  return { capabilityId := identity.capabilityId
           subjectId := identity.subjectId
           issuer := "rk-product:" ++ organizationId
           allowedActions := identity.allowedActions
           runScope := [runId.getD "*"]
           issuedAt := row.issuedAt
           expiresAt := row.expiresAt
           subjectRole := identity.role }

/-! ## Histories -/

/-- A step of a call. Calls that read an identity first are resumed for their transaction, with
the identifier that is generated then. -/
inductive SessionStep where
  | register (identityId subjectId : Id) (displayName : String) (role : ProductRole)
      (capabilityId : Id) (loginSecret : String) (salt : List ℕ) (now : Stamp)
  | disable (identityId : Id) (now : Stamp)
  | login (call : ℕ) (identityId : Id) (loginSecret : String) (now expiresAt : Stamp)
      (sessionId : Option Id)
  | enterShared (call : ℕ) (now expiresAt : Stamp) (sessionId : Option Id)
  | switch (call : ℕ) (sessionId identityId : Id) (now : Stamp)
  | resume (call : ℕ) (generated : Id)
  | logout (sessionId : Id) (now : Stamp)

/-- Note the rest of a call, unless its first step has raised. -/
def begin (call : ℕ) (rest : Except SessionError Continuation) (accounts : Accounts) : Accounts :=
  match rest with
  | .ok continuation => { accounts with calls := accounts.calls ++ [(call, continuation)] }
  | .error _ => accounts

/-- The transaction of a call. -/
def Continuation.run (R : Runtime) (organizationId generated : Id) (accounts : Accounts) :
    Continuation → Except SessionError Accounts
  | .enter identity now expiresAt sessionId sharedReadOnly =>
    Prod.fst <$> enterIdentity R organizationId generated identity now expiresAt sessionId
      sharedReadOnly accounts
  | .switch sessionId identityId now =>
    switchIdentity R organizationId sessionId identityId now accounts

/-- Take up a call that is under way: its transaction is carried out or raises. -/
def resume (R : Runtime) (organizationId : Id) (call : ℕ) (generated : Id)
    (accounts : Accounts) : Accounts :=
  match accounts.calls.find? (·.1 == call) with
  | none => accounts
  | some (_, continuation) =>
    let rest := { accounts with calls := accounts.calls.eraseP (·.1 == call) }
    match continuation.run R organizationId generated rest with
    | .ok accounts' => accounts'
    | .error _ => rest

/-- What remains of the tables after a transaction that may raise. -/
def orKeep (accounts : Accounts) : Except SessionError Accounts → Accounts
  | .ok accounts' => accounts'
  | .error _ => accounts

/-- One step of the stores of an organization. -/
def step (R : Runtime) (organizationId : Id) (accounts : Accounts) : SessionStep → Accounts
  | .register identityId subjectId displayName role capabilityId loginSecret salt now =>
    orKeep accounts (Sessions.register R identityId subjectId displayName role capabilityId
      loginSecret salt now accounts)
  | .disable identityId now => orKeep accounts (Sessions.disable identityId now accounts)
  | .login call identityId loginSecret now expiresAt sessionId =>
    begin call (Sessions.login R identityId loginSecret now expiresAt sessionId accounts) accounts
  | .enterShared call now expiresAt sessionId =>
    begin call (Sessions.enterShared now expiresAt sessionId accounts) accounts
  | .switch call sessionId identityId now =>
    begin call (Sessions.switch sessionId identityId now accounts) accounts
  | .resume call generated => Sessions.resume R organizationId call generated accounts
  | .logout sessionId now => orKeep accounts (Sessions.logout R organizationId sessionId now accounts)

/-- The tables after a history that begins with empty ones. -/
def reached (R : Runtime) (organizationId : Id) (history : List SessionStep) : Accounts :=
  history.foldl (step R organizationId) {}

end ResearchKernel.Product.Sessions
