import Mathlib.Data.List.Sort
import Mathlib.Data.String.Basic
import ResearchKernel.Foundation.Checks
import ResearchKernel.Foundation.Runs
import ResearchKernel.Schema

/-!
# Migrations

The schema of a database is made by numbered scripts. A script commits its own transactions,
and the runner then records it in a ledger in a transaction of its own. A process may stop
between the two. The runner refuses a database with tables and an empty ledger, which is what
a stop after the first script leaves behind. A stop after a later script leaves a ledger that
is not empty, and the next call executes that script again.
-/

namespace ResearchKernel.Migrations

open Foundation

/-! ## Scripts -/

/-- A script. -/
structure Migration where
  version : ℕ
  name : String
  sha256 : Digest
  sql : String
deriving DecidableEq

/-- A row of the ledger. -/
structure AppliedMigration where
  version : ℕ
  name : String
  sha256 : Digest
  appliedAt : String

/-- An entry of the directory of scripts, with the digest of its bytes and the text that they
encode, if they do. -/
structure DirectoryEntry where
  name : String
  isFile : Bool := true
  sha256 : Digest
  text : Option String

/-- What the runner raises. -/
inductive MigrationError where
  /-- `MigrationError`. -/
  | migration (message : String)
  /-- `MigrationDriftError`. -/
  | drift (message : String)
  /-- `UnmanagedDatabaseError`. -/
  | unmanaged (message : String)
deriving DecidableEq

/-- Digests of released scripts whose outcome is that of the present ones. -/
def compatibleReleaseDigests : ℕ → List Digest
  | 7 => ["d1e8bf0bbcc2868b4fce1803938c4ff2f4c820a26bfab11c96cadf4ccf23c321"]
  | _ => []

/-- The version in a file name that matches `[0-9]+\.sql`. -/
def fileVersion (name : String) : Option ℕ :=
  let digits := name.toList.takeWhile Char.isDigit
  if digits ≠ [] ∧ name.toList.dropWhile Char.isDigit = ".sql".toList then
    some (Nat.ofDigitChars 10 digits 0)
  else none

/-- Whether the suffix of a file name is that of a script. -/
def hasSqlSuffix (name : String) : Bool :=
  decide (4 < name.toList.length) && ".sql".toList.isSuffixOf name.toList

/-- Whether a character stands in the name of a migration. -/
def isNameChar (c : Char) : Bool := c.isAlphanum || c == '_'

/-- The name that a script gives itself in a line of its own. -/
def declaredName (sql : String) : Option String :=
  let header := "-- migration-name: ".toList
  (sql.toList.splitOn '\n').findSome? fun line =>
    let name := line.drop header.length
    if line.take header.length = header ∧ name ≠ [] ∧ name.all isNameChar then
      some (String.ofList name)
    else none

/-- The migration of a directory entry, if it is one. -/
def migrationOf (entry : DirectoryEntry) : Except MigrationError (Option Migration) :=
  if !entry.isFile then .ok none
  else
    match fileVersion entry.name with
    | none => do
      rejectIf (hasSqlSuffix entry.name) (.migration ("invalid migration filename: " ++ entry.name))
      return none
    | some version => do
      let sql ← orReject entry.text (.migration ("migration is not UTF-8: " ++ entry.name))
      rejectIf (sql.toList.head? == some (Char.ofNat 0xFEFF))
        (.migration ("migration must not contain a UTF-8 BOM: " ++ entry.name))
      return some {
        version := version
        name := (declaredName sql).getD (String.ofList (entry.name.toList.takeWhile Char.isDigit))
        sha256 := entry.sha256
        sql := sql }

/-- The scripts of a directory: they are numbered from one on and have different names. -/
def discover (directory : Option (List DirectoryEntry)) : Except MigrationError (List Migration) := do
  let entries ← orReject directory (.migration "migration directory does not exist")
  let found ← (entries.insertionSort fun a b => a.name ≤ b.name).mapM migrationOf
  let migrations := found.filterMap id
  rejectIf migrations.isEmpty (.migration "no migration files found")
  rejectIf (migrations.map (·.version) != List.range' 1 migrations.length)
    (.migration "migration versions must be contiguous and start at 1")
  rejectIf (!decide (migrations.map (·.name)).Nodup) (.migration "migration names must be unique")
  return migrations

/-! ## Databases -/

/-- A database: its ledger, when the table of the ledger exists, its other tables, and their
content. -/
structure Database (γ : Type) where
  ledger : Option (List AppliedMigration)
  tables : List String
  content : γ

/-- A transaction, which commits a database or raises. -/
abbrev Transaction (γ : Type) := Database γ → Option (Database γ)

/-- What SQLite does with a script: it executes its transactions one after the other. -/
abbrev Sqlite (γ : Type) := String → List (Transaction γ)

variable {γ : Type}

/-- The rows of the ledger, in the order of their versions. -/
def Database.applied (db : Database γ) : List AppliedMigration :=
  (db.ledger.getD []).insertionSort fun a b => a.version ≤ b.version

/-- Whether the digest of a row is that of a script or of its released equivalent. -/
def digestMatches (recorded : AppliedMigration) (migration : Migration) : Bool :=
  recorded.sha256 == migration.sha256 ||
    (compatibleReleaseDigests recorded.version).contains recorded.sha256

/-- The ledger holds scripts of the directory and has no gap. -/
def verifyApplied (migrations : List Migration) (applied : List AppliedMigration) :
    Except MigrationError Unit := do
  checkAll (fun recorded => do
    let migration ← orReject (migrations.find? (·.version == recorded.version))
      (.drift ("applied migration file is missing: " ++ toString recorded.version))
    rejectIf (recorded.name != migration.name || !digestMatches recorded migration)
      (.drift ("applied migration has drifted: " ++ toString recorded.version))) applied
  rejectIf (applied.map (·.version) !=
      List.range' 1 ((applied.map (·.version)).foldr max 0))
    (.drift "migration ledger contains a version gap")

/-- What a call finds to do on a database: the scripts that are not in the ledger. -/
def pendingMigrations (directory : Option (List DirectoryEntry)) (db : Database γ) :
    Except MigrationError (List Migration) := do
  let migrations ← discover directory
  rejectIf (db.ledger.isNone && !db.tables.isEmpty)
    (.unmanaged "database has user tables but no schema_migrations ledger")
  rejectIf (db.ledger.any List.isEmpty && !db.tables.isEmpty)
    (.unmanaged "database schema committed without a migration ledger entry")
  verifyApplied migrations db.applied
  return migrations.filter fun migration =>
    !db.applied.any (·.version == migration.version)

/-- Record a script in the ledger; none where the ledger does not take the row. -/
def recordApplied (db : Database γ) (migration : Migration) (appliedAt : String) :
    Option (Database γ) := do
  let rows ← db.ledger
  require (rows.all fun row => row.version != migration.version && row.name != migration.name)
  return { db with
    ledger := some (rows ++ [⟨migration.version, migration.name, migration.sha256, appliedAt⟩]) }

/-! ## Calls -/

/-- Where a call is. -/
inductive Call (γ : Type) where
  /-- No call is under way. -/
  | idle
  /-- The scripts that are to be applied. -/
  | between (pending : List Migration)
  /-- A script is executed; the transactions that are left. -/
  | script (migration : Migration) (left : List (Transaction γ)) (pending : List Migration)
  /-- A script has committed and is to be recorded. -/
  | committed (migration : Migration) (pending : List Migration)

/-- The database, the call that is under way, and the versions of the scripts that were executed
to the end, which are kept for the record. -/
structure Machine (γ : Type) where
  db : Database γ
  call : Call γ := .idle
  completed : List ℕ

/-- What happens: a call begins, the call that is under way goes on, or its process stops, be it
that it is killed or that it raises. -/
inductive MigrateOp where
  | migrate
  | advance (now : String)
  | stop

/-- A script goes on with the transactions that are left, or is complete. -/
def Machine.execute (s : Machine γ) (migration : Migration) (left : List (Transaction γ))
    (pending : List Migration) : Machine γ :=
  if left.isEmpty then
    { s with
      completed := s.completed ++ [migration.version]
      call := .committed migration pending }
  else { s with call := .script migration left pending }

/-- The call that is under way goes on. -/
def Machine.advance (sqlite : Sqlite γ) (s : Machine γ) (now : String) : Machine γ :=
  match s.call with
  | .idle => s
  | .between [] => { s with call := .idle }
  | .between (migration :: pending) => s.execute migration (sqlite migration.sql) pending
  | .script migration [] pending => s.execute migration [] pending
  | .script migration (transaction :: left) pending =>
    match transaction s.db with
    | none => { s with call := .idle }
    | some db => Machine.execute { s with db := db } migration left pending
  | .committed migration pending =>
    match recordApplied s.db migration now with
    | none => { s with call := .idle }
    | some db => { s with db := db, call := .between pending }

/-- The step of the machine. -/
def Machine.step (sqlite : Sqlite γ) (directory : Option (List DirectoryEntry)) (s : Machine γ) :
    MigrateOp → Machine γ
  | .migrate =>
    match s.call with
    | .idle =>
      match pendingMigrations directory s.db with
      | .error _ => s
      | .ok pending => { s with call := .between pending }
    | _ => s
  | .advance now => s.advance sqlite now
  | .stop => { s with call := .idle }

/-! ## The law -/

/-- The ledger holds the first scripts of the directory, in their order. -/
def Ledgered (migrations : List Migration) (rows : List AppliedMigration) : Prop :=
  List.Forall₂ (fun row migration => row.version = migration.version ∧
    row.name = migration.name ∧ digestMatches row migration = true) rows
    (migrations.take rows.length)

/-- The machine before the first call, on a database to which the scripts of its ledger were
applied. -/
def Machine.start (db : Database γ) : Machine γ where
  db := db
  completed := (db.ledger.getD []).map (·.version)

/-- The scripts do not write to the ledger; one of them may make its table. -/
def KeepLedger (sqlite : Sqlite γ) (migrations : List Migration) : Prop :=
  ∀ migration ∈ migrations, ∀ transaction ∈ sqlite migration.sql, ∀ db db',
    transaction db = some db' → db'.ledger = db.ledger ∨ db.ledger = none ∧ db'.ledger = some []

/-- No script was executed to the end twice, the ledger holds the first scripts, and the next
call goes on after them or refuses. -/
structure OnceOnly (directory : Option (List DirectoryEntry)) (migrations : List Migration)
    (s : Machine γ) : Prop where
  once : s.completed.Nodup
  ledgered : Ledgered migrations (s.db.ledger.getD [])
  restart : ∀ pending, pendingMigrations directory s.db = .ok pending →
    pending = migrations.drop (s.db.ledger.getD []).length

/-- A script that has committed is recorded, or leaves a database with tables and an empty
ledger: the process does not stop between the two, and the table of the ledger is there. -/
def Finishes (s : Machine γ) (op : MigrateOp) : Prop :=
  ∀ migration pending, s.call = .committed migration pending →
    op = .stop ∨ s.db.ledger = none → s.db.ledger.getD [] = [] ∧ s.db.tables ≠ []

section Directory

variable {directory : Option (List DirectoryEntry)} {migrations : List Migration}
  {rows : List AppliedMigration}

/-- What is discovered is numbered from one on and has different names. -/
theorem discover_spec (h : discover directory = .ok migrations) :
    migrations.map (·.version) = List.range' 1 migrations.length ∧
      (migrations.map (·.name)).Nodup := by
  obtain ⟨entries, -, h⟩ := bind_eq_ok.mp h
  obtain ⟨found, -, h⟩ := bind_eq_ok.mp h
  obtain ⟨⟨⟩, -, h⟩ := bind_eq_ok.mp h
  obtain ⟨⟨⟩, hversions, h⟩ := bind_eq_ok.mp h
  obtain ⟨⟨⟩, hnames, h⟩ := bind_eq_ok.mp h
  obtain rfl := pure_eq_ok.mp h
  rw [rejectIf_eq_ok] at hversions hnames
  exact ⟨by simpa using hversions, by simpa using hnames⟩

theorem version_of_drop (h : migrations.map (·.version) = List.range' 1 migrations.length) {k : ℕ}
    {migration : Migration} {pending : List Migration}
    (hdrop : migrations.drop k = migration :: pending) : migration.version = k + 1 := by
  have hlength : k < migrations.length := by
    by_contra hle
    rw [List.drop_eq_nil_of_le (by omega)] at hdrop
    cases hdrop
  have hget : migrations[k]? = some migration := by
    rw [← List.head?_drop, hdrop]
    rfl
  have hversion := congrArg (fun versions => versions[k]?) h
  simp only [List.getElem?_map, hget, Option.map_some] at hversion
  rw [List.getElem?_range' hlength] at hversion
  have hsame := Option.some.inj hversion
  omega

/-- The versions in the ledger are those of the first scripts. -/
theorem Ledgered.versions (h : Ledgered migrations rows) :
    rows.map (·.version) = (migrations.take rows.length).map (·.version) := by
  unfold Ledgered at h
  generalize migrations.take rows.length = first at h
  induction h with
  | nil => rfl
  | cons hrow _ ih => rw [List.map_cons, List.map_cons, hrow.1, ih]

/-- The names in the ledger are those of the first scripts. -/
theorem Ledgered.names (h : Ledgered migrations rows) :
    rows.map (·.name) = (migrations.take rows.length).map (·.name) := by
  unfold Ledgered at h
  generalize migrations.take rows.length = first at h
  induction h with
  | nil => rfl
  | cons hrow _ ih => rw [List.map_cons, List.map_cons, hrow.2.1, ih]

/-- The next script extends the ledger. -/
theorem Ledgered.concat (h : Ledgered migrations rows) {migration : Migration}
    {pending : List Migration} (hdrop : migrations.drop rows.length = migration :: pending)
    (appliedAt : String) : Ledgered migrations
      (rows ++ [⟨migration.version, migration.name, migration.sha256, appliedAt⟩]) := by
  have hget : migrations[rows.length]? = some migration := by
    rw [← List.head?_drop, hdrop]
    rfl
  unfold Ledgered at h ⊢
  rw [List.length_append, List.length_singleton, List.take_add_one, hget]
  refine List.rel_append h (.cons ⟨rfl, rfl, ?_⟩ .nil)
  simp [digestMatches]

end Directory

section Runs

variable {sqlite : Sqlite γ} {directory : Option (List DirectoryEntry)}
  {migrations : List Migration} {db : Database γ} {s : Machine γ}

def Database.rows (db : Database γ) : List AppliedMigration := db.ledger.getD []

variable {pending : List Migration}

/-- A call that is not refused finds the scripts after those in the ledger. -/
theorem pending_eq (hfiles : discover directory = .ok migrations)
    (hledgered : Ledgered migrations db.rows) (h : pendingMigrations directory db = .ok pending) :
    pending = migrations.drop db.rows.length := by
  obtain ⟨found, hfound, h⟩ := bind_eq_ok.mp h
  obtain rfl := Except.ok.inj (hfiles.symm.trans hfound)
  obtain ⟨⟨⟩, -, h⟩ := bind_eq_ok.mp h
  obtain ⟨⟨⟩, -, h⟩ := bind_eq_ok.mp h
  obtain ⟨⟨⟩, -, h⟩ := bind_eq_ok.mp h
  obtain rfl := pure_eq_ok.mp h
  have hany : ∀ migration : Migration, db.applied.any (·.version == migration.version) = true ↔
      migration.version ∈ (migrations.take db.rows.length).map (·.version) := by
    intro migration
    rw [← hledgered.versions, List.any_eq_true, List.mem_map]
    simp only [Database.applied, Database.rows, (List.perm_insertionSort _ _).mem_iff,
      beq_iff_eq]
  have hnodup : (migrations.map (·.version)).Nodup := by
    rw [(discover_spec hfiles).1]
    exact List.nodup_range'
  rw [← List.take_append_drop db.rows.length migrations, List.map_append] at hnodup
  calc migrations.filter (fun migration => !db.applied.any (·.version == migration.version))
      = (migrations.take db.rows.length).filter
            (fun migration => !db.applied.any (·.version == migration.version)) ++
          (migrations.drop db.rows.length).filter
            (fun migration => !db.applied.any (·.version == migration.version)) := by
        rw [← List.filter_append, List.take_append_drop]
    _ = [] ++ migrations.drop db.rows.length := by
        congr 1
        · rw [List.filter_eq_nil_iff]
          intro migration hmigration
          simp [(hany migration).mpr (List.mem_map_of_mem hmigration)]
        · rw [List.filter_eq_self]
          intro migration hmigration
          have hnone : ¬ db.applied.any (·.version == migration.version) = true := by
            rw [hany]
            exact fun hmem => (List.disjoint_of_nodup_append hnodup) hmem
              (List.mem_map_of_mem hmigration)
          simpa using hnone

/-- A call refuses a database with tables whose ledger is empty. -/
theorem tables_of_pending (hrows : db.rows = [])
    (h : pendingMigrations directory db = .ok pending) : db.tables = [] := by
  obtain ⟨found, -, h⟩ := bind_eq_ok.mp h
  obtain ⟨⟨⟩, hnone, h⟩ := bind_eq_ok.mp h
  obtain ⟨⟨⟩, hempty, -⟩ := bind_eq_ok.mp h
  rw [rejectIf_eq_ok] at hnone hempty
  unfold Database.rows at hrows
  cases hledger : db.ledger with
  | none => simpa [hledger] using hnone
  | some rows =>
    rw [hledger] at hrows
    obtain rfl : rows = [] := hrows
    simpa [hledger] using hempty

/-- Where a call is: the scripts that were executed are those in the ledger, and one more while
it is to be recorded. After a stop at the first script the database has tables and no row. -/
def Placed (sqlite : Sqlite γ) (migrations : List Migration) (s : Machine γ) : Prop :=
  match s.call with
  | .idle => s.completed = List.range' 1 s.db.rows.length ∨
      s.db.rows = [] ∧ s.completed = [1] ∧ s.db.tables ≠ []
  | .between pending => s.completed = List.range' 1 s.db.rows.length ∧
      migrations.drop s.db.rows.length = pending
  | .script migration left pending => s.completed = List.range' 1 s.db.rows.length ∧
      migrations.drop s.db.rows.length = migration :: pending ∧ left ≠ [] ∧
      left <:+ sqlite migration.sql
  | .committed migration pending => s.completed = List.range' 1 (s.db.rows.length + 1) ∧
      migrations.drop s.db.rows.length = migration :: pending

/-- What is kept by every step. -/
structure Sound (sqlite : Sqlite γ) (migrations : List Migration) (s : Machine γ) : Prop where
  ledgered : Ledgered migrations s.db.rows
  placed : Placed sqlite migrations s

theorem sound_start (hfiles : discover directory = .ok migrations)
    (hledgered : Ledgered migrations db.rows) :
    Sound sqlite migrations (Machine.start db) := by
  refine ⟨hledgered, Or.inl ?_⟩
  have hlength : db.rows.length ≤ migrations.length := by
    have hsame := hledgered.length_eq
    rw [List.length_take] at hsame
    omega
  calc db.rows.map (·.version) = (migrations.take db.rows.length).map (·.version) :=
        hledgered.versions
    _ = (List.range' 1 migrations.length).take db.rows.length := by
        rw [List.map_take, (discover_spec hfiles).1]
    _ = List.range' 1 db.rows.length := by
        rw [List.take_range'_of_length_ge hlength]

variable {migration : Migration}

theorem rows_of_transaction (hscripts : KeepLedger sqlite migrations)
    (hmigration : migration ∈ migrations) {transaction : Transaction γ}
    (htransaction : transaction ∈ sqlite migration.sql) {db' : Database γ}
    (h : transaction db = some db') : db'.rows = db.rows := by
  unfold Database.rows
  obtain hsame | ⟨hnone, hempty⟩ :=
    hscripts migration hmigration transaction htransaction db db' h
  · rw [hsame]
  · rw [hnone, hempty]
    rfl

/-- A script that goes on is executed or has committed. -/
theorem sound_execute (hfiles : discover directory = .ok migrations) {left : List (Transaction γ)}
    (hledgered : Ledgered migrations s.db.rows)
    (hcompleted : s.completed = List.range' 1 s.db.rows.length)
    (hdrop : migrations.drop s.db.rows.length = migration :: pending)
    (hleft : left <:+ sqlite migration.sql) :
    Sound sqlite migrations (s.execute migration left pending) := by
  unfold Machine.execute
  cases left with
  | nil =>
    have hversion := version_of_drop (discover_spec hfiles).1 hdrop
    refine ⟨hledgered, ?_, hdrop⟩
    change s.completed ++ [migration.version] = _
    rw [hcompleted, hversion, List.range'_concat]
    simp [Nat.add_comm]
  | cons transaction left =>
    exact ⟨hledgered, hcompleted, hdrop, List.cons_ne_nil _ _, hleft⟩

variable {now : String}

/-- The ledger takes the row of the script that comes next, if there is a ledger. -/
theorem ledger_of_recordApplied_none (hfiles : discover directory = .ok migrations)
    (hledgered : Ledgered migrations db.rows)
    (hdrop : migrations.drop db.rows.length = migration :: pending)
    (h : recordApplied db migration now = none) : db.ledger = none := by
  by_contra hsome
  obtain ⟨rows, hrows⟩ := Option.ne_none_iff_exists'.mp hsome
  obtain rfl : db.rows = rows := by
    unfold Database.rows
    rw [hrows]
    rfl
  have hversions : (migrations.map (·.version)).Nodup := by
    rw [(discover_spec hfiles).1]
    exact List.nodup_range'
  have hnames := (discover_spec hfiles).2
  rw [← List.take_append_drop db.rows.length migrations, hdrop, List.map_append,
    ← hledgered.versions] at hversions
  rw [← List.take_append_drop db.rows.length migrations, hdrop, List.map_append,
    ← hledgered.names] at hnames
  have htakes : (db.rows.all fun row =>
      row.version != migration.version && row.name != migration.name) = true := by
    rw [List.all_eq_true]
    intro row hrow
    have hversion : row.version ≠ migration.version := fun hsame =>
      List.disjoint_of_nodup_append hversions (List.mem_map_of_mem hrow) (by simp [hsame])
    have hname : row.name ≠ migration.name := fun hsame =>
      List.disjoint_of_nodup_append hnames (List.mem_map_of_mem hrow) (by simp [hsame])
    simp [hversion, hname]
  simp [recordApplied, hrows, htakes] at h

/-- A row that is recorded is the next one. -/
theorem sound_recordApplied (hledgered : Ledgered migrations s.db.rows)
    (hcompleted : s.completed = List.range' 1 (s.db.rows.length + 1))
    (hdrop : migrations.drop s.db.rows.length = migration :: pending) {db' : Database γ}
    (h : recordApplied s.db migration now = some db') :
    Sound sqlite migrations { s with db := db', call := .between pending } := by
  obtain ⟨rows, hrows, h⟩ := Option.bind_eq_some_iff.mp h
  obtain ⟨⟨⟩, -, h⟩ := Option.bind_eq_some_iff.mp h
  obtain rfl := Option.some.inj h
  have hsame : s.db.rows = rows := by
    unfold Database.rows
    rw [hrows]
    rfl
  have hnext := hledgered.concat hdrop now
  rw [hsame] at hnext hcompleted hdrop
  refine ⟨hnext, ?_, ?_⟩
  · change s.completed = List.range' 1 (rows ++ [_]).length
    rw [hcompleted, List.length_append, List.length_singleton]
  · change migrations.drop (rows ++ [_]).length = pending
    rw [List.length_append, List.length_singleton, ← List.tail_drop, hdrop, List.tail_cons]

/-- The call that is under way keeps the order when it goes on. -/
theorem sound_advance (hfiles : discover directory = .ok migrations)
    (hscripts : KeepLedger sqlite migrations) (h : Sound sqlite migrations s)
    (hfinishes : Finishes s (.advance now)) : Sound sqlite migrations (s.advance sqlite now) := by
  obtain ⟨hledgered, hplaced⟩ := h
  unfold Machine.advance
  cases hcall : s.call with
  | idle => exact ⟨hledgered, hplaced⟩
  | between pending =>
    rw [Placed, hcall] at hplaced
    obtain ⟨hcompleted, hdrop⟩ := hplaced
    cases pending with
    | nil => exact ⟨hledgered, Or.inl hcompleted⟩
    | cons migration pending =>
      exact sound_execute hfiles hledgered hcompleted hdrop (List.suffix_refl _)
  | script migration left pending =>
    rw [Placed, hcall] at hplaced
    obtain ⟨hcompleted, hdrop, hne, hleft⟩ := hplaced
    cases left with
    | nil => exact absurd rfl hne
    | cons transaction left =>
      dsimp only
      cases htransaction : transaction s.db with
      | none => exact ⟨hledgered, Or.inl hcompleted⟩
      | some db' =>
        have hmigration : migration ∈ migrations :=
          List.mem_of_mem_drop (hdrop ▸ List.mem_cons_self)
        have hrows : db'.rows = s.db.rows := rows_of_transaction hscripts hmigration
          (hleft.subset List.mem_cons_self) htransaction
        refine sound_execute (s := { s with db := db' }) hfiles ?_ ?_ ?_
          ((List.suffix_cons _ _).trans hleft)
        · exact hrows ▸ hledgered
        · exact hrows ▸ hcompleted
        · exact hrows ▸ hdrop
  | committed migration pending =>
    rw [Placed, hcall] at hplaced
    obtain ⟨hcompleted, hdrop⟩ := hplaced
    dsimp only
    cases hrecorded : recordApplied s.db migration now with
    | some db' => exact sound_recordApplied hledgered hcompleted hdrop hrecorded
    | none =>
      obtain ⟨hrows, htables⟩ := hfinishes migration pending hcall
        (Or.inr (ledger_of_recordApplied_none hfiles hledgered hdrop hrecorded))
      change s.db.rows = [] at hrows
      rw [hrows] at hcompleted
      exact ⟨hledgered, Or.inr ⟨hrows, hcompleted, htables⟩⟩

/-- A stop keeps the order, unless a script that has committed is lost with it. -/
theorem sound_stop (h : Sound sqlite migrations s) (hfinishes : Finishes s .stop) :
    Sound sqlite migrations { s with call := .idle } := by
  obtain ⟨hledgered, hplaced⟩ := h
  refine ⟨hledgered, ?_⟩
  cases hcall : s.call with
  | idle =>
    rw [Placed, hcall] at hplaced
    exact hplaced
  | between | script =>
    rw [Placed, hcall] at hplaced
    exact Or.inl hplaced.1
  | committed migration pending =>
    rw [Placed, hcall] at hplaced
    obtain ⟨hrows, htables⟩ := hfinishes migration pending hcall (Or.inl rfl)
    change s.db.rows = [] at hrows
    rw [hrows] at hplaced
    exact Or.inr ⟨hrows, hplaced.1, htables⟩

/-- A call begins with the scripts after those in the ledger. -/
theorem sound_migrate (hfiles : discover directory = .ok migrations)
    (h : Sound sqlite migrations s) : Sound sqlite migrations (s.step sqlite directory .migrate) := by
  obtain ⟨hledgered, hplaced⟩ := h
  unfold Machine.step
  cases hcall : s.call with
  | idle =>
    cases hpending : pendingMigrations directory s.db with
    | error e => exact ⟨hledgered, hplaced⟩
    | ok pending =>
      have hdrop := pending_eq hfiles hledgered hpending
      rw [Placed, hcall] at hplaced
      obtain hcompleted | ⟨hrows, -, htables⟩ := hplaced
      · exact ⟨hledgered, hcompleted, hdrop.symm⟩
      · exact absurd (tables_of_pending hrows hpending) htables
  | between | script | committed => exact ⟨hledgered, hplaced⟩

theorem sound_step (hfiles : discover directory = .ok migrations)
    (hscripts : KeepLedger sqlite migrations) (op : MigrateOp) (h : Sound sqlite migrations s)
    (hfinishes : Finishes s op) : Sound sqlite migrations (s.step sqlite directory op) := by
  cases op with
  | migrate => exact sound_migrate hfiles h
  | advance now => exact sound_advance hfiles hscripts h hfinishes
  | stop => exact sound_stop h hfinishes

theorem Sound.onceOnly (hfiles : discover directory = .ok migrations)
    (h : Sound sqlite migrations s) : OnceOnly directory migrations s := by
  obtain ⟨hledgered, hplaced⟩ := h
  refine ⟨?_, hledgered, fun pending hpending => pending_eq hfiles hledgered hpending⟩
  have hnodup (n : ℕ) : s.completed = List.range' 1 n → s.completed.Nodup := by
    intro hcompleted
    rw [hcompleted]
    exact List.nodup_range'
  cases hcall : s.call with
  | idle =>
    rw [Placed, hcall] at hplaced
    obtain hcompleted | ⟨-, hcompleted, -⟩ := hplaced
    · exact hnodup _ hcompleted
    · rw [hcompleted]
      exact List.nodup_singleton 1
  | between | script | committed =>
    rw [Placed, hcall] at hplaced
    exact hnodup _ hplaced.1

end Runs

/-- In every run in which a script that has committed is recorded, or is the first one and left
the ledger empty, no script is executed to the end twice. -/
theorem onceOnly_of_finishes (sqlite : Sqlite γ) (directory : Option (List DirectoryEntry))
    (migrations : List Migration) (hfiles : discover directory = .ok migrations)
    (hscripts : KeepLedger sqlite migrations) (db : Database γ)
    (hledgered : Ledgered migrations (db.ledger.getD [])) (ops : List MigrateOp)
    (hops : StepsSatisfy (Machine.step sqlite directory) Finishes (Machine.start db) ops) :
    OnceOnly directory migrations
      (runFrom (Machine.step sqlite directory) (Machine.start db) ops) := by
  have hsound : Sound sqlite migrations
      (runFrom (Machine.step sqlite directory) (Machine.start db) ops) :=
    runFrom_invariant_of (sound_start hfiles hledgered)
      (fun _ op hsound hfinishes => sound_step hfiles hscripts op hsound hfinishes) hops
  exact hsound.onceOnly hfiles

section Samples

/-- A directory of two scripts. -/
def sampleDirectory : Option (List DirectoryEntry) := some [
  { name := "0001.sql", sha256 := "d1", text := some "-- migration-name: initial\nCREATE" },
  { name := "0002.sql", sha256 := "d2", text := some "-- migration-name: second\nINSERT" }]

def sampleMigrations : List Migration := [
  ⟨1, "initial", "d1", "-- migration-name: initial\nCREATE"⟩,
  ⟨2, "second", "d2", "-- migration-name: second\nINSERT"⟩]

/-- The first script makes the ledger and a table; the second one can be executed again. -/
def sampleSqlite : Sqlite Unit := fun sql =>
  if sql = "-- migration-name: initial\nCREATE" then
    [fun db => some { db with ledger := some (db.ledger.getD []), tables := ["runs"] }]
  else [some]

theorem sample_discover : discover sampleDirectory = .ok sampleMigrations := by
  decide +kernel

theorem sample_keepLedger : KeepLedger sampleSqlite sampleMigrations := by
  intro migration _ transaction htransaction db db' h
  unfold sampleSqlite at htransaction
  split at htransaction
  · obtain rfl := List.mem_singleton.mp htransaction
    obtain rfl := Option.some.inj h
    cases db.ledger with
    | none => exact Or.inr ⟨rfl, rfl⟩
    | some rows => exact Or.inl rfl
  · obtain rfl := List.mem_singleton.mp htransaction
    obtain rfl := Option.some.inj h
    exact Or.inl rfl

/-- The first script commits, is recorded, and the process stops. The next call goes on with the
second one. -/
def sampleRun : List MigrateOp :=
  [.migrate, .advance "t1", .advance "t2", .advance "t3", .stop, .migrate, .advance "t4",
    .advance "t5", .advance "t6"]

theorem sample_finishes : StepsSatisfy (Machine.step sampleSqlite sampleDirectory) Finishes
    (Machine.start ⟨none, [], ()⟩) sampleRun := by
  refine .cons ?_ (.cons ?_ (.cons ?_ (.cons ?_ (.cons ?_ (.cons ?_ (.cons ?_ (.cons ?_
    (.cons ?_ .nil))))))))
  · nofun
  · nofun
  · nofun
  · rintro migration pending - (h | h)
    · cases h
    · exact absurd h (by decide +kernel)
  · nofun
  · nofun
  · nofun
  · nofun
  · rintro migration pending - (h | h)
    · cases h
    · exact absurd h (by decide +kernel)

theorem onceOnly_of_sampleRun :
    OnceOnly sampleDirectory sampleMigrations
      (runFrom (Machine.step sampleSqlite sampleDirectory) (Machine.start ⟨none, [], ()⟩)
        sampleRun) :=
  onceOnly_of_finishes sampleSqlite sampleDirectory sampleMigrations sample_discover
    sample_keepLedger ⟨none, [], ()⟩ .nil sampleRun sample_finishes

/-- The process is killed after the second script has committed, and the next call executes the
script again. -/
theorem second_script_runs_twice :
    discover sampleDirectory = .ok sampleMigrations ∧ KeepLedger sampleSqlite sampleMigrations ∧
      ∃ s, s = runFrom (Machine.step sampleSqlite sampleDirectory) (Machine.start ⟨none, [], ()⟩)
          (sampleRun.dropLast ++ [.stop, .migrate, .advance "t7", .advance "t8"]) ∧
        s.completed = [1, 2, 2] ∧ ¬ OnceOnly sampleDirectory sampleMigrations s := by
  have htwice : (runFrom (Machine.step sampleSqlite sampleDirectory)
      (Machine.start ⟨none, [], ()⟩) (sampleRun.dropLast ++
        [.stop, .migrate, .advance "t7", .advance "t8"])).completed = [1, 2, 2] := by
    decide +kernel
  refine ⟨sample_discover, sample_keepLedger, _, rfl, htwice, fun hlaw => ?_⟩
  have honce := hlaw.once
  rw [htwice] at honce
  exact absurd honce (by decide)

end Samples

end ResearchKernel.Migrations
