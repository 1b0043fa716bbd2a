import Mathlib.Data.List.Forall2
import PrivaCloud.DataSpine.SqlRows
import PrivaCloud.Framework.Run

/-!
# Opening an old database

`create_all` and the commit of `_bootstrap`, statement by statement. A statement outside a transaction is durable at
once; one that writes rows opens a transaction. A statement that raises ends a start as a crash does.
-/

namespace PrivaCloud.DataSpine.SchemaUpgrade

open Framework Sql

structure Table where
  columns : List String
  /-- the columns declared NOT NULL, of those that a start asks for -/
  notNull : List String := []
  rows : List Row := []

structure Index where
  table : String
  columns : List String
  unique : Bool := false
  /-- `WHERE column = value`, or `WHERE column IS NOT NULL`; that of an index that is not unique is left out. -/
  filter : Option (String × Option Value) := none
  deriving DecidableEq

structure Database where
  tables : String → Option Table
  indexes : String → Option Index

/-- The entry of a row in a unique index, if it is to differ from the others -/
def Index.entry (index : Index) (row : Row) : Option (List Value) :=
  let filtered : Bool := match index.filter with
    | none => true
    | some (column, none) => row column ≠ .null
    | some (column, some value) => row column = value
  if filtered && index.columns.all fun column => row column ≠ .null then some (index.columns.map row) else none

def Index.Fits (index : Index) (table : Table) : Prop :=
  index.columns ⊆ table.columns ∧ (index.unique = true → (table.rows.filterMap index.entry).Nodup)

instance (index : Index) (table : Table) : Decidable (index.Fits table) :=
  inferInstanceAs (Decidable (_ ∧ _))

inductive Statement
  | createTable (ifNotExists : Bool) (name : String) (columns : List String)
  /-- `IF NOT EXISTS` -/
  | createIndex (name : String) (index : Index)
  | addColumn (table column : String) (default : Value)
  | dropColumn (table column : String)
  /-- `IF EXISTS` -/
  | dropIndex (name : String)
  | renameTable (name newName : String)
  /-- `INSERT INTO channel_binding (columns) SELECT columns FROM source` -/
  | copyBindings (source : String) (columns : List String)
  | dropTable (name : String)
  /-- the `UPDATE` of `_BACKFILLS` -/
  | backfillEvents
  deriving DecidableEq

def bindingColumns : List String :=
  ["binding_id", "account_id", "session_uuid", "first_run_done", "feishu_chat_id", "chat_type", "chat_name",
    "bound_at", "rebound_at"]

/-- What a column of `channel_binding` may hold: STRICT, NOT NULL and CHECK -/
def legalCell (column : String) : Value → Bool
  | .null => column ∈ ["session_uuid", "feishu_chat_id", "rebound_at"]
  | .integer n => column = "first_run_done" ∧ (n = 0 ∨ n = 1)
  | .real _ => false
  | .text _ => column ≠ "first_run_done"

/-- The rows are legal in these columns, refer to accounts and differ in their primary keys. -/
def legalBindings (db : Database) (columns : List String) (rows : List Row) : Prop :=
  (∀ row ∈ rows, (∀ column ∈ bindingColumns, column ∈ columns → legalCell column (row column) = true) ∧
    ∃ accounts ∈ db.tables "account", ∃ account ∈ accounts.rows, account "account_id" = row "account_id") ∧
  (rows.map fun row => row "binding_id").Nodup

instance (db : Database) (columns : List String) (rows : List Row) : Decidable (legalBindings db columns rows) :=
  inferInstanceAs (Decidable ((∀ row ∈ rows, _ ∧ ∃ accounts ∈ db.tables "account", _) ∧ _))

namespace Statement

/-- Python begins a transaction before it. -/
def begins : Statement → Bool
  | copyBindings .. | backfillEvents => true
  | _ => false

def exec : Statement → Database → Option Database
  | createTable ifNotExists name columns, db =>
    if (db.tables name).isSome then if ifNotExists then some db else none
    else some { db with tables := Function.update db.tables name (some { columns := columns }) }
  | createIndex name index, db =>
    if (db.indexes name).isSome then some db
    else
      (db.tables index.table).bind fun table =>
        if index.Fits table then some { db with indexes := Function.update db.indexes name (some index) } else none
  | addColumn name column default, db =>
    (db.tables name).bind fun table =>
      if column ∈ table.columns then none
      else
        let rows := table.rows.map fun row => Function.update row column default
        let table' := { table with columns := table.columns ++ [column], rows := rows }
        some { db with tables := Function.update db.tables name (some table') }
  | dropColumn name column, db =>
    (db.tables name).map fun table =>
      let table' := { table with columns := table.columns.filter (· ≠ column) }
      { db with tables := Function.update db.tables name (some table') }
  | dropIndex name, db => some { db with indexes := Function.update db.indexes name none }
  | renameTable name newName, db =>
    match db.tables name, db.tables newName with
    | some table, none =>
      let moved (index : Index) := if index.table = name then { index with table := newName } else index
      some
        { tables := Function.update (Function.update db.tables name none) newName (some table)
          indexes := fun i => (db.indexes i).map moved }
    | _, _ => none
  | copyBindings source columns, db =>
    match db.tables "channel_binding", db.tables source with
    | some table, some old =>
      let copies := old.rows.map fun row column => if column ∈ columns then row column else .null
      if columns ⊆ table.columns ∧ columns ⊆ old.columns ∧ legalBindings db table.columns (table.rows ++ copies) then
        let table' := { table with rows := table.rows ++ copies }
        some { db with tables := Function.update db.tables "channel_binding" (some table') }
      else none
    | _, _ => none
  | dropTable name, db =>
    if (db.tables name).isSome then
      some
        { tables := Function.update db.tables name none
          indexes := fun i => (db.indexes i).filter (·.table ≠ name) }
    else none
  | backfillEvents, db =>
    (db.tables "hook_policy").bind fun table =>
      if ["enforced", "events", "enforced_events"] ⊆ table.columns then
        let table' := { table with rows := table.rows.map backfill }
        some { db with tables := Function.update db.tables "hook_policy" (some table') }
      else none

end Statement

def createTable (name : String) (columns : List String) : Statement := .createTable true name columns

def accountChatIndex : Index := { table := "channel_binding", columns := ["account_id", "feishu_chat_id"], unique := true }

def sessionActiveIndex : Index where
  table := "channel_binding"
  columns := ["session_uuid"]
  unique := true
  filter := some ("session_uuid", none)

/-- `DDL` -/
def ddl : List Statement :=
  [createTable "account" ["account_id", "username", "password_hash", "api_key", "api_key_lookup", "role", "status",
      "agent_runner_type", "feishu_user_id", "feishu_display_name", "feishu_open_id", "created_at", "updated_at"],
    .createIndex "ux_account_username" { table := "account", columns := ["username"], unique := true },
    .createIndex "ux_account_apikey"
      { table := "account", columns := ["api_key_lookup"], unique := true, filter := some ("api_key_lookup", none) },
    .createIndex "ux_account_feishu_uid"
      { table := "account", columns := ["feishu_user_id"], unique := true, filter := some ("feishu_user_id", none) },
    createTable "channel_binding" bindingColumns,
    .createIndex "ux_binding_account_chat" accountChatIndex,
    .createIndex "ux_binding_session_active" sessionActiveIndex,
    createTable "quota" ["account_id", "tier", "max_concurrent_sessions", "idle_grace_seconds", "updated_at"],
    createTable "scheduled_job" ["job_id", "account_id", "name", "prompt", "trigger", "job_type", "job_config",
      "timezone", "model", "status", "created_at", "updated_at"],
    .createIndex "ix_job_account" { table := "scheduled_job", columns := ["account_id"] },
    .createIndex "ix_job_active" { table := "scheduled_job", columns := ["status"] },
    createTable "job_run_record" ["run_id", "job_id", "job_name", "account_id", "session_id", "started_at",
      "finished_at", "status", "duration_ms", "is_error", "error_message", "num_turns", "result_summary"],
    .createIndex "ix_run_account_started" { table := "job_run_record", columns := ["account_id", "started_at"] },
    .createIndex "ix_run_job_started" { table := "job_run_record", columns := ["job_id", "started_at"] },
    .createIndex "ix_run_status" { table := "job_run_record", columns := ["status"] },
    createTable "job_fire" ["job_id", "fire_epoch", "claimed_by", "claimed_at"],
    .createIndex "ix_fire_claimed_at" { table := "job_fire", columns := ["claimed_at"] },
    createTable "account_resource_spec" ["account_id", "cpu_cores", "memory_mb", "volume_gb", "updated_at"],
    createTable "pending_registration" ["request_id", "username", "password_hash", "display_name", "runner_type",
      "cpu_cores", "memory_mb", "volume_gb", "note", "status", "created_at", "updated_at"],
    .createIndex "ux_pending_username"
      { table := "pending_registration", columns := ["username"], unique := true
        filter := some ("status", some (.text "pending")) },
    .createIndex "ix_pending_status" { table := "pending_registration", columns := ["status", "created_at"] },
    createTable "runner_defaults" ["id", "idle_grace_seconds", "min_alive_after_wake_seconds", "cpu_cores",
      "memory_mb", "storage_gb", "terminal_resource_percent", "terminal_max_sessions",
      "terminal_idle_timeout_seconds", "terminal_max_lifetime_seconds", "terminal_scale_down_grace_seconds",
      "updated_at"],
    createTable "hook_policy" ["id", "hook_type", "name", "description", "events", "matcher", "timeout_seconds",
      "interpreter", "script_body", "content_hash", "url", "headers_json", "allowed_env_vars", "mcp_server",
      "mcp_tool", "enabled", "enforced", "enforced_events", "default_on", "predefined", "seed_version", "target",
      "updated_at", "updated_by"],
    createTable "feishu_channel_config" ["account_id", "app_id", "app_secret_enc", "app_secret_updated_at",
      "user_enabled", "admin_disabled", "single_chat_access_mode", "allowed_union_ids", "welcome_message",
      "reject_message", "model", "max_queue_size", "enable_permission_feedback", "feedback_timeout_seconds",
      "domain", "group_chat_enabled", "owner_union_id", "owner_open_id", "owner_bound_at", "link_code_hash",
      "link_code_expires_at", "conn_status", "last_error_code", "last_error_message", "last_connected_at",
      "status_updated_at", "desired_digest", "updated_by", "updated_at"],
    .createIndex "ix_feishu_effective" { table := "feishu_channel_config", columns := ["account_id"] },
    createTable "channel_platform_config" ["id", "group_chat_disabled", "updated_by", "updated_at"]]

/-- `_MIGRATIONS`, with the defaults of the columns -/
def migrations : List ((String × String) × Value) :=
  [(("account", "agent_runner_type"), .text "auto_scale"), (("hook_policy", "enforced_events"), .text "[]"),
    (("account", "feishu_open_id"), .null), (("runner_defaults", "terminal_resource_percent"), .integer 0),
    (("runner_defaults", "terminal_max_sessions"), .integer 2),
    (("runner_defaults", "terminal_idle_timeout_seconds"), .integer 1800),
    (("runner_defaults", "terminal_max_lifetime_seconds"), .integer 14400),
    (("runner_defaults", "terminal_scale_down_grace_seconds"), .integer 120),
    (("feishu_channel_config", "owner_union_id"), .text ""), (("feishu_channel_config", "owner_open_id"), .text ""),
    (("feishu_channel_config", "owner_bound_at"), .null), (("feishu_channel_config", "link_code_hash"), .null),
    (("feishu_channel_config", "link_code_expires_at"), .null),
    (("feishu_channel_config", "group_chat_enabled"), .integer 0), (("channel_binding", "chat_type"), .text ""),
    (("channel_binding", "chat_name"), .text "")]

/-- `_DROP_MIGRATIONS` -/
def dropMigrations : List (String × String) := [("runner_defaults", "runner_image")]

/-- The statements of `_migrate_binding_session_nullable` -/
def rebuild : List Statement :=
  [.dropIndex "ux_binding_account", .dropIndex "ux_binding_session",
    .renameTable "channel_binding" "_channel_binding_old", .createTable false "channel_binding" bindingColumns,
    .copyBindings "_channel_binding_old" bindingColumns, .dropTable "_channel_binding_old",
    .createIndex "ux_binding_account_chat" accountChatIndex,
    .createIndex "ux_binding_session_active" sessionActiveIndex]

inductive Command
  | sql (statement : Statement)
  /-- a turn of a loop of `_apply_migrations` -/
  | addMissing (column : String × String) (default : Value)
  | dropPresent (column : String × String)
  | bindingSessionNullable
  | commit
  deriving DecidableEq

/-- `PRAGMA table_info` -/
def Database.columns (db : Database) (table : String) : List String := ((db.tables table).map (·.columns)).getD []

def Command.expand (db : Database) : Command → List Statement
  | sql statement => [statement]
  | addMissing (table, column) default =>
    if column ∈ db.columns table then [] else [.addColumn table column default]
  | dropPresent (table, column) => if column ∈ db.columns table then [.dropColumn table column] else []
  | bindingSessionNullable =>
    if (db.tables "channel_binding").any fun table => "session_uuid" ∈ table.notNull then rebuild else []
  | commit => []

def createAll : List Command :=
  ddl.map .sql ++ migrations.map (fun migration => .addMissing migration.1 migration.2) ++
    dropMigrations.map .dropPresent ++
    [.bindingSessionNullable, .sql .backfillEvents, .sql (.dropIndex "ux_binding_account"), .commit]

structure Boot where
  /-- what a crash leaves -/
  disk : Database
  /-- what an open transaction has made of it -/
  changed : Option Database := none
  pending : List Statement := []
  todo : List Command := createAll

inductive BootEvent
  | exec
  | crash

namespace Boot

def view (b : Boot) : Database := b.changed.getD b.disk

/-- One statement, or the look at the columns before the next ones -/
def exec (b : Boot) : Option Boot :=
  match b.pending with
  | statement :: pending =>
    (statement.exec b.view).map fun db =>
      if b.changed.isSome || statement.begins then { b with changed := some db, pending := pending }
      else { b with disk := db, pending := pending }
  | [] =>
    match b.todo with
    | [] => none
    | .commit :: todo => some { b with disk := b.view, changed := none, todo := todo }
    | command :: todo => some { b with pending := command.expand b.view, todo := todo }

def step (b : Boot) : BootEvent → Option Boot
  | .exec => b.exec
  | .crash => some { disk := b.disk }

end Boot

def schemaColumns (name : String) : List String :=
  (ddl.findSome? fun
    | .createTable _ table columns => if table = name then some columns else none
    | _ => none).getD []

/-- A database of an earlier version: tables of the schema, some without columns of `_MIGRATIONS`, with bindings that
are legal -/
structure Earlier (db : Database) : Prop where
  tables : ∀ name table, db.tables name = some table → schemaColumns name ≠ [] ∧
    ∀ column ∈ schemaColumns name, column ∈ table.columns ∨ (name, column) ∈ migrations.map (·.1)
  indexes : ∀ name index index', .createIndex name index ∈ ddl → db.indexes name = some index' → index' = index
  bindings : ∀ table, db.tables "channel_binding" = some table → legalBindings db table.columns table.rows

/-- The rows are there with the values that they had in the columns that the schema has as well. -/
def RowsKept (before after : Database) : Prop :=
  ∀ name table, before.tables name = some table → ∃ table', after.tables name = some table' ∧
    List.Forall₂ (fun row row' => ∀ column ∈ table.columns, column ∈ schemaColumns name → row' column = row column)
      table.rows table'.rows

structure Upgraded (before after : Database) : Prop where
  rows : RowsKept before after
  unique : ∀ name index, .createIndex name index ∈ ddl → index.unique = true → after.indexes name = some index

/-- No row of a version with enforced events is one that the `UPDATE` changes. -/
def Backfilled (db : Database) : Prop :=
  ∀ table, db.tables "hook_policy" = some table → "enforced_events" ∈ table.columns →
    ∀ row ∈ table.rows, backfill row = row

/-- No crash comes between the renaming of the bindings and the commit. -/
def Boot.Careful (b : Boot) : BootEvent → Prop
  | .exec => True
  | .crash => b.disk.tables "_channel_binding_old" = none

section Proof

variable {before base db db' : Database} {b b' : Boot} {c : Command} {s : Statement}

def execAll : List Statement → Database → Option Database
  | [], db => some db
  | s :: rest, db => (s.exec db).bind (execAll rest)

private theorem execAll_singleton (s : Statement) (db : Database) : execAll [s] db = s.exec db := by
  rw [execAll]
  cases s.exec db <;> rfl

private theorem execAll_append (ran rest : List Statement) (db : Database) :
    execAll (ran ++ rest) db = (execAll ran db).bind (execAll rest) := by
  induction ran generalizing db with
  | nil => rfl
  | cons s ran ih =>
    rw [List.cons_append, execAll, execAll, Option.bind_assoc]
    exact congrArg _ (funext ih)

structure Table.Shape (name : String) (table table' : Table) : Prop where
  columns : ∀ column ∈ table.columns, column ∈ schemaColumns name → column ∈ table'.columns
  dropped : ∀ column, (name, column) ∈ dropMigrations → column ∉ table.columns → column ∉ table'.columns
  notNull : table'.notNull ⊆ table.notNull
  hooks : name = "hook_policy" → "enforced_events" ∈ table.columns → ∀ row' ∈ table'.rows, ∃ row ∈ table.rows,
    row' = row ∨ row' = backfill row

private theorem Table.Shape.refl (name : String) (table : Table) : table.Shape name table :=
  ⟨fun _ h _ => h, fun _ _ h => h, List.Subset.refl _, fun _ _ row hrow => ⟨row, hrow, .inl rfl⟩⟩

/-- What a statement leaves of the tables and the indexes of the schema -/
structure Shape (db db' : Database) : Prop where
  tables : ∀ name table, db.tables name = some table →
    ∃ table', db'.tables name = some table' ∧ table.Shape name table'
  fresh : ∀ name table', db.tables name = none → db'.tables name = some table' → table'.notNull = [] ∧
    ∀ column, (name, column) ∈ dropMigrations → column ∉ table'.columns
  indexes : ∀ name index, .createIndex name index ∈ ddl → db.indexes name = some index →
    db'.indexes name = some index
  retired : db.indexes "ux_binding_account" = none → db'.indexes "ux_binding_account" = none

private theorem Shape.refl (db : Database) : Shape db db :=
  ⟨fun _ table h => ⟨table, h, .refl _ _⟩, fun _ _ hnone hsome => (by rw [hnone] at hsome; cases hsome),
    fun _ _ _ h => h, id⟩

def Done : Command → Database → Prop
  | .sql (.createTable _ name _), db => db.tables name ≠ none
  | .sql (.createIndex name index), db => db.indexes name = some index
  | .sql (.dropIndex name), db => db.indexes name = none
  | .sql .backfillEvents, db => ∃ table, db.tables "hook_policy" = some table ∧
      ["enforced", "events", "enforced_events"] ⊆ table.columns ∧ ∀ row ∈ table.rows, backfill row = row
  | .addMissing (table, column) _, db => column ∈ db.columns table
  | .dropPresent (table, column), db => column ∉ db.columns table
  | .bindingSessionNullable, db => ∀ table, db.tables "channel_binding" = some table → "session_uuid" ∉ table.notNull
  | _, _ => True

private theorem mem_createAll : c ∈ createAll ↔ (∃ s ∈ ddl, c = .sql s) ∨
    (∃ migration ∈ migrations, c = .addMissing migration.1 migration.2) ∨
    (∃ column ∈ dropMigrations, c = .dropPresent column) ∨ c = .bindingSessionNullable ∨ c = .sql .backfillEvents ∨
    c = .sql (.dropIndex "ux_binding_account") ∨ c = .commit := by
  simp only [createAll, List.mem_append, List.mem_map, List.mem_cons, List.not_mem_nil, or_false, eq_comm (a := c),
    or_assoc]

private theorem mem_ddl (h : s ∈ ddl) : (∃ name, s = createTable name (schemaColumns name) ∧ schemaColumns name ≠ []) ∨
    ∃ name index, s = .createIndex name index := by
  simp only [ddl, List.mem_cons, List.not_mem_nil, or_false] at h
  rcases h with rfl | rfl | rfl | rfl | rfl | rfl | rfl | rfl | rfl | rfl | rfl | rfl | rfl | rfl | rfl | rfl | rfl | rfl |
    rfl | rfl | rfl | rfl | rfl | rfl | rfl | rfl
  all_goals first
    | exact .inr ⟨_, _, rfl⟩
    | exact .inl ⟨_, rfl, List.cons_ne_nil _ _⟩

abbrev SameRows (name : String) (columns : List String) : List Row → List Row → Prop :=
  List.Forall₂ fun row row' => ∀ column ∈ columns, column ∈ schemaColumns name → row' column = row column

structure Table.Keeps (name : String) (first table : Table) : Prop where
  columns : ∀ column ∈ first.columns, column ∈ schemaColumns name → column ∈ table.columns
  rows : SameRows name first.columns first.rows table.rows

/-- The rows of `before` are there, and the indexes of the schema are as it has them. -/
structure Good (before db : Database) : Prop where
  rows : ∀ name first, before.tables name = some first → ∃ table, db.tables name = some table ∧ first.Keeps name table
  noOld : db.tables "_channel_binding_old" = none
  named : ∀ name index index', .createIndex name index ∈ ddl → db.indexes name = some index' → index' = index

def Plain : Statement → Prop
  | .createTable ifNotExists name columns => ifNotExists = true ∧ name ≠ "_channel_binding_old" ∧
      ∀ column ∈ columns, (name, column) ∉ dropMigrations
  | .createIndex name index => .createIndex name index ∈ ddl
  | .addColumn table column _ => (table, column) ∉ dropMigrations ∧
      (table = "hook_policy" → column = "enforced_events")
  | .dropColumn table column => column ∉ schemaColumns table ∧ column ≠ "enforced_events"
  | .dropIndex name => ∀ index, .createIndex name index ∉ ddl
  | .backfillEvents => True
  | _ => False

variable {name : String} {table : Table}

private theorem Good.setTable (h : Good before db) {table' : Table} (htable : db.tables name = some table)
    (hshape : table.Shape name table')
    (hrows : ∀ first, before.tables name = some first → first.Keeps name table →
      SameRows name first.columns first.rows table'.rows) :
    Good before { db with tables := Function.update db.tables name (some table') } ∧
      Shape db { db with tables := Function.update db.tables name (some table') } := by
  refine ⟨⟨fun other first hfirst => ?_, ?_, h.named⟩, ⟨fun other old hold => ?_, fun other new hnone hnew => ?_,
    fun _ _ _ hindex => hindex, id⟩⟩
  · obtain ⟨kept, hkept, hsame⟩ := h.rows other first hfirst
    by_cases hother : other = name
    · subst hother
      cases htable.symm.trans hkept
      exact ⟨table', Function.update_self .., fun column hcolumn hschema =>
        hshape.columns column (hsame.columns column hcolumn hschema) hschema, hrows first hfirst hsame⟩
    · exact ⟨kept, (Function.update_of_ne hother _ _).trans hkept, hsame⟩
  · refine (Function.update_of_ne ?_ _ _).trans h.noOld
    rintro rfl
    rw [h.noOld] at htable
    cases htable
  · by_cases hother : other = name
    · subst hother
      cases htable.symm.trans hold
      exact ⟨table', Function.update_self .., hshape⟩
    · exact ⟨old, (Function.update_of_ne hother _ _).trans hold, .refl _ _⟩
  · by_cases hother : other = name
    · subst hother
      rw [htable] at hnone
      cases hnone
    · exact absurd (hnew.symm.trans ((Function.update_of_ne hother _ _).trans hnone)) nofun

private theorem forall₂_map_right {first rows : List Row} {columns : List String} {f : Row → Row}
    (h : SameRows name columns first rows)
    (hf : ∀ old ∈ first, ∀ row, (∀ column ∈ columns, column ∈ schemaColumns name → row column = old column) →
      ∀ column ∈ columns, column ∈ schemaColumns name → f row column = old column) :
    SameRows name columns first (rows.map f) := by
  induction h with
  | nil => exact .nil
  | cons hrow _ ih =>
    exact .cons (hf _ List.mem_cons_self _ hrow) (ih fun old hold => hf old (List.mem_cons_of_mem _ hold))

private theorem Good.setIndex (h : Good before db) {index? : Option Index}
    (hset : ∀ index, .createIndex name index ∈ ddl → index? = some index ∧ db.indexes name = none)
    (hretired : name = "ux_binding_account" → index? = none) :
    Good before { db with indexes := Function.update db.indexes name index? } ∧
      Shape db { db with indexes := Function.update db.indexes name index? } := by
  refine ⟨⟨h.rows, h.noOld, fun other index index' hmem hindex => ?_⟩,
    ⟨(Shape.refl db).tables, (Shape.refl db).fresh, fun other index hmem hindex => ?_, fun hnone => ?_⟩⟩
  · by_cases hother : other = name
    · subst hother
      simp only [Function.update_self, (hset index hmem).1] at hindex
      exact (Option.some.inj hindex).symm
    · exact h.named other index index' hmem ((Function.update_of_ne hother _ _).symm.trans hindex)
  · refine (Function.update_of_ne ?_ _ _).trans hindex
    rintro rfl
    rw [(hset index hmem).2] at hindex
    cases hindex
  · by_cases hname : "ux_binding_account" = name
    · subst hname
      simpa using hretired rfl
    · exact (Function.update_of_ne hname _ _).trans hnone

private theorem index_unique {index index' : Index} (h : .createIndex name index ∈ ddl)
    (h' : .createIndex name index' ∈ ddl) : index' = index := by
  have hfirst {index : Index} (h : .createIndex name index ∈ ddl) : (ddl.findSome? fun
      | .createIndex other index => if other = name then some index else none
      | _ => none) = some index := by
    simp only [ddl, createTable, List.mem_cons, List.not_mem_nil, or_false, reduceCtorEq, false_or,
      Statement.createIndex.injEq] at h
    rcases h with ⟨rfl, rfl⟩ | ⟨rfl, rfl⟩ | ⟨rfl, rfl⟩ | ⟨rfl, rfl⟩ | ⟨rfl, rfl⟩ | ⟨rfl, rfl⟩ | ⟨rfl, rfl⟩ | ⟨rfl, rfl⟩ |
      ⟨rfl, rfl⟩ | ⟨rfl, rfl⟩ | ⟨rfl, rfl⟩ | ⟨rfl, rfl⟩ | ⟨rfl, rfl⟩ | ⟨rfl, rfl⟩ <;> rfl
  exact Option.some.inj ((hfirst h').symm.trans (hfirst h))

private theorem Plain.exec (hearlier : Earlier before) (hback : Backfilled before) (hs : Plain s) (h : Good before db)
    (hexec : s.exec db = some db') : Good before db' ∧ Shape db db' := by
  cases s with
  | createTable ifNotExists name columns =>
    obtain ⟨rfl, hname, hcolumns⟩ := hs
    rw [Statement.exec] at hexec
    split at hexec
    · cases hexec
      exact ⟨h, .refl _⟩
    · rename_i hnone
      rw [Bool.not_eq_true, Option.isSome_eq_false_iff, Option.isNone_iff_eq_none] at hnone
      cases hexec
      have hother : ∀ other table, db.tables other = some table →
          Function.update db.tables name (some { columns := columns }) other = some table := by
        intro other table htable
        refine (Function.update_of_ne ?_ _ _).trans htable
        rintro rfl
        rw [hnone] at htable
        cases htable
      refine ⟨⟨fun other table htable => ?_, ?_, h.named⟩,
        ⟨fun other table htable => ⟨table, hother other table htable, .refl _ _⟩, fun other table' hfree hnew => ?_,
          fun _ _ _ hindex => hindex, id⟩⟩
      · obtain ⟨kept, hkept, hsame⟩ := h.rows other table htable
        exact ⟨kept, hother other kept hkept, hsame⟩
      · exact (Function.update_of_ne (Ne.symm hname) _ _).trans h.noOld
      · by_cases heq : other = name
        · subst heq
          simp only [Function.update_self] at hnew
          cases hnew
          exact ⟨rfl, fun column hdrop hmem => hcolumns column hmem hdrop⟩
        · exact absurd (hnew.symm.trans ((Function.update_of_ne heq _ _).trans hfree)) nofun
  | createIndex name index =>
    rw [Statement.exec] at hexec
    split at hexec
    · cases hexec
      exact ⟨h, .refl _⟩
    · rename_i hnone
      rw [Bool.not_eq_true, Option.isSome_eq_false_iff, Option.isNone_iff_eq_none] at hnone
      obtain ⟨table, -, hfits⟩ := Option.bind_eq_some_iff.mp hexec
      split at hfits <;> cases hfits
      refine h.setIndex (fun index' hmem => ⟨by rw [index_unique hs hmem], hnone⟩) ?_
      rintro rfl
      exact absurd hs (by rw [Plain]; simp [ddl, createTable])
  | addColumn name column default =>
    obtain ⟨table, htable, hadd⟩ := Option.bind_eq_some_iff.mp hexec
    split at hadd <;> cases hadd
    rename_i hnew
    refine h.setTable htable ⟨fun other hother _ => List.mem_append_left _ hother, fun other hdrop hother hmem => ?_,
      List.Subset.refl _, fun hname hthere => ?_⟩ fun first hfirst hsame => ?_
    · rcases List.mem_append.mp hmem with hmem | hmem
      · exact hother hmem
      · rw [List.mem_singleton.mp hmem] at hdrop
        exact hs.1 hdrop
    · rw [hs.2 hname] at hnew
      exact absurd hthere hnew
    · refine forall₂_map_right hsame.rows fun old _ row hrow other hother hschema => ?_
      refine (Function.update_of_ne ?_ _ _).trans (hrow other hother hschema)
      rintro rfl
      exact hnew (hsame.columns other hother hschema)
  | dropColumn name column =>
    obtain ⟨table, htable, rfl⟩ := Option.map_eq_some_iff.mp hexec
    refine h.setTable htable ⟨fun other hother hschema => ?_, fun other hdrop hother hmem => ?_,
      List.Subset.refl _, fun _ _ row hrow => ⟨row, hrow, .inl rfl⟩⟩ fun first hfirst hsame => hsame.rows
    · refine List.mem_filter.mpr ⟨hother, decide_eq_true ?_⟩
      rintro rfl
      exact hs.1 hschema
    · exact hother (List.mem_of_mem_filter hmem)
  | dropIndex name =>
    cases hexec
    exact h.setIndex (fun index hmem => absurd hmem (hs index)) fun _ => rfl
  | backfillEvents =>
    obtain ⟨table, htable, hupdate⟩ := Option.bind_eq_some_iff.mp hexec
    split at hupdate <;> cases hupdate
    refine h.setTable htable ⟨fun _ hother _ => hother, fun _ _ hother => hother, List.Subset.refl _,
      fun _ _ row' hrow' => ?_⟩ fun first hfirst hsame => ?_
    · obtain ⟨row, hrow, rfl⟩ := List.mem_map.mp hrow'
      exact ⟨row, hrow, .inr rfl⟩
    · refine forall₂_map_right hsame.rows fun old hold row hrow column hcolumn hschema => ?_
      by_cases hevents : column = "enforced_events"
      · subst hevents
        have hthere : ∀ column ∈ ["enforced", "events"], row column = old column := by
          intro column hmem
          have hschema' : column ∈ schemaColumns "hook_policy" := by revert column; decide
          refine hrow column (((hearlier.tables _ _ hfirst).2 column hschema').resolve_right ?_) hschema'
          revert column
          decide
        have hsame' := congrFun (hback first hfirst hcolumn old hold) "enforced_events"
        unfold backfill at hsame' ⊢
        rw [hthere "enforced" (by decide), hrow _ hcolumn hschema, hthere "events" (by decide)]
        split
        · rename_i hcond
          rw [if_pos hcond, Function.update_self] at hsame'
          rw [Function.update_self]
          exact hsame'
        · exact hrow _ hcolumn hschema
      · rw [backfill_of_ne row hevents]
        exact hrow column hcolumn hschema
  | _ => exact hs.elim

private theorem Shape.trans {db'' : Database} (h : Shape db db') (h' : Shape db' db'') : Shape db db'' where
  tables := by
    intro name table htable
    obtain ⟨table', htable', hshape⟩ := h.tables name table htable
    obtain ⟨table'', htable'', hshape'⟩ := h'.tables name table' htable'
    refine ⟨table'', htable'', fun column hcolumn hschema => ?_, fun column hdrop hcolumn => ?_,
      fun _ h => hshape.notNull (hshape'.notNull h), fun hname hevents row'' hrow'' => ?_⟩
    · exact hshape'.columns column (hshape.columns column hcolumn hschema) hschema
    · exact hshape'.dropped column hdrop (hshape.dropped column hdrop hcolumn)
    · have hschema : "enforced_events" ∈ schemaColumns name := by rw [hname]; decide
      obtain ⟨row', hrow', hsame'⟩ := hshape'.hooks hname (hshape.columns _ hevents hschema) row'' hrow''
      obtain ⟨row, hrow, hsame⟩ := hshape.hooks hname hevents row' hrow'
      refine ⟨row, hrow, ?_⟩
      rcases hsame with rfl | rfl
      · exact hsame'
      · rcases hsame' with rfl | rfl
        · exact .inr rfl
        · exact .inr (backfill_backfill row)
  fresh := by
    intro name table'' hnone htable''
    cases htable' : db'.tables name with
    | none => exact h'.fresh name table'' htable' htable''
    | some table' =>
      obtain ⟨hnull, hdropped⟩ := h.fresh name table' hnone htable'
      obtain ⟨_, hsome, hshape⟩ := h'.tables name table' htable'
      cases htable''.symm.trans hsome
      refine ⟨List.subset_nil.mp (hnull ▸ hshape.notNull), fun column hdrop => ?_⟩
      exact hshape.dropped column hdrop (hdropped column hdrop)
  indexes := fun name index hmem hindex => h'.indexes name index hmem (h.indexes name index hmem hindex)
  retired := fun hnone => h'.retired (h.retired hnone)

private theorem mem_columns {column : String} : column ∈ db.columns name ↔
    ∃ table, db.tables name = some table ∧ column ∈ table.columns := by
  unfold Database.columns
  cases db.tables name <;> simp

private theorem Done.mono (hc : c ∈ createAll) (hshape : Shape db db') (h : Done c db) : Done c db' := by
  rcases mem_createAll.mp hc with ⟨s, hs, rfl⟩ | ⟨migration, hmem, rfl⟩ | ⟨column, hmem, rfl⟩ | rfl | rfl | rfl | rfl
  · rcases mem_ddl hs with ⟨name, rfl, -⟩ | ⟨name, index, rfl⟩
    · obtain ⟨table, htable⟩ := Option.ne_none_iff_exists'.mp h
      obtain ⟨table', htable', -⟩ := hshape.tables name table htable
      exact Option.ne_none_iff_exists'.mpr ⟨table', htable'⟩
    · exact hshape.indexes name index hs h
  · obtain ⟨table, htable, hcolumn⟩ := mem_columns.mp h
    obtain ⟨table', htable', hkeeps⟩ := hshape.tables _ table htable
    have hschema : ∀ migration ∈ migrations, migration.1.2 ∈ schemaColumns migration.1.1 := by decide
    exact mem_columns.mpr ⟨table', htable', hkeeps.columns _ hcolumn (hschema migration hmem)⟩
  · intro hcolumn
    obtain ⟨table', htable', hthere⟩ := mem_columns.mp hcolumn
    cases htable : db.tables column.1 with
    | none => exact (hshape.fresh _ table' htable htable').2 _ hmem hthere
    | some table =>
      obtain ⟨_, hsome, hkeeps⟩ := hshape.tables _ table htable
      cases htable'.symm.trans hsome
      exact hkeeps.dropped _ hmem (fun hold => h (mem_columns.mpr ⟨table, htable, hold⟩)) hthere
  · intro table' htable' hnull
    cases htable : db.tables "channel_binding" with
    | none =>
      rw [(hshape.fresh _ table' htable htable').1] at hnull
      cases hnull
    | some table =>
      obtain ⟨_, hsome, hkeeps⟩ := hshape.tables _ table htable
      cases htable'.symm.trans hsome
      exact h table htable (hkeeps.notNull hnull)
  · obtain ⟨table, htable, hcolumns, hrows⟩ := h
    obtain ⟨table', htable', hkeeps⟩ := hshape.tables _ table htable
    have hschema : ["enforced", "events", "enforced_events"] ⊆ schemaColumns "hook_policy" := by decide
    refine ⟨table', htable', fun column hmem => hkeeps.columns _ (hcolumns hmem) (hschema hmem), fun row' hrow' => ?_⟩
    obtain ⟨row, hrow, rfl | rfl⟩ := hkeeps.hooks rfl (hcolumns (by decide)) row' hrow'
    · exact hrows _ hrow
    · exact backfill_backfill row
  · exact hshape.retired h
  · trivial

theorem plain_of_expand (hc : c ∈ createAll) (hne : c ≠ .bindingSessionNullable) : ∀ s ∈ c.expand db, Plain s := by
  rcases mem_createAll.mp hc with ⟨s, hs, rfl⟩ | ⟨migration, hmem, rfl⟩ | ⟨column, hmem, rfl⟩ | rfl | rfl | rfl | rfl
  · rintro _ (_ | ⟨_, ⟨⟩⟩)
    rcases mem_ddl hs with ⟨name, rfl, hknown⟩ | ⟨name, index, rfl⟩
    · refine ⟨rfl, ?_, ?_⟩
      · rintro rfl
        exact hknown (by decide)
      · intro column hcolumn hdrop
        have hgone : ∀ column ∈ dropMigrations, column.2 ∉ schemaColumns column.1 := by decide
        exact hgone _ hdrop hcolumn
    · exact hs
  · have hplain : ∀ migration ∈ migrations, migration.1 ∉ dropMigrations ∧
        (migration.1.1 = "hook_policy" → migration.1.2 = "enforced_events") := by decide
    intro s hs
    rw [Command.expand] at hs
    split at hs
    · cases hs
    · rw [List.mem_singleton.mp hs]
      exact hplain migration hmem
  · have hplain : ∀ column ∈ dropMigrations, column.2 ∉ schemaColumns column.1 ∧ column.2 ≠ "enforced_events" := by
      decide
    intro s hs
    rw [Command.expand] at hs
    split at hs
    · rw [List.mem_singleton.mp hs]
      exact hplain column hmem
    · cases hs
  · exact absurd rfl hne
  · rintro _ (_ | ⟨_, ⟨⟩⟩)
    trivial
  · rintro _ (_ | ⟨_, ⟨⟩⟩)
    intro index
    simp [ddl, createTable]
  · exact nofun

private theorem execAll_plain (hearlier : Earlier before) (hback : Backfilled before) {ss : List Statement}
    (hplain : ∀ s ∈ ss, Plain s) (h : Good before db) (hexec : execAll ss db = some db') :
    Good before db' ∧ Shape db db' := by
  induction ss generalizing db with
  | nil =>
    cases hexec
    exact ⟨h, .refl _⟩
  | cons s ss ih =>
    obtain ⟨hs, hss⟩ := List.forall_mem_cons.mp hplain
    obtain ⟨mid, hmid, hrest⟩ := Option.bind_eq_some_iff.mp hexec
    obtain ⟨hgood, hshape⟩ := hs.exec hearlier hback h hmid
    obtain ⟨hgood', hshape'⟩ := ih hss hgood hrest
    exact ⟨hgood', hshape.trans hshape'⟩

private theorem done_of_execAll (hc : c ∈ createAll) (hne : c ≠ .bindingSessionNullable) (h : Good before db)
    (hexec : execAll (c.expand db) db = some db') : Done c db' := by
  rcases mem_createAll.mp hc with ⟨s, hs, rfl⟩ | ⟨migration, hmem, rfl⟩ | ⟨column, hmem, rfl⟩ | rfl | rfl | rfl | rfl
  · rw [Command.expand, execAll_singleton] at hexec
    rcases mem_ddl hs with ⟨name, rfl, -⟩ | ⟨name, index, rfl⟩
    · rw [createTable, Statement.exec] at hexec
      split at hexec
      · rename_i hthere
        cases hexec
        exact Option.isSome_iff_ne_none.mp hthere
      · cases hexec
        simp [createTable, Done]
    · rw [Statement.exec] at hexec
      split at hexec
      · rename_i hthere
        cases hexec
        obtain ⟨index', hindex⟩ := Option.isSome_iff_exists.mp hthere
        rw [Done, hindex, h.named name index index' hs hindex]
      · obtain ⟨table, -, hfits⟩ := Option.bind_eq_some_iff.mp hexec
        split at hfits <;> cases hfits
        exact Function.update_self ..
  · rw [Command.expand] at hexec
    split at hexec
    · cases hexec
      assumption
    · rw [execAll_singleton] at hexec
      obtain ⟨table, htable, hadd⟩ := Option.bind_eq_some_iff.mp hexec
      split at hadd <;> cases hadd
      exact mem_columns.mpr ⟨_, Function.update_self .., List.mem_append_right _ List.mem_cons_self⟩
  · rw [Command.expand] at hexec
    split at hexec
    · rw [execAll_singleton] at hexec
      obtain ⟨table, htable, rfl⟩ := Option.map_eq_some_iff.mp hexec
      intro hthere
      obtain ⟨table', htable', hcolumn⟩ := mem_columns.mp hthere
      simp only [Function.update_self] at htable'
      cases htable'
      simp at hcolumn
    · cases hexec
      assumption
  · exact absurd rfl hne
  · rw [Command.expand, execAll_singleton] at hexec
    obtain ⟨table, htable, hupdate⟩ := Option.bind_eq_some_iff.mp hexec
    split at hupdate <;> cases hupdate
    rename_i hcolumns
    refine ⟨{ table with rows := table.rows.map backfill }, by simp, hcolumns, fun row' hrow' => ?_⟩
    obtain ⟨row, -, rfl⟩ := List.mem_map.mp hrow'
    exact backfill_backfill row
  · cases hexec
    simp [Done]
  · trivial

private theorem createIndex_spec {index : Index} (h : (Statement.createIndex name index).exec db = some db') :
    db' = { db with indexes := Function.update db.indexes name (some ((db.indexes name).getD index)) } := by
  rw [Statement.exec] at h
  split at h
  · rename_i hthere
    obtain ⟨index', hindex⟩ := Option.isSome_iff_exists.mp hthere
    cases h
    rw [hindex, Option.getD_some, ← hindex, Function.update_eq_self]
  · rename_i hnone
    rw [Bool.not_eq_true, Option.isSome_eq_false_iff, Option.isNone_iff_eq_none] at hnone
    obtain ⟨table, -, hfits⟩ := Option.bind_eq_some_iff.mp h
    split at hfits <;> cases hfits
    rw [hnone, Option.getD_none]

private theorem moved_spec (hold : db.tables "_channel_binding_old" = none)
    (htable : db.tables "channel_binding" = some table)
    (hexec : execAll ((rebuild.drop 2).take 4) db = some db') :
    (∀ name, name ≠ "channel_binding" → db'.tables name = db.tables name) ∧
    db'.tables "channel_binding" = some
      { columns := bindingColumns
        rows := table.rows.map fun row column => if column ∈ bindingColumns then row column else .null } ∧
    ∀ name, db'.indexes name = (db.indexes name).filter fun index =>
      index.table ≠ "channel_binding" ∧ index.table ≠ "_channel_binding_old" := by
  simp only [rebuild, List.drop, List.take, execAll, Option.bind_eq_some_iff] at hexec
  obtain ⟨renamed, hrename, created, hcreate, copied, hcopy, dropped, hdrop, hlast⟩ := hexec
  cases hlast
  simp only [Statement.exec, htable, hold] at hrename
  cases hrename
  simp [Statement.exec] at hcreate
  subst hcreate
  simp [Statement.exec] at hcopy
  obtain ⟨-, rfl⟩ := hcopy
  simp [Statement.exec] at hdrop
  subst hdrop
  refine ⟨fun name hname => ?_, by simp [Function.update_of_ne], fun name => ?_⟩
  · by_cases hold' : name = "_channel_binding_old"
    · rw [hold', hold]
      simp
    · simp [Function.update_of_ne hname, Function.update_of_ne hold']
  · cases hindex : db.indexes name with
    | none => simp [hindex]
    | some index =>
      by_cases hbinding : index.table = "channel_binding"
      · simp [hindex, hbinding, Option.filter]
      · simp [hindex, hbinding, Option.filter]

private theorem Good.rebuilt (h : Good before db) (htable : db.tables "channel_binding" = some table)
    (hexec : execAll (rebuild.drop 2) db = some db') :
    Good before db' ∧ Shape db db' ∧ Done .bindingSessionNullable db' := by
  have hbindings : ddl.all (fun
      | .createIndex name index => index.table ≠ "_channel_binding_old" && (index.table ≠ "channel_binding" ||
          name = "ux_binding_account_chat" && index = accountChatIndex ||
          name = "ux_binding_session_active" && index = sessionActiveIndex)
      | _ => true) = true := by decide
  have hcolumns : schemaColumns "channel_binding" = bindingColumns := by decide
  rw [← List.take_append_drop 4 (rebuild.drop 2), execAll_append] at hexec
  obtain ⟨moved, hmoved, hindexes⟩ := Option.bind_eq_some_iff.mp hexec
  obtain ⟨htables, hbinding, hleft⟩ := moved_spec h.noOld htable hmoved
  simp only [rebuild, List.drop, execAll, Option.bind_eq_some_iff] at hindexes
  obtain ⟨first, hchat, second, hsession, hlast⟩ := hindexes
  cases hlast
  have hspec := createIndex_spec hsession
  rw [createIndex_spec hchat] at hspec
  have hfree : ∀ name index, .createIndex name index ∈ ddl → index.table = "channel_binding" →
      moved.indexes name = none := by
    intro name index hmem hbinding
    rw [hleft]
    cases hthere : db.indexes name with
    | none => rfl
    | some index' => simp [h.named name index index' hmem hthere, hbinding, Option.filter]
  have hmemChat : .createIndex "ux_binding_account_chat" accountChatIndex ∈ ddl := by decide
  have hmemSession : .createIndex "ux_binding_session_active" sessionActiveIndex ∈ ddl := by decide
  simp only [hfree _ _ hmemChat rfl, hfree _ _ hmemSession rfl, Option.getD_none,
    Function.update_of_ne (show "ux_binding_session_active" ≠ "ux_binding_account_chat" by decide)] at hspec
  clear hchat hsession hexec hmoved
  subst hspec
  -- an index of the schema is there as it was, or is a new one of the new table
  have hindex : ∀ name index, .createIndex name index ∈ ddl →
      Function.update (Function.update moved.indexes "ux_binding_account_chat" (some accountChatIndex))
        "ux_binding_session_active" (some sessionActiveIndex) name =
      if index.table = "channel_binding" then some index else db.indexes name := by
    intro name index hmem
    have hname := List.all_eq_true.mp hbindings _ hmem
    simp only [Bool.and_eq_true, Bool.or_eq_true, decide_eq_true_iff] at hname
    obtain ⟨hold, hname⟩ := hname
    split
    · rename_i htable
      rcases hname with (hname | ⟨rfl, rfl⟩) | ⟨rfl, rfl⟩
      · exact absurd htable hname
      · rw [Function.update_of_ne (by decide), Function.update_self]
      · rw [Function.update_self]
    · rename_i hother
      rw [Function.update_of_ne, Function.update_of_ne, hleft]
      · cases hthere : db.indexes name with
        | none => rfl
        | some index' => simp [h.named name index index' hmem hthere, hother, hold, Option.filter]
      · rintro rfl
        exact hother (by rw [index_unique hmemChat hmem]; rfl)
      · rintro rfl
        exact hother (by rw [index_unique hmemSession hmem]; rfl)
  refine ⟨⟨fun name first hfirst => ?_, (htables _ (by decide)).trans h.noOld, fun name index index' hmem heq => ?_⟩,
    ⟨fun name old hold => ?_, fun name new hnone hnew => ?_, fun name index hmem heq => ?_, fun hnone => ?_⟩,
    fun new hnew hnull => ?_⟩
  · obtain ⟨old, hold, hkeeps⟩ := h.rows name first hfirst
    by_cases hname : name = "channel_binding"
    · subst hname
      cases htable.symm.trans hold
      refine ⟨_, hbinding, fun column _ hschema => hcolumns ▸ hschema, ?_⟩
      refine forall₂_map_right hkeeps.rows fun row _ row' hsame column hcolumn hschema => ?_
      rw [if_pos (hcolumns ▸ hschema)]
      exact hsame column hcolumn hschema
    · exact ⟨old, (htables name hname).trans hold, hkeeps⟩
  · dsimp only at heq
    rw [hindex name index hmem] at heq
    split at heq
    · exact (Option.some.inj heq).symm
    · exact h.named name index index' hmem heq
  · by_cases hname : name = "channel_binding"
    · subst hname
      cases htable.symm.trans hold
      refine ⟨_, hbinding, fun column _ hschema => hcolumns ▸ hschema, fun column hdrop => ?_, List.nil_subset _,
        fun hhooks => absurd hhooks (by decide)⟩
      exact absurd hdrop (by simp [dropMigrations])
    · exact ⟨old, (htables name hname).trans hold, .refl _ _⟩
  · by_cases hname : name = "channel_binding"
    · subst hname
      rw [htable] at hnone
      cases hnone
    · rw [htables name hname, hnone] at hnew
      cases hnew
  · dsimp only
    rw [hindex name index hmem]
    split
    · rfl
    · exact heq
  · have hgone : moved.indexes "ux_binding_account" = none := by
      rw [hleft, hnone]
      rfl
    simpa [Function.update_of_ne] using hgone
  · cases hbinding.symm.trans hnew
    cases hnull

private theorem plain_rebuild : ∀ s ∈ rebuild.take 2, Plain s := by
  rintro _ (_ | ⟨_, _ | ⟨_, ⟨⟩⟩⟩) index
  · simp [ddl, createTable]
  · simp [ddl, createTable]

private theorem expand_exec (hearlier : Earlier before) (hback : Backfilled before) (hc : c ∈ createAll)
    (h : Good before db) (hexec : execAll (c.expand db) db = some db') :
    Good before db' ∧ Shape db db' ∧ Done c db' := by
  by_cases hne : c = .bindingSessionNullable
  · subst hne
    rw [Command.expand] at hexec
    split at hexec
    · rename_i hguard
      obtain ⟨table, htable, -⟩ := (Option.any_eq_true _ _).mp hguard
      rw [← List.take_append_drop 2 rebuild, execAll_append] at hexec
      obtain ⟨mid, hmid, hrest⟩ := Option.bind_eq_some_iff.mp hexec
      obtain ⟨hgood, hshape⟩ := execAll_plain hearlier hback plain_rebuild h hmid
      obtain ⟨table', htable', -⟩ := hshape.tables _ table htable
      obtain ⟨hgood', hshape', hdone⟩ := hgood.rebuilt htable' hrest
      exact ⟨hgood', hshape.trans hshape', hdone⟩
    · rename_i hguard
      cases hexec
      refine ⟨h, .refl _, fun table htable hnull => hguard ?_⟩
      rw [htable]
      exact decide_eq_true hnull
  · obtain ⟨hgood, hshape⟩ := execAll_plain hearlier hback (plain_of_expand hc hne) h hexec
    exact ⟨hgood, hshape, done_of_execAll hc hne h hexec⟩

/-- Before its transaction a command leaves the rows where they are, or those of the bindings in the old table. -/
theorem expand_disk (hearlier : Earlier before) (hback : Backfilled before) (hc : c ∈ createAll)
    (h : Good before db) {ran rest : List Statement} (hexpand : c.expand db = ran ++ rest)
    (hbegins : ran.any Statement.begins = false) (hexec : execAll ran db = some db')
    (hold : db'.tables "_channel_binding_old" = none) : Good before db' := by
  by_cases hne : c = .bindingSessionNullable
  · subst hne
    rw [Command.expand] at hexpand
    split at hexpand
    · rename_i hguard
      obtain ⟨table, htable, -⟩ := (Option.any_eq_true _ _).mp hguard
      have hran : ran = rebuild.take ran.length := by rw [hexpand, List.take_left]
      have hlength : ran.length ≤ 8 := by
        have hlength := congrArg List.length hexpand
        rw [List.length_append] at hlength
        exact Nat.le.intro hlength.symm
      generalize ran.length = n at hran hlength
      subst hran
      by_cases hfew : n ≤ 2
      · refine (execAll_plain hearlier hback (fun s hs => ?_) h hexec).1
        exact plain_rebuild s ((List.take_prefix_take_left hfew).subset hs)
      · by_cases hmany : 5 ≤ n
        · have hcopy : .copyBindings "_channel_binding_old" bindingColumns ∈ rebuild.take n :=
            (List.take_prefix_take_left hmany).subset (by decide)
          rw [List.any_eq_false] at hbegins
          exact absurd rfl (hbegins _ hcopy)
        · exfalso
          have hcases : n = 3 ∨ n = 4 := by omega
          rcases hcases with rfl | rfl
          · simp [rebuild, execAll, Statement.exec, htable, h.noOld] at hexec
            rw [← hexec] at hold
            simp at hold
          · simp [rebuild, execAll, Statement.exec, htable, h.noOld] at hexec
            rw [← hexec] at hold
            simp at hold
    · rw [(List.append_eq_nil_iff.mp hexpand.symm).1] at hexec
      cases hexec
      exact h
  · refine (execAll_plain hearlier hback (fun s hs => ?_) h hexec).1
    have hmem : s ∈ c.expand db := by
      rw [hexpand]
      exact List.mem_append_left _ hs
    exact plain_of_expand hc hne s hmem

def Idle (before : Database) (b : Boot) : Prop :=
  b.pending = [] ∧ ∃ done, createAll = done ++ b.todo ∧ Good before b.view ∧ ∀ c ∈ done, Done c b.view

/-- Amid the statements of a command that began at `base` -/
def Busy (before : Database) (b : Boot) : Prop :=
  b.pending ≠ [] ∧ ∃ done c base ran, createAll = done ++ c :: b.todo ∧ c.expand base = ran ++ b.pending ∧
    Good before base ∧ (∀ c ∈ done, Done c base) ∧ execAll ran base = some b.view ∧
    (b.changed = none → ran.any Statement.begins = false)

structure Inv (before : Database) (b : Boot) : Prop where
  disk : b.disk.tables "_channel_binding_old" = none → Good before b.disk
  commit : b.changed ≠ none → .commit ∈ b.todo
  place : Idle before b ∨ Busy before b

private theorem commit_mem_of_place {done todo : List Command} (h : createAll = done ++ c :: todo) (hc : c ≠ .commit) :
    .commit ∈ todo := by
  have hlast : createAll.getLast? = some .commit := by decide
  rw [h, List.getLast?_append_cons] at hlast
  cases todo with
  | nil => exact absurd (Option.some.inj hlast) hc
  | cons next todo => exact List.mem_of_getLast? hlast

private theorem idle_of_ran (hearlier : Earlier before) (hback : Backfilled before) {done : List Command}
    (hplace : createAll = done ++ c :: b.todo) (hgood : Good before db) (hdone : ∀ c ∈ done, Done c db)
    (hexec : execAll (c.expand db) db = some b.view) (hpending : b.pending = []) : Idle before b := by
  have hc : c ∈ createAll := by simp [hplace]
  obtain ⟨hgood', hshape, hlast⟩ := expand_exec hearlier hback hc hgood hexec
  refine ⟨hpending, done ++ [c], by simp [hplace], hgood', fun other hother => ?_⟩
  rcases List.mem_append.mp hother with hother | hother
  · exact (hdone other hother).mono (by simp [hplace, hother]) hshape
  · rwa [List.mem_singleton.mp hother]

private theorem Inv.exec (hearlier : Earlier before) (hback : Backfilled before) (h : Inv before b)
    (hs : b.exec = some b') : Inv before b' := by
  obtain ⟨disk, changed, pending, todo⟩ := b
  cases pending with
  | nil =>
    obtain ⟨-, done, hplace, hgood, hdone⟩ := h.place.resolve_right fun hbusy => hbusy.1 rfl
    cases todo with
    | nil => cases hs
    | cons c todo =>
      by_cases hc : c = .commit
      · subst hc
        cases hs
        refine ⟨fun _ => hgood, fun hne => absurd rfl hne, .inl ?_⟩
        exact idle_of_ran hearlier hback hplace hgood hdone rfl rfl
      · have hb : b' = ⟨disk, changed, c.expand (changed.getD disk), todo⟩ := by
          cases c with
          | commit => exact absurd rfl hc
          | _ => exact (Option.some.inj hs).symm
        subst hb
        refine ⟨h.disk, fun _ => commit_mem_of_place hplace hc, ?_⟩
        by_cases hnone : c.expand (changed.getD disk) = []
        · refine .inl (idle_of_ran hearlier hback hplace hgood hdone ?_ hnone)
          exact congrArg (fun ss => execAll ss (changed.getD disk)) hnone
        · exact .inr ⟨hnone, done, c, _, [], hplace, rfl, hgood, hdone, rfl, fun _ => rfl⟩
  | cons s pending =>
    obtain ⟨-, done, c, base, ran, hplace, hexpand, hgood, hdone, hran, hbegins⟩ :=
      h.place.resolve_left fun hidle => by cases hidle.1
    have hc : c ∈ createAll := by simp [hplace]
    have hcommit : .commit ∈ todo := by
      refine commit_mem_of_place hplace ?_
      rintro rfl
      cases (List.append_eq_nil_iff.mp hexpand.symm).2
    obtain ⟨db, hexec, hs⟩ := Option.map_eq_some_iff.mp hs
    have hran' : execAll (ran ++ [s]) base = some db := by
      rw [execAll_append, hran, Option.bind_some, execAll_singleton]
      exact hexec
    have hexpand' : c.expand base = ran ++ [s] ++ pending := by rw [hexpand, List.append_assoc]; rfl
    have hplace' : ∀ b' : Boot, b'.todo = todo → b'.pending = pending → b'.view = db →
        (b'.changed = none → (ran ++ [s]).any Statement.begins = false) → Idle before b' ∨ Busy before b' := by
      intro b' htodo hpending hview hquiet
      by_cases hnone : pending = []
      · refine .inl (idle_of_ran hearlier hback (by rw [htodo]; exact hplace) hgood hdone ?_ (hpending.trans hnone))
        rw [hexpand', hnone, List.append_nil, hran', hview]
      · exact .inr ⟨by rwa [hpending], done, c, base, ran ++ [s], by rw [htodo]; exact hplace,
          by rw [hpending]; exact hexpand', hgood, hdone, by rw [hview]; exact hran', hquiet⟩
    split at hs
    · cases hs
      exact ⟨h.disk, fun _ => hcommit, hplace' _ rfl rfl rfl nofun⟩
    · rename_i hopen
      cases hs
      simp only [Bool.or_eq_true, not_or, Bool.not_eq_true, Option.isSome_eq_false_iff,
        Option.isNone_iff_eq_none] at hopen
      obtain ⟨rfl, hbegin⟩ := hopen
      have hquiet : (ran ++ [s]).any Statement.begins = false := by
        rw [List.any_append, hbegins rfl, List.any_cons, hbegin]
        rfl
      exact ⟨fun hold => expand_disk hearlier hback hc hgood hexpand' hquiet hran' hold, fun hne => absurd rfl hne,
        hplace' _ rfl rfl rfl fun _ => hquiet⟩

private theorem Inv.start (h : Good before db) : Inv before { disk := db } :=
  ⟨fun _ => h, fun hne => absurd rfl hne, .inl ⟨rfl, [], rfl, h, nofun⟩⟩

private theorem Inv.step (hearlier : Earlier before) (hback : Backfilled before) (h : Inv before b) {e : BootEvent}
    (hc : b.Careful e) (hs : b.step e = some b') : Inv before b' := by
  cases e with
  | exec => exact h.exec hearlier hback hs
  | crash =>
    cases hs
    exact .start (h.disk hc)

private theorem Done.exec (hc : c ∈ createAll) (h : Done c db) : ∀ s ∈ c.expand db, s.exec db = some db := by
  rcases mem_createAll.mp hc with ⟨s, hs, rfl⟩ | ⟨migration, hmem, rfl⟩ | ⟨column, hmem, rfl⟩ | rfl | rfl | rfl | rfl
  · rintro _ (_ | ⟨_, ⟨⟩⟩)
    rcases mem_ddl hs with ⟨name, rfl, -⟩ | ⟨name, index, rfl⟩
    · rw [createTable, Statement.exec, if_pos (Option.isSome_iff_ne_none.mpr h), if_pos rfl]
    · rw [Statement.exec, if_pos (by rw [show db.indexes name = some index from h]; rfl)]
  · rw [Command.expand, if_pos (show migration.1.2 ∈ db.columns migration.1.1 from h)]
    exact nofun
  · rw [Command.expand, if_neg (show ¬ column.2 ∈ db.columns column.1 from h)]
    exact nofun
  · have hguard : ¬ (db.tables "channel_binding").any (fun table => "session_uuid" ∈ table.notNull) = true := by
      intro hguard
      obtain ⟨table, htable, hnull⟩ := (Option.any_eq_true _ _).mp hguard
      exact h table htable (of_decide_eq_true hnull)
    rw [Command.expand, if_neg hguard]
    exact nofun
  · rintro _ (_ | ⟨_, ⟨⟩⟩)
    obtain ⟨table, htable, hcolumns, hrows⟩ := h
    have hmap : table.rows.map backfill = table.rows := by
      conv_rhs => rw [← List.map_id table.rows]
      exact List.map_congr_left hrows
    rw [Statement.exec, htable, Option.bind_some, if_pos hcolumns]
    simp only [hmap]
    rw [← htable, Function.update_eq_self]
  · rintro _ (_ | ⟨_, ⟨⟩⟩)
    have hnone : none = db.indexes "ux_binding_account" := Eq.symm h
    rw [Statement.exec, hnone, Function.update_eq_self]
  · exact nofun

private theorem unchanged_of_done (hdone : ∀ c ∈ createAll, Done c db) {es : List BootEvent}
    (hr : run Boot.step { disk := db } es = some b) : b.disk = db := by
  have hstep : ∀ (b : Boot) e b', (b.disk = db ∧ b.view = db ∧ (∀ s ∈ b.pending, s.exec db = some db) ∧
      ∀ c ∈ b.todo, c ∈ createAll) → b.step e = some b' → b'.disk = db ∧ b'.view = db ∧
      (∀ s ∈ b'.pending, s.exec db = some db) ∧ ∀ c ∈ b'.todo, c ∈ createAll := by
    rintro ⟨disk, changed, pending, todo⟩ e b' ⟨rfl, hview, hpending, htodo⟩ hs
    cases e with
    | crash =>
      cases hs
      exact ⟨rfl, rfl, nofun, fun c hc => hc⟩
    | exec =>
      cases pending with
      | nil =>
        cases todo with
        | nil => cases hs
        | cons c todo =>
          obtain ⟨hc, hrest⟩ := List.forall_mem_cons.mp htodo
          cases c with
          | commit =>
            cases hs
            exact ⟨hview, hview, hpending, hrest⟩
          | _ =>
            cases hs
            refine ⟨rfl, hview, fun s hs => ?_, hrest⟩
            rw [hview] at hs
            exact (hdone _ hc).exec hc s hs
      | cons s pending =>
        obtain ⟨hs', hrest⟩ := List.forall_mem_cons.mp hpending
        obtain ⟨db', hexec, hs⟩ := Option.map_eq_some_iff.mp hs
        rw [hview, hs'] at hexec
        cases hexec
        split at hs
        · cases hs
          exact ⟨rfl, rfl, hrest, htodo⟩
        · rename_i hopen
          cases hs
          simp only [Bool.or_eq_true, not_or, Bool.not_eq_true, Option.isSome_eq_false_iff,
            Option.isNone_iff_eq_none] at hopen
          rw [hopen.1]
          exact ⟨rfl, rfl, hrest, htodo⟩
  exact (run_invariant_always hstep ⟨rfl, rfl, fun _ hmem => absurd hmem List.not_mem_nil, fun c hc => hc⟩ hr).1

/-- After a complete start the database is upgraded, and a further start changes nothing. -/
theorem upgraded_of_careful (hearlier : Earlier before) (hback : Backfilled before) {es : List BootEvent}
    (hm : RunMeets Boot.step Boot.Careful { disk := before } es) (hr : run Boot.step { disk := before } es = some b)
    (hend : b.pending = [] ∧ b.todo = []) :
    Upgraded before b.disk ∧ ∀ es' b', run Boot.step { disk := b.disk } es' = some b' → b'.disk = b.disk := by
  have hgood : Good before before := by
    refine ⟨fun name first hfirst => ⟨first, hfirst, fun _ hcolumn _ => hcolumn, ?_⟩, ?_, hearlier.indexes⟩
    · exact List.forall₂_same.mpr fun _ _ _ _ _ => rfl
    · by_contra hthere
      obtain ⟨table, htable⟩ := Option.ne_none_iff_exists'.mp hthere
      exact (hearlier.tables _ table htable).1 (by decide)
  have h := run_invariant (fun _ _ _ hi hc hs => Inv.step hearlier hback hi hc hs) (Inv.start hgood) hm hr
  obtain ⟨-, done, hplace, hfinal, hdone⟩ := h.place.resolve_right fun hbusy => hbusy.1 hend.1
  have hclosed : b.changed = none := by
    by_contra hopen
    have hmem := h.commit hopen
    rw [hend.2] at hmem
    cases hmem
  have hview : b.view = b.disk := by rw [Boot.view, hclosed, Option.getD_none]
  rw [hend.2, List.append_nil] at hplace
  rw [hview] at hfinal hdone
  rw [← hplace] at hdone
  refine ⟨⟨fun name first hfirst => ?_, fun name index hmem _ => ?_⟩, fun es' b' hr' => unchanged_of_done hdone hr'⟩
  · obtain ⟨table, htable, hkeeps⟩ := hfinal.rows name first hfirst
    exact ⟨table, htable, hkeeps.rows⟩
  · exact hdone (.sql (.createIndex name index)) (mem_createAll.mpr (.inl ⟨_, hmem, rfl⟩))

end Proof

instance (b : Boot) (e : BootEvent) : Decidable (b.Careful e) :=
  match e with
  | .exec => .isTrue trivial
  | .crash => decidable_of_iff ((b.disk.tables "_channel_binding_old").isNone = true) Option.isNone_iff_eq_none

def oldBindings : Table where
  columns := bindingColumns.filter (· ∉ ["chat_type", "chat_name"])
  notNull := ["session_uuid"]
  rows := [rowOf [("binding_id", .text "b"), ("account_id", .text "a"), ("session_uuid", .text "s"),
    ("first_run_done", .integer 1), ("bound_at", .text "2026-01-01T00:00:00.000Z")]]

/-- An account and its binding -/
def oldDatabase : Database where
  tables name :=
    if name = "channel_binding" then some oldBindings
    else if name = "account" then some { columns := schemaColumns "account", rows := [accountRow "a"] }
    else none
  indexes name :=
    if name = "ux_binding_account" then
      some { table := "channel_binding", columns := ["account_id"], unique := true }
    else none

/-- A start that crashes after some steps, and a second one -/
def interrupted (n m : Nat) : List BootEvent := List.replicate n .exec ++ .crash :: List.replicate m .exec

private theorem earlier_oldDatabase : Earlier oldDatabase where
  tables := by
    intro name table htable
    simp only [oldDatabase] at htable
    split at htable
    · rename_i hname
      subst hname
      cases htable
      exact ⟨by decide, by decide⟩
    · split at htable
      · rename_i hname
        subst hname
        cases htable
        exact ⟨by decide, by decide⟩
      · cases htable
  indexes := by
    intro name index index' hmem hindex
    simp only [oldDatabase] at hindex
    split at hindex
    · rename_i hname
      subst hname
      exact absurd hmem (by simp [ddl, createTable])
    · cases hindex
  bindings := by
    rintro _ ⟨⟩
    decide

theorem upgraded_interrupted : ∃ b, run Boot.step { disk := oldDatabase } (interrupted 20 85) = some b ∧
    b.todo.isEmpty = true ∧ Upgraded oldDatabase b.disk := by
  obtain ⟨b, hr, hend⟩ := exists_run_of_decide Boot.step { disk := oldDatabase } (interrupted 20 85)
    (p := fun b => b.pending.isEmpty = true ∧ b.todo.isEmpty = true) (fun _ h => h) (by decide)
  refine ⟨b, hr, hend.2, (upgraded_of_careful earlier_oldDatabase ?_ (by decide +kernel) hr
    ⟨List.isEmpty_iff.mp hend.1, List.isEmpty_iff.mp hend.2⟩).1⟩
  intro table htable
  cases htable

-- A crash within the copy leaves the binding in the old table for good.
theorem not_upgraded : ∃ b, run Boot.step { disk := oldDatabase } (interrupted 77 75) = some b ∧
    b.pending.isEmpty = true ∧ b.todo.isEmpty = true ∧ ¬ Upgraded oldDatabase b.disk := by
  obtain ⟨b, hr, hpending, htodo, hrows⟩ := exists_run_of_decide Boot.step { disk := oldDatabase } (interrupted 77 75)
    (p := fun b => b.pending.isEmpty = true ∧ b.todo.isEmpty = true ∧
      (b.disk.tables "channel_binding").map (·.rows.length) = some 0) (fun _ h => h) (by decide)
  refine ⟨b, hr, hpending, htodo, fun h => ?_⟩
  obtain ⟨table, htable, hsame⟩ := h.rows "channel_binding" oldBindings rfl
  rw [htable] at hrows
  exact absurd (hsame.length_eq.trans (Option.some.inj hrows)) (by decide)

end PrivaCloud.DataSpine.SchemaUpgrade
