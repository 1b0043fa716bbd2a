import PrivaCloud.DataSpine.SqlRows
import PrivaCloud.Framework.Table

/-!
# The cut-over to PostgreSQL

`run_copy`, and of `schema_pg.create_all` the one statement that changes rows. The two schemas declare the
same columns, so a row is moved as it is.
-/

namespace PrivaCloud.DataSpine.CopyToPg

open Framework Sql

inductive TableName
  | account
  | channelBinding
  | quota
  | scheduledJob
  | jobRunRecord
  | jobFire
  | accountResourceSpec
  | pendingRegistration
  | runnerDefaults
  | hookPolicy
  | feishuChannelConfig
  | channelPlatformConfig
  deriving DecidableEq

/-- `schema.TABLES` -/
def tables : List TableName :=
  [.account, .channelBinding, .quota, .scheduledJob, .jobRunRecord, .jobFire, .accountResourceSpec,
    .pendingRegistration, .runnerDefaults, .hookPolicy, .feishuChannelConfig, .channelPlatformConfig]

/-- `_TABLES`, in the order of the foreign keys -/
def copiedTables : List TableName :=
  [.account, .quota, .channelBinding, .scheduledJob, .jobRunRecord, .jobFire, .accountResourceSpec,
    .pendingRegistration, .runnerDefaults, .hookPolicy]

def TableName.primaryKey : TableName → List String
  | .account | .quota | .accountResourceSpec | .feishuChannelConfig => ["account_id"]
  | .channelBinding => ["binding_id"]
  | .scheduledJob => ["job_id"]
  | .jobRunRecord => ["run_id"]
  | .jobFire => ["job_id", "fire_epoch"]
  | .pendingRegistration => ["request_id"]
  | .runnerDefaults | .hookPolicy | .channelPlatformConfig => ["id"]

def TableName.key (table : TableName) (row : Row) : List Value := table.primaryKey.map row

abbrev Db := (table : TableName) → Table table.key

private theorem key_backfill (row : Row) : TableName.hookPolicy.key (backfill row) = TableName.hookPolicy.key row := by
  unfold backfill
  split
  · simp [TableName.key, TableName.primaryKey]
  · rfl

def createAll (dst : Db) : Db :=
  Function.update dst .hookPolicy ((dst .hookPolicy).map backfill key_backfill)

inductive Count
  | dry (source target : Nat)
  | copied (source inserted skipped : Nat)

section Copy

-- what PostgreSQL refuses to insert for another reason than the primary key
variable (refuses : Db → TableName → Row → Bool) (dryRun : Bool) (src : Db)

/-- `INSERT … ON CONFLICT … DO NOTHING` and its row count -/
def insertRow (dst : Db) (table : TableName) (row : Row) : Option (Db × Nat) :=
  if refuses dst table row then none
  else
    match (dst table).insert row with
    | none => some (dst, 0)
    | some rows => some (Function.update dst table rows, 1)

def insertRows (table : TableName) : Db → List Row → Option (Db × Nat)
  | dst, [] => some (dst, 0)
  | dst, row :: rows =>
    (insertRow refuses dst table row).bind fun (dst, n) =>
      (insertRows table dst rows).map fun (dst, inserted) => (dst, n + inserted)

def copyTable (dst : Db) (table : TableName) : Option (Db × Count) :=
  let source := (src table).rows.length
  if dryRun then some (dst, .dry source (dst table).rows.length)
  else
    (insertRows refuses table dst (src table).rows).map fun (dst, inserted) =>
      (dst, .copied source inserted (source - inserted))

def copyTables : Db → List TableName → Option (Db × List (TableName × Count))
  | dst, [] => some (dst, [])
  | dst, table :: others =>
    (copyTable refuses dryRun src dst table).bind fun (dst, count) =>
      (copyTables dst others).map fun (dst, counts) => (dst, (table, count) :: counts)

/-- One transaction: what raises is rolled back. -/
def runCopy (dst : Db) : Option (List (TableName × Count)) × Db :=
  match copyTables refuses dryRun src (createAll dst) copiedTables with
  | none => (none, dst)
  | some (dst, counts) => (some counts, dst)

end Copy

/-- Nothing of the source is missing, and what was there before is as it was. -/
structure Whole (src dst dst' : Db) : Prop where
  copied : ∀ table ∈ tables, ∀ k row, (src table).find? k = some row → (dst table).find? k = none →
    (dst' table).find? k = some row
  kept : ∀ table ∈ tables, ∀ k row, (dst table).find? k = some row → (dst' table).find? k = some row

def InsertsNothing (dst dst' : Db) : Prop :=
  ∀ table ∈ tables, ∀ k, (dst table).find? k = none → (dst' table).find? k = none

/-- The rows of the tables that the call does not copy are in the target already. -/
def Covered (dryRun : Bool) (src dst : Db) : Prop :=
  ∀ table ∈ tables, dryRun = true ∨ table ∉ copiedTables →
    ∀ k, (src table).find? k ≠ none → (dst table).find? k ≠ none

def Backfilled (dst : Db) : Prop := ∀ k row, (dst .hookPolicy).find? k = some row → backfill row = row

section Spec

variable {refuses : Db → TableName → Row → Bool} {dryRun : Bool} {src dst dst' : Db}

private theorem find?_update (table other : TableName) (t : Table table.key) (k : List Value) :
    (Function.update dst table t other).find? k = if other = table then t.find? k else (dst other).find? k := by
  by_cases h : other = table
  · subst h
    simp
  · simp [h]

theorem find?_insertRow {table : TableName} {row : Row} {n : Nat} (h : insertRow refuses dst table row = some (dst', n))
    (other : TableName) (k : List Value) :
    (dst' other).find? k = ((dst other).find? k).or (if other = table ∧ table.key row = k then some row else none) := by
  unfold insertRow at h
  split at h
  · cases h
  · split at h
    · rename_i hconflict
      cases h
      obtain ⟨old, hold⟩ := Table.insert_isNone.mp hconflict
      split
      · rename_i hkey
        obtain ⟨rfl, rfl⟩ := hkey
        rw [hold, Option.some_or]
      · rw [Option.or_none]
    · rename_i rows hrows
      cases h
      rw [find?_update]
      by_cases htable : other = table
      · subst htable
        rw [if_pos rfl, Table.find?_insert hrows]
        by_cases hkey : other.key row = k
        · have hnone : (dst other).find? k = none := by
            rw [← hkey]
            by_contra hsome
            obtain ⟨old, hold⟩ := Option.ne_none_iff_exists'.mp hsome
            rw [Table.insert_isNone.mpr ⟨old, hold⟩] at hrows
            cases hrows
          simp [hkey, hnone]
        · simp [hkey]
      · simp [htable]

private theorem find?_insertRows {table : TableName} {rows : List Row} {n : Nat}
    (h : insertRows refuses table dst rows = some (dst', n)) (other : TableName) (k : List Value) :
    (dst' other).find? k =
      ((dst other).find? k).or (if other = table then rows.find? (fun row => table.key row = k) else none) := by
  induction rows generalizing dst n with
  | nil =>
    cases h
    simp
  | cons row rows ih =>
    obtain ⟨⟨mid, m⟩, hrow, h⟩ := Option.bind_eq_some_iff.mp h
    obtain ⟨⟨last, inserted⟩, hrows, heq⟩ := Option.map_eq_some_iff.mp h
    cases heq
    rw [ih hrows, find?_insertRow hrow, Option.or_assoc]
    congr 1
    by_cases htable : other = table
    · by_cases hkey : table.key row = k
      · simp [htable, hkey]
      · simp [htable, hkey]
    · simp [htable]

private theorem find?_copyTables {ts : List TableName} {counts : List (TableName × Count)}
    (h : copyTables refuses dryRun src dst ts = some (dst', counts)) (table : TableName) (k : List Value) :
    (dst' table).find? k =
      ((dst table).find? k).or (if dryRun = false ∧ table ∈ ts then (src table).find? k else none) := by
  induction ts generalizing dst counts with
  | nil =>
    cases h
    simp
  | cons first others ih =>
    obtain ⟨⟨mid, count⟩, hfirst, h⟩ := Option.bind_eq_some_iff.mp h
    obtain ⟨⟨last, rest⟩, hothers, heq⟩ := Option.map_eq_some_iff.mp h
    cases heq
    rw [ih hothers]
    unfold copyTable at hfirst
    cases dryRun with
    | true =>
      cases hfirst
      simp
    | false =>
      obtain ⟨⟨mid', inserted⟩, hrows, heq⟩ := Option.map_eq_some_iff.mp hfirst
      cases heq
      rw [find?_insertRows hrows, Option.or_assoc]
      congr 1
      by_cases htable : table = first
      · subst htable
        have hfind : (src table).rows.find? (fun row => table.key row = k) = (src table).find? k := rfl
        rw [if_pos rfl, hfind]
        by_cases hmem : table ∈ others
        · simp [hmem]
        · simp [hmem]
      · simp [htable]

private theorem find?_createAll (table : TableName) (k : List Value) :
    (createAll dst table).find? k = ((dst table).find? k).map (if table = .hookPolicy then backfill else id) := by
  rw [createAll, find?_update]
  split
  · rename_i htable
    subst htable
    rw [Table.find?_map]
  · simp

theorem find?_runCopy {counts : List (TableName × Count)} (h : runCopy refuses dryRun src dst = (some counts, dst'))
    (table : TableName) (k : List Value) :
    (dst' table).find? k = (((dst table).find? k).map (if table = .hookPolicy then backfill else id)).or
      (if dryRun = false ∧ table ∈ copiedTables then (src table).find? k else none) := by
  unfold runCopy at h
  split at h <;> cases h
  rename_i hcopy
  rw [find?_copyTables hcopy, find?_createAll]

/-- A call that raises leaves the target as it was. One that returns has copied the whole store and kept the target,
and a further call inserts nothing, exactly if the target is covered and backfilled. -/
theorem runCopy_whole (refuses : Db → TableName → Row → Bool) (dryRun : Bool) (src dst : Db) :
    ((runCopy refuses dryRun src dst).1 = none → (runCopy refuses dryRun src dst).2 = dst) ∧
    ∀ counts dst', runCopy refuses dryRun src dst = (some counts, dst') →
      (Whole src dst dst' ∧ InsertsNothing dst' (runCopy refuses dryRun src dst').2 ↔
        Covered dryRun src dst ∧ Backfilled dst) := by
  have hraise : ∀ dst, (runCopy refuses dryRun src dst).1 = none → (runCopy refuses dryRun src dst).2 = dst := by
    intro dst h
    unfold runCopy at h ⊢
    split at h
    · rfl
    · cases h
  refine ⟨hraise dst, fun counts dst' h => ?_⟩
  have hfind := find?_runCopy h
  have hagain : InsertsNothing dst' (runCopy refuses dryRun src dst').2 := by
    intro table _ k hnone
    cases hsecond : runCopy refuses dryRun src dst' with
    | mk outcome last =>
      cases outcome with
      | none =>
        have hsame := hraise dst'
        rw [hsecond] at hsame
        rw [hsame rfl]
        exact hnone
      | some counts' =>
        have hsource := hfind table k
        rw [hnone, eq_comm, Option.or_eq_none_iff] at hsource
        change (last table).find? k = none
        rw [find?_runCopy hsecond, hnone, hsource.2]
        rfl
  constructor
  · rintro ⟨hwhole, -⟩
    refine ⟨fun table htable hout k hsome hnone => ?_, fun k row hrow => ?_⟩
    · obtain ⟨row, hrow⟩ := Option.ne_none_iff_exists'.mp hsome
      have hthere := hwhole.copied table htable k row hrow hnone
      have hleft : ¬ (dryRun = false ∧ table ∈ copiedTables) := by
        rintro ⟨hreal, hmem⟩
        rcases hout with hdry | hnot
        · rw [hreal] at hdry
          cases hdry
        · exact hnot hmem
      rw [hfind, hnone, if_neg hleft] at hthere
      cases hthere
    · have hthere := hwhole.kept .hookPolicy (by decide) k row hrow
      rw [hfind, hrow] at hthere
      exact Option.some.inj hthere
  · rintro ⟨hcovered, hbackfilled⟩
    refine ⟨⟨fun table htable k row hrow hnone => ?_, fun table _ k row hrow => ?_⟩, hagain⟩
    · have hmoved : dryRun = false ∧ table ∈ copiedTables := by
        by_contra hout
        refine hcovered table htable ?_ k (by simp [hrow]) hnone
        rwa [not_and_or, Bool.not_eq_false] at hout
      rw [hfind, hnone, if_pos hmoved, hrow]
      rfl
    · rw [hfind, hrow]
      split
      · rename_i htable
        subst htable
        exact congrArg some (hbackfilled k row hrow)
      · rfl

end Spec

def noRows : Db := fun _ => {}

def botRow (accountId : String) : Row := rowOf [("account_id", .text accountId), ("user_enabled", .integer 1),
  ("admin_disabled", .integer 0), ("single_chat_access_mode", .text "owner_only"), ("allowed_union_ids", .text "[]"),
  ("welcome_message", .text ""), ("reject_message", .text ""), ("max_queue_size", .integer 3),
  ("enable_permission_feedback", .integer 1), ("feedback_timeout_seconds", .integer 180), ("domain", .text "feishu"),
  ("group_chat_enabled", .integer 0), ("owner_union_id", .text ""), ("owner_open_id", .text ""),
  ("conn_status", .text "disabled"), ("updated_by", .text ""), ("updated_at", .text "2026-01-01T00:00:00.000Z")]

/-- A policy that a migration has left without its enforced events -/
def policyRow (id : String) : Row :=
  fun column => if column ∈ ["matcher", "interpreter", "script_body", "content_hash", "url", "headers_json",
      "mcp_server", "mcp_tool", "target", "updated_by"] then .text ""
    else rowOf [("id", .text id), ("hook_type", .text "command"), ("name", .text "n"), ("description", .text "d"),
      ("events", .text "[\"Stop\"]"), ("timeout_seconds", .integer 30), ("allowed_env_vars", .text "[]"),
      ("enabled", .integer 1), ("enforced", .integer 1), ("enforced_events", .text "[]"), ("default_on", .integer 0),
      ("predefined", .integer 0), ("seed_version", .integer 0), ("updated_at", .text "2026-01-01T00:00:00.000Z")] column

/-- An account with a bot, and a policy -/
def botDb : Db
  | .account => { rows := [accountRow "a"] }
  | .feishuChannelConfig => { rows := [botRow "a"] }
  | .hookPolicy => { rows := [policyRow "p"] }
  | _ => {}

def copied (dst : Db) : Db := (runCopy (fun _ _ _ => false) false botDb dst).2

def enforcedEvents (dst : Db) : Option Value :=
  ((dst .hookPolicy).find? [.text "p"]).map fun row => row "enforced_events"

-- The bot is not copied, and the second call changes the policy that the first one has copied.
theorem runCopy_not_whole :
    ¬ Whole botDb noRows (copied noRows) ∧ ¬ Whole botDb (copied noRows) (copied (copied noRows)) := by
  refine ⟨fun h => ?_, fun h => ?_⟩
  · have hmissing : ((copied noRows .feishuChannelConfig).find? [.text "a"]).isNone = true := by decide
    rw [h.copied .feishuChannelConfig (by decide) [.text "a"] (botRow "a") rfl rfl] at hmissing
    cases hmissing
  · have hbefore : enforcedEvents (copied noRows) = some (.text "[]") := by decide
    have hafter : enforcedEvents (copied (copied noRows)) ≠ some (.text "[]") := by decide
    obtain ⟨row, hrow, hcell⟩ := Option.map_eq_some_iff.mp hbefore
    refine hafter ?_
    rw [enforcedEvents, h.kept .hookPolicy (by decide) _ row hrow, Option.map_some, hcell]

end PrivaCloud.DataSpine.CopyToPg
