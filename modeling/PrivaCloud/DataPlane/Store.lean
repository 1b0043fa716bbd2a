import Mathlib.Algebra.Group.Int.Defs
import PrivaCloud.DataPlane.Records

/-!
# The store of `data-spine`

The tables and the statements of the repository that the served operations run. A statement that
violates a key, a reference or a column type fails and writes nothing.
-/

namespace PrivaCloud.DataPlane

open Framework
open DataSpine (RunStatus)

inductive Role
  | user
  | admin
  deriving DecidableEq

inductive AccountStatus
  | active
  | disabled
  | offboarding
  | purged
  deriving DecidableEq

inductive RunnerType
  | autoScale
  | persistent
  deriving DecidableEq

structure AccountRow where
  accountId : String
  username : String
  passwordHash : String
  apiKey : Option String := none
  apiKeyLookup : Option String := none
  role : Role := .user
  status : AccountStatus := .active
  agentRunnerType : RunnerType := .autoScale
  feishuUserId : Option String := none
  feishuDisplayName : Option String := none
  createdAt : String
  updatedAt : String

structure QuotaRow where
  accountId : String
  tier : String := "default"
  maxConcurrentSessions : Int := 3
  idleGraceSeconds : Int := 1800
  updatedAt : String

structure FireRow where
  jobId : String
  fireEpoch : Int
  claimedBy : String
  claimedAt : String

structure HookPolicyRow where
  id : String
  enabled : Bool
  /-- the other columns, as the listing returns them -/
  columns : List (String × String)

/-- A row of `channel_binding`, `account_resource_spec`, `pending_registration` or
`feishu_channel_config`, which no RPC of a tenant reads or writes. -/
structure OtherRow where
  key : String
  columns : List (String × String)

structure Store where
  accounts : Table AccountRow.accountId := .empty
  quotas : Table QuotaRow.accountId := .empty
  jobs : Table JobRow.jobId := .empty
  runs : Table RunRow.runId := .empty
  fires : List FireRow := []
  bindings : Table OtherRow.key := .empty
  resourceSpecs : Table OtherRow.key := .empty
  registrations : Table OtherRow.key := .empty
  channelConfigs : Table OtherRow.key := .empty
  hookPolicies : Table HookPolicyRow.id := .empty
  /-- the columns of the single row of `runner_defaults` -/
  runnerDefaults : Option (List Int) := none

/-- The range of an `INTEGER` column. -/
def fitsInt64 (n : Int) : Prop := -2 ^ 63 ≤ n ∧ n < 2 ^ 63

instance (n : Int) : Decidable (fitsInt64 n) := inferInstanceAs (Decidable (_ ∧ _))

def RunRow.bindable (row : RunRow) : Prop :=
  (∀ n ∈ row.durationMs, fitsInt64 n) ∧ ∀ n ∈ row.numTurns, fitsInt64 n

instance (row : RunRow) : Decidable row.bindable := inferInstanceAs (Decidable (_ ∧ _))

namespace Store

def jobInsert (s : Store) (row : JobRow) : Option Store :=
  if (s.accounts.find? row.accountId).isSome then
    (s.jobs.insert row).map fun jobs => { s with jobs := jobs }
  else none

def jobGet (s : Store) (jobId : String) : Option JobRow := s.jobs.find? jobId

def jobUpdate (s : Store) (jobId : String) (fields : JobRow → JobRow)
    (hf : ∀ row, (fields row).jobId = row.jobId) : Store :=
  { s with jobs := s.jobs.modify jobId fields hf }

/-- `ON DELETE SET NULL` for the runs, `ON DELETE CASCADE` for the fires. -/
def jobDelete (s : Store) (jobId : String) : Store :=
  { s with
    jobs := s.jobs.filter fun row => row.jobId ≠ jobId
    runs := s.runs.map (fun row => if row.jobId = some jobId then { row with jobId := none } else row)
      (by
        intro row
        split <;> rfl)
    fires := s.fires.filter fun row => row.jobId ≠ jobId }

/-- `ORDER BY created_at ASC` -/
def jobListByAccount (s : Store) (accountId : String) : List JobRow :=
  (s.jobs.rows.filter fun row => row.accountId = accountId).insertionSort
    fun a b => a.createdAt.text ≤ b.createdAt.text

def runInsert (s : Store) (row : RunRow) : Option Store :=
  if row.bindable ∧ (s.accounts.find? row.accountId).isSome then
    (s.runs.insert row).map fun runs => { s with runs := runs }
  else none

def runUpsert (s : Store) (row : RunRow) : Option Store :=
  if row.bindable ∧ (s.accounts.find? row.accountId).isSome then
    some { s with runs := s.runs.upsert row }
  else none

def runGet (s : Store) (runId : String) : Option RunRow := s.runs.find? runId

def runUpdate (s : Store) (runId : String) (fields : RunRow → RunRow)
    (hf : ∀ row, (fields row).runId = row.runId) : Store :=
  { s with runs := s.runs.modify runId fields hf }

/-- The order of `started_at DESC, run_id DESC`. -/
def newer (a b : RunRow) : Bool :=
  a.startedAt.text > b.startedAt.text ||
    a.startedAt.text = b.startedAt.text && a.runId > b.runId

def newest : List RunRow → Option RunRow
  | [] => none
  | row :: rest =>
    match newest rest with
    | none => some row
    | some best => if newer row best then some row else some best

def runGetLatest (s : Store) (accountId jobId : String) : Option RunRow :=
  newest (s.runs.rows.filter fun row => row.accountId = accountId ∧ row.jobId = some jobId)

end Store

end PrivaCloud.DataPlane
