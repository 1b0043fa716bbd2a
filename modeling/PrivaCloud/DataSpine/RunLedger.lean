import Mathlib.Data.List.Sort
import Mathlib.Data.Prod.Lex
import Mathlib.Data.String.Basic
import PrivaCloud.Framework.Dict

/-!
# The run ledger

The table `job_run_record` and the part of `SchedulerService` that reads and writes it. Times are
UTC instants: their ISO texts sort as they do.
-/

namespace PrivaCloud.DataSpine

open Framework

inductive RunStatus
  | running
  | success
  | error
  | cancelled
  | skipped
  deriving DecidableEq

structure JobRunRecord where
  runId : String
  jobId : String := ""
  jobName : String := ""
  startedAt : Nat := 0
  finishedAt : Option Nat := none
  status : RunStatus := .running
  durationMs : Option Nat := none
  isError : Bool := false
  errorMessage : Option String := none
  numTurns : Option Nat := none
  resultSummary : Option String := none
  sessionId : Option String := none
  deriving DecidableEq

/-- A row of the table; the job is null once it does not exist. -/
structure RunRow where
  runId : String
  jobId : Option String
  jobName : String
  accountId : String
  sessionId : Option String
  startedAt : Nat
  finishedAt : Option Nat
  status : RunStatus
  durationMs : Option Nat
  isError : Bool
  errorMessage : Option String
  numTurns : Option Nat
  resultSummary : Option String

structure Outcome where
  status : RunStatus
  errorMessage : Option String
  finishedAt : Option Nat
  deriving DecidableEq

namespace RunRow

/-- The order of the listings: `started_at`, then `run_id`. -/
def age (row : RunRow) : ℕ ×ₗ String := toLex (row.startedAt, row.runId)

def outcome (row : RunRow) : Outcome := ⟨row.status, row.errorMessage, row.finishedAt⟩

end RunRow

/-- A number sent as 0 when it is absent. -/
def nonzero : Option Nat → Option Nat
  | some 0 => none
  | o => o

namespace JobRunRecord

/-- `FinishRun` on the wire: absent texts and numbers are empty and come back as none. -/
def finishOutcome (rec : JobRunRecord) : Outcome :=
  ⟨rec.status, truthy rec.errorMessage, rec.finishedAt⟩

end JobRunRecord

/-- `ORDER BY started_at DESC, run_id DESC` -/
def newestFirst (rows : List RunRow) : List RunRow := rows.insertionSort (fun a b => b.age ≤ a.age)

/-- The jobs that exist and the rows of their runs; `run_id` is the primary key. -/
structure RunLedger where
  jobs : List String := []
  rows : List RunRow := []
  runIds : (rows.map (·.runId)).Nodup := by decide

namespace RunLedger

def runInsert (ledger : RunLedger) (row : RunRow) : Option RunLedger :=
  if h : ∃ r ∈ ledger.rows, r.runId = row.runId then none
  else some
    { jobs := ledger.jobs
      rows := ledger.rows ++ [row]
      runIds := by
        rw [List.map_append, List.map_singleton]
        refine List.nodup_append.mpr ⟨ledger.runIds, List.nodup_singleton _, ?_⟩
        intro id hid id' hid' heq
        obtain ⟨r, hr, hrid⟩ := List.mem_map.mp hid
        exact h ⟨r, hr, hrid.trans (heq.trans (List.mem_singleton.mp hid'))⟩ }

/-- `run_id` is not among the columns of an update. -/
def setFields (runId : String) (fields : RunRow → RunRow) (row : RunRow) : RunRow :=
  if row.runId = runId then { fields row with runId := row.runId } else row

theorem setFields_runId (runId : String) (fields : RunRow → RunRow) (row : RunRow) :
    (setFields runId fields row).runId = row.runId := by
  unfold setFields
  split <;> rfl

def runUpdate (ledger : RunLedger) (runId : String) (fields : RunRow → RunRow) : RunLedger where
  jobs := ledger.jobs
  rows := ledger.rows.map (setFields runId fields)
  runIds := by
    have hids : (ledger.rows.map (setFields runId fields)).map (·.runId) = ledger.rows.map (·.runId) := by
      rw [List.map_map]
      exact List.map_congr_left fun row _ => setFields_runId runId fields row
    rw [hids]
    exact ledger.runIds

def runUpsert (ledger : RunLedger) (row : RunRow) : RunLedger :=
  match ledger.runInsert row with
  | some ledger' => ledger'
  | none => ledger.runUpdate row.runId fun _ => row

def runGetLatest (ledger : RunLedger) (accountId jobId : String) : Option RunRow :=
  (newestFirst (ledger.rows.filter fun r => r.accountId = accountId ∧ r.jobId = some jobId)).head?

def runList (ledger : RunLedger) (accountId : String) (status : RunStatus) (limit : Nat) : List RunRow :=
  (newestFirst (ledger.rows.filter fun r => r.accountId = accountId ∧ r.status = status)).take limit

def resolveJobId (ledger : RunLedger) (jobId : String) : Option String :=
  if jobId ≠ "" ∧ jobId ∈ ledger.jobs then some jobId else none

def startRun (ledger : RunLedger) (accountId : String) (rec : JobRunRecord) : Option RunLedger :=
  ledger.runInsert
    { runId := rec.runId, jobId := ledger.resolveJobId rec.jobId, jobName := rec.jobName
      accountId := accountId, sessionId := truthy rec.sessionId, startedAt := rec.startedAt
      finishedAt := none, status := rec.status, durationMs := none, isError := false
      errorMessage := truthy rec.errorMessage, numTurns := none, resultSummary := none }

/-- The whole record, whatever the row held before. -/
def recordRun (ledger : RunLedger) (accountId : String) (rec : JobRunRecord) : RunLedger :=
  ledger.runUpsert
    { runId := rec.runId, jobId := ledger.resolveJobId rec.jobId, jobName := rec.jobName
      accountId := accountId, sessionId := truthy rec.sessionId, startedAt := rec.startedAt
      finishedAt := rec.finishedAt, status := rec.status, durationMs := nonzero rec.durationMs
      isError := rec.isError, errorMessage := truthy rec.errorMessage
      numTurns := nonzero rec.numTurns, resultSummary := truthy rec.resultSummary }

/-- The outcome is written unconditionally; a session id only when the record has one. -/
def finishRun (ledger : RunLedger) (rec : JobRunRecord) : RunLedger :=
  ledger.runUpdate rec.runId fun row =>
    { row with
      finishedAt := rec.finishedAt, status := rec.status, durationMs := nonzero rec.durationMs
      isError := rec.isError, errorMessage := truthy rec.errorMessage
      numTurns := nonzero rec.numTurns, resultSummary := truthy rec.resultSummary
      sessionId := (truthy rec.sessionId).or row.sessionId }

variable {accountId jobId : String} {r row : RunRow} {ledger : RunLedger}

theorem mem_newestFirst (hr : r ∈ ledger.rows)
    (haccount : r.accountId = accountId) (hjob : r.jobId = some jobId) :
    r ∈ newestFirst (ledger.rows.filter fun r => r.accountId = accountId ∧ r.jobId = some jobId) := by
  rw [newestFirst, List.mem_insertionSort]
  exact List.mem_filter.mpr ⟨hr, by simp [haccount, hjob]⟩

theorem runGetLatest_newest
    (hlatest : ledger.runGetLatest accountId jobId = some row) (hr : r ∈ ledger.rows)
    (haccount : r.accountId = accountId) (hjob : r.jobId = some jobId) : r.age ≤ row.age := by
  have htotal : Std.Total (fun a b : RunRow => b.age ≤ a.age) := ⟨fun a b => le_total b.age a.age⟩
  have htrans : IsTrans RunRow (fun a b => b.age ≤ a.age) := ⟨fun a b c hab hbc => hbc.trans hab⟩
  obtain ⟨rest, hsorted⟩ := List.head?_eq_some_iff.mp hlatest
  have hpairwise := List.pairwise_insertionSort (fun a b : RunRow => b.age ≤ a.age)
    (ledger.rows.filter fun r => r.accountId = accountId ∧ r.jobId = some jobId)
  have hmem := mem_newestFirst hr haccount hjob
  rw [hsorted] at hmem
  rw [newestFirst] at hsorted
  rw [hsorted, List.pairwise_cons] at hpairwise
  rcases List.mem_cons.mp hmem with rfl | hmem
  · exact le_refl _
  · exact hpairwise.1 r hmem

theorem exists_runGetLatest
    (hr : r ∈ ledger.rows) (haccount : r.accountId = accountId) (hjob : r.jobId = some jobId) :
    ∃ row, ledger.runGetLatest accountId jobId = some row := by
  cases hlatest : ledger.runGetLatest accountId jobId with
  | some row => exact ⟨row, rfl⟩
  | none =>
    have hempty := List.head?_eq_none_iff.mp hlatest
    have hmem := mem_newestFirst hr haccount hjob
    rw [hempty] at hmem
    cases hmem

theorem mem_of_runGetLatest
    (hlatest : ledger.runGetLatest accountId jobId = some row) :
    row ∈ ledger.rows ∧ row.accountId = accountId ∧ row.jobId = some jobId := by
  have hmem := List.mem_of_head? hlatest
  rw [newestFirst, List.mem_insertionSort] at hmem
  simpa using List.mem_filter.mp hmem

theorem eq_of_runId_eq {r' : RunRow} (hr : r ∈ ledger.rows)
    (hr' : r' ∈ ledger.rows) (hid : r.runId = r'.runId) : r = r' :=
  List.inj_on_of_nodup_map ledger.runIds hr hr' hid

theorem runInsert_eq_some {ledger' : RunLedger}
    (h : ledger.runInsert row = some ledger') :
    (∀ r ∈ ledger.rows, r.runId ≠ row.runId) ∧ ledger'.rows = ledger.rows ++ [row] := by
  unfold runInsert at h
  split at h <;> cases h
  rename_i hfresh
  exact ⟨fun r hr he => hfresh ⟨r, hr, he⟩, rfl⟩

theorem rows_runUpsert (hfresh : ∀ r ∈ ledger.rows, r.runId ≠ row.runId) :
    (ledger.runUpsert row).rows = ledger.rows ++ [row] := by
  have hnone : ¬ ∃ r ∈ ledger.rows, r.runId = row.runId := fun ⟨r, hr, he⟩ => hfresh r hr he
  simp [runUpsert, runInsert, hnone]

theorem rows_recordRun (accountId : String) (rec : JobRunRecord)
    (hfresh : ∀ r ∈ ledger.rows, r.runId ≠ rec.runId) :
    ∃ row, (ledger.recordRun accountId rec).rows = ledger.rows ++ [row] ∧ row.runId = rec.runId ∧
      row.accountId = accountId ∧ row.jobId = ledger.resolveJobId rec.jobId ∧
      row.status = rec.status :=
  ⟨_, rows_runUpsert hfresh, rfl, rfl, rfl, rfl⟩

theorem rows_startRun {ledger' : RunLedger} {rec : JobRunRecord}
    (h : ledger.startRun accountId rec = some ledger') :
    ∃ row, ledger'.rows = ledger.rows ++ [row] ∧ row.runId = rec.runId ∧
      row.accountId = accountId ∧ row.jobId = ledger.resolveJobId rec.jobId ∧
      row.status = rec.status ∧ row.age = toLex (rec.startedAt, rec.runId) :=
  ⟨_, (runInsert_eq_some h).2, rfl, rfl, rfl, rfl, rfl⟩

theorem mem_finishRun {rec : JobRunRecord}
    (h : row ∈ (ledger.finishRun rec).rows) :
    ∃ r ∈ ledger.rows, row.runId = r.runId ∧ row.jobId = r.jobId ∧ row.accountId = r.accountId ∧
      row.startedAt = r.startedAt ∧
      (r.runId = rec.runId ∧ row.outcome = rec.finishOutcome ∨ r.runId ≠ rec.runId ∧ row = r) := by
  obtain ⟨r, hr, rfl⟩ := List.mem_map.mp h
  refine ⟨r, hr, ?_⟩
  by_cases hid : r.runId = rec.runId
  · simp [setFields, hid, RunRow.outcome, JobRunRecord.finishOutcome]
  · simp [setFields, hid]

theorem finishRun_mem (rec : JobRunRecord) (hr : r ∈ ledger.rows) :
    ∃ row ∈ (ledger.finishRun rec).rows, row.runId = r.runId ∧ row.jobId = r.jobId ∧
      row.accountId = r.accountId ∧ row.startedAt = r.startedAt ∧
      (r.runId = rec.runId ∧ row.outcome = rec.finishOutcome ∨ r.runId ≠ rec.runId ∧ row = r) := by
  refine ⟨_, List.mem_map_of_mem hr, ?_⟩
  by_cases hid : r.runId = rec.runId
  · simp [setFields, hid, RunRow.outcome, JobRunRecord.finishOutcome]
  · simp [setFields, hid]

end RunLedger

end PrivaCloud.DataSpine
