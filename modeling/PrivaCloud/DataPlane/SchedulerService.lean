import PrivaCloud.DataPlane.Store

/-!
# `SchedulerService`

The operations on jobs and runs as the in-process client runs them. The outcome of a call is its
reply, or nothing when it raises, together with the store it leaves.
-/

namespace PrivaCloud.DataPlane

open Framework
open DataSpine (RunStatus)

/-- The reply of a call, `none` when it raises, and the store after it. -/
abbrev Outcome (α : Type) := Option α × Store

namespace SchedulerService

/-- `_job_row`, with the times that the database fills in. -/
def jobRow (accountId : String) (d : ScheduledJobDefinition) (now : IsoTime) : JobRow where
  jobId := d.id
  accountId := accountId
  name := d.name
  prompt := d.prompt
  trigger := d.trigger
  jobType := (d.jobConfig.map JobConfig.jobType).getD .agentRun
  jobConfig := d.jobConfig
  timezone := d.timezone
  model := d.model
  status := d.status
  createdAt := now
  updatedAt := now

def toJob (row : JobRow) : ScheduledJobDefinition :=
  ScheduledJobDefinition.modelValidate
    { id := row.jobId
      name := row.name
      prompt := row.prompt
      trigger := row.trigger
      timezone := row.timezone
      status := row.status
      model := row.model
      jobConfig := row.jobConfig
      createdAt := row.createdAt
      updatedAt := row.updatedAt }

def getJob (s : Store) (jobId : String) : Option ScheduledJobDefinition := (s.jobGet jobId).map toJob

def createJob (s : Store) (accountId : String) (d : ScheduledJobDefinition) (now : IsoTime) :
    Outcome (Option ScheduledJobDefinition) :=
  match s.jobInsert (jobRow accountId d now) with
  | none => (none, s)
  | some s' => (some (getJob s' d.id), s')

def overwrite (d : ScheduledJobDefinition) (now : IsoTime) (row : JobRow) : JobRow :=
  { jobRow row.accountId d now with jobId := row.jobId, createdAt := row.createdAt }

@[simp] theorem overwrite_jobId (d : ScheduledJobDefinition) (now : IsoTime) (row : JobRow) :
    (overwrite d now row).jobId = row.jobId := rfl

def updateJob (s : Store) (jobId : String) (d : ScheduledJobDefinition) (now : IsoTime) :
    Outcome (Option ScheduledJobDefinition) :=
  match s.jobGet jobId with
  | none => (some none, s)
  | some _ =>
    let s' := s.jobUpdate jobId (overwrite d now) (overwrite_jobId d now)
    (some (getJob s' jobId), s')

def resolveJobId (s : Store) (jobId : String) : Option String :=
  if jobId ≠ "" ∧ (s.jobGet jobId).isSome then some jobId else none

def toRun (row : RunRow) : JobRunRecord where
  runId := row.runId
  jobId := row.jobId.getD ""
  jobName := row.jobName
  username := ""
  startedAt := row.startedAt
  finishedAt := row.finishedAt
  status := row.status
  durationMs := row.durationMs
  isError := row.isError
  errorMessage := row.errorMessage
  numTurns := row.numTurns
  resultSummary := row.resultSummary
  sessionId := row.sessionId

/-- The row of a run that starts; it has no end yet. -/
def startRow (s : Store) (accountId : String) (r : JobRunRecord) : RunRow where
  runId := r.runId
  jobId := resolveJobId s r.jobId
  jobName := r.jobName
  accountId := accountId
  sessionId := r.sessionId
  startedAt := r.startedAt
  finishedAt := none
  status := r.status
  durationMs := r.durationMs
  isError := r.isError
  errorMessage := r.errorMessage
  numTurns := r.numTurns
  resultSummary := r.resultSummary

def startRun (s : Store) (accountId : String) (r : JobRunRecord) : Outcome (Option JobRunRecord) :=
  match s.runInsert (startRow s accountId r) with
  | none => (none, s)
  | some s' => (some ((s'.runGet r.runId).map toRun), s')

def recordRow (s : Store) (accountId : String) (r : JobRunRecord) : RunRow :=
  { startRow s accountId r with finishedAt := r.finishedAt }

def recordRun (s : Store) (accountId : String) (r : JobRunRecord) : Outcome (Option JobRunRecord) :=
  match s.runUpsert (recordRow s accountId r) with
  | none => (none, s)
  | some s' => (some ((s'.runGet r.runId).map toRun), s')

def getRun (s : Store) (accountId runId : String) : Option JobRunRecord :=
  ((s.runGet runId).filter fun row => row.accountId = accountId).map toRun

def getLatestRun (s : Store) (accountId jobId : String) : Option JobRunRecord :=
  (s.runGetLatest accountId jobId).map toRun

/-- The columns of an outcome; the session is written only when there is one. -/
def finishFields (r : JobRunRecord) (row : RunRow) : RunRow :=
  { row with
    finishedAt := r.finishedAt
    status := r.status
    durationMs := r.durationMs
    isError := r.isError
    errorMessage := r.errorMessage
    numTurns := r.numTurns
    resultSummary := r.resultSummary
    sessionId := (truthy r.sessionId).or row.sessionId }

@[simp] theorem finishFields_runId (r : JobRunRecord) (row : RunRow) :
    (finishFields r row).runId = row.runId := rfl

def bindable (r : JobRunRecord) : Prop :=
  (∀ n ∈ r.durationMs, fitsInt64 n) ∧ ∀ n ∈ r.numTurns, fitsInt64 n

instance (r : JobRunRecord) : Decidable (bindable r) := inferInstanceAs (Decidable (_ ∧ _))

/-- `finish_run`; the reply to a run that does not exist can not be built. -/
def finishRun (s : Store) (r : JobRunRecord) : Outcome (Option JobRunRecord) :=
  if bindable r then
    let s' := s.runUpdate r.runId (finishFields r) (finishFields_runId r)
    match s'.runGet r.runId with
    | none => (none, s')
    | some row => (some (some (toRun row)), s')
  else (none, s)

end SchedulerService

end PrivaCloud.DataPlane
