import PrivaCloud.DataPlane.SchedulerService

/-!
# The gRPC transport of jobs and runs

The client of `grpc_client`, the servicer of `data-spine` and the converters between records and messages. A
message has no absent fields: an absent text is sent empty and an absent number as 0, which are read as
absent again.
-/

namespace PrivaCloud.DataPlane

open Framework
open DataSpine (RunStatus)

/-- `x or ""` -/
def orEmpty (o : Option String) : String := o.getD ""

/-- `x or None` -/
def orNone (s : String) : Option String := if s = "" then none else some s

/-- `n or 0` -/
def orZero (o : Option Int) : Int := o.getD 0

/-- `n or None` -/
def zeroNone (n : Int) : Option Int := if n = 0 then none else some n

/-- `_dt`, `_s` -/
def timeText (o : Option IsoTime) : String := (o.map IsoTime.text).getD ""

structure RunPb where
  runId : String := ""
  jobId : String := ""
  jobName : String := ""
  accountId : String := ""
  sessionId : String := ""
  startedAt : String := ""
  finishedAt : String := ""
  status : String := ""
  durationMs : Int := 0
  isError : Bool := false
  errorMessage : String := ""
  numTurns : Int := 0
  resultSummary : String := ""

structure StartRunRequest where
  runId : String
  jobId : String
  jobName : String
  accountId : String
  sessionId : String
  startedAt : String
  status : String
  errorMessage : String

structure FinishRunRequest where
  runId : String
  finishedAt : String
  status : String
  durationMs : Int
  isError : Bool
  errorMessage : String
  numTurns : Int
  resultSummary : String
  sessionId : String

structure JobPb where
  jobId : String := ""
  accountId : String := ""
  name : String := ""
  prompt : String := ""
  /-- JSON -/
  trigger : Option TriggerConfig := none
  jobType : Option JobType := none
  /-- JSON, or empty -/
  jobConfig : Option JobConfig := none
  timezone : String := ""
  model : String := ""
  status : String := ""
  createdAt : String := ""
  updatedAt : String := ""

/-- `CreateJobRequest` and `UpdateJobRequest`; the latter has no account. -/
structure JobRequest where
  accountId : String := ""
  jobId : String
  name : String
  prompt : String
  trigger : Option TriggerConfig
  jobType : Option JobType
  jobConfig : Option JobConfig
  timezone : String
  model : String
  status : String

def runPb : Option JobRunRecord → RunPb
  | none => {}
  | some r =>
    { runId := r.runId
      jobId := r.jobId
      jobName := r.jobName
      sessionId := orEmpty r.sessionId
      startedAt := r.startedAt.text
      finishedAt := timeText r.finishedAt
      status := r.status.text
      durationMs := orZero r.durationMs
      isError := r.isError
      errorMessage := orEmpty r.errorMessage
      numTurns := orZero r.numTurns
      resultSummary := orEmpty r.resultSummary }

/-- `run_from_pb`; `none` when the record does not validate. -/
def runFromPb (m : RunPb) : Option (Option JobRunRecord) :=
  if m.runId = "" then some none
  else do
    let startedAt ← IsoTime.parse m.startedAt
    let status ← RunStatus.parse m.status
    return some
      { runId := m.runId
        jobId := m.jobId
        jobName := m.jobName
        username := ""
        startedAt := startedAt
        finishedAt := IsoTime.parse m.finishedAt
        status := status
        durationMs := zeroNone m.durationMs
        isError := m.isError
        errorMessage := orNone m.errorMessage
        numTurns := zeroNone m.numTurns
        resultSummary := orNone m.resultSummary
        sessionId := orNone m.sessionId }

def jobPb (accountId : String) : Option ScheduledJobDefinition → JobPb
  | none => {}
  | some d =>
    { jobId := d.id
      accountId := accountId
      name := d.name
      prompt := d.prompt
      trigger := some d.trigger
      jobType := some ((d.jobConfig.map JobConfig.jobType).getD .agentRun)
      jobConfig := d.jobConfig
      timezone := d.timezone
      model := orEmpty d.model
      status := d.status.text
      createdAt := d.createdAt.text
      updatedAt := d.updatedAt.text }

/-- `_defn_from_req`, with the times of the model's defaults. -/
def defnFromReq (m : JobRequest) (jobId : String) (now : IsoTime) : Option ScheduledJobDefinition := do
  let trigger ← m.trigger
  let status ← if m.status = "" then some .active else JobStatus.parse m.status
  return ScheduledJobDefinition.modelValidate
    { id := jobId
      name := m.name
      prompt := m.prompt
      trigger := trigger
      timezone := m.timezone
      status := status
      model := orNone m.model
      jobConfig := m.jobConfig
      createdAt := now
      updatedAt := now }

/-- The id that the server makes up for a job without one. -/
structure Minted where
  id : String
  nonempty : id ≠ ""

namespace SchedulerServicer

open SchedulerService

def answer {α β : Type} (encode : α → β) (outcome : Outcome α) : Outcome β :=
  (outcome.1.map encode, outcome.2)

def createJob (s : Store) (m : JobRequest) (minted : Minted) (now : IsoTime) : Outcome JobPb :=
  match defnFromReq m (if m.jobId = "" then minted.id else m.jobId) now with
  | none => (none, s)
  | some d => answer (jobPb m.accountId) (SchedulerService.createJob s m.accountId d now)

def getJob (s : Store) (jobId : String) : Outcome JobPb :=
  (some (jobPb "" (SchedulerService.getJob s jobId)), s)

def updateJob (s : Store) (m : JobRequest) (now : IsoTime) : Outcome JobPb :=
  match SchedulerService.getJob s m.jobId with
  | none => (some {}, s)
  | some _ =>
    match defnFromReq m m.jobId now with
    | none => (none, s)
    | some d => answer (jobPb "") (SchedulerService.updateJob s m.jobId d now)

def startRun (s : Store) (m : StartRunRequest) (now : IsoTime) : Outcome RunPb :=
  match if m.status = "" then some .running else RunStatus.parse m.status with
  | none => (none, s)
  | some status => answer runPb <| SchedulerService.startRun s m.accountId
      { runId := m.runId
        jobId := m.jobId
        jobName := m.jobName
        username := ""
        startedAt := (IsoTime.parse m.startedAt).getD now
        status := status
        sessionId := orNone m.sessionId
        errorMessage := orNone m.errorMessage }

/-- `FinishRun`; the default of `started_at` is not written. -/
def finishRun (s : Store) (m : FinishRunRequest) (now : IsoTime) : Outcome RunPb :=
  match RunStatus.parse m.status with
  | none => (none, s)
  | some status => answer runPb <| SchedulerService.finishRun s
      { runId := m.runId
        jobId := ""
        jobName := ""
        username := ""
        startedAt := now
        finishedAt := IsoTime.parse m.finishedAt
        status := status
        durationMs := zeroNone m.durationMs
        isError := m.isError
        errorMessage := orNone m.errorMessage
        numTurns := zeroNone m.numTurns
        resultSummary := orNone m.resultSummary
        sessionId := orNone m.sessionId }

def recordRun (s : Store) (m : RunPb) : Outcome RunPb :=
  match runFromPb m with
  | some (some r) => answer runPb (SchedulerService.recordRun s m.accountId r)
  | some none | none => (none, s)

def getRun (s : Store) (accountId runId : String) : Outcome RunPb :=
  (some (runPb (SchedulerService.getRun s accountId runId)), s)

def getLatestRun (s : Store) (accountId jobId : String) : Outcome RunPb :=
  (some (runPb (SchedulerService.getLatestRun s accountId jobId)), s)

end SchedulerServicer

inductive Reply
  | run (record : Option JobRunRecord)
  | job (definition : Option ScheduledJobDefinition)
  deriving DecidableEq

def received {β : Type} (decode : β → Option Reply) (outcome : Outcome β) : Outcome Reply :=
  (outcome.1.bind decode, outcome.2)

end PrivaCloud.DataPlane
