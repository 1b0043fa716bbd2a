import PrivaCloud.AgentRunner.RunRegistry.Registry
import PrivaCloud.DataSpine.RunLedger

/-!
# Scheduled runs in the pod

The endpoint `scheduled_run` and `scheduled_runs.executor`, cut where the source awaits: at the quota
read, the body of the run, the thread that runs `_write_finish` and the callback. Cancellation reaches a
task there or before its first step. A request to the thread pool that is cancelled before a thread takes
it is never executed.
-/

namespace PrivaCloud.AgentRunner

open Framework
open DataSpine (JobRunRecord)

/-- `_ACCEPTED_TTL_SECONDS` -/
def acceptedTtlSeconds : ℚ := 3600

/-- `_ERROR_CHARS` -/
def errorChars : Nat := 2000

/-- The part of a `ScheduledRunRequest` that admission and bookkeeping read. -/
structure RunRequest where
  runId : String
  jobId : String
  jobName : String := ""
  /-- `is_feishu_enabled(job_config)` -/
  callback : Bool := false
  deriving DecidableEq, Inhabited

inductive OutcomeStatus
  | success
  | error
  | cancelled
  deriving DecidableEq

/-- The dictionary `outcome`; it starts as an error, so an unforeseen exit never reports success. -/
structure RunOutcome where
  status : OutcomeStatus := .error
  errorMessage : Option String := none
  resultSummary : Option String := none
  numTurns : Option Nat := none
  sessionId : Option String := none
  deriving DecidableEq, Inhabited

/-- `_STATUS_TO_RECORD` -/
def OutcomeStatus.toRecord : OutcomeStatus → RunStatus
  | success => .completed
  | error => .error
  | cancelled => .aborted

def OutcomeStatus.toLedger : OutcomeStatus → DataSpine.RunStatus
  | success => .success
  | error => .error
  | cancelled => .cancelled

/-- How the body leaves its `try`; the last one is a `BaseException` other than a cancellation. -/
inductive BodyExit
  | returns
  | raises (message : String)
  | cancelled
  | escapes
  deriving DecidableEq

/-- `outcome` after the handlers, from what the body has left in it. -/
def RunOutcome.handled (outcome : RunOutcome) : BodyExit → RunOutcome
  | .returns | .escapes => outcome
  | .raises message =>
    { outcome with
      status := .error
      errorMessage := match truthy outcome.errorMessage with
        | some text => some text
        | none => some (String.ofList (message.toList.take errorChars)) }
  | .cancelled => { outcome with status := .cancelled }

/-- The record that `_write_finish` sends, without the times. -/
def finishRecord (req : RunRequest) (outcome : RunOutcome) : JobRunRecord where
  runId := req.runId
  jobId := req.jobId
  jobName := req.jobName
  status := outcome.status.toLedger
  isError := outcome.status = .error
  errorMessage := outcome.errorMessage
  numTurns := outcome.numTurns
  resultSummary := outcome.resultSummary
  sessionId := outcome.sessionId

abbrev TaskId := Nat

/-- Where `_execute` stands; a finish is `begun` once a thread has taken it. -/
inductive ExecutionPhase
  | created
  | body
  | finishing (begun : Bool)
  | callback
  | ended
  deriving DecidableEq, Inhabited

/-- An execution task with its `ScheduledRunState`. -/
structure RunTask where
  request : RunRequest
  record : RecordId
  endedAt : Option ℚ := none
  outcome : RunOutcome := {}
  phase : ExecutionPhase := .created
  deriving DecidableEq, Inhabited

structure ScheduledRuns where
  registry : RunRegistry Payload := RunRegistry.empty
  /-- `_accepted` -/
  accepted : Dict String TaskId := ∅
  /-- `_live_by_job` -/
  liveByJob : Dict String String := ∅
  tasks : TaskId → RunTask := fun _ => default
  size : Nat := 0
  /-- the requests that wait for the quota -/
  waiting : List RunRequest := []
  /-- activity slots entered for callbacks -/
  callbackSlots : Nat := 0
  /-- the calls of `_write_finish` -/
  written : List (TaskId × JobRunRecord) := []

namespace ScheduledRuns

def setTask (s : ScheduledRuns) (t : TaskId) (task : RunTask) : ScheduledRuns :=
  { s with tasks := Function.update s.tasks t task }

def moveTo (s : ScheduledRuns) (t : TaskId) (phase : ExecutionPhase) : ScheduledRuns :=
  s.setTask t { s.tasks t with phase := phase }

def live (s : ScheduledRuns) (t : TaskId) : Bool := s.registry.liveRef (s.tasks t).record

/-- `now - state.ended_at > _ACCEPTED_TTL_SECONDS` -/
def expired (s : ScheduledRuns) (now : ℚ) (t : TaskId) : Bool :=
  match (s.tasks t).endedAt with
  | none => false
  | some endedAt => acceptedTtlSeconds < now - endedAt

def sweepAccepted (s : ScheduledRuns) (now : ℚ) : ScheduledRuns :=
  { s with accepted := s.accepted.popValues (s.accepted.values.filter (s.expired now)) }

/-- `is_accepted`, after its sweep -/
def isAccepted (s : ScheduledRuns) (runId : String) : Bool := (s.accepted.lookup runId).isSome

def liveRunForJob (s : ScheduledRuns) (jobId : String) : ScheduledRuns × Option String :=
  match s.liveByJob.lookup jobId with
  | none => (s, none)
  | some runId =>
    match s.accepted.lookup runId with
    | none => ({ s with liveByJob := s.liveByJob.erase jobId }, none)
    | some t =>
      if s.live t then (s, some runId)
      else ({ s with liveByJob := s.liveByJob.erase jobId }, none)

/-- Both gates of the endpoint: the state after the look-ups, and whether they let the request pass. -/
def gates (s : ScheduledRuns) (req : RunRequest) (now : ℚ) : ScheduledRuns × Bool :=
  let s := s.sweepAccepted now
  if s.isAccepted req.runId then (s, false)
  else
    match s.liveRunForJob req.jobId with
    | (s, some _) => (s, false)
    | (s, none) => (s, true)

/-- `executor.start`; a live record under the run's id makes it raise. -/
def start (s : ScheduledRuns) (req : RunRequest) (now : ℚ) (uuid : String) : ScheduledRuns :=
  match s.registry.create now none (some req.runId) uuid with
  | (registry, .error _) => { s with registry := registry }
  | (registry, .ok record) =>
    { s with
      registry := registry
      tasks := Function.update s.tasks s.size { request := req, record := record }
      size := s.size + 1
      accepted := s.accepted.insert req.runId s.size
      liveByJob := s.liveByJob.insert req.jobId req.runId }

def post (s : ScheduledRuns) (req : RunRequest) (now : ℚ) : ScheduledRuns :=
  match s.gates req now with
  | (s, true) => { s with waiting := s.waiting ++ [req] }
  | (s, false) => s

def admitted (s : ScheduledRuns) (req : RunRequest) (now : ℚ) (uuid : String) : ScheduledRuns :=
  match s.gates req now with
  | (s, true) => s.start req now uuid
  | (s, false) => s

def signalRunEnd (registry : RunRegistry Payload) (record : RecordId) : RunRegistry Payload :=
  if ∃ e ∈ (registry.records record).events, e.eventType = .runEnd then registry
  else registry.recordEvent payloadCodec record .runEnd (.status (registry.records record).status)

def closeRecord (s : ScheduledRuns) (t : TaskId) (signalFollowers : Bool) (now : ℚ) : ScheduledRuns :=
  let task := s.tasks t
  let registry := s.registry.finish task.record task.outcome.status.toRecord now now
  { s with
    registry := if signalFollowers then signalRunEnd registry task.record else registry
    liveByJob := if s.liveByJob.lookup task.request.jobId = some task.request.runId
      then s.liveByJob.erase task.request.jobId else s.liveByJob
    tasks := Function.update s.tasks t { task with endedAt := some now } }

/-- A call of `_write_finish`. -/
def writeFinish (s : ScheduledRuns) (t : TaskId) : ScheduledRuns :=
  { s with
    written := s.written ++ [(t, finishRecord (s.tasks t).request (s.tasks t).outcome)] }

/-- `callback_failed` on the record of the task. -/
def callbackFailed (s : ScheduledRuns) (t : TaskId) (size : Nat) : ScheduledRuns :=
  { s with
    registry := s.registry.recordEvent payloadCodec (s.tasks t).record (.other "callback_failed")
      (.object size none) }

/-- The handlers of `_execute` after its body, up to the request to the thread pool. -/
def bodyEnds (s : ScheduledRuns) (t : TaskId) (left : RunOutcome) (exit : BodyExit) (now : ℚ) : ScheduledRuns :=
  let s := s.setTask t { s.tasks t with outcome := left.handled exit }
  match exit with
  | .returns | .raises _ => s.moveTo t (.finishing false)
  | .cancelled => ((s.closeRecord t true now).writeFinish t).moveTo t .ended
  | .escapes => s.moveTo t .ended

/-- From the return of `_write_finish` to the callback, or to the end when there is none. -/
def finishReturns (s : ScheduledRuns) (t : TaskId) (finishWritten : Bool) (now : ℚ) : ScheduledRuns :=
  let requested := (s.tasks t).request.callback
  let enabled := finishWritten && requested
  -- the wire size of "terminal run could not be persisted"
  let s := if requested && !finishWritten then s.callbackFailed t 103 else s
  let s := if enabled then { s with callbackSlots := s.callbackSlots + 1 } else s
  (s.closeRecord t (!enabled) now).moveTo t (if enabled then .callback else .ended)

/-- How the callback ends; the last one is a cancellation. -/
inductive CallbackExit
  | returns
  | raises (size : Nat)
  | unwinds

def callbackEnds (s : ScheduledRuns) (t : TaskId) (exit : CallbackExit) : ScheduledRuns :=
  let s := match exit with
    | .raises size => s.callbackFailed t size
    | .returns | .unwinds => s
  { s with
    registry := signalRunEnd s.registry (s.tasks t).record
    callbackSlots := s.callbackSlots - 1 }.moveTo t .ended

/-- A call on the registry by another run, or an event that is recorded on any run but is no run's
end. -/
def foreign (s : ScheduledRuns) : RegistryOp Payload → Bool
  | .finish r _ _ _ => (List.range s.size).all fun t => (s.tasks t).record ≠ r
  | .recordEvent r eventType _ =>
    eventType ≠ .runEnd || (List.range s.size).all fun t => (s.tasks t).record ≠ r
  | .finishCancelled .. => false
  | .create .. | .indexRunId .. | .indexSession .. | .get .. | .sweep _ | .listActive _
  | .setCancelled _ => true

end ScheduledRuns

open ScheduledRuns (CallbackExit)

inductive ExecutorEvent
  | posted (req : RunRequest) (now : ℚ)
  | capReturns (i : Nat) (reached : Bool) (now : ℚ) (uuid : String)
  /-- the request is cancelled, or `get_user_workspace` raises -/
  | postDropped (i : Nat)
  | registryCalled (op : RegistryOp Payload)
  | begins (t : TaskId)
  | cancelledUnstarted (t : TaskId)
  | bodyEnds (t : TaskId) (left : RunOutcome) (exit : BodyExit) (now : ℚ)
  | writerBegins (t : TaskId)
  | finishReturns (t : TaskId) (written : Bool) (now : ℚ)
  | finishRaises (t : TaskId) (now : ℚ)
  | finishCancelled (t : TaskId) (now : ℚ)
  | callbackEnds (t : TaskId) (exit : CallbackExit)

namespace ScheduledRuns

def init : ScheduledRuns := {}

def At (s : ScheduledRuns) (t : TaskId) (phase : ExecutionPhase) : Prop :=
  t < s.size ∧ (s.tasks t).phase = phase

instance (s : ScheduledRuns) (t : TaskId) (phase : ExecutionPhase) : Decidable (s.At t phase) :=
  inferInstanceAs (Decidable (_ ∧ _))

def stepAdmission (s : ScheduledRuns) (i : Nat) (reached : Bool) (now : ℚ) (uuid : String) :
    Option ScheduledRuns :=
  match s.waiting[i]? with
  | none => none
  | some req =>
    let s := { s with waiting := s.waiting.eraseIdx i }
    if reached then some s else some (s.admitted req now uuid)

def step (s : ScheduledRuns) : ExecutorEvent → Option ScheduledRuns
  | .posted req now => some (s.post req now)
  | .capReturns i reached now uuid => s.stepAdmission i reached now uuid
  | .postDropped i => some { s with waiting := s.waiting.eraseIdx i }
  | .registryCalled op =>
    if s.registry.Enabled op ∧ s.foreign op then
      some { s with registry := s.registry.apply payloadCodec op }
    else none
  | .begins t => if s.At t .created then some (s.moveTo t .body) else none
  | .cancelledUnstarted t => if s.At t .created then some (s.moveTo t .ended) else none
  | .bodyEnds t left exit now => if s.At t .body then some (s.bodyEnds t left exit now) else none
  | .writerBegins t =>
    if s.At t (.finishing false) then some ((s.writeFinish t).moveTo t (.finishing true)) else none
  | .finishReturns t written now =>
    if s.At t (.finishing true) then some (s.finishReturns t written now) else none
  | .finishRaises t now =>
    if s.At t (.finishing true) then some ((s.closeRecord t true now).moveTo t .ended) else none
  | .finishCancelled t now =>
    if s.At t (.finishing false) ∨ s.At t (.finishing true) then
      some ((s.closeRecord t true now).moveTo t .ended)
    else none
  | .callbackEnds t exit => if s.At t .callback then some (s.callbackEnds t exit) else none

end ScheduledRuns

end PrivaCloud.AgentRunner
