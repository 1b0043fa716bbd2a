import PrivaCloud.DataPlane.Transport

/-!
# When the two transports agree

A field sent as its falsy value comes back as absent, and `StartRun` and `CreateJob` do not carry every field. The
outcome over gRPC is the in-process one exactly if no such value is stored or returned.
-/

namespace PrivaCloud.DataPlane

open Framework
open DataSpine (RunStatus)

/-- The optional fields of a record that the wire can tell from absent ones. -/
structure JobRunRecord.Plain (r : JobRunRecord) : Prop where
  durationMs : r.durationMs ≠ some 0
  errorMessage : r.errorMessage ≠ some ""
  numTurns : r.numTurns ≠ some 0
  resultSummary : r.resultSummary ≠ some ""
  sessionId : r.sessionId ≠ some ""

/-- The record as it comes out of a message. -/
def JobRunRecord.carried (r : JobRunRecord) : JobRunRecord :=
  { r with
    username := ""
    durationMs := zeroNone (orZero r.durationMs)
    errorMessage := truthy r.errorMessage
    numTurns := zeroNone (orZero r.numTurns)
    resultSummary := truthy r.resultSummary
    sessionId := truthy r.sessionId }

@[simp] theorem orNone_orEmpty (o : Option String) : orNone (orEmpty o) = truthy o := by
  cases o with
  | none => rfl
  | some s => rfl

@[simp] theorem parse_timeText (o : Option IsoTime) : IsoTime.parse (timeText o) = o := by
  cases o with
  | none => rfl
  | some t => exact t.parse_text

@[simp] theorem runFromPb_none : runFromPb (runPb none) = some none := rfl

section Runs

variable (s : Store) (now : IsoTime) (minted : Minted) (accountId : String) (r : JobRunRecord)

/-- The record that `StartRun` carries. -/
def JobRunRecord.started (r : JobRunRecord) : JobRunRecord where
  runId := r.runId
  jobId := r.jobId
  jobName := r.jobName
  username := ""
  startedAt := r.startedAt
  status := r.status
  sessionId := truthy r.sessionId
  errorMessage := truthy r.errorMessage

/-- The record that `FinishRun` carries. -/
def JobRunRecord.finished (r : JobRunRecord) : JobRunRecord :=
  { r.carried with jobId := "", jobName := "", startedAt := now }

end Runs

section Jobs

variable (s : Store) (now : IsoTime) (minted : Minted) (accountId : String)
  (d : ScheduledJobDefinition)

/-- A definition that the wire and `model_validate` leave as it is. -/
structure ScheduledJobDefinition.Plain : Prop where
  model : d.model ≠ some ""
  config : d.jobConfig = none → d.prompt = ""
  prompt : ∀ config, d.jobConfig = some (.agentRun config) → d.prompt = "" → config.prompt = ""

/-- The definition that a request for the job `jobId` carries. -/
def ScheduledJobDefinition.requested (jobId : String) : ScheduledJobDefinition :=
  ScheduledJobDefinition.modelValidate
    { d with id := jobId, model := truthy d.model, createdAt := now, updatedAt := now }

end Jobs

end PrivaCloud.DataPlane
