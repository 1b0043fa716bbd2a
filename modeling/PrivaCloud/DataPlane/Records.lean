import PrivaCloud.DataSpine.RunLedger
import PrivaCloud.Framework.Table

/-!
# Jobs and runs at the boundary of the data plane

The pydantic models of `priva_common.models.scheduler` and their rows in `data-spine`. A datetime is given by its
ISO text and a JSON column by its value: the same libraries write and read both on every path.
-/

namespace PrivaCloud.DataPlane

open Framework

/-- A datetime, by its ISO text. -/
structure IsoTime where
  text : String
  nonempty : text ≠ ""
  deriving DecidableEq

namespace IsoTime

def parse (text : String) : Option IsoTime := if h : text = "" then none else some ⟨text, h⟩

def ofText (text : String) : IsoTime := (parse text).getD ⟨"0", by decide⟩

@[simp] theorem parse_text (t : IsoTime) : parse t.text = some t := by
  simp [parse, t.nonempty]

@[simp] theorem parse_empty : parse "" = none := rfl

end IsoTime

structure IntervalTriggerConfig where
  weeks : Int := 0
  days : Int := 0
  hours : Int := 0
  minutes : Int := 0
  seconds : Int := 0
  deriving DecidableEq

inductive TriggerConfig
  | interval (config : IntervalTriggerConfig)
  | cron (expr : String)
  deriving DecidableEq

@[ext] structure AgentRunConfig where
  prompt : String
  model : Option String := none
  /-- a `FeishuCallbackConfig` has no content -/
  callback : Bool := false
  timeoutSeconds : Int := 1800
  maxTurns : Int := 50
  deriving DecidableEq

inductive HttpMethod
  | get
  | post
  | put
  | delete
  deriving DecidableEq

@[ext] structure HttpCallConfig where
  method : HttpMethod := .get
  url : String
  callback : Bool := false
  headers : List (String × String) := []
  body : Option String := none
  timeoutSeconds : Int := 30
  deriving DecidableEq

@[ext] structure UserScriptConfig where
  /-- `language` is `python`, else `shell` -/
  python : Bool := true
  /-- `source` is `inline`, else `file` -/
  inlined : Bool := false
  callback : Bool := false
  filePath : Option String := none
  script : Option String := none
  timeoutSeconds : Int := 300
  deriving DecidableEq

structure ToolRetryConfig where
  toolName : String
  /-- JSON -/
  toolInput : String
  sessionId : String := ""
  maxRetries : Int := 3
  intervalSeconds : Int := 30
  originalError : String := ""
  deriving DecidableEq

inductive JobConfig
  | agentRun (config : AgentRunConfig)
  | httpCall (config : HttpCallConfig)
  | userScript (config : UserScriptConfig)
  | toolRetry (config : ToolRetryConfig)
  deriving DecidableEq

inductive JobType
  | agentRun
  | httpCall
  | userScript
  | toolRetry
  deriving DecidableEq

def JobConfig.jobType : JobConfig → JobType
  | .agentRun _ => .agentRun
  | .httpCall _ => .httpCall
  | .userScript _ => .userScript
  | .toolRetry _ => .toolRetry

inductive JobStatus
  | active
  | paused
  deriving DecidableEq

namespace JobStatus

def text : JobStatus → String
  | .active => "active"
  | .paused => "paused"

/-- The `Literal` of the model. -/
def parse (text : String) : Option JobStatus :=
  if text = "active" then some .active else if text = "paused" then some .paused else none

@[simp] theorem parse_text (s : JobStatus) : parse s.text = some s := by cases s <;> rfl

@[simp] theorem text_ne_empty (s : JobStatus) : s.text ≠ "" := by cases s <;> decide

end JobStatus

structure ScheduledJobDefinition where
  id : String
  name : String
  prompt : String := ""
  trigger : TriggerConfig
  timezone : String
  status : JobStatus := .active
  model : Option String := none
  jobConfig : Option JobConfig := none
  createdAt : IsoTime
  updatedAt : IsoTime
  deriving DecidableEq

namespace ScheduledJobDefinition

/-- `job_config` after `_backcompat_prompt_to_config` -/
def validConfig (prompt : String) (model : Option String) : Option JobConfig → Option JobConfig
  | some config => some config
  | none => if prompt = "" then none else some (.agentRun { prompt := prompt, model := model })

/-- `prompt` after `_backcompat_prompt_to_config` -/
def validPrompt (prompt : String) : Option JobConfig → String
  | some (.agentRun config) => if prompt = "" then config.prompt else prompt
  | _ => prompt

def modelValidate (d : ScheduledJobDefinition) : ScheduledJobDefinition :=
  let config := validConfig d.prompt d.model d.jobConfig
  { d with jobConfig := config, prompt := validPrompt d.prompt config }

end ScheduledJobDefinition

end PrivaCloud.DataPlane

namespace PrivaCloud.DataSpine.RunStatus

def text : RunStatus → String
  | .running => "running"
  | .success => "success"
  | .error => "error"
  | .cancelled => "cancelled"
  | .skipped => "skipped"

/-- The `Literal` of the model. -/
def parse (text : String) : Option RunStatus :=
  if text = "running" then some .running
  else if text = "success" then some .success
  else if text = "error" then some .error
  else if text = "cancelled" then some .cancelled
  else if text = "skipped" then some .skipped
  else none

@[simp] theorem parse_text (s : RunStatus) : parse s.text = some s := by cases s <;> rfl

@[simp] theorem text_ne_empty (s : RunStatus) : s.text ≠ "" := by cases s <;> decide

end PrivaCloud.DataSpine.RunStatus

namespace PrivaCloud.DataPlane

open Framework
open DataSpine (RunStatus)

structure JobRunRecord where
  runId : String
  jobId : String
  jobName : String
  username : String
  startedAt : IsoTime
  finishedAt : Option IsoTime := none
  status : RunStatus := .running
  durationMs : Option Int := none
  isError : Bool := false
  errorMessage : Option String := none
  numTurns : Option Int := none
  resultSummary : Option String := none
  sessionId : Option String := none
  deriving DecidableEq

structure JobRow where
  jobId : String
  accountId : String
  name : String
  prompt : String
  trigger : TriggerConfig
  jobType : JobType
  jobConfig : Option JobConfig
  timezone : String
  model : Option String
  status : JobStatus
  createdAt : IsoTime
  updatedAt : IsoTime

structure RunRow where
  runId : String
  jobId : Option String
  jobName : String
  accountId : String
  sessionId : Option String
  startedAt : IsoTime
  finishedAt : Option IsoTime
  status : RunStatus
  durationMs : Option Int
  isError : Bool
  errorMessage : Option String
  numTurns : Option Int
  resultSummary : Option String
  deriving DecidableEq

end PrivaCloud.DataPlane
